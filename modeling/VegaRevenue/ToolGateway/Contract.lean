import VegaRevenue.Idempotency.Postgres
import VegaRevenue.Shared.Number
import VegaRevenue.Shared.Result

/-!
# The tool contract

Requests, definitions, provider outcomes and results of tool calls, and the JSON a result is
stored as.
-/

namespace VegaRevenue.ToolGateway

inductive ToolCallStatus where
  | success
  | validationError
  | providerError
  | timeout
  | unauthorized
  | policyDenied
  | outcomeUnknown
  | failed
deriving DecidableEq

inductive ToolSideEffectClass where
  | readOnly
  | reversibleWrite
  | irreversibleExternal
deriving DecidableEq

/-- `action` and `autonomyLevel` are of `metadata`, `capabilities` are of `authorization`. -/
structure ToolCallRequest where
  toolCallId : String
  tenantId : String
  missionId : Option String
  executionId : Option String
  agentId : Option String
  agentVersion : Option String
  capabilities : List String
  idempotencyKey : Option String
  action : Option String
  autonomyLevel : Option JsNumber
  input : Option Json

/-- The schemas are `jsonb` columns of the registry. -/
structure ToolDefinition where
  toolDefinitionId : String
  toolId : String
  version : String
  inputSchema : Option Json
  outputSchema : Option Json
  requiredCapabilities : List String
  sideEffectClass : ToolSideEffectClass
  riskCategory : String
  requiredApproval : Bool
  providerId : String
  maxRetries : Int
  idempotencyRequired : Bool

structure ToolProviderOutcome where
  submitted : Bool
  resultKnown : Bool
  retryable : Bool
  failureClassification : Option String := none
  providerRequestId : Option String := none
  output : Option Json := none
  errorCode : Option String := none
  errorMessage : Option String := none

structure ToolCallError where
  code : String
  message : String
  retryable : Bool
deriving DecidableEq

inductive PiiCheck where
  | passed
  | failed
  | notRun
deriving DecidableEq

structure ToolValidation where
  schemaValid : Bool
  tenantIsolationCheck : Bool
  piiCheck : PiiCheck
deriving DecidableEq

structure ToolCallResult where
  toolCallId : String
  status : ToolCallStatus
  output : Option Json
  error : Option ToolCallError
  validation : ToolValidation
  provider : String
  retryCount : Nat
  auditId : String

structure ToolSchemaValidationResult where
  valid : Bool
  violations : List String

/-! ## Answers of the ports of the gateway -/

/-- The `kind` of an answer of `resolveExecutable` that resolved no definition. -/
inductive Unresolved where
  | notFound
  | shadowed
  | notExecutable
  | versionRequired
  | ambiguous
deriving DecidableEq

inductive ToolResolution where
  | resolved (definition : ToolDefinition)
  | unresolved (kind : Unresolved) (reason : String)

inductive Decision where
  | allow
  | requireApproval
  | deny
deriving DecidableEq

structure ToolPolicyDecision where
  decision : Decision
  capabilities : List String
  autonomyAllowed : Bool
  reason : Option String

structure ToolApproval where
  approved : Bool
  reason : Option String

/-! ## JSON -/

def ToolCallStatus.text : ToolCallStatus → String
  | success => "SUCCESS"
  | validationError => "VALIDATION_ERROR"
  | providerError => "PROVIDER_ERROR"
  | timeout => "TIMEOUT"
  | unauthorized => "UNAUTHORIZED"
  | policyDenied => "POLICY_DENIED"
  | outcomeUnknown => "OUTCOME_UNKNOWN"
  | failed => "FAILED"

/-- `kind.toUpperCase()`. -/
def Unresolved.text : Unresolved → String
  | notFound => "NOT_FOUND"
  | shadowed => "SHADOWED"
  | notExecutable => "NOT_EXECUTABLE"
  | versionRequired => "VERSION_REQUIRED"
  | ambiguous => "AMBIGUOUS"

def PiiCheck.text : PiiCheck → String
  | passed => "PASSED"
  | failed => "FAILED"
  | notRun => "NOT_RUN"

/-- The members that are not `undefined`. -/
def definedMembers (members : List (String × Option Json)) : List (String × Json) :=
  members.filterMap fun m => m.2.map fun v => (m.1, v)

def ToolCallError.toJson (e : ToolCallError) : Json :=
  .obj [("code", .str e.code), ("message", .str e.message), ("retryable", .bool e.retryable)]

def ToolValidation.toJson (v : ToolValidation) : Json :=
  .obj [("piiCheck", .str v.piiCheck.text), ("schemaValid", .bool v.schemaValid),
    ("tenantIsolationCheck", .bool v.tenantIsolationCheck)]

def ToolCallResult.toJson (r : ToolCallResult) : Json :=
  .obj (definedMembers [("error", r.error.map ToolCallError.toJson), ("output", r.output),
    ("status", some (.str r.status.text)), ("auditId", some (.str r.auditId)),
    ("provider", some (.str r.provider)), ("retryCount", some (.num r.retryCount)),
    ("toolCallId", some (.str r.toolCallId)), ("validation", some r.validation.toJson)])

/-- `if (v)` on a value that is not `undefined`. -/
def truthy : Json → Bool
  | .null => false
  | .bool b => b
  | .num q => q ≠ 0
  | .str s => s ≠ ""
  | _ => true

/-- `{ ...v, [name]: value }`; only an object has members to spread. -/
def withMember (v : Json) (name : String) (value : Json) : Json :=
  match v with
  | .obj members =>
    if members.any fun m => m.1 = name then
      .obj (members.map fun m => if m.1 = name then (name, value) else m)
    else .obj (members ++ [(name, value)])
  | _ => .obj [(name, value)]

end VegaRevenue.ToolGateway
