import VegaRevenue.Lib.Interleave
import VegaRevenue.ToolGateway.Contract

/-!
# `ToolGateway`

`execute` over the idempotency table and a log of what the gateway did, one step for each call of a
port. `ToolGateway.call` is `execute`.

* `gates` — steps 1 to 6 of `execute`, which ask the registry, the policy, the approvals, the
  validator and the providers, and change nothing
* `next` — steps 7 to 15
-/

namespace VegaRevenue.ToolGateway

open Idempotency (Triple)

/-! ## Results -/

def terminal (request : ToolCallRequest) (status : ToolCallStatus) (error : ToolCallError) :
    ToolCallResult where
  toolCallId := request.toolCallId
  status := status
  output := none
  error := some error
  validation := ⟨decide (status ≠ .validationError), true, .notRun⟩
  provider := "tool-gateway"
  retryCount := 0
  auditId := ""

def buildResult (request : ToolCallRequest) (definition : ToolDefinition) (status : ToolCallStatus)
    (error : ToolCallError) (retryCount : Nat) (output : Option Json) : ToolCallResult where
  toolCallId := request.toolCallId
  status := status
  output := output
  error := if status = .success then none else some error
  validation := ⟨true, true, .notRun⟩
  provider := definition.providerId
  retryCount := retryCount
  auditId := ""

def ToolCallResult.audited (result : ToolCallResult) (auditId : String) : ToolCallResult :=
  { result with auditId := auditId }

/-! ## Authorization -/

def resolutionStatus : Unresolved → ToolCallStatus
  | .versionRequired | .notFound => .validationError
  | .shadowed | .ambiguous => .policyDenied
  | .notExecutable => .failed

/-- What the ports answer while the call is authorized. -/
structure Answers where
  resolution : ToolResolution
  policy : ToolPolicyDecision
  approval : ToolApproval
  hasProvider : Bool
  ready : Bool

/-- The ports that compute their answer, and the options of the store. -/
structure Deps where
  validate : Option Json → Json → ToolSchemaValidationResult
  store : Idempotency.Postgres.Config

/-- What an authorized call goes on with. -/
structure Grant where
  definition : ToolDefinition
  decision : Decision

/-- Step 2: the policy's refusals. -/
def authorize (request : ToolCallRequest) (definition : ToolDefinition)
    (policy : ToolPolicyDecision) : Option ToolCallResult :=
  if policy.decision = .deny then
    some (terminal request .policyDenied
      ⟨"POLICY_DENIED", policy.reason.getD "denied by policy", false⟩)
  else
    let missing := definition.requiredCapabilities.filter fun c => !policy.capabilities.contains c
    if missing ≠ [] then
      some (terminal request .unauthorized
        ⟨"CAPABILITY_DENIED", "missing capabilities: " ++ String.intercalate "," missing, false⟩)
    else if policy.autonomyAllowed = false then
      some (terminal request .policyDenied
        ⟨"AUTONOMY_DENIED", "autonomous invocation not permitted", false⟩)
    else none

/-- Step 3: exact approval binding. -/
def bindApproval (request : ToolCallRequest) (definition : ToolDefinition)
    (policy : ToolPolicyDecision) (approval : ToolApproval) : Option ToolCallResult :=
  if (definition.requiredApproval || policy.decision = .requireApproval) && !approval.approved then
    some (terminal request .policyDenied
      ⟨"APPROVAL_REQUIRED", approval.reason.getD "exact approval binding not satisfied", false⟩)
  else none

/-- Step 4: the input against its schema. -/
def validateInput (deps : Deps) (request : ToolCallRequest) (definition : ToolDefinition) :
    Option ToolCallResult :=
  match definition.inputSchema with
  | none => none
  | some schema =>
    let v := deps.validate request.input schema
    if v.valid then none
    else some (terminal request .validationError
      ⟨"INPUT_SCHEMA_VIOLATION", String.intercalate "; " v.violations, false⟩)

/-- Steps 5 and 6: a provider there is, and ready. -/
def requireProvider (request : ToolCallRequest) (definition : ToolDefinition) (answers : Answers) :
    Option ToolCallResult :=
  if answers.hasProvider = false then
    some (terminal request .failed
      ⟨"NO_PROVIDER", s!"no provider adapter for {definition.providerId}", false⟩)
  else if answers.ready = false then
    some (terminal request .failed
      ⟨"PROVIDER_NOT_READY", s!"provider {definition.providerId} not ready", true⟩)
  else none

/-- Steps 1 to 6: the first refusal, or a grant. -/
def gates (deps : Deps) (request : ToolCallRequest) (answers : Answers) :
    ToolCallResult ⊕ Grant :=
  match answers.resolution with
  | .unresolved kind reason =>
    .inl (terminal request (resolutionStatus kind) ⟨s!"RESOLUTION_{kind.text}", reason, false⟩)
  | .resolved definition =>
    match (authorize request definition answers.policy).or
        ((bindApproval request definition answers.policy answers.approval).or
          ((validateInput deps request definition).or
            (requireProvider request definition answers))) with
    | some refusal => .inl refusal
    | none => .inr ⟨definition, answers.policy.decision⟩

/-! ## The idempotency key -/

def idempotencyScope (request : ToolCallRequest) (definition : ToolDefinition) : String :=
  let action := request.action.getD "execute"
  s!"tool:{definition.toolId}:{action}"

/-- The record a call claims; none where the tool needs none, or the key is absent or empty. -/
def claimTriple? (request : ToolCallRequest) (definition : ToolDefinition) : Option Triple :=
  match request.idempotencyKey with
  | none => none
  | some key =>
    if definition.idempotencyRequired && key ≠ "" then
      some ⟨request.tenantId, idempotencyScope request definition, key⟩
    else none

/-! ## Attempts -/

/-- What a provider did: its outcome, and whether it submitted the request. A provider reports
`submitted = false` and `NOT_SUBMITTED` only for a request it did not submit. -/
structure ProviderAnswer where
  outcome : ToolProviderOutcome
  submitted : Bool
  honest : submitted = true → outcome.submitted = true ∧ outcome.errorCode ≠ some "NOT_SUBMITTED"

/-- How `provider.execute` ends. -/
inductive Execution where
  | answered (answer : ProviderAnswer)
  | threw (message : String)

/-- The request was submitted, or may have been. -/
def Execution.maySubmit : Execution → Bool
  | answered answer => answer.submitted
  | threw _ => true

/-- An exception of a provider is a possible submission, unless the tool only reads. -/
def exceptionOutcome (definition : ToolDefinition) (message : String) : ToolProviderOutcome where
  submitted := definition.sideEffectClass ≠ .readOnly
  resultKnown := false
  retryable := false
  failureClassification := some "PROVIDER_EXCEPTION"
  errorCode := some "PROVIDER_EXCEPTION"
  errorMessage := some message

/-- The outcome the gateway works with; `threw` is the second component. -/
def Execution.outcome (definition : ToolDefinition) : Execution → ToolProviderOutcome × Bool
  | answered answer => (answer.outcome, false)
  | threw message => (exceptionOutcome definition message, true)

def mapOutcomeStatus (outcome : ToolProviderOutcome) (threw : Bool) : ToolCallStatus :=
  if outcome.resultKnown && outcome.submitted && blank outcome.errorCode then .success
  else if outcome.submitted && !outcome.resultKnown then .outcomeUnknown
  else if threw && outcome.submitted then .outcomeUnknown
  else if outcome.errorCode = some "TIMEOUT" ∧ outcome.submitted ∧ !outcome.resultKnown then
    .outcomeUnknown
  else if outcome.errorCode = some "TIMEOUT" then .timeout
  else if outcome.errorCode = some "VALIDATION_ERROR" then .validationError
  else if outcome.errorCode = some "UNAUTHORIZED" then .unauthorized
  else if outcome.errorCode = some "POLICY_DENIED" then .policyDenied
  else if blank outcome.errorCode then .failed
  else .providerError

def maxAttempts (definition : ToolDefinition) : Int := max 1 (definition.maxRetries + 1)

def canRetry (outcome : ToolProviderOutcome) (definition : ToolDefinition) (attempt : Nat) : Bool :=
  if maxAttempts definition ≤ attempt then false
  else if !outcome.retryable then false
  else if definition.sideEffectClass = .readOnly then true
  else !outcome.submitted

/-- The result of one attempt. -/
def attemptResult (request : ToolCallRequest) (definition : ToolDefinition) (attempt : Nat)
    (outcome : ToolProviderOutcome) (threw : Bool) : ToolCallResult :=
  let status := mapOutcomeStatus outcome threw
  buildResult request definition status
    ⟨outcome.errorCode.getD (if status = .success then "OK" else "PROVIDER_ERROR"),
      outcome.errorMessage.getD "", outcome.retryable⟩ (attempt - 1) outcome.output

/-- The result where no attempt was made. -/
def noAttempt (request : ToolCallRequest) (definition : ToolDefinition) : ToolCallResult :=
  buildResult request definition .failed ⟨"NO_ATTEMPT", "no attempt executed", false⟩ 0 none

/-! ## What the store keeps -/

/-- The `submitted` of the stored payload. -/
def storedSubmitted (result : ToolCallResult) : Bool :=
  result.status = .success || result.error.map ToolCallError.code ≠ some "NOT_SUBMITTED"

/-- `JSON.stringify` of the stored payload. -/
def StoredOutcome (result : ToolCallResult) : Json :=
  .obj [("submitted", .bool (storedSubmitted result)), ("callResult", result.toJson)]

/-- What `persistClaimOutcome` sets; nothing where the claim stays PENDING. -/
def persistedStatus (result : ToolCallResult) : Option Idempotency.Status :=
  if result.status = .outcomeUnknown then none
  else if result.status = .success then some .completed
  else some .failed

/-- `existing.result.callResult` of a COMPLETED record, where it is truthy. -/
def completedResult (existing : Option Idempotency.RecordView) : Option Json :=
  (existing.filter fun v => v.status = .completed).bind fun v =>
    (v.result.bind (Json.member? "callResult")).filter truthy

def duplicateInFlight (request : ToolCallRequest) (definition : ToolDefinition) : ToolCallResult :=
  buildResult request definition .outcomeUnknown
    ⟨"DUPLICATE_IN_FLIGHT",
      "an existing logical side effect is unresolved; reconciliation required", false⟩ 0 none

/-- The violations of a result that is not accepted. -/
def outputViolations (deps : Deps) (definition : ToolDefinition) (result : ToolCallResult) :
    Option (List String) :=
  match definition.outputSchema with
  | none => none
  | some schema =>
    let v := deps.validate result.output schema
    if result.status = .success ∧ v.valid = false then some v.violations else none

/-! ## The world -/

inductive AttemptStatus where
  | completed
  | failed
  | outcomeUnknown
deriving DecidableEq

def attemptStatus : ToolCallStatus → AttemptStatus
  | .outcomeUnknown => .outcomeUnknown
  | .success => .completed
  | _ => .failed

/-- The `error` an invocation is completed with; the details are its message or its violations. -/
structure InvocationError where
  code : String
  details : List String

/-- What the gateway did, with the call that did it. -/
inductive Observed where
  | invocationCreated (call : Nat) (definition : ToolDefinition) (decision : Decision)
  | attemptStarted (call : Nat) (attempt : Nat)
  | executed (call : Nat) (definition : ToolDefinition) (execution : Execution)
  | attemptCompleted (call : Nat) (attempt : Nat) (status : AttemptStatus)
      (outcome : ToolProviderOutcome)
  | invocationCompleted (call : Nat) (status : Option Json) (error : Option InvocationError)

/-- The idempotency table, and what was done, the last first. -/
structure World where
  store : Idempotency.Postgres.Store
  log : List Observed

/-- The world with another table. -/
def World.keep (w : World) (store : Idempotency.Postgres.Store) : World := { w with store := store }

def World.record (w : World) (o : Observed) : World := { w with log := o :: w.log }

@[simp] theorem World.keep_store (w : World) (store : Idempotency.Postgres.Store) :
    (w.keep store).store = store := rfl

@[simp] theorem World.record_store (w : World) (o : Observed) : (w.record o).store = w.store := rfl

@[simp] theorem World.record_log (w : World) (o : Observed) : (w.record o).log = o :: w.log := rfl

/-- A step fails before it takes effect, or its effect is made and the call does not learn it. -/
inductive Fault where
  | before
  | lost
deriving DecidableEq

structure Input where
  answers : Answers
  execution : Execution
  auditId : String
  now : Idempotency.Clock
  fault : Option Fault

/-! ## Execution -/

/-- What a call does next. -/
inductive Pc where
  | start
  | createInvocation (grant : Grant)
  | claim (grant : Grant)
  | readExisting (grant : Grant) (key : Triple)
  | handleExistingClaim (grant : Grant) (existing : Option Idempotency.RecordView)
  | attempt (grant : Grant) (attempts : Nat) (last : Option ToolCallResult)
  | execute (grant : Grant) (attempt : Nat)
  | completeAttempt (grant : Grant) (attempt : Nat) (outcome : ToolProviderOutcome) (threw : Bool)
  | completeInvocation (grant : Grant) (result : ToolCallResult)
  | persist (grant : Grant) (result : ToolCallResult)
  | accept (grant : Grant) (result : ToolCallResult)
  | returned (result : ToolCallResult)
  | replayed (result : Json)
  | threw

/-- One step of call `i`, made by `request`. -/
def next (deps : Deps) (request : ToolCallRequest) (i : Nat) (input : Input) (w : World) :
    Pc → World × Pc
  | .start =>
    match gates deps request input.answers with
    | .inl refusal => (w, .returned refusal)
    | .inr grant => (w, .createInvocation grant)
  | .createInvocation grant =>
    (w.record (.invocationCreated i grant.definition grant.decision), .claim grant)
  | .claim grant =>
    match claimTriple? request grant.definition with
    | none => (w, .attempt grant 0 none)
    | some key =>
      let (store, answer) := Idempotency.Postgres.claim w.store key input.now
      (w.keep store,
        match answer with
        | .claimed true => .attempt grant 0 none
        | .claimed false => .readExisting grant key
        | _ => .threw)
  | .readExisting grant key =>
    match Idempotency.Postgres.get w.store key with
    | .record existing => (w, .handleExistingClaim grant existing)
    | _ => (w, .threw)
  | .handleExistingClaim grant existing =>
    match completedResult existing with
    | some callResult =>
      (w.record (.invocationCompleted i (callResult.member? "status") none),
        .replayed (withMember callResult "toolCallId" (.str request.toolCallId)))
    | none =>
      (w.record (.invocationCompleted i (some (.str ToolCallStatus.outcomeUnknown.text))
          (some ⟨"DUPLICATE_IN_FLIGHT", ["prior side-effect claim unresolved"]⟩)),
        .returned (duplicateInFlight request grant.definition))
  | .attempt grant attempts last =>
    if (attempts : Int) < maxAttempts grant.definition then
      (w.record (.attemptStarted i (attempts + 1)), .execute grant (attempts + 1))
    else (w, .completeInvocation grant (last.getD (noAttempt request grant.definition)))
  | .execute grant attempt =>
    (w.record (.executed i grant.definition input.execution),
      .completeAttempt grant attempt (input.execution.outcome grant.definition).1
        (input.execution.outcome grant.definition).2)
  | .completeAttempt grant attempt outcome threw =>
    let result := attemptResult request grant.definition attempt outcome threw
    (w.record (.attemptCompleted i attempt (attemptStatus result.status) outcome),
      if result.status ≠ .success ∧ canRetry outcome grant.definition attempt then
        .attempt grant attempt (some result)
      else .completeInvocation grant result)
  | .completeInvocation grant result =>
    (w.record (.invocationCompleted i (some (.str result.status.text))
        (result.error.map fun e => ⟨e.code, [e.message]⟩)), .persist grant result)
  | .persist grant result =>
    match claimTriple? request grant.definition, persistedStatus result with
    | some key, some status =>
      let (store, answer) := Idempotency.Postgres.set deps.store w.store key (StoredOutcome result)
        { status := some status } input.now
      (w.keep store,
        match answer with
        | .stored => .accept grant result
        | _ => .threw)
    | _, _ => (w, .accept grant result)
  | .accept grant result =>
    match outputViolations deps grant.definition result with
    | some violations =>
      (w.record (.invocationCompleted i (some (.str ToolCallStatus.validationError.text))
          (some ⟨"OUTPUT_SCHEMA_VIOLATION", violations⟩)),
        .returned (buildResult request grant.definition .validationError
          ⟨"OUTPUT_SCHEMA_VIOLATION", String.intercalate "; " violations, false⟩
          result.retryCount none))
    | none => (w, .returned (result.audited input.auditId))
  | .returned result => (w, .returned result)
  | .replayed result => (w, .replayed result)
  | .threw => (w, .threw)

-- The equations of the step are made here, for all the proofs that unfold it.
section
attribute [local simp] next
end

/-- Where a call stands after a fault: a call that has ended stays as it is. -/
def Pc.faulted : Pc → Pc
  | .returned result => .returned result
  | .replayed result => .replayed result
  | _ => .threw

/-- One step of a call, under the faults of its input. -/
def step (deps : Deps) (requests : Nat → ToolCallRequest) : Interleave.Stepper World Pc Input :=
  fun i input w p =>
    match input.fault with
    | none => next deps (requests i) i input w p
    | some .before => (w, p.faulted)
    | some .lost => ((next deps (requests i) i input w p).1, p.faulted)

/-- No call has started, over any table. -/
def initial (store : Idempotency.Postgres.Store) : Interleave.Config World Pc :=
  ⟨⟨store, []⟩, fun _ => .start⟩

end VegaRevenue.ToolGateway
