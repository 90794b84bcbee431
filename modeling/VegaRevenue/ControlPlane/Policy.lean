import Mathlib.Order.Bounds.Basic
import Mathlib.Order.Nat
import VegaRevenue.Shared.Number
import VegaRevenue.Shared.Text

/-!
# Policy evaluation

The outcomes of the control plane in their order of restriction, the query that finds the rules for
a request, the ceiling of an autonomy level, and `PolicyEvaluationService.evaluate`.
-/

namespace VegaRevenue.ControlPlane

/-! ## Outcomes -/

inductive PolicyOutcome where
  | allow
  | requireApproval
  | deny
deriving DecidableEq

/-- `OUTCOME_PRECEDENCE`. -/
def PolicyOutcome.precedence : PolicyOutcome → Nat
  | deny => 2
  | requireApproval => 1
  | allow => 0

theorem PolicyOutcome.precedence_injective : Function.Injective PolicyOutcome.precedence := by
  intro a b h
  cases a <;> cases b <;> first | rfl | cases h

/-- ALLOW < REQUIRE_APPROVAL < DENY. -/
instance : LinearOrder PolicyOutcome :=
  LinearOrder.lift' PolicyOutcome.precedence PolicyOutcome.precedence_injective

def tightenOutcome (a b : PolicyOutcome) : PolicyOutcome :=
  if b.precedence ≤ a.precedence then a else b

/-- The tighter outcome is the larger one. -/
theorem tightenOutcome_eq_max (a b : PolicyOutcome) : tightenOutcome a b = max a b := by
  cases a <;> cases b <;> rfl

/-! ## Rules -/

inductive Scope where
  | system
  | tenant
  | mission
  | agent
  | action
deriving DecidableEq

/-- `SCOPE_ORDER`. -/
def Scope.order : Scope → Nat
  | system => 0
  | tenant => 1
  | mission => 2
  | agent => 3
  | action => 4

structure PolicyRule where
  policyId : String
  tenantId : Option String
  scope : Scope
  missionId : Option String
  agentId : Option String
  capability : Option String
  toolId : Option String
  riskCategory : Option String
  outcome : PolicyOutcome
  policyVersion : String
  priority : Int

/-- A row of `control_plane.policies`. -/
structure PolicyRow extends PolicyRule where
  isSystem : Bool

structure AutonomyRule where
  ruleId : String
  tenantId : String
  level : Int
  riskCategory : String
  requiredOutcome : PolicyOutcome
  confidenceThreshold : Rat

def mergePolicyOutcomes (rules : List PolicyRule) : PolicyOutcome :=
  (rules.mergeSort fun a b => a.scope.order ≤ b.scope.order).foldl
    (fun ceiling rule => tightenOutcome ceiling rule.outcome) .allow

/-- The ceiling of an autonomy level. -/
def evaluateAutonomy (level : JsNumber) (riskCategory : String) (confidence : JsNumber)
    (policyCeiling : PolicyOutcome) : PolicyOutcome :=
  if policyCeiling = .deny then .deny
  else if level.lt (.finite 0) || (JsNumber.finite 5).lt level || !level.isInteger then .deny
  else if ["HIGH", "CRITICAL"].contains (toUpperCase riskCategory) && level.lt (.finite 4) then
    tightenOutcome policyCeiling .requireApproval
  else if level.lt (.finite 2) then tightenOutcome policyCeiling .requireApproval
  else if confidence.lt (.finite (1 / 2)) then tightenOutcome policyCeiling .requireApproval
  else policyCeiling

/-! ## Requests -/

/-- `toolId` is `metadata.toolId`, which a tool call sets. -/
structure AIExecutionRequest where
  executionId : String
  tenantId : String
  missionId : String
  agentId : String
  agentVersion : String
  taskType : String
  capabilities : List String
  autonomyLevel : JsNumber
  riskCategory : String
  toolId : Option String

structure PolicyDecision where
  tenantId : String
  missionId : String
  agentId : String
  agentVersion : String
  capability : Option String
  action : String
  outcome : PolicyOutcome
  capabilities : List String
  autonomyLevel : JsNumber
  riskCategory : String
  executionId : String
  policyVersion : String

/-- `column IS NULL OR column = value`. -/
def unsetOr (column : Option String) (value : String) : Bool := column.all (· = value)

/-- The `WHERE` of `findRules`, and the row security of the table. -/
def PolicyRow.selected (row : PolicyRow) (tenantId : String) (request : AIExecutionRequest) : Bool :=
  (row.isSystem || row.tenantId = some tenantId) &&
    unsetOr row.missionId request.missionId &&
    unsetOr row.agentId request.agentId &&
    row.capability.all (request.capabilities.contains ·) &&
    unsetOr row.riskCategory request.riskCategory

/-- `ORDER BY priority, policy_id`, under the collation of the database. -/
def byPriority (collation : String → String → Bool) (a b : PolicyRow) : Bool :=
  a.priority < b.priority || a.priority = b.priority && collation a.policyId b.policyId

def findRules (collation : String → String → Bool) (tenantId : String)
    (request : AIExecutionRequest) (table : List PolicyRow) : List PolicyRule :=
  ((table.filter fun row => row.selected tenantId request).mergeSort (byPriority collation)).map
    PolicyRow.toPolicyRule

/-! ## Evaluation -/

/-- What `isStopped` answers. -/
inductive StopAnswer where
  | stopped (active : Bool)
  | failed
deriving DecidableEq

def buildDecision (request : AIExecutionRequest) (outcome : PolicyOutcome) (reason : Option String) :
    PolicyDecision where
  tenantId := request.tenantId
  missionId := request.missionId
  agentId := request.agentId
  agentVersion := request.agentVersion
  capability := request.capabilities.head?
  action := request.taskType
  outcome := outcome
  capabilities := request.capabilities
  autonomyLevel := request.autonomyLevel
  riskCategory := request.riskCategory
  executionId := request.executionId
  policyVersion := reason.getD "1.0.0"

/-- The stored rules, the request, and what the other repositories answer. -/
structure Situation where
  request : AIExecutionRequest
  stop : StopAnswer
  table : List PolicyRow
  autonomyRule : Option AutonomyRule

/-- `evaluate` in the context of `tenantId`; a request of another tenant is refused. -/
def evaluate (collation : String → String → Bool) (tenantId : String) (x : Situation) :
    Except String PolicyDecision :=
  if tenantId ≠ x.request.tenantId then .error "Cross-tenant access detected"
  else match x.stop with
  | .failed => .ok (buildDecision x.request .deny (some "emergency-stop-state-unknown"))
  | .stopped true => .ok (buildDecision x.request .deny (some "emergency-stop-active"))
  | .stopped false =>
    let rules := findRules collation tenantId x.request x.table
    let policyCeiling := if rules.length = 0 then .allow else mergePolicyOutcomes rules
    let baseOutcome :=
      evaluateAutonomy x.request.autonomyLevel x.request.riskCategory (.finite 1) .allow
    let targetOutcome := match x.autonomyRule with
      | some rule => tightenOutcome baseOutcome rule.requiredOutcome
      | none => baseOutcome
    .ok (buildDecision x.request (tightenOutcome policyCeiling targetOutcome) none)

end VegaRevenue.ControlPlane
