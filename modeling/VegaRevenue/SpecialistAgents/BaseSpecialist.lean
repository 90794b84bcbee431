import VegaRevenue.AiRuntime.Reasoning

/-!
# Specialists

`BaseSpecialist.execute`: what the specialists have in common. A specialist that makes no model call
leaves what the execution consumed as it is.

* `execute_ok` — its result has the usage of the reasoning
* `execute_budgetConsumed` — it consumes nothing itself
-/

namespace VegaRevenue.SpecialistAgents

open AiRuntime
open MissionExecution (ExecutionOutcome)

/-- A specialist derived from `BaseSpecialist` that makes no model call. -/
structure BaseSpecialist where
  implementationKey : String
  capabilities : List String
  /-- The clock before `executeCore`. -/
  completedAt : AIExecutionRequest → Date
  executeCore : AIExecutionRequest → AgentImplementationRuntime →
    ExecutionState × Except String ExecutionOutcome
  makesNoModelCall : ∀ request runtime,
    (executeCore request runtime).1.budgetConsumed = runtime.executionState.budgetConsumed

namespace BaseSpecialist

variable (specialist : BaseSpecialist) (request : AIExecutionRequest)
  (runtime : AgentImplementationRuntime)

/-- A request that names no capability is taken to ask for all of them. -/
def missing : List String :=
  let required :=
    if 0 < request.capabilities.length then request.capabilities else specialist.capabilities
  required.filter fun cap => !specialist.capabilities.contains cap

def validateRequest : Except String Unit :=
  let missing := specialist.missing request
  if 0 < missing.length then
    .error (s!"Specialist {specialist.implementationKey} cannot satisfy capabilities: " ++
      ", ".intercalate missing)
  else .ok ()

def buildResult (outcome : ExecutionOutcome) : AIExecutionResult where
  executionId := request.executionId
  status := .completed
  outcome := outcome
  modelUsage :=
    runtime.reasoningOutput.modelUsage.getD ⟨"slice-4-deterministic", 0, 0, 0, none, none⟩
  startedAt := runtime.startedAt
  completedAt := specialist.completedAt request

def execute : ExecutionState × Except String AIExecutionResult :=
  match specialist.validateRequest request with
  | .error message => (runtime.executionState, .error message)
  | .ok _ =>
    let (state, outcome) := specialist.executeCore request runtime
    (state, outcome.map (specialist.buildResult request runtime))


theorem execute_budgetConsumed :
    (specialist.execute request runtime).1.budgetConsumed =
      runtime.executionState.budgetConsumed := by
  unfold execute
  cases specialist.validateRequest request with
  | error message => rfl
  | ok _ => exact specialist.makesNoModelCall request runtime

variable {specialist request runtime}

/-- **The usage of a result is the one the reasoning reported.** -/
theorem execute_ok {state : ExecutionState} {result : AIExecutionResult}
    (h : specialist.execute request runtime = (state, .ok result)) :
    result.modelUsage.charge = runtime.reasoningOutput.usage.charge := by
  unfold execute at h
  cases hvalid : specialist.validateRequest request with
  | error message =>
    rw [hvalid] at h
    cases h
  | ok _ =>
    rw [hvalid] at h
    dsimp only at h
    cases houtcome : (specialist.executeCore request runtime).2 with
    | error message =>
      rw [houtcome] at h
      cases h
    | ok outcome =>
      rw [houtcome] at h
      cases h
      unfold buildResult ReasoningOutput.usage
      cases runtime.reasoningOutput.modelUsage <;> rfl

end BaseSpecialist

end VegaRevenue.SpecialistAgents
