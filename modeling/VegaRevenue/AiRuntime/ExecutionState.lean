import VegaRevenue.ControlPlane.AgentVersions
import VegaRevenue.ControlPlane.Policy
import VegaRevenue.MissionExecution.Engine

/-!
# The state of an execution

What one execution of an agent is asked for, what it consumed and how it failed. Of a checkpoint
the step and the status are kept.
-/

namespace VegaRevenue.AiRuntime

open MissionExecution (AIExecutionStatus ExecutionOutcome)

structure ExecutionBudget where
  maxTokens : Rat
  maxCostUsd : Rat
  maxDurationSeconds : Rat
deriving DecidableEq

structure ModelUsage where
  model : String
  inputTokens : Rat
  outputTokens : Rat
  costUsd : Rat
  provider : Option String := none
  latencyMs : Option Rat := none
deriving DecidableEq

structure AIExecutionRequest extends ControlPlane.AIExecutionRequest where
  taskId : String
  budget : ExecutionBudget
  deadline : Option Date
  idempotencyKey : String

structure AIExecutionResult extends MissionExecution.AIExecutionResult where
  modelUsage : ModelUsage
  startedAt : Date
  completedAt : Date

inductive FailureClassification where
  | transientProviderError
  | timeout
  | policyDenied
  | validationError
  | toolFailure
  | malformedOutput
  | budgetExhausted
  | authorizationFailure
  | tenantContextFailure
  | nonRetryableBusinessFailure
deriving DecidableEq

/-- Its code is its classification. -/
structure ExecutionFailure where
  message : String
  retryable : Bool
  classification : FailureClassification
deriving DecidableEq

structure ExecutionState where
  executionId : String
  tenantId : String
  missionId : String
  taskId : String
  agentId : String
  status : AIExecutionStatus := .pending
  currentStep : Nat := 0
  checkpoints : List (Nat × AIExecutionStatus) := []
  budgetConsumed : ExecutionBudget := ⟨0, 0, 0⟩
  /-- The tool calls with the texts of their statuses. -/
  toolExecutionHistory : List (String × String) := []
  failure : Option ExecutionFailure := none

namespace ExecutionState

/-- `new ExecutionState(…)`. -/
def ofRequest (request : AIExecutionRequest) : ExecutionState where
  executionId := request.executionId
  tenantId := request.tenantId
  missionId := request.missionId
  taskId := request.taskId
  agentId := request.agentId

def checkpoint (s : ExecutionState) (status : AIExecutionStatus) : ExecutionState :=
  { s with checkpoints := s.checkpoints ++ [(s.currentStep, status)] }

def transition (s : ExecutionState) (status : AIExecutionStatus) : ExecutionState :=
  checkpoint { s with status } status

def consumeBudget (s : ExecutionState) (tokens costUsd durationSeconds : Rat) : ExecutionState :=
  { s with budgetConsumed := {
      maxTokens := s.budgetConsumed.maxTokens + tokens
      maxCostUsd := s.budgetConsumed.maxCostUsd + costUsd
      maxDurationSeconds := s.budgetConsumed.maxDurationSeconds + durationSeconds } }

def isWithinBudget (s : ExecutionState) (budget : ExecutionBudget) : Bool :=
  s.budgetConsumed.maxTokens ≤ budget.maxTokens &&
    s.budgetConsumed.maxCostUsd ≤ budget.maxCostUsd &&
    s.budgetConsumed.maxDurationSeconds ≤ budget.maxDurationSeconds

def markFailure (s : ExecutionState) (failure : ExecutionFailure) : ExecutionState :=
  checkpoint { s with failure := some failure, status := .failed } .failed

@[simp] theorem transition_status (s : ExecutionState) (status : AIExecutionStatus) :
    (s.transition status).status = status := rfl

@[simp] theorem transition_budgetConsumed (s : ExecutionState) (status : AIExecutionStatus) :
    (s.transition status).budgetConsumed = s.budgetConsumed := rfl

@[simp] theorem markFailure_budgetConsumed (s : ExecutionState) (failure : ExecutionFailure) :
    (s.markFailure failure).budgetConsumed = s.budgetConsumed := rfl

end ExecutionState

end VegaRevenue.AiRuntime
