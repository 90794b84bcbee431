import VegaRevenue.AiRuntime.ExecutionState
import VegaRevenue.Lib.Programs

/-!
# The agent executor

`AgentExecutor.execute` as a program over the state of the execution and a log of the calls it
makes. What the dependencies answer is a function of what they are asked; an answer that is an
error is the message the call throws, its telemetry span included.

* `govern`, `infer`, `act` — the parts of `execute`: up to the approval, up to the reasoning, and
  the rest
* `execute` — with the handler of what they throw
-/

namespace VegaRevenue.AiRuntime

open MissionExecution (AIExecutionStatus ExecutionOutcome)
open ControlPlane (PolicyOutcome AgentLifecycle)
open Programs

/-! ## What the dependencies are asked and answer -/

/-- An agent with the capabilities of its contract. -/
structure ResolvedAgent where
  version : String
  lifecycle : AgentLifecycle
  implementationKey : String
  capabilities : List String

structure PolicyDecision where
  decisionId : String
  outcome : PolicyOutcome
  action : Option String
  capabilities : List String

structure ExecutionApprovalBinding where
  executionId : String
  idempotencyKey : String
  actionType : Option String

structure ExecutionApprovalEvidence where
  approvalId : String
  status : String
  validation : String

/-- `IExecutionApprovalBinding`; the second method is optional. -/
structure ApprovalBinding where
  hasValidApproval : ExecutionApprovalBinding → Except String Bool
  resolveValidApproval :
    Option (ExecutionApprovalBinding → Except String (Option ExecutionApprovalEvidence)) := none

structure PromptContext where
  userMessage : String
  toolsAvailable : List String
  memoryContext : Option (List String) := none
  knowledgeContext : Option (List String) := none
  modelFamily : Option String := none
  maxTokens : Option Rat := none
deriving DecidableEq

structure ReasoningRequest where
  execution : AIExecutionRequest
  promptContext : PromptContext
  observations : List String
  remainingBudget : ExecutionBudget

structure ProposedAction where
  actionId : String
  capability : String
  toolId : String
  toolVersion : String
  input : Json
  rationale : String
  riskCategory : String

structure ReasoningOutput where
  rationale : String
  conclusion : String
  confidence : Rat
  evidence : List String
  requiredApprovals : Option (List String) := none
  proposedActions : Option (List ProposedAction) := none
  assumptions : Option (List String) := none
  modelUsage : Option ModelUsage := none

structure DecisionRequest where
  execution : AIExecutionRequest
  reasoning : ReasoningOutput
  policyDecision : PolicyDecision

structure DecisionOutput where
  outcome : PolicyOutcome
  allowedCapabilities : List String
  requiredApprovals : List String
  rationale : String

/-- What a specialist is handed beside the request. -/
structure AgentImplementationRuntime where
  agent : ResolvedAgent
  promptContext : PromptContext
  executionState : ExecutionState
  reasoningOutput : ReasoningOutput
  startedAt : Date

/-- A specialist answers or throws, and may move the state of the execution. -/
abbrev AgentImplementation :=
  AIExecutionRequest → AgentImplementationRuntime → ExecutionState × Except String AIExecutionResult

/-- When the clock is read. -/
inductive Moment where
  | started
  | reasoningStarted
  | reasoningCompleted
  | completed
deriving DecidableEq

structure AgentExecutorDeps where
  clock : Moment → Date
  /-- The message a save throws with. -/
  saveCheckpoint : ExecutionState → Option String
  getAgent : AIExecutionRequest → Except String (Option ResolvedAgent)
  evaluate : AIExecutionRequest → Except String PolicyDecision
  approvalBinding : Option ApprovalBinding
  assemble : AIExecutionRequest → Except String PromptContext
  reason : ReasoningRequest → Except String ReasoningOutput
  decide : DecisionRequest → Except String DecisionOutput
  resolve : (implementationKey : String) → Except String (Option AgentImplementation)

/-! ## Programs -/

/-- The calls an execution makes. -/
inductive Effect where
  | saveCheckpoint (status : AIExecutionStatus)
  | getAgent
  | evaluatePolicy
  | resolveApproval
  | assembleContext
  | reason (request : ReasoningRequest)
  | decide
  | resolveImplementation
  | executeSpecialist

structure Log where
  state : ExecutionState
  effects : List Effect

/-- An execution ends early with a result, or throws. -/
inductive Exit where
  | returned (result : AIExecutionResult)
  | threw (message : String)

abbrev Exec (A : Type) := Prog Log Exit A

def Log.add (log : Log) (effect : Effect) : Log := { log with effects := log.effects ++ [effect] }

def Log.onState (log : Log) (f : ExecutionState → ExecutionState) : Log :=
  { log with state := f log.state }

/-- The answer of a dependency. -/
def answered {A : Type} : Except String A → Exec A
  | .ok a => pure a
  | .error message => throw (.threw message)

def call {A : Type} (effect : Effect) (answer : Except String A) : Exec A := do
  modify (·.add effect)
  answered answer

def onState (f : ExecutionState → ExecutionState) : Exec Unit := modify (·.onState f)

section Parts

variable (deps : AgentExecutorDeps) (request : AIExecutionRequest)

def saveCheckpoint : Exec Unit := do
  let log ← get
  modify (·.add (.saveCheckpoint log.state.status))
  match deps.saveCheckpoint log.state with
  | some message => throw (.threw message)
  | none => pure ()

def outcomeText : PolicyOutcome → String
  | .allow => "ALLOW"
  | .requireApproval => "REQUIRE_APPROVAL"
  | .deny => "DENY"

/-- The entry of a policy decision among the decisions of a result. -/
def PolicyDecision.entry (decision : PolicyDecision) : List (String × Json) :=
  [("policyDecisionId", .str decision.decisionId), ("outcome", .str (outcomeText decision.outcome))]

def result (state : ExecutionState) (status : AIExecutionStatus) (summary : String)
    (policyDecision : PolicyDecision) (evidence : List String) (modelUsage : Option ModelUsage) :
    AIExecutionResult where
  executionId := state.executionId
  status := status
  outcome := {
    summary
    decisions := [.obj policyDecision.entry]
    actions := state.toolExecutionHistory.map fun r =>
      .obj [("toolCallId", .str r.1), ("status", .str r.2)]
    evidence := evidence.map .str }
  modelUsage := modelUsage.getD {
    model := "unknown", inputTokens := state.budgetConsumed.maxTokens, outputTokens := 0
    costUsd := state.budgetConsumed.maxCostUsd }
  startedAt := deps.clock .started
  completedAt := deps.clock .completed

/-- The failure of an execution; whether its checkpoint is saved is not looked at. -/
def failed (log : Log) (classification : FailureClassification) (message : String)
    (policyDecision : PolicyDecision) (modelUsage : Option ModelUsage) :
    Log × AIExecutionResult :=
  let state := log.state.markFailure { message, retryable := false, classification }
  (Log.add { log with state } (.saveCheckpoint .failed),
    result deps state .failed message policyDecision [] modelUsage)

def fail {A : Type} (classification : FailureClassification) (message : String)
    (policyDecision : PolicyDecision) (modelUsage : Option ModelUsage) : Exec A := do
  let (log, answer) := failed deps (← get) classification message policyDecision modelUsage
  set log
  throw (.returned answer)

def awaitApproval {A : Type} (summary : String) (policyDecision : PolicyDecision)
    (evidence : List String) (modelUsage : Option ModelUsage) : Exec A := do
  onState (·.transition .awaitingApproval)
  saveCheckpoint deps
  let log ← get
  throw (.returned
    (result deps log.state .awaitingApproval summary policyDecision evidence modelUsage))

/-! ### Up to the approval -/

def checkDeadline (deadline : Option Date) (startedAt : Date) : Exec Unit :=
  if deadline.any (· < startedAt) then throw (.threw "Execution deadline has already passed")
  else pure ()

def checkBudget (budget : ExecutionBudget) : Exec Unit :=
  if budget.maxCostUsd ≤ 0 then throw (.threw "budget exhausted (cost)")
  else if budget.maxTokens ≤ 0 then throw (.threw "budget exhausted (tokens)")
  else if budget.maxDurationSeconds ≤ 0 then throw (.threw "budget exhausted (time)")
  else pure ()

/-- An empty version is no version. -/
def requireAgent : Exec ResolvedAgent := do
  match ← call .getAgent (deps.getAgent request) with
  | none => throw (.threw s!"Agent {request.agentId} not found")
  | some agent =>
    if agent.lifecycle ≠ .active ∧ agent.lifecycle ≠ .approved then
      throw (.threw s!"Agent {request.agentId} is not active")
    else if request.agentVersion ≠ "" ∧ agent.version ≠ request.agentVersion then
      throw (.threw (s!"Agent {request.agentId} version mismatch: expected " ++
        s!"{request.agentVersion}, got {agent.version}"))
    else pure agent

def validateCapabilities (agent : ResolvedAgent) (required : List String) : Exec Unit :=
  let missing := required.filter fun cap => !agent.capabilities.contains cap
  if 0 < missing.length then
    throw (.threw ("Missing capabilities: " ++ ", ".intercalate missing))
  else pure ()

/-- The keys under which an approval is looked up. -/
def approvalKeys (policyDecision : PolicyDecision) : ExecutionApprovalBinding where
  executionId := request.executionId
  idempotencyKey := request.idempotencyKey
  actionType := policyDecision.action

def resolveApproval (binding : Option ApprovalBinding) (keys : ExecutionApprovalBinding) :
    Except String (Option ExecutionApprovalEvidence) :=
  match binding with
  | none => .ok none
  | some b =>
    match b.resolveValidApproval with
    | some resolveValidApproval => resolveValidApproval keys
    | none => (b.hasValidApproval keys).map fun valid =>
      if valid then some ⟨"unknown", "APPROVED", "valid"⟩ else none

/-- What the checks before a model call leave. -/
structure Governance where
  agent : ResolvedAgent
  policyDecision : PolicyDecision
  approvalEvidence : Option ExecutionApprovalEvidence

/-- The decision the rest of the execution is given: an approval that was found makes it ALLOW. -/
def Governance.effectivePolicyDecision (g : Governance) : PolicyDecision :=
  match g.approvalEvidence with
  | some _ => { g.policyDecision with outcome := .allow }
  | none => g.policyDecision

def govern : Exec Governance := do
  checkDeadline request.deadline (deps.clock .started)
  checkBudget request.budget
  let agent ← requireAgent deps request
  validateCapabilities agent request.capabilities
  let policyDecision ← call .evaluatePolicy (deps.evaluate request)
  match policyDecision.outcome with
  | .deny =>
    fail deps .policyDenied "Policy denied the execution before any model invocation"
      policyDecision none
  | .allow => pure ⟨agent, policyDecision, none⟩
  | .requireApproval =>
    let evidence ← call .resolveApproval
      (resolveApproval deps.approvalBinding (approvalKeys request policyDecision))
    match evidence with
    | none =>
      awaitApproval deps "Policy requires approval before any model invocation" policyDecision []
        none
    | some evidence => pure ⟨agent, policyDecision, some evidence⟩

/-! ### Up to the reasoning -/

structure Inference where
  promptContext : PromptContext
  reasoningOutput : ReasoningOutput

def noUsage : ModelUsage := ⟨"unknown", 0, 0, 0, none, none⟩

def ReasoningOutput.usage (output : ReasoningOutput) : ModelUsage := output.modelUsage.getD noUsage

def ModelUsage.tokens (usage : ModelUsage) : Rat := usage.inputTokens + usage.outputTokens

def secondsBetween (startedAt completedAt : Date) : Rat :=
  ((completedAt - startedAt : Int) : Rat) / 1000

/-- `consumeBudget` with a usage. -/
def consume (usage : ModelUsage) (seconds : Rat) : Exec Unit :=
  onState (·.consumeBudget usage.tokens usage.costUsd seconds)

def reasoningRequest (state : ExecutionState) (promptContext : PromptContext) :
    ReasoningRequest where
  execution := request
  promptContext := promptContext
  observations := []
  remainingBudget := {
    maxTokens := request.budget.maxTokens - state.budgetConsumed.maxTokens
    maxCostUsd := request.budget.maxCostUsd - state.budgetConsumed.maxCostUsd
    maxDurationSeconds :=
      request.budget.maxDurationSeconds - state.budgetConsumed.maxDurationSeconds }

def infer (policyDecision : PolicyDecision) : Exec Inference := do
  let promptContext ← call .assembleContext (deps.assemble request)
  let log ← get
  if !log.state.isWithinBudget request.budget then
    throw (.threw "budget exhausted before reasoning")
  else
    let reasoning := reasoningRequest request log.state promptContext
    let reasoningOutput ← call (.reason reasoning) (deps.reason reasoning)
    consume reasoningOutput.usage
      (secondsBetween (deps.clock .reasoningStarted) (deps.clock .reasoningCompleted))
    let log ← get
    if !log.state.isWithinBudget request.budget then
      fail deps .budgetExhausted "Reasoning consumed the remaining execution budget"
        policyDecision (some reasoningOutput.usage)
    else pure ⟨promptContext, reasoningOutput⟩

/-! ### The rest -/

def executeSpecialist (implementation : AgentImplementation) (g : Governance) (i : Inference) :
    Exec AIExecutionResult := do
  let log ← get
  let (state, answer) := implementation request {
    agent := g.agent, promptContext := i.promptContext, executionState := log.state
    reasoningOutput := i.reasoningOutput, startedAt := deps.clock .started }
  set { log.add .executeSpecialist with state }
  answered answer

/-- The approval that satisfied the policy is named among the decisions of the result. -/
def withProvenance (g : Governance) (answer : AIExecutionResult) : AIExecutionResult :=
  match g.approvalEvidence with
  | none => answer
  | some evidence =>
    { answer with outcome := { answer.outcome with
        decisions := answer.outcome.decisions ++ [.obj (g.policyDecision.entry ++ [
          ("satisfiedByApprovalId", .str evidence.approvalId),
          ("approvalStatus", .str evidence.status),
          ("approvalValidation", .str evidence.validation)])] } }

/-- What is done with the answer of a specialist. -/
def settle (g : Governance) (answer : AIExecutionResult) : Exec AIExecutionResult := do
  onState (·.transition answer.status)
  saveCheckpoint deps
  consume answer.modelUsage (secondsBetween answer.startedAt answer.completedAt)
  let log ← get
  if !log.state.isWithinBudget request.budget then
    fail deps .budgetExhausted "Specialist execution consumed the remaining budget"
      g.policyDecision (some answer.modelUsage)
  else pure (withProvenance g answer)

def act (g : Governance) (i : Inference) : Exec AIExecutionResult := do
  let decision ← call .decide (deps.decide ⟨request, i.reasoningOutput, g.effectivePolicyDecision⟩)
  match decision.outcome with
  | .deny =>
    fail deps .policyDenied decision.rationale g.policyDecision i.reasoningOutput.modelUsage
  | .requireApproval =>
    awaitApproval deps decision.rationale g.policyDecision i.reasoningOutput.evidence
      i.reasoningOutput.modelUsage
  | .allow =>
    let implementation ← call .resolveImplementation (deps.resolve g.agent.implementationKey)
    match implementation with
    | none =>
      fail deps .nonRetryableBusinessFailure
        s!"Implementation not found for key {g.agent.implementationKey}" g.policyDecision none
    | some implementation =>
      let answer ← executeSpecialist deps request implementation g i
      settle deps request g answer

/-! ## An execution -/

/-- The body of the `try`; the context of the request has its tenant. -/
def body : Exec AIExecutionResult := do
  let g ← govern deps request
  let i ← infer deps request g.policyDecision
  act deps request g i

/-- The decision that the handler reports. -/
def unknownDecision : PolicyDecision where
  decisionId := "unknown"
  outcome := .deny
  action := none
  capabilities := []

/-- The handler of what the body throws. -/
def conclude : Except Exit AIExecutionResult × Log → Log × AIExecutionResult
  | (.ok answer, log) | (.error (.returned answer), log) => (log, answer)
  | (.error (.threw message), log) =>
    failed deps log .nonRetryableBusinessFailure message unknownDecision none

/-- The log the body starts with. -/
def startLog : Log where
  state := (ExecutionState.ofRequest request).transition .running
  effects := [.saveCheckpoint .running]

/-- The calls and the state an execution leaves, and its result; the first checkpoint is saved
outside of the handler. -/
def execute : Log × Except String AIExecutionResult :=
  match deps.saveCheckpoint (startLog request).state with
  | some message => (startLog request, .error message)
  | none =>
    let (log, answer) := conclude deps (exec (body deps request) (startLog request))
    (log, .ok answer)

end Parts

end VegaRevenue.AiRuntime
