import VegaRevenue.AiRuntime.AgentExecutor

/-!
# How an execution ends

The calls an execution makes come in one order, and it stops at the first answer that does not let
it go on. `Ending` has one constructor for each place where it can stop.

* `Ending` — the calls that were made, what was consumed, and the result
* `execute_ending` — every execution ends in one of these ways
-/

namespace VegaRevenue.AiRuntime

open MissionExecution (AIExecutionStatus)
open Programs

section

variable (deps : AgentExecutorDeps) (request : AIExecutionRequest)

/-! ## What lets an execution go on -/

structure PositiveBudget (budget : ExecutionBudget) : Prop where
  tokens : 0 < budget.maxTokens
  cost : 0 < budget.maxCostUsd
  duration : 0 < budget.maxDurationSeconds

/-- The agent may serve the request. -/
structure Eligible (agent : ResolvedAgent) : Prop where
  lifecycle : agent.lifecycle = .active ∨ agent.lifecycle = .approved
  version : request.agentVersion ≠ "" → agent.version = request.agentVersion
  capabilities : ∀ cap ∈ request.capabilities, cap ∈ agent.capabilities

/-- The checks before a model call were passed. -/
structure Governed (g : Governance) : Prop where
  budget : PositiveBudget request.budget
  deadline : ∀ d ∈ request.deadline, deps.clock .started ≤ d
  getAgent : deps.getAgent request = .ok (some g.agent)
  eligible : Eligible request g.agent
  evaluate : deps.evaluate request = .ok g.policyDecision
  policy : g.policyDecision.outcome = .allow ∧ g.approvalEvidence = none ∨
    g.policyDecision.outcome = .requireApproval ∧ ∃ evidence, g.approvalEvidence = some evidence ∧
      resolveApproval deps.approvalBinding (approvalKeys request g.policyDecision) =
        .ok (some evidence)

/-- The request to the reasoning engine. -/
def firstReasoning (promptContext : PromptContext) : ReasoningRequest :=
  reasoningRequest request (startLog request).state promptContext

structure Inferred (i : Inference) : Prop where
  assemble : deps.assemble request = .ok i.promptContext
  reason : deps.reason (firstReasoning request i.promptContext) = .ok i.reasoningOutput

/-- What is consumed after the reasoning. -/
def spent (i : Inference) : ExecutionBudget where
  maxTokens := i.reasoningOutput.usage.tokens
  maxCostUsd := i.reasoningOutput.usage.costUsd
  maxDurationSeconds :=
    secondsBetween (deps.clock .reasoningStarted) (deps.clock .reasoningCompleted)

/-- The state a specialist is handed. -/
def handedState (i : Inference) : ExecutionState :=
  (startLog request).state.consumeBudget i.reasoningOutput.usage.tokens
    i.reasoningOutput.usage.costUsd
    (secondsBetween (deps.clock .reasoningStarted) (deps.clock .reasoningCompleted))

def specialistRuntime (g : Governance) (i : Inference) : AgentImplementationRuntime where
  agent := g.agent
  promptContext := i.promptContext
  executionState := handedState deps request i
  reasoningOutput := i.reasoningOutput
  startedAt := deps.clock .started

/-- The budget holds after the reasoning. -/
structure WithinBudget (i : Inference) : Prop where
  tokens : (spent deps i).maxTokens ≤ request.budget.maxTokens
  cost : (spent deps i).maxCostUsd ≤ request.budget.maxCostUsd
  duration : (spent deps i).maxDurationSeconds ≤ request.budget.maxDurationSeconds

/-- The answer of the decision engine. -/
def decision (g : Governance) (i : Inference) : Except String DecisionOutput :=
  deps.decide ⟨request, i.reasoningOutput, g.effectivePolicyDecision⟩

/-- Everything that lets the execution reach the specialist. -/
structure Admitted (g : Governance) (i : Inference) (implementation : AgentImplementation) :
    Prop where
  governed : Governed deps request g
  inferred : Inferred deps request i
  within : WithinBudget deps request i
  decided : ∃ output, decision deps request g i = .ok output ∧ output.outcome = .allow
  resolved : deps.resolve g.agent.implementationKey = .ok (some implementation)

/-! ## The endings -/

/-- The calls of the checks. -/
def Governance.calls (g : Governance) : List Effect :=
  match g.approvalEvidence with
  | none => [.getAgent, .evaluatePolicy]
  | some _ => [.getAgent, .evaluatePolicy, .resolveApproval]

/-- The calls up to the reasoning. -/
def modelCalls (g : Governance) (i : Inference) : List Effect :=
  g.calls ++ [.assembleContext] ++ [.reason (firstReasoning request i.promptContext)]

/-- The calls up to the specialist. -/
def specialistCalls (g : Governance) (i : Inference) : List Effect :=
  modelCalls request g i ++ [.decide] ++ [.resolveImplementation] ++ [.executeSpecialist]

/-- The calls an execution made, what it consumed, and its result. -/
inductive Ending : List Effect → ExecutionBudget → AIExecutionResult → Prop where
  /-- A check before the model calls stopped it. -/
  | refused {calls : List Effect} {answer : AIExecutionResult}
      (hnot : ∀ g, ¬Governed deps request g)
      (hcalls : calls <+: [.getAgent, .evaluatePolicy, .resolveApproval])
      (hstatus : answer.status = .failed ∨
        answer.status = .awaitingApproval ∧ ∃ decision, deps.evaluate request = .ok decision ∧
          decision.outcome = .requireApproval ∧
          resolveApproval deps.approvalBinding (approvalKeys request decision) = .ok none) :
      Ending calls ⟨0, 0, 0⟩ answer
  /-- There was no context. -/
  | unassembled {g : Governance} {answer : AIExecutionResult} (hg : Governed deps request g)
      (hnot : ∀ promptContext, deps.assemble request ≠ .ok promptContext)
      (hstatus : answer.status = .failed) :
      Ending (g.calls ++ [.assembleContext]) ⟨0, 0, 0⟩ answer
  /-- The reasoning threw. -/
  | unreasoned {g : Governance} {promptContext : PromptContext} {message : String}
      {answer : AIExecutionResult} (hg : Governed deps request g)
      (hassemble : deps.assemble request = .ok promptContext)
      (hreason : deps.reason (firstReasoning request promptContext) = .error message)
      (hstatus : answer.status = .failed) :
      Ending (g.calls ++ [.assembleContext] ++ [.reason (firstReasoning request promptContext)])
        ⟨0, 0, 0⟩ answer
  /-- The reasoning used up the budget. -/
  | overspent {g : Governance} {i : Inference} {answer : AIExecutionResult}
      (hg : Governed deps request g) (hi : Inferred deps request i)
      (hnot : ¬WithinBudget deps request i) (hstatus : answer.status = .failed) :
      Ending (modelCalls request g i) (spent deps i) answer
  /-- The decision did not allow it, or there was no implementation. -/
  | undecided {g : Governance} {i : Inference} {calls : List Effect} {answer : AIExecutionResult}
      (hg : Governed deps request g) (hi : Inferred deps request i)
      (hnot : ∀ implementation, ¬Admitted deps request g i implementation)
      (hcalls : calls <+: [.decide, .resolveImplementation])
      (hstatus : answer.status = .failed ∨ answer.status = .awaitingApproval ∧
        ∃ output, decision deps request g i = .ok output ∧ output.outcome = .requireApproval) :
      Ending (modelCalls request g i ++ calls) (spent deps i) answer
  /-- The specialist threw, or its checkpoint could not be saved. -/
  | unsettled {g : Governance} {i : Inference} {implementation : AgentImplementation}
      {state : ExecutionState} {said : Except String AIExecutionResult}
      {answer : AIExecutionResult} (h : Admitted deps request g i implementation)
      (hsaid : implementation request (specialistRuntime deps request g i) = (state, said))
      (hlost : ∀ result, said = .ok result →
        (deps.saveCheckpoint (state.transition result.status)).isSome)
      (hstatus : answer.status = .failed) :
      Ending (specialistCalls request g i) state.budgetConsumed answer
  /-- The answer of the specialist was consumed. -/
  | settled {g : Governance} {i : Inference} {implementation : AgentImplementation}
      {state : ExecutionState} {result answer : AIExecutionResult}
      (h : Admitted deps request g i implementation)
      (hsaid : implementation request (specialistRuntime deps request g i) = (state, .ok result))
      (hsaved : deps.saveCheckpoint (state.transition result.status) = none)
      (hstatus : answer.status = .failed ∨ answer.status = result.status) :
      Ending (specialistCalls request g i)
        (state.consumeBudget result.modelUsage.tokens result.modelUsage.costUsd
          (secondsBetween result.startedAt result.completedAt)).budgetConsumed answer

variable {deps request}

/-! ## There is one way to go on -/

theorem Governed.unique {g g' : Governance} (h : Governed deps request g)
    (h' : Governed deps request g') : g' = g := by
  obtain ⟨agent, policyDecision, approvalEvidence⟩ := g
  obtain ⟨agent', policyDecision', approvalEvidence'⟩ := g'
  have hagent : agent' = agent :=
    Option.some.inj (Except.ok.inj (h'.getAgent.symm.trans h.getAgent))
  have hdecision : policyDecision' = policyDecision :=
    Except.ok.inj (h'.evaluate.symm.trans h.evaluate)
  subst hagent hdecision
  rcases h.policy with ⟨hallow, hnone⟩ | ⟨hrequire, evidence, hsome, hresolve⟩
  · rcases h'.policy with ⟨-, hnone'⟩ | ⟨hrequire, -⟩
    · rw [show approvalEvidence = none from hnone, show approvalEvidence' = none from hnone']
    · exact absurd (hallow.symm.trans hrequire) nofun
  · rcases h'.policy with ⟨hallow, -⟩ | ⟨-, evidence', hsome', hresolve'⟩
    · exact absurd (hallow.symm.trans hrequire) nofun
    · have hevidence : some evidence' = some evidence :=
        Except.ok.inj (hresolve'.symm.trans hresolve)
      rw [show approvalEvidence = some evidence from hsome,
        show approvalEvidence' = some evidence' from hsome', hevidence]

theorem Inferred.unique {i i' : Inference} (h : Inferred deps request i)
    (h' : Inferred deps request i') : i' = i := by
  obtain ⟨promptContext, reasoningOutput⟩ := i
  obtain ⟨promptContext', reasoningOutput'⟩ := i'
  have hcontext : promptContext' = promptContext :=
    Except.ok.inj (h'.assemble.symm.trans h.assemble)
  subst hcontext
  have houtput : reasoningOutput' = reasoningOutput :=
    Except.ok.inj (h'.reason.symm.trans h.reason)
  rw [houtput]

@[simp] theorem handedState_budgetConsumed (i : Inference) :
    (handedState deps request i).budgetConsumed = spent deps i := by
  simp [handedState, ExecutionState.consumeBudget, startLog, ExecutionState.ofRequest, spent]

theorem withinBudget_iff (i : Inference) :
    (handedState deps request i).isWithinBudget request.budget = true ↔
      WithinBudget deps request i := by
  unfold ExecutionState.isWithinBudget
  rw [handedState_budgetConsumed, Bool.and_eq_true, Bool.and_eq_true, decide_eq_true_eq,
    decide_eq_true_eq, decide_eq_true_eq]
  exact ⟨fun h => ⟨h.1.1, h.1.2, h.2⟩, fun h => ⟨⟨h.tokens, h.cost⟩, h.duration⟩⟩

/-- A budget that has something of everything allows an execution to start. -/
theorem startLog_isWithinBudget (h : PositiveBudget request.budget) :
    (startLog request).state.isWithinBudget request.budget = true := by
  have hzero : (startLog request).state.budgetConsumed = ⟨0, 0, 0⟩ := rfl
  unfold ExecutionState.isWithinBudget
  rw [hzero, Bool.and_eq_true, Bool.and_eq_true, decide_eq_true_eq, decide_eq_true_eq,
    decide_eq_true_eq]
  exact ⟨⟨Rat.le_of_lt h.tokens, Rat.le_of_lt h.cost⟩, Rat.le_of_lt h.duration⟩

/-! ## Executions that go on -/

theorem exec_call_ok (effect : Effect) {A : Type} {answer : Except String A} {a : A}
    (h : answer = .ok a) (log : Log) : exec (call effect answer) log = (.ok a, log.add effect) := by
  subst h
  rfl

theorem exec_requireAgent {agent : ResolvedAgent} (h : deps.getAgent request = .ok (some agent))
    (heligible : Eligible request agent) (log : Log) :
    exec (requireAgent deps request) log = (.ok agent, log.add .getAgent) := by
  have hactive : ¬(agent.lifecycle ≠ .active ∧ agent.lifecycle ≠ .approved) := by
    rw [not_and_or, not_not, not_not]
    exact heligible.lifecycle
  have hversion : ¬(request.agentVersion ≠ "" ∧ agent.version ≠ request.agentVersion) := by
    rw [not_and, not_not]
    exact heligible.version
  unfold requireAgent
  rw [exec_bind, exec_call_ok _ h]
  simp only [if_neg hactive, if_neg hversion, exec_pure]

/-- The checks of a governed execution are passed. -/
theorem exec_govern {g : Governance} (hg : Governed deps request g) :
    exec (govern deps request) (startLog request) =
      (.ok g, ⟨(startLog request).state, .saveCheckpoint .running :: g.calls⟩) := by
  have hopen : request.deadline.any (· < deps.clock .started) = false := by
    cases hd : request.deadline with
    | none => rfl
    | some d =>
      have hlate := hg.deadline d hd
      simp only [Option.any_some, decide_eq_false_iff_not]
      exact Int.not_lt.mpr hlate
  have hnone : ¬0 < (request.capabilities.filter fun cap =>
      !g.agent.capabilities.contains cap).length := by
    rw [Nat.not_lt, Nat.le_zero, List.length_eq_zero_iff, List.filter_eq_nil_iff]
    intro cap hcap
    simp [hg.eligible.capabilities cap hcap]
  unfold govern checkDeadline checkBudget validateCapabilities
  rw [hopen, if_neg (Rat.not_le.mpr hg.budget.cost), if_neg (Rat.not_le.mpr hg.budget.tokens),
    if_neg (Rat.not_le.mpr hg.budget.duration)]
  simp only [exec_bind, Bool.false_eq_true, if_false, exec_pure,
    exec_requireAgent hg.getAgent hg.eligible, if_neg hnone, exec_call_ok _ hg.evaluate]
  obtain ⟨agent, policyDecision, approvalEvidence⟩ := g
  rcases hg.policy with ⟨houtcome, hfound⟩ | ⟨houtcome, evidence, hfound, hresolve⟩
  · dsimp only at houtcome hfound ⊢
    subst hfound
    rw [houtcome]
    rfl
  · dsimp only at houtcome hfound hresolve ⊢
    subst hfound
    simp only [houtcome, exec_bind, exec_call_ok _ hresolve]
    rfl

/-! ## Where a program ends -/

/-- The log at a point of the body: the calls so far and the state. -/
def At (calls : List Effect) (state : ExecutionState) (log : Log) : Prop :=
  log = ⟨state, .saveCheckpoint .running :: calls⟩

variable (deps request) in
/-- The calls and the checkpoints of a log, with the result they come to. -/
def Ended (last : Log × AIExecutionResult) : Prop :=
  ∃ (calls : List Effect) (saved : List AIExecutionStatus), last.1.effects =
      .saveCheckpoint .running :: calls ++ saved.map Effect.saveCheckpoint ∧
    Ending deps request calls last.1.state.budgetConsumed last.2

variable (deps request) in
/-- An exit, after the handler. -/
def Stopped (exit : Exit) (log : Log) : Prop :=
  Ended deps request (conclude deps (.error exit, log))

variable {calls : List Effect} {state : ExecutionState} {log : Log} {A : Type} {Q : A → Log → Prop}

/-- Where every failure is an ending, a throw is one. -/
theorem stopped_threw (saved : List AIExecutionStatus) (message : String)
    (heffects : log.effects =
      .saveCheckpoint .running :: calls ++ saved.map Effect.saveCheckpoint)
    (h : ∀ answer : AIExecutionResult, answer.status = .failed →
      Ending deps request calls log.state.budgetConsumed answer) :
    Stopped deps request (.threw message) log := by
  refine ⟨calls, saved ++ [.failed], ?_, h _ rfl⟩
  show log.effects ++ [Effect.saveCheckpoint .failed] = _
  rw [heffects, List.map_append, List.append_assoc]
  rfl

theorem stopped_threw_at (message : String) (hlog : At calls state log)
    (h : ∀ answer : AIExecutionResult, answer.status = .failed →
      Ending deps request calls state.budgetConsumed answer) :
    Stopped deps request (.threw message) log := by
  subst hlog
  exact stopped_threw [] message (by simp) h

theorem ensures_call (effect : Effect) {answer : Except String A}
    (h : ∀ message, answer = .error message → ∀ last : AIExecutionResult, last.status = .failed →
      Ending deps request (calls ++ [effect]) state.budgetConsumed last) :
    Ensures (At calls state) (call effect answer)
      (fun a log => answer = .ok a ∧ At (calls ++ [effect]) state log) (Stopped deps request) := by
  have hadd : Ensures (At calls state) (modify (·.add effect) : Exec Unit)
      (fun _ => At (calls ++ [effect]) state) (Stopped deps request) := by
    refine ensures_modify fun log hlog => ?_
    rw [hlog]
    rfl
  refine ensures_bind hadd fun _ => ?_
  cases answer with
  | ok a => exact ensures_pure fun log hlog => ⟨rfl, hlog⟩
  | error message =>
    exact ensures_throw fun log hlog => stopped_threw_at message hlog (h message rfl)

theorem ensures_fail (classification : FailureClassification) (message : String)
    (policyDecision : PolicyDecision) (modelUsage : Option ModelUsage)
    (h : ∀ last : AIExecutionResult, last.status = .failed →
      Ending deps request calls state.budgetConsumed last) :
    Ensures (At calls state) (fail deps classification message policyDecision modelUsage) Q
      (Stopped deps request) := by
  rintro log rfl
  exact ⟨calls, [.failed], rfl, h _ rfl⟩

theorem ensures_awaitApproval (summary : String) (policyDecision : PolicyDecision)
    (evidence : List String) (modelUsage : Option ModelUsage)
    (h : ∀ last : AIExecutionResult, last.status = .failed ∨ last.status = .awaitingApproval →
      Ending deps request calls state.budgetConsumed last) :
    Ensures (At calls state) (awaitApproval deps summary policyDecision evidence modelUsage) Q
      (Stopped deps request) := by
  rintro log rfl
  unfold awaitApproval saveCheckpoint onState
  simp only [exec_bind, exec_modify, exec_get, Log.onState]
  cases deps.saveCheckpoint (state.transition .awaitingApproval) with
  | some message =>
    exact stopped_threw [.awaitingApproval] message rfl fun last hlast => h last (.inl hlast)
  | none => exact ⟨calls, [.awaitingApproval], rfl, h _ (.inr rfl)⟩

/-! ## The parts -/

theorem ensures_checkDeadline {R : Exit → Log → Prop} {P : Log → Prop}
    (h : ∀ message log, P log → R (.threw message) log) :
    Ensures P (checkDeadline request.deadline (deps.clock .started))
      (fun _ log => (∀ d ∈ request.deadline, deps.clock .started ≤ d) ∧ P log) R := by
  refine ensures_ite (fun _ => ensures_throw (h _)) fun hopen => ensures_pure fun log hlog => ?_
  refine ⟨fun d hd => ?_, hlog⟩
  rw [Option.mem_def] at hd
  simpa [hd] using hopen

theorem ensures_checkBudget {R : Exit → Log → Prop} {P : Log → Prop}
    (h : ∀ message log, P log → R (.threw message) log) :
    Ensures P (checkBudget request.budget)
      (fun _ log => PositiveBudget request.budget ∧ P log) R := by
  refine ensures_ite (fun _ => ensures_throw (h _)) fun hcost => ?_
  refine ensures_ite (fun _ => ensures_throw (h _)) fun htokens => ?_
  refine ensures_ite (fun _ => ensures_throw (h _)) fun hduration => ?_
  exact ensures_pure fun log hlog =>
    ⟨⟨Rat.not_le.mp htokens, Rat.not_le.mp hcost, Rat.not_le.mp hduration⟩, hlog⟩

/-- A check that fails ends the execution. -/
theorem ending_refused (hnot : ∀ g, ¬Governed deps request g)
    (hcalls : calls <+: [.getAgent, .evaluatePolicy, .resolveApproval])
    (last : AIExecutionResult) (hlast : last.status = .failed) :
    Ending deps request calls (startLog request).state.budgetConsumed last :=
  .refused hnot hcalls (.inl hlast)

theorem ensures_requireAgent (hnot : ∀ g, ¬Governed deps request g) :
    Ensures (At [] (startLog request).state) (requireAgent deps request)
      (fun agent log => (deps.getAgent request = .ok (some agent) ∧
          (agent.lifecycle = .active ∨ agent.lifecycle = .approved) ∧
          (request.agentVersion ≠ "" → agent.version = request.agentVersion)) ∧
        At [.getAgent] (startLog request).state log) (Stopped deps request) := by
  have hprefix : [Effect.getAgent] <+: [.getAgent, .evaluatePolicy, .resolveApproval] := ⟨_, rfl⟩
  have hthrew : ∀ message log, At [.getAgent] (startLog request).state log →
      Stopped deps request (.threw message) log :=
    fun message log hlog => stopped_threw_at message hlog (ending_refused hnot hprefix)
  refine ensures_bind (ensures_call .getAgent fun _ _ => ending_refused hnot hprefix) fun found =>
    ensures_of_pure fun hfound => ?_
  cases found with
  | none => exact ensures_throw (hthrew _)
  | some agent =>
    refine ensures_ite (fun _ => ensures_throw (hthrew _)) fun hlifecycle => ?_
    refine ensures_ite (fun _ => ensures_throw (hthrew _)) fun hversion => ?_
    refine ensures_pure fun log hlog => ⟨⟨hfound, ?_, fun hsome => ?_⟩, hlog⟩
    · rw [not_and_or, not_not, not_not] at hlifecycle
      exact hlifecycle
    · rw [not_and, not_not] at hversion
      exact hversion hsome

theorem ensures_validateCapabilities (agent : ResolvedAgent) {P : Log → Prop}
    {R : Exit → Log → Prop} (h : ∀ message log, P log → R (.threw message) log) :
    Ensures P (validateCapabilities agent request.capabilities)
      (fun _ log => (∀ cap ∈ request.capabilities, cap ∈ agent.capabilities) ∧ P log) R := by
  refine ensures_ite (fun _ => ensures_throw (h _)) fun hnone => ensures_pure fun log hlog => ?_
  refine ⟨fun cap hcap => ?_, hlog⟩
  rw [Nat.not_lt, Nat.le_zero, List.length_eq_zero_iff, List.filter_eq_nil_iff] at hnone
  simpa using hnone cap hcap

/-- **An execution that is not governed stops at the checks.** -/
theorem ensures_govern (hnot : ∀ g, ¬Governed deps request g) :
    Ensures (At [] (startLog request).state) (govern deps request) (fun _ _ => False)
      (Stopped deps request) := by
  have hagent : [Effect.getAgent] <+: [.getAgent, .evaluatePolicy, .resolveApproval] := ⟨_, rfl⟩
  have hpolicy : [Effect.getAgent, .evaluatePolicy] <+:
      [.getAgent, .evaluatePolicy, .resolveApproval] := ⟨_, rfl⟩
  have hthrew : ∀ message log, At [] (startLog request).state log →
      Stopped deps request (.threw message) log :=
    fun message log hlog => stopped_threw_at message hlog (ending_refused hnot List.nil_prefix)
  refine ensures_bind (ensures_checkDeadline hthrew) fun _ => ensures_of_pure fun hdeadline => ?_
  refine ensures_bind (ensures_checkBudget hthrew) fun _ => ensures_of_pure fun hbudget => ?_
  refine ensures_bind (ensures_requireAgent hnot) fun agent => ensures_of_pure fun hfound => ?_
  refine ensures_bind (ensures_validateCapabilities agent fun message log hlog =>
    stopped_threw_at message hlog (ending_refused hnot hagent)) fun _ =>
      ensures_of_pure fun hcapabilities => ?_
  have heligible : Eligible request agent := ⟨hfound.2.1, hfound.2.2, hcapabilities⟩
  refine ensures_bind (ensures_call .evaluatePolicy fun _ _ => ending_refused hnot hpolicy)
    fun policyDecision => ensures_of_pure fun hevaluate => ?_
  cases houtcome : policyDecision.outcome with
  | deny => exact ensures_fail _ _ _ _ (ending_refused hnot hpolicy)
  | allow =>
    exact ensures_pure fun log hlog =>
      hnot ⟨agent, policyDecision, none⟩
        ⟨hbudget, hdeadline, hfound.1, heligible, hevaluate, .inl ⟨houtcome, rfl⟩⟩
  | requireApproval =>
    refine ensures_bind (ensures_call .resolveApproval fun _ _ =>
      ending_refused hnot List.prefix_rfl) fun evidence => ensures_of_pure fun hevidence => ?_
    cases evidence with
    | none =>
      refine ensures_awaitApproval _ _ _ _ fun last hlast => .refused hnot List.prefix_rfl ?_
      exact hlast.imp_right fun hawaiting =>
        ⟨hawaiting, policyDecision, hevaluate, houtcome, hevidence⟩
    | some evidence =>
      exact ensures_pure fun log hlog => hnot ⟨agent, policyDecision, some evidence⟩
        ⟨hbudget, hdeadline, hfound.1, heligible, hevaluate,
          .inr ⟨houtcome, evidence, rfl, hevidence⟩⟩

theorem ensures_onState (f : ExecutionState → ExecutionState) {R : Exit → Log → Prop} :
    Ensures (At calls state) (onState f) (fun _ => At calls (f state)) R := by
  refine ensures_modify fun log hlog => ?_
  rw [hlog]
  rfl

theorem ensures_read {R : Exit → Log → Prop} :
    Ensures (At calls state) (get : Exec Log)
      (fun seen log => seen.state = state ∧ At calls state log) R :=
  ensures_get fun log hlog => ⟨by rw [hlog], hlog⟩

/-- **What the reasoning lets through is inferred, and the budget holds.** -/
theorem ensures_infer {g : Governance} (hg : Governed deps request g) :
    Ensures (At g.calls (startLog request).state) (infer deps request g.policyDecision)
      (fun i log => (Inferred deps request i ∧ WithinBudget deps request i) ∧
        At (modelCalls request g i) (handedState deps request i) log) (Stopped deps request) := by
  have hunassembled : ∀ message, deps.assemble request = .error message →
      ∀ last : AIExecutionResult, last.status = .failed →
        Ending deps request (g.calls ++ [.assembleContext])
          (startLog request).state.budgetConsumed last := by
    intro message hmessage last hlast
    have hnot : ∀ promptContext, deps.assemble request ≠ .ok promptContext := by
      rw [hmessage]
      exact nofun
    exact .unassembled hg hnot hlast
  refine ensures_bind (ensures_call .assembleContext hunassembled) fun promptContext =>
    ensures_of_pure fun hassemble => ?_
  refine ensures_bind ensures_read fun seen => ensures_of_pure fun hseen => ?_
  rw [hseen]
  refine ensures_ite (fun hover => ?_) fun _ => ?_
  · rw [startLog_isWithinBudget hg.budget] at hover
    cases hover
  refine ensures_bind (ensures_call _ fun message hreason last hlast =>
    .unreasoned hg hassemble hreason hlast) fun reasoningOutput =>
      ensures_of_pure fun hreason => ?_
  let i : Inference := ⟨promptContext, reasoningOutput⟩
  have hi : Inferred deps request i := ⟨hassemble, hreason⟩
  refine ensures_bind (ensures_onState _) fun _ => ?_
  refine ensures_bind ensures_read fun seen => ensures_of_pure fun hseen => ?_
  rw [hseen]
  refine ensures_ite (fun hover => ensures_fail _ _ _ _ fun last hlast => ?_) fun hwithin => ?_
  · have hnot : ¬WithinBudget deps request i := by
      intro hwithin
      have hstill : (handedState deps request i).isWithinBudget request.budget = true :=
        (withinBudget_iff i).mpr hwithin
      rw [Bool.not_eq_true'] at hover
      exact Bool.false_ne_true (hover.symm.trans hstill)
    have hend := Ending.overspent hg hi hnot hlast
    rw [← handedState_budgetConsumed] at hend
    exact hend
  · rw [Bool.not_eq_true, Bool.not_eq_false'] at hwithin
    exact ensures_pure fun log hlog => ⟨⟨hi, (withinBudget_iff _).mp hwithin⟩, hlog⟩

@[simp] theorem withProvenance_status (g : Governance) (answer : AIExecutionResult) :
    (withProvenance g answer).status = answer.status := by
  unfold withProvenance
  cases g.approvalEvidence <;> rfl

section

variable {g : Governance} {i : Inference} {implementation : AgentImplementation}

theorem ensures_executeSpecialist (h : Admitted deps request g i implementation) :
    Ensures (At (modelCalls request g i ++ [.decide] ++ [.resolveImplementation])
        (handedState deps request i))
      (executeSpecialist deps request implementation g i)
      (fun result log =>
        implementation request (specialistRuntime deps request g i) = (log.state, .ok result) ∧
          At (specialistCalls request g i) log.state log) (Stopped deps request) := by
  rintro log rfl
  unfold executeSpecialist
  simp only [exec_bind, exec_get, exec_set]
  cases hsaid : implementation request (specialistRuntime deps request g i) with
  | mk state said =>
    unfold specialistRuntime at hsaid
    simp only [hsaid]
    cases said with
    | ok result => exact ⟨rfl, rfl⟩
    | error message =>
      have hlost : ∀ result, (.error message : Except String AIExecutionResult) = .ok result →
          (deps.saveCheckpoint (state.transition result.status)).isSome := by
        intro result hok
        cases hok
      exact stopped_threw [] message (List.append_nil _).symm fun last hlast =>
        .unsettled h hsaid hlost hlast

/-- A result of the specialist is consumed, unless its checkpoint is lost. -/
theorem ensures_settle (h : Admitted deps request g i implementation) {result : AIExecutionResult}
    (hsaid : implementation request (specialistRuntime deps request g i) = (state, .ok result)) :
    Ensures (At (specialistCalls request g i) state) (settle deps request g result)
      (fun answer log => Ended deps request (log, answer)) (Stopped deps request) := by
  rintro log rfl
  unfold settle saveCheckpoint consume onState
  simp only [exec_bind, exec_modify, exec_get, Log.onState]
  cases hsaved : deps.saveCheckpoint (state.transition result.status) with
  | some message =>
    refine stopped_threw [result.status] message rfl fun last hlast => ?_
    have hlost : ∀ other, (.ok result : Except String AIExecutionResult) = .ok other →
        (deps.saveCheckpoint (state.transition other.status)).isSome := by
      rintro other heq
      cases heq
      rw [hsaved]
      rfl
    exact (Ending.unsettled h hsaid hlost hlast :)
  | none =>
    have hend : ∀ last : AIExecutionResult, last.status = .failed ∨ last.status = result.status →
        Ending deps request (specialistCalls request g i) _ last :=
      fun last => Ending.settled h hsaid hsaved
    simp only [exec_pure, Log.add]
    cases hwithin : ((state.transition result.status).consumeBudget result.modelUsage.tokens
        result.modelUsage.costUsd
        (secondsBetween result.startedAt result.completedAt)).isWithinBudget request.budget with
    | false =>
      simp only [Bool.not_false, if_true]
      exact ⟨_, [result.status, .failed], List.append_assoc .., hend _ (.inl rfl)⟩
    | true =>
      simp only [Bool.not_true, Bool.false_eq_true, if_false]
      exact ⟨_, [result.status], rfl, hend _ (.inr (withProvenance_status g result))⟩

end

/-- What stops an execution before the specialist keeps it from being admitted. -/
theorem ending_undecided {g : Governance} {i : Inference} (hg : Governed deps request g)
    (hi : Inferred deps request i)
    (hnot : ∀ implementation, ¬Admitted deps request g i implementation)
    (hcalls : calls <+: [.decide, .resolveImplementation]) (last : AIExecutionResult)
    (hlast : last.status = .failed) :
    Ending deps request (modelCalls request g i ++ calls)
      (handedState deps request i).budgetConsumed last := by
  rw [handedState_budgetConsumed]
  exact .undecided hg hi hnot hcalls (.inl hlast)

/-- The implementation of an admitted execution is the one that was resolved. -/
theorem not_admitted_of_resolve {g : Governance} {i : Inference}
    (h : ∀ implementation, deps.resolve g.agent.implementationKey ≠ .ok (some implementation))
    (implementation : AgentImplementation) : ¬Admitted deps request g i implementation :=
  fun hadmitted => h implementation hadmitted.resolved

/-- An admitted execution was allowed by the decision. -/
theorem not_admitted_of_decision {g : Governance} {i : Inference}
    (h : ∀ output, decision deps request g i = .ok output → output.outcome ≠ .allow)
    (implementation : AgentImplementation) : ¬Admitted deps request g i implementation := by
  intro hadmitted
  obtain ⟨output, houtput, hallow⟩ := hadmitted.decided
  exact h output houtput hallow

/-- **What the rest of an execution comes to.** -/
theorem ensures_act {g : Governance} {i : Inference} (hg : Governed deps request g)
    (hi : Inferred deps request i) (hwithin : WithinBudget deps request i) :
    Ensures (At (modelCalls request g i) (handedState deps request i)) (act deps request g i)
      (fun answer log => Ended deps request (log, answer)) (Stopped deps request) := by
  have hdecide : [Effect.decide] <+: [.decide, .resolveImplementation] := ⟨_, rfl⟩
  refine ensures_bind (ensures_call .decide fun message hmessage => ?_) fun output =>
    ensures_of_pure fun houtput => ?_
  · refine ending_undecided hg hi (not_admitted_of_decision fun output houtput => ?_) hdecide
    rw [decision, hmessage] at houtput
    cases houtput
  have hdenied : output.outcome ≠ .allow →
      ∀ implementation, ¬Admitted deps request g i implementation := by
    refine fun hne => not_admitted_of_decision fun other hother => ?_
    rw [decision, houtput] at hother
    rwa [← Except.ok.inj hother]
  cases houtcome : output.outcome with
  | deny =>
    refine ensures_fail _ _ _ _ (ending_undecided hg hi (hdenied ?_) hdecide)
    simp [houtcome]
  | requireApproval =>
    refine ensures_awaitApproval _ _ _ _ fun last hlast => ?_
    rw [handedState_budgetConsumed]
    refine .undecided hg hi (hdenied ?_) hdecide
      (hlast.imp_right fun hawaiting => ⟨hawaiting, output, houtput, houtcome⟩)
    simp [houtcome]
  | allow =>
    have hresolve : (∀ implementation,
        deps.resolve g.agent.implementationKey ≠ .ok (some implementation)) →
        ∀ last : AIExecutionResult, last.status = .failed →
          Ending deps request (modelCalls request g i ++ [.decide] ++ [.resolveImplementation])
            (handedState deps request i).budgetConsumed last := by
      intro hnone
      rw [List.append_assoc]
      exact ending_undecided hg hi (not_admitted_of_resolve hnone) List.prefix_rfl
    refine ensures_bind (ensures_call .resolveImplementation fun message hmessage =>
      hresolve fun implementation => ?_) fun implementation => ensures_of_pure fun hresolved => ?_
    · rw [hmessage]
      exact nofun
    cases implementation with
    | none =>
      refine ensures_fail _ _ _ _ (hresolve fun implementation => ?_)
      rw [hresolved]
      exact nofun
    | some implementation =>
      have hadmitted : Admitted deps request g i implementation :=
        ⟨hg, hi, hwithin, ⟨output, houtput, houtcome⟩, hresolved⟩
      refine ensures_bind (ensures_executeSpecialist hadmitted) fun result => ?_
      exact fun log hlog => ensures_settle hadmitted hlog.1 log hlog.2

theorem ensures_body :
    Ensures (At [] (startLog request).state) (body deps request)
      (fun answer log => Ended deps request (log, answer)) (Stopped deps request) := by
  by_cases hgoverned : ∃ g, Governed deps request g
  · obtain ⟨g, hg⟩ := hgoverned
    have hgovern : Ensures (At [] (startLog request).state) (govern deps request)
        (fun g' log => g' = g ∧ At g.calls (startLog request).state log)
        (Stopped deps request) := by
      intro log hlog
      rw [show log = startLog request from hlog, exec_govern hg]
      exact ⟨rfl, rfl⟩
    refine ensures_bind hgovern fun g' => ensures_of_pure fun hsame => ?_
    subst hsame
    exact ensures_bind (ensures_infer hg) fun i => ensures_of_pure fun hi =>
      ensures_act hg hi.1 hi.2
  · have hnot : ∀ g, ¬Governed deps request g := fun g hg => hgoverned ⟨g, hg⟩
    exact ensures_bind (ensures_govern hnot) fun g log hlog => hlog.elim

/-- **Every execution ends in one of these ways**, if its first checkpoint is saved. -/
theorem execute_ending (hsaved : deps.saveCheckpoint (startLog request).state = none) :
    ∃ answer, (execute deps request).2 = .ok answer ∧
      Ended deps request ((execute deps request).1, answer) := by
  have hend := (ensures_body : Ensures _ (body deps request) _ _) (startLog request) rfl
  unfold execute
  rw [hsaved]
  generalize exec (body deps request) (startLog request) = r at hend ⊢
  obtain ⟨last, log⟩ := r
  cases last with
  | ok answer => exact ⟨answer, rfl, hend⟩
  | error exit => exact ⟨_, rfl, hend⟩

/-- Without its first checkpoint an execution throws at once. -/
theorem execute_unsaved {message : String}
    (hlost : deps.saveCheckpoint (startLog request).state = some message) :
    execute deps request = (startLog request, .error message) := by
  unfold execute
  rw [hlost]

/-- The reasoning of an execution that stays within its budget goes on. -/
theorem exec_infer {g : Governance} {i : Inference} (hg : Governed deps request g)
    (hi : Inferred deps request i) (hwithin : WithinBudget deps request i) :
    exec (infer deps request g.policyDecision)
        ⟨(startLog request).state, .saveCheckpoint .running :: g.calls⟩ =
      (.ok i,
        ⟨handedState deps request i, .saveCheckpoint .running :: modelCalls request g i⟩) := by
  have hreason : deps.reason (reasoningRequest request (startLog request).state i.promptContext) =
      .ok i.reasoningOutput := hi.reason
  have hafter := (withinBudget_iff i).mpr hwithin
  unfold infer consume onState
  simp only [exec_bind, exec_call_ok _ hi.assemble, exec_get, Log.add,
    startLog_isWithinBudget hg.budget, Bool.not_true,
    Bool.false_eq_true, if_false]
  rw [exec_call_ok _ hreason]
  simp only [exec_modify, Log.onState, Log.add]
  unfold handedState at hafter
  rw [hafter]
  rfl

theorem exec_body {g : Governance} {i : Inference} (hg : Governed deps request g)
    (hi : Inferred deps request i) (hwithin : WithinBudget deps request i) :
    exec (body deps request) (startLog request) = exec (act deps request g i)
      ⟨handedState deps request i, .saveCheckpoint .running :: modelCalls request g i⟩ := by
  unfold body
  rw [exec_bind, exec_govern hg]
  dsimp only
  rw [exec_bind, exec_infer hg hi hwithin]

end

end VegaRevenue.AiRuntime
