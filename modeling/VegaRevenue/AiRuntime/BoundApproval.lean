import Mathlib.Algebra.Order.Field.Rat
import Mathlib.Tactic.NormNum
import VegaRevenue.AiRuntime.Decision
import VegaRevenue.AiRuntime.Endings

/-!
# Executions with a bound approval

An execution that the control plane sends to approval, and for which a valid approval is bound. The
gate before the model calls is satisfied by it; the decision engine asks for approvals of its own.

* `approval_suffices_iff` — whatever the other dependencies answer, the execution does not wait for
  approval again iff it is autonomous enough for its risk
* `approval_loop` — at autonomy level 1 it does
-/

namespace VegaRevenue.AiRuntime

open ControlPlane (PolicyOutcome PolicyRow AutonomyRule StopAnswer)
open Programs

/-! ## The policy client -/

/-- The stored rules, and what the other repositories of the control plane answer. -/
structure PolicyStore where
  stop : StopAnswer
  table : List PolicyRow
  autonomyRule : Option AutonomyRule

section

variable (collation : String → String → Bool) (decisionId : String) (store : PolicyStore)

/-- `ControlPlanePolicyClient`; the decision gets its id. -/
def policyClient (request : AIExecutionRequest) : Except String PolicyDecision :=
  (ControlPlane.evaluate collation request.tenantId {
    request := request.toAIExecutionRequest
    stop := store.stop
    table := store.table
    autonomyRule := store.autonomyRule }).map fun d => {
      decisionId, outcome := d.outcome, action := some d.action, capabilities := d.capabilities }

/-! ## What is assumed of an execution -/

/-- The dependencies of an execution that was approved; nothing else in it asks for approval. -/
structure Approved (request : AIExecutionRequest) (deps : AgentExecutorDeps) : Prop where
  policy : deps.evaluate = policyClient collation decisionId store
  evidence : ∃ decision evidence, deps.evaluate request = .ok decision ∧
    resolveApproval deps.approvalBinding (approvalKeys request decision) = .ok (some evidence)
  decides : deps.decide = policyAwareDecide
  reasoning : ∀ r output, deps.reason r = .ok output →
    1 / 2 ≤ output.confidence ∧ output.requiredApprovals.getD [] = []
  specialists : ∀ key implementation, deps.resolve key = .ok (some implementation) →
    ∀ request runtime result, (implementation request runtime).2 = .ok result →
      result.status ≠ .awaitingApproval

/-- The execution does not wait for approval: it reaches the specialist or fails. -/
def Completes (deps : AgentExecutorDeps) (request : AIExecutionRequest) : Prop :=
  ∀ answer, (execute deps request).2 = .ok answer →
    answer.status ≠ .awaitingApproval ∧
      (.executeSpecialist ∈ (execute deps request).1.effects ∨ answer.status = .failed)

variable {collation decisionId store} {request : AIExecutionRequest} {deps : AgentExecutorDeps}

/-! ## The decision after an approval -/

/-- **After a bound approval, the decision engine asks for another one iff the execution is not
autonomous enough.** -/
theorem decision_approved (h : Approved collation decisionId store request deps) {g : Governance}
    {i : Inference} (hg : Governed deps request g) (hi : Inferred deps request i)
    {output : DecisionOutput} (houtput : decision deps request g i = .ok output) :
    output.outcome = .requireApproval ↔ ¬Autonomous request := by
  have hreasoning := h.reasoning _ _ hi.reason
  have heffective : g.effectivePolicyDecision.outcome = .allow := by
    unfold Governance.effectivePolicyDecision
    rcases hg.policy with ⟨houtcome, hnone⟩ | ⟨-, evidence, hsome, -⟩
    · rw [hnone]
      exact houtcome
    · rw [hsome]
  have hiff : neededApprovals ⟨request, i.reasoningOutput, g.effectivePolicyDecision⟩ = [] ↔
      Autonomous request := by
    rw [neededApprovals_eq_nil]
    constructor
    · exact fun hall => hall.2.2.1
    · intro hautonomous
      refine ⟨hreasoning.2, ?_, hautonomous, Rat.not_lt.mpr hreasoning.1⟩
      rw [heffective]
      decide
  unfold decision at houtput
  rw [h.decides] at houtput
  rcases policyAwareDecide_eq houtput with ⟨hdeny, -⟩ | ⟨-, ⟨hnil, hallow⟩ | ⟨hsome, happroval⟩⟩
  · rw [heffective] at hdeny
    cases hdeny
  · rw [hallow]
    exact iff_of_false nofun (not_not.mpr (hiff.mp hnil))
  · exact iff_of_true happroval fun hautonomous => hsome (hiff.mpr hautonomous)

/-- An execution with a bound approval completes where it is autonomous, or cannot start. -/
theorem completes_of_autonomous (h : Approved collation decisionId store request deps)
    (hautonomous : PositiveBudget request.budget → Autonomous request) :
    Completes deps request := by
  intro answer hanswer
  obtain ⟨approved, evidence, hevaluate, hresolve⟩ := h.evidence
  cases hsaved : deps.saveCheckpoint (startLog request).state with
  | some message =>
    rw [execute_unsaved hsaved] at hanswer
    cases hanswer
  | none =>
    obtain ⟨answer, hlast, calls, saved, heffects, hend⟩ := execute_ending hsaved
    rw [hlast] at hanswer
    cases hanswer
    dsimp only at heffects hend
    generalize (execute deps request).1.state.budgetConsumed = consumed at hend
    have hfailed : answer.status = .failed → answer.status ≠ .awaitingApproval ∧
        (.executeSpecialist ∈ (execute deps request).1.effects ∨ answer.status = .failed) := by
      intro hstatus
      rw [hstatus]
      exact ⟨nofun, .inr rfl⟩
    cases hend with
    | refused hnot hcalls hstatus =>
      rcases hstatus with hstatus | ⟨-, decision, hdecision, -, hnone⟩
      · exact hfailed hstatus
      · -- the approval is there
        rw [hevaluate] at hdecision
        cases hdecision
        rw [hresolve] at hnone
        cases hnone
    | unassembled hg hnot hstatus => exact hfailed hstatus
    | unreasoned hg hassemble hreason hstatus => exact hfailed hstatus
    | overspent hg hi hnot hstatus => exact hfailed hstatus
    | undecided hg hi hnot hcalls hstatus =>
      rcases hstatus with hstatus | ⟨-, output, houtput, happroval⟩
      · exact hfailed hstatus
      · exact absurd (hautonomous hg.budget) ((decision_approved h hg hi houtput).mp happroval)
    | unsettled hadmitted hsaid hlost hstatus => exact hfailed hstatus
    | settled hadmitted hsaid hcheckpoint hstatus =>
      rcases hstatus with hstatus | hstatus
      · exact hfailed hstatus
      · rw [hstatus]
        refine ⟨h.specialists _ _ hadmitted.resolved _ _ _ (congrArg Prod.snd hsaid), .inl ?_⟩
        rw [heffects]
        simp [specialistCalls]

/-! ## The approval that is asked for again -/

variable (collation decisionId store request) in
/-- Dependencies that let the execution through to its decision. -/
def agreeingDeps : AgentExecutorDeps where
  clock _ := request.deadline.getD 0
  saveCheckpoint _ := none
  getAgent r := .ok (some ⟨r.agentVersion, .active, "specialist.research.v1", r.capabilities⟩)
  evaluate := policyClient collation decisionId store
  approvalBinding := some { hasValidApproval := fun _ => .ok true }
  assemble _ := .ok { userMessage := "", toolsAvailable := [] }
  reason _ := .ok { rationale := "", conclusion := "", confidence := 1, evidence := [] }
  decide := policyAwareDecide
  resolve _ := .ok none

theorem approved_agreeingDeps {policyDecision : PolicyDecision}
    (hpolicy : policyClient collation decisionId store request = .ok policyDecision) :
    Approved collation decisionId store request
      (agreeingDeps collation decisionId store request) where
  policy := rfl
  evidence := ⟨policyDecision, _, hpolicy, rfl⟩
  decides := rfl
  reasoning := by
    rintro r output houtput
    cases houtput
    exact ⟨by norm_num, rfl⟩
  specialists := nofun

/-- **An execution that is not autonomous enough waits for approval again.** -/
theorem awaits_agreeingDeps {policyDecision : PolicyDecision}
    (hpolicy : policyClient collation decisionId store request = .ok policyDecision)
    (happroval : policyDecision.outcome = .requireApproval) (hbudget : PositiveBudget request.budget)
    (hautonomous : ¬Autonomous request) :
    ∃ answer, (execute (agreeingDeps collation decisionId store request) request).2 = .ok answer ∧
      answer.status = .awaitingApproval := by
  generalize hdeps : agreeingDeps collation decisionId store request = deps
  have hclock : ∀ moment, deps.clock moment = request.deadline.getD 0 := by
    rw [← hdeps]
    exact fun _ => rfl
  have happroved : Approved collation decisionId store request deps :=
    hdeps ▸ approved_agreeingDeps hpolicy
  let g : Governance := ⟨⟨request.agentVersion, .active, "specialist.research.v1",
    request.capabilities⟩, policyDecision, some ⟨"unknown", "APPROVED", "valid"⟩⟩
  let i : Inference := ⟨{ userMessage := "", toolsAvailable := [] },
    { rationale := "", conclusion := "", confidence := 1, evidence := [] }⟩
  have hg : Governed deps request g := by
    subst hdeps
    refine ⟨hbudget, fun d hd => ?_, rfl, ⟨.inl rfl, fun _ => rfl, fun _ hcap => hcap⟩, hpolicy,
      .inr ⟨happroval, _, rfl, rfl⟩⟩
    rw [hclock, Option.mem_def.mp hd]
    exact Int.le_refl d
  have hi : Inferred deps request i := by
    subst hdeps
    exact ⟨rfl, rfl⟩
  have hspent : spent deps i = ⟨0, 0, 0⟩ := by
    unfold spent secondsBetween
    rw [hclock, hclock, Int.sub_self]
    decide +kernel
  have hwithin : WithinBudget deps request i := by
    refine ⟨?_, ?_, ?_⟩
    · rw [hspent]
      exact Rat.le_of_lt hbudget.tokens
    · rw [hspent]
      exact Rat.le_of_lt hbudget.cost
    · rw [hspent]
      exact Rat.le_of_lt hbudget.duration
  obtain ⟨output, houtput⟩ : ∃ output, decision deps request g i = .ok output := by
    unfold decision
    rw [happroved.decides]
    exact exists_policyAwareDecide _
  have houtcome := (decision_approved happroved hg hi houtput).mpr hautonomous
  unfold decision at houtput
  have hsaved : ∀ state, deps.saveCheckpoint state = none := by
    rw [← hdeps]
    exact fun _ => rfl
  unfold execute
  rw [hsaved, exec_body hg hi hwithin]
  unfold act awaitApproval saveCheckpoint onState
  simp only [exec_bind, exec_call_ok _ houtput, houtcome, exec_modify, exec_get, hsaved,
    exec_pure, exec_throw, conclude]
  exact ⟨_, rfl, rfl⟩

/-- **Whatever the other dependencies answer, an execution with a bound approval completes iff it
is autonomous enough for its risk, or its budget lets it not even start.** -/
theorem approval_suffices_iff (collation : String → String → Bool) (decisionId : String)
    (store : PolicyStore) (request : AIExecutionRequest) {policyDecision : PolicyDecision}
    (hpolicy : policyClient collation decisionId store request = .ok policyDecision)
    (happroval : policyDecision.outcome = .requireApproval) :
    (∀ deps, Approved collation decisionId store request deps → Completes deps request) ↔
      (PositiveBudget request.budget → Autonomous request) := by
  constructor
  · intro hall hbudget
    by_contra hautonomous
    obtain ⟨answer, hanswer, hstatus⟩ :=
      awaits_agreeingDeps hpolicy happroval hbudget hautonomous
    exact (hall _ (approved_agreeingDeps hpolicy) answer hanswer).1 hstatus
  · exact fun hautonomous deps happroved => completes_of_autonomous happroved hautonomous

/-! ### Autonomy levels 1 and 2 -/

/-- A research task of medium risk. -/
def researchTask (autonomyLevel : Rat) : AIExecutionRequest where
  executionId := "e1"
  tenantId := "t1"
  missionId := "m1"
  agentId := "a1"
  agentVersion := "1.0.0"
  taskType := "research"
  capabilities := ["research"]
  autonomyLevel := .finite autonomyLevel
  riskCategory := "MEDIUM"
  toolId := none
  taskId := "task-1"
  budget := ⟨10000, 5, 600⟩
  deadline := none
  idempotencyKey := "k1"

/-- Tasks of medium risk need an approval. -/
def approvalStore : PolicyStore where
  stop := .stopped false
  table := []
  autonomyRule := some ⟨"r1", "t1", 2, "MEDIUM", .requireApproval, 1 / 2⟩

theorem policyClient_researchTask (autonomyLevel : Rat) (h : autonomyLevel ∈ [(1 : Rat), 2]) :
    policyClient (fun _ _ => true) "d1" approvalStore (researchTask autonomyLevel) =
      .ok ⟨"d1", .requireApproval, some "research", ["research"]⟩ := by
  have hbase : ControlPlane.tightenOutcome .allow (ControlPlane.tightenOutcome
      (ControlPlane.evaluateAutonomy (.finite autonomyLevel) "MEDIUM" (.finite 1) .allow)
        .requireApproval) = .requireApproval := by
    simp only [List.mem_cons, List.not_mem_nil, or_false] at h
    rcases h with rfl | rfl
    · decide +kernel
    · decide +kernel
  simp only [policyClient, ControlPlane.evaluate, approvalStore, ControlPlane.findRules,
    List.filter_nil, List.mergeSort_nil, List.map_nil, List.length_nil, if_true, researchTask,
    ne_eq, not_true_eq_false, if_false, hbase]
  rfl

/-- Level 2 is enough for medium risk: with a bound approval, the task completes. -/
theorem approval_suffices_level2 :
    Autonomous (researchTask 2) ∧
      ∀ deps, Approved (fun _ _ => true) "d1" approvalStore (researchTask 2) deps →
        Completes deps (researchTask 2) := by
  have hautonomous : Autonomous (researchTask 2) := by decide +kernel
  exact ⟨hautonomous,
    (approval_suffices_iff _ _ _ _ (policyClient_researchTask 2 (by simp)) rfl).mpr
      fun _ => hautonomous⟩

/-- **At level 1 the approved task waits for approval again.** -/
theorem approval_loop :
    let deps := agreeingDeps (fun _ _ => true) "d1" approvalStore (researchTask 1)
    Approved (fun _ _ => true) "d1" approvalStore (researchTask 1) deps ∧
      ∃ answer, (execute deps (researchTask 1)).2 = .ok answer ∧
        answer.status = .awaitingApproval := by
  have hpolicy := policyClient_researchTask 1 (by simp)
  exact ⟨approved_agreeingDeps hpolicy,
    awaits_agreeingDeps hpolicy rfl ⟨by decide, by norm_num [researchTask], by decide⟩
      fun hautonomous => absurd hautonomous.1 (by norm_num [researchTask, JsNumber.lt])⟩

end

end VegaRevenue.AiRuntime
