import VegaRevenue.AiRuntime.Endings
import VegaRevenue.SpecialistAgents.BaseSpecialist

/-!
# The model usage of an execution

The executor with the reasoning engine and with specialists that make no model call: every model
call of an execution is a call of its reasoning. What the calls used is the sum over the answers of
the router.

* `Conserved` — the usage is reported in full and consumed once
* `accounted_once`, `accounted_twice` — what the endings consume
* `conserved_iff` — when the usage is conserved
-/

namespace VegaRevenue.AiRuntime

open LlmGateway (LLMProviderResult Charge)
open SpecialistAgents (BaseSpecialist)
open MissionExecution (AIExecutionStatus)

/-! ## The wiring -/

/-- An executor with its engine and its specialists. -/
structure ExecutionWiring where
  deps : AgentExecutorDeps
  engine : ProductionReasoningEngineDeps
  specialists : (implementationKey : String) → Except String (Option BaseSpecialist)

namespace ExecutionWiring

variable (w : ExecutionWiring) (request : AIExecutionRequest)

def executor : AgentExecutorDeps :=
  { w.deps with
    reason := reason w.engine
    resolve := fun key => (w.specialists key).map (Option.map BaseSpecialist.execute) }

theorem resolve_ok {key : String} {implementation : AgentImplementation}
    (h : w.executor.resolve key = .ok (some implementation)) :
    ∃ specialist : BaseSpecialist, implementation = specialist.execute := by
  simp only [executor] at h
  cases hspecialist : w.specialists key with
  | error message =>
    rw [hspecialist] at h
    cases h
  | ok found =>
    rw [hspecialist] at h
    cases found with
    | none => cases h
    | some specialist =>
      cases h
      exact ⟨specialist, rfl⟩

end ExecutionWiring

def ExecutionBudget.charge (budget : ExecutionBudget) : Charge :=
  ⟨budget.maxCostUsd, budget.maxTokens⟩

/-! ## Conservation -/

section

variable (w : ExecutionWiring) (request : AIExecutionRequest)

/-- The answers of the router to the calls made in one call of the executor. -/
def Effect.routerAnswers : Effect → List LLMProviderResult
  | .reason r => AiRuntime.routerAnswers w.engine r
  | _ => []

/-- The reasoning reports what its calls used, and it is consumed once. -/
structure Accounted (effects : List Effect) (consumed : ExecutionBudget) : Prop where
  reported : ∀ r, .reason r ∈ effects → ∀ output, reason w.engine r = .ok output →
    output.usage.charge = totalCharge (routerAnswers w.engine r)
  consumed : consumed.charge = totalCharge (effects.flatMap (Effect.routerAnswers w))

/-- The log an execution leaves. -/
def executionLog : Log := (execute w.executor request).1

def Conserved : Prop :=
  Accounted w (executionLog w request).effects (executionLog w request).state.budgetConsumed

/-! ## When it holds -/

/-- The execution reaches the reasoning with a context. -/
structure ReachesReasoning (promptContext : PromptContext) : Prop where
  saved : w.deps.saveCheckpoint (startLog request).state = none
  governed : ∃ g, Governed w.executor request g
  assemble : w.deps.assemble request = .ok promptContext

/-- A specialist is handed the reasoning, and its result is saved and consumed. -/
def SettlesSpecialist : Prop :=
  ∃ g i implementation state result, Admitted w.executor request g i implementation ∧
    implementation request (specialistRuntime w.executor request g i) = (state, .ok result) ∧
    w.deps.saveCheckpoint (state.transition result.status) = none

/-- Nothing of a reasoning is left out: the answers that were refused used nothing, no answer that
used anything is lost in a throw, and where the result of a specialist is consumed, the answer
before it used nothing. -/
structure NothingUncounted (r : ReasoningRequest) : Prop where
  refused : ∀ output, reason w.engine r = .ok output → totalCharge (rejectedAnswers w.engine r) = 0
  lost : ∀ message, reason w.engine r = .error message →
    totalCharge (routerAnswers w.engine r) = 0
  twice : SettlesSpecialist w request → totalCharge (lastAnswer w.engine r).toList = 0

def NothingLost : Prop := ∀ promptContext, ReachesReasoning w request promptContext →
  NothingUncounted w request (firstReasoning request promptContext)

variable {w request}

/-! ## The answers of a log -/

theorem accounted_of_saved (status : AIExecutionStatus) (calls : List Effect)
    (saved : List AIExecutionStatus) (consumed : ExecutionBudget) :
    Accounted w (.saveCheckpoint status :: calls ++ saved.map Effect.saveCheckpoint) consumed ↔
      Accounted w calls consumed := by
  have hanswers : (Effect.saveCheckpoint status :: calls ++
      saved.map Effect.saveCheckpoint).flatMap (Effect.routerAnswers w) =
        calls.flatMap (Effect.routerAnswers w) := by
    simp [List.flatMap_append, List.flatMap_map, Effect.routerAnswers]
  have hreasons : ∀ r, Effect.reason r ∈ (Effect.saveCheckpoint status :: calls ++
      saved.map Effect.saveCheckpoint) ↔ Effect.reason r ∈ calls := by
    simp
  constructor
  · intro h
    refine ⟨fun r hr => h.reported r ((hreasons r).mpr hr), ?_⟩
    rw [h.consumed, hanswers]
  · intro h
    refine ⟨fun r hr => h.reported r ((hreasons r).mp hr), ?_⟩
    rw [h.consumed, hanswers]

/-- Calls without a reasoning have no answers of the router. -/
theorem routerAnswers_of_no_reason {calls : List Effect} (h : ∀ r, .reason r ∉ calls) :
    calls.flatMap (Effect.routerAnswers w) = [] := by
  rw [List.flatMap_eq_nil_iff]
  intro e he
  cases e with
  | reason r => exact absurd he (h r)
  | _ => rfl

theorem reason_not_mem_calls (g : Governance) (r : ReasoningRequest) : .reason r ∉ g.calls := by
  unfold Governance.calls
  cases g.approvalEvidence <;> simp

theorem accounted_unreasoned {calls : List Effect} (h : ∀ r, .reason r ∉ calls) :
    Accounted w calls ⟨0, 0, 0⟩ where
  reported := fun r hr => absurd hr (h r)
  consumed := by
    rw [routerAnswers_of_no_reason h]
    rfl

/-- The calls of an execution that reasons once are accounted for by that reasoning. -/
theorem accounted_reasoned (g : Governance) (r : ReasoningRequest) {rest : List Effect}
    (hrest : ∀ r, .reason r ∉ rest) (consumed : ExecutionBudget) :
    Accounted w (g.calls ++ [.assembleContext] ++ [.reason r] ++ rest) consumed ↔
      (∀ output, reason w.engine r = .ok output →
        output.usage.charge = totalCharge (routerAnswers w.engine r)) ∧
      consumed.charge = totalCharge (routerAnswers w.engine r) := by
  have hanswers : (g.calls ++ [Effect.assembleContext] ++ [Effect.reason r] ++ rest).flatMap
      (Effect.routerAnswers w) = routerAnswers w.engine r := by
    rw [List.flatMap_append, List.flatMap_append, List.flatMap_append,
      routerAnswers_of_no_reason (reason_not_mem_calls g), routerAnswers_of_no_reason hrest,
      List.append_nil]
    exact List.append_nil _
  constructor
  · intro h
    rw [← hanswers]
    refine ⟨fun output houtput => ?_, h.consumed⟩
    rw [hanswers]
    exact h.reported r (by simp) output houtput
  · intro h
    refine ⟨fun r' hr' => ?_, by rw [hanswers]; exact h.2⟩
    have hsame : r' = r := by
      simpa [reason_not_mem_calls, hrest] using hr'
    rw [hsame]
    exact h.1

/-! ## What is left out -/

theorem reachesReasoning_unique {promptContext promptContext' : PromptContext}
    (h : ReachesReasoning w request promptContext)
    (h' : ReachesReasoning w request promptContext') : promptContext' = promptContext :=
  Except.ok.inj (h'.assemble.symm.trans h.assemble)

/-- Of an execution that reaches its reasoning, that reasoning is all there is to look at. -/
theorem nothingLost_iff {promptContext : PromptContext}
    (h : ReachesReasoning w request promptContext) :
    NothingLost w request ↔ NothingUncounted w request (firstReasoning request promptContext) := by
  constructor
  · exact fun hall => hall promptContext h
  · intro hone promptContext' h'
    rw [reachesReasoning_unique h h']
    exact hone

theorem nothingLost_of_not_reaches
    (h : ∀ promptContext, ¬ReachesReasoning w request promptContext) :
    NothingLost w request :=
  fun promptContext hreaches => absurd hreaches (h promptContext)

/-- A specialist that settles was admitted with what the checks and the reasoning gave. -/
theorem settlesSpecialist_admitted {g : Governance} {i : Inference}
    (hg : Governed w.executor request g) (hi : Inferred w.executor request i)
    (h : SettlesSpecialist w request) :
    ∃ implementation state result, Admitted w.executor request g i implementation ∧
      implementation request (specialistRuntime w.executor request g i) = (state, .ok result) ∧
      w.deps.saveCheckpoint (state.transition result.status) = none := by
  obtain ⟨g', i', implementation, state, result, hadmitted, hsaid, hsaved⟩ := h
  obtain rfl := hg.unique hadmitted.governed
  obtain rfl := hi.unique hadmitted.inferred
  exact ⟨implementation, state, result, hadmitted, hsaid, hsaved⟩

section Reasoned

variable {g : Governance} {i : Inference}

theorem reason_of_inferred (hi : Inferred w.executor request i) :
    reason w.engine (firstReasoning request i.promptContext) = .ok i.reasoningOutput := hi.reason

theorem reachesReasoning_of_inferred
    (hsaved : w.deps.saveCheckpoint (startLog request).state = none)
    (hg : Governed w.executor request g) (hi : Inferred w.executor request i) :
    ReachesReasoning w request i.promptContext :=
  ⟨hsaved, ⟨g, hg⟩, hi.assemble⟩

theorem charge_spent (hi : Inferred w.executor request i) :
    (spent w.executor i).charge =
      totalCharge (lastAnswer w.engine (firstReasoning request i.promptContext)).toList :=
  reason_usage (reason_of_inferred hi)

/-- **A reasoning that is consumed once** is accounted for where the refused answers used
nothing. -/
theorem accounted_once (hsaved : w.deps.saveCheckpoint (startLog request).state = none)
    (hg : Governed w.executor request g) (hi : Inferred w.executor request i)
    (hnot : ¬SettlesSpecialist w request) {rest : List Effect} (hrest : ∀ r, .reason r ∉ rest) :
    Accounted w (modelCalls request g i ++ rest) (spent w.executor i) ↔ NothingLost w request := by
  have hreason := reason_of_inferred hi
  unfold modelCalls
  rw [accounted_reasoned g _ hrest, nothingLost_iff (reachesReasoning_of_inferred hsaved hg hi)]
  constructor
  · intro h
    exact ⟨fun output houtput => (reason_usage_iff houtput).mp (h.1 output houtput),
      fun message herror => absurd (hreason.symm.trans herror) nofun, fun hsettles =>
        absurd hsettles hnot⟩
  · intro h
    have hreported := fun output houtput =>
      (reason_usage_iff houtput).mpr (h.refused output houtput)
    exact ⟨hreported, hreported _ hreason⟩

/-- **A reasoning that is consumed twice** is accounted for where its calls used nothing. -/
theorem accounted_twice (hsaved : w.deps.saveCheckpoint (startLog request).state = none)
    (hg : Governed w.executor request g) (hi : Inferred w.executor request i)
    (hsettles : SettlesSpecialist w request) {rest : List Effect} (hrest : ∀ r, .reason r ∉ rest)
    {consumed : ExecutionBudget}
    (hconsumed : consumed.charge =
      (spent w.executor i).charge + (spent w.executor i).charge) :
    Accounted w (modelCalls request g i ++ rest) consumed ↔ NothingLost w request := by
  have hreason := reason_of_inferred hi
  unfold modelCalls
  rw [accounted_reasoned g _ hrest, nothingLost_iff (reachesReasoning_of_inferred hsaved hg hi),
    hconsumed]
  constructor
  · intro h
    have hreported := h.1 _ hreason
    have hdouble : i.reasoningOutput.usage.charge + i.reasoningOutput.usage.charge =
        i.reasoningOutput.usage.charge := h.2.trans hreported.symm
    have hnothing : i.reasoningOutput.usage.charge = 0 := left_eq_add.mp hdouble.symm
    exact ⟨fun output houtput => (reason_usage_iff houtput).mp (h.1 output houtput),
      fun message herror => absurd (hreason.symm.trans herror) nofun,
      fun _ => (reason_usage hreason).symm.trans hnothing⟩
  · intro h
    have hreported := fun output houtput =>
      (reason_usage_iff houtput).mpr (h.refused output houtput)
    refine ⟨hreported, ?_⟩
    rw [← hreported _ hreason, charge_spent hi, reason_usage hreason, h.twice hsettles]
    exact add_zero 0

theorem specialistCalls_eq : specialistCalls request g i =
    modelCalls request g i ++ [.decide, .resolveImplementation, .executeSpecialist] := by
  simp [specialistCalls]

variable {implementation : AgentImplementation} {state : ExecutionState}

/-- A specialist leaves what the reasoning consumed. -/
theorem handed_budgetConsumed {said : Except String AIExecutionResult}
    (h : Admitted w.executor request g i implementation)
    (hsaid : implementation request (specialistRuntime w.executor request g i) = (state, said)) :
    state.budgetConsumed = spent w.executor i := by
  obtain ⟨specialist, rfl⟩ := ExecutionWiring.resolve_ok w h.resolved
  have hkept := specialist.execute_budgetConsumed request
    (specialistRuntime w.executor request g i)
  rw [hsaid] at hkept
  exact hkept.trans (handedState_budgetConsumed i)

/-- The result of a specialist consumes the usage of the reasoning again. -/
theorem settled_charge {result : AIExecutionResult}
    (h : Admitted w.executor request g i implementation)
    (hsaid : implementation request (specialistRuntime w.executor request g i) =
      (state, .ok result)) (seconds : Rat) :
    (state.consumeBudget result.modelUsage.tokens result.modelUsage.costUsd
        seconds).budgetConsumed.charge =
      (spent w.executor i).charge + (spent w.executor i).charge := by
  have hkept := handed_budgetConsumed h hsaid
  obtain ⟨specialist, rfl⟩ := ExecutionWiring.resolve_ok w h.resolved
  have husage : result.modelUsage.charge = (spent w.executor i).charge :=
    BaseSpecialist.execute_ok hsaid
  rw [← hkept]
  rw [← hkept] at husage
  exact congrArg (state.budgetConsumed.charge + ·) husage

end Reasoned

/-! ## Every execution -/

theorem reason_not_mem_of_isPrefix {calls calls' : List Effect} (h : calls <+: calls')
    (hnone : ∀ r, .reason r ∉ calls') (r : ReasoningRequest) : .reason r ∉ calls :=
  fun hr => hnone r (h.subset hr)

/-- The usage of an ending is conserved where nothing was left out. -/
theorem accounted_ending (hsaved : w.deps.saveCheckpoint (startLog request).state = none)
    {calls : List Effect} {consumed : ExecutionBudget} {answer : AIExecutionResult}
    (h : Ending w.executor request calls consumed answer) :
    Accounted w calls consumed ↔ NothingLost w request := by
  cases h with
  | refused hnot hcalls hstatus =>
    have hnone := reason_not_mem_of_isPrefix hcalls (by simp)
    exact iff_of_true (accounted_unreasoned hnone)
      (nothingLost_of_not_reaches fun promptContext hreaches =>
        hreaches.governed.elim fun g hg => hnot g hg)
  | @unassembled g _ hg hnot hstatus =>
    have hnone : ∀ r, .reason r ∉ g.calls ++ [.assembleContext] := by
      simp [reason_not_mem_calls]
    exact iff_of_true (accounted_unreasoned hnone)
      (nothingLost_of_not_reaches fun promptContext hreaches => hnot _ hreaches.assemble)
  | @unreasoned g promptContext message _ hg hassemble hreason hstatus =>
    have hreaches : ReachesReasoning w request promptContext := ⟨hsaved, ⟨g, hg⟩, hassemble⟩
    have herror : reason w.engine (firstReasoning request promptContext) = .error message := hreason
    have hfails : ¬∃ output,
        reason w.engine (firstReasoning request promptContext) = .ok output := by
      rintro ⟨output, hok⟩
      rw [herror] at hok
      cases hok
    rw [nothingLost_iff hreaches]
    rw [← List.append_nil (_ ++ [Effect.reason _]), accounted_reasoned g _ (by simp)]
    constructor
    · intro hcounted
      refine ⟨fun output hok => absurd ⟨output, hok⟩ hfails, fun _ _ => hcounted.2.symm, ?_⟩
      rintro ⟨g', i, implementation, state, result, hadmitted, -⟩
      have hcontext : i.promptContext = promptContext :=
        Except.ok.inj (hadmitted.inferred.assemble.symm.trans hassemble)
      rw [← hcontext] at hfails
      exact absurd ⟨_, reason_of_inferred hadmitted.inferred⟩ hfails
    · intro hnothing
      exact ⟨fun output hok => absurd ⟨output, hok⟩ hfails, (hnothing.lost message herror).symm⟩
  | overspent hg hi hnot hstatus =>
    have hunsettled : ¬SettlesSpecialist w request := by
      intro hsettles
      obtain ⟨_, _, _, hadmitted, -⟩ := settlesSpecialist_admitted hg hi hsettles
      exact hnot hadmitted.within
    have hnone : ∀ r, Effect.reason r ∉ [] := fun _ => List.not_mem_nil
    rw [← accounted_once hsaved hg hi hunsettled hnone, List.append_nil]
  | undecided hg hi hnot hcalls hstatus =>
    have hunsettled : ¬SettlesSpecialist w request := by
      intro hsettles
      obtain ⟨_, _, _, hadmitted, -⟩ := settlesSpecialist_admitted hg hi hsettles
      exact hnot _ hadmitted
    exact accounted_once hsaved hg hi hunsettled (reason_not_mem_of_isPrefix hcalls (by simp))
  | unsettled hadmitted hsaid hlost hstatus =>
    have hunsettled : ¬SettlesSpecialist w request := by
      intro hsettles
      obtain ⟨implementation', state', result, hadmitted', hsaid', hsaved'⟩ :=
        settlesSpecialist_admitted hadmitted.governed hadmitted.inferred hsettles
      obtain rfl : implementation' = _ :=
        Option.some.inj (Except.ok.inj (hadmitted'.resolved.symm.trans hadmitted.resolved))
      rw [hsaid] at hsaid'
      cases hsaid'
      have hnone := hlost result rfl
      rw [show w.executor.saveCheckpoint _ = none from hsaved'] at hnone
      cases hnone
    rw [specialistCalls_eq, handed_budgetConsumed hadmitted hsaid]
    exact accounted_once hsaved hadmitted.governed hadmitted.inferred hunsettled (by simp)
  | settled hadmitted hsaid hcheckpoint hstatus =>
    rw [specialistCalls_eq]
    exact accounted_twice hsaved hadmitted.governed hadmitted.inferred
      ⟨_, _, _, _, _, hadmitted, hsaid, hcheckpoint⟩ (by simp)
      (settled_charge hadmitted hsaid _)

variable (w request) in
/-- **The usage of an execution is conserved exactly where no answer that used anything was refused,
lost in a throw, or counted again with a specialist.** -/
theorem conserved_iff : Conserved w request ↔ NothingLost w request := by
  unfold Conserved executionLog
  cases hsaved : w.deps.saveCheckpoint (startLog request).state with
  | some message =>
    rw [execute_unsaved (show w.executor.saveCheckpoint _ = some message from hsaved)]
    refine iff_of_true (accounted_unreasoned (by simp [startLog])) ?_
    refine nothingLost_of_not_reaches fun promptContext hreaches => ?_
    cases hsaved.symm.trans hreaches.saved
  | none =>
    obtain ⟨answer, -, calls, saved, heffects, hend⟩ :=
      execute_ending (show w.executor.saveCheckpoint _ = none from hsaved)
    dsimp only at heffects hend
    rw [heffects, accounted_of_saved]
    exact accounted_ending hsaved hend

end

/-! ## A repaired reasoning -/

/-- An answer of a model with what it used. -/
def modelAnswer (content : String) (structured : Option Json) (inputTokens outputTokens : Rat)
    (costUsd : Rat) : LLMProviderResult where
  providerId := "anthropic"
  modelId := "claude"
  providerRequestId := "req"
  content := content
  structured := structured
  inputTokens := inputTokens
  outputTokens := outputTokens
  totalTokens := inputTokens + outputTokens
  costUsd := costUsd
  latencyMs := 100
  finishReason := "stop"

def researchOutput : Json :=
  .obj [("rationale", .str "known"), ("conclusion", .str "fit"), ("confidence", .num (9 / 10)),
    ("evidence", .arr [.str "site"])]

/-- The first answer is prose, the second one an object. -/
def repairingEngine : ProductionReasoningEngineDeps where
  invoke request :=
    if request.llmCallId = some "k1:reasoning:0" then
      .ok (modelAnswer "They fit." none 6 4 (1 / 100))
    else .ok (modelAnswer "" (some researchOutput) 10 20 (2 / 100))
  validate _ raw :=
    match raw with
    | .obj _ => .ok { valid := true }
    | _ => .ok { valid := false, schemaViolations := some ["Output must be an object"] }
  save _ := none
  parse _ := none
  stringify _ := ""
  numberText _ := ""

def researchSpecialist : BaseSpecialist where
  implementationKey := "specialist.research.v1"
  capabilities := ["research", "company_research", "market_research"]
  completedAt _ := 1000
  executeCore _ runtime :=
    (runtime.executionState, .ok { summary := runtime.reasoningOutput.conclusion })
  makesNoModelCall _ _ := rfl

def repairingWiring : ExecutionWiring where
  deps := {
    clock := fun _ => 0
    saveCheckpoint := fun _ => none
    getAgent := fun _ => .ok (some ⟨"1.0.0", .active, "specialist.research.v1", ["research"]⟩)
    evaluate := fun _ => .ok ⟨"d1", .allow, some "research", ["research"]⟩
    approvalBinding := none
    assemble := fun _ => .ok { userMessage := "research", toolsAvailable := [] }
    reason := fun _ => .error ""
    decide := fun _ => .ok ⟨.allow, ["research"], [], "allowed"⟩
    resolve := fun _ => .ok none }
  engine := repairingEngine
  specialists _ := .ok (some researchSpecialist)

def researchRequest : AIExecutionRequest where
  executionId := "e1"
  tenantId := "t1"
  missionId := "m1"
  agentId := "a1"
  agentVersion := "1.0.0"
  taskType := "research"
  capabilities := ["research"]
  autonomyLevel := .finite 3
  riskCategory := "LOW"
  toolId := none
  taskId := "task-1"
  budget := ⟨1000, 1, 600⟩
  deadline := none
  idempotencyKey := "k1"

/-- What the reasoning reports in one call of the executor. -/
def Effect.reportedCharge (w : ExecutionWiring) : Effect → Option Charge
  | .reason r => (AiRuntime.reason w.engine r).toOption.map (·.usage.charge)
  | _ => none

/-- **Of 40 tokens the reasoning reports 30, and the execution consumes 60.** -/
theorem repaired_not_conserved :
    ¬Conserved repairingWiring researchRequest ∧
      ((executionLog repairingWiring researchRequest).effects.flatMap
          (Effect.routerAnswers repairingWiring)).map answerCharge =
        [⟨1 / 100, 10⟩, ⟨2 / 100, 30⟩] ∧
      (executionLog repairingWiring researchRequest).effects.filterMap
          (Effect.reportedCharge repairingWiring) = [⟨2 / 100, 30⟩] ∧
      (executionLog repairingWiring researchRequest).state.budgetConsumed.charge =
        ⟨4 / 100, 60⟩ := by
  have hconsumed : (executionLog repairingWiring researchRequest).state.budgetConsumed.charge =
      ⟨4 / 100, 60⟩ := by decide +kernel
  have hanswers : ((executionLog repairingWiring researchRequest).effects.flatMap
      (Effect.routerAnswers repairingWiring)).map answerCharge =
        [⟨1 / 100, 10⟩, ⟨2 / 100, 30⟩] := by decide +kernel
  refine ⟨fun h => ?_, hanswers, by decide +kernel, hconsumed⟩
  have hsum := h.consumed
  unfold totalCharge at hsum
  rw [hconsumed, hanswers] at hsum
  exact absurd hsum (by decide +kernel)

end VegaRevenue.AiRuntime
