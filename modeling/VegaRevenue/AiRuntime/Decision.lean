import VegaRevenue.AiRuntime.AgentExecutor

/-!
# The decision engine

`PolicyAwareDecisionEngine.decide`: which approvals an execution needs after its reasoning.

* `neededApprovals_eq_nil` — no approval is needed iff nothing asks for one
* `policyAwareDecide_eq` — what is not denied is allowed iff no approval is needed
-/

namespace VegaRevenue.AiRuntime

/-- `Set.add`; the elements come in the order they were added. -/
def addOnce (names : List String) (name : String) : List String :=
  if name ∈ names then names else names ++ [name]

/-- `HIGH` and `CRITICAL`, as they are written. -/
def highRiskCategories : List String := ["HIGH", "CRITICAL"]

/-- The approvals an execution needs. -/
def neededApprovals (request : DecisionRequest) : List String :=
  let autonomy := request.execution.autonomyLevel
  let risk := request.execution.riskCategory
  let approvals := (request.reasoning.requiredApprovals.getD []).foldl addOnce []
  let approvals :=
    if request.policyDecision.outcome = .requireApproval then addOnce approvals "policy"
    else approvals
  let approvals :=
    if risk ∈ highRiskCategories ∧ autonomy.lt (.finite 4) then
      addOnce approvals ("high-risk-" ++ risk.toLower)
    else approvals
  let approvals :=
    if autonomy.lt (.finite 2) then addOnce approvals "autonomy-level" else approvals
  if request.reasoning.confidence < 1 / 2 then addOnce approvals "low-confidence" else approvals

/-- `decide`; the execution is one of the caller's tenant. -/
def policyAwareDecide (request : DecisionRequest) : Except String DecisionOutput :=
  if request.policyDecision.outcome = .deny then
    .ok ⟨.deny, [], [], "Policy denied execution; decision engine cannot override."⟩
  else
    let approvals := neededApprovals request
    if 0 < approvals.length then
      .ok ⟨.requireApproval, request.policyDecision.capabilities, approvals,
        "Execution requires explicit approval before proceeding."⟩
    else
      .ok ⟨.allow, request.policyDecision.capabilities, [],
        "Policy allowed and all autonomy/confidence checks passed."⟩

/-! ## Which approvals are needed -/

theorem addOnce_ne_nil (names : List String) (name : String) : addOnce names name ≠ [] := by
  unfold addOnce
  split
  next h => exact List.ne_nil_of_mem h
  · simp

theorem foldl_addOnce_eq_nil {names added : List String} :
    added.foldl addOnce names = [] ↔ names = [] ∧ added = [] := by
  induction added generalizing names with
  | nil => simp
  | cons name added ih => simp [ih, addOnce_ne_nil]

theorem ite_addOnce_eq_nil {p : Prop} [Decidable p] {names : List String} {name : String} :
    (if p then addOnce names name else names) = [] ↔ ¬p ∧ names = [] := by
  by_cases hp : p
  · simp [hp, addOnce_ne_nil]
  · simp [hp]

/-- The execution is autonomous enough for its risk. -/
def Autonomous (execution : AIExecutionRequest) : Prop :=
  execution.autonomyLevel.lt (.finite 2) = false ∧
    (execution.riskCategory ∈ highRiskCategories →
      execution.autonomyLevel.lt (.finite 4) = false)

instance (execution : AIExecutionRequest) : Decidable (Autonomous execution) :=
  inferInstanceAs (Decidable (_ ∧ (_ → _)))

/-- **No approval is needed iff nothing asks for one.** -/
theorem neededApprovals_eq_nil {request : DecisionRequest} :
    neededApprovals request = [] ↔
      request.reasoning.requiredApprovals.getD [] = [] ∧
        request.policyDecision.outcome ≠ .requireApproval ∧ Autonomous request.execution ∧
        ¬request.reasoning.confidence < 1 / 2 := by
  unfold neededApprovals Autonomous
  simp only [ite_addOnce_eq_nil, foldl_addOnce_eq_nil, Bool.not_eq_true, not_and]
  tauto

theorem exists_policyAwareDecide (request : DecisionRequest) :
    ∃ output, policyAwareDecide request = .ok output := by
  unfold policyAwareDecide
  dsimp only
  split
  · exact ⟨_, rfl⟩
  · split
    · exact ⟨_, rfl⟩
    · exact ⟨_, rfl⟩

/-- A decision that the policy did not deny is allowed where no approval is needed. -/
theorem policyAwareDecide_eq {request : DecisionRequest} {output : DecisionOutput}
    (h : policyAwareDecide request = .ok output) :
    request.policyDecision.outcome = .deny ∧ output.outcome = .deny ∨
      request.policyDecision.outcome ≠ .deny ∧
        (neededApprovals request = [] ∧ output.outcome = .allow ∨
          neededApprovals request ≠ [] ∧ output.outcome = .requireApproval) := by
  unfold policyAwareDecide at h
  split at h
  next hdeny =>
    cases h
    exact .inl ⟨hdeny, rfl⟩
  next hdeny =>
    refine .inr ⟨hdeny, ?_⟩
    dsimp only at h
    split at h
    next hsome =>
      cases h
      exact .inr ⟨List.length_pos_iff.mp hsome, rfl⟩
    next hnone =>
      cases h
      exact .inl ⟨not_not.mp fun hne => hnone (List.length_pos_iff.mpr hne), rfl⟩

end VegaRevenue.AiRuntime
