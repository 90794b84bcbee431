import VegaRevenue.ControlPlane.Policy
import VegaRevenue.Lib.Greatest

/-!
# Policy evaluation is the upper bound of the restrictions

The restrictions on a request are the outcomes of the rules that apply to it, the ceiling of its
autonomy level and the outcome its autonomy rule requires.

* `evaluate_isGreatest` — the answer is the greatest restriction of the rules that are selected
* `exactUpperBound_iff` — it is the greatest of those that apply iff no rule of another tool is
  more restrictive than all of them
* `not_exactUpperBound_otherTool` — a rule of another tool denies a request
-/

namespace VegaRevenue.ControlPlane

open Greatest (isGreatest_foldl_max isGreatest_iff_isCofinalFor)

/-- The rule is the system's or the tenant's, and every dimension it sets is the request's. -/
structure Applies (request : AIExecutionRequest) (row : PolicyRow) : Prop where
  tenant : row.isSystem = true ∨ row.tenantId = some request.tenantId
  mission : ∀ m ∈ row.missionId, m = request.missionId
  agent : ∀ a ∈ row.agentId, a = request.agentId
  capability : ∀ c ∈ row.capability, c ∈ request.capabilities
  riskCategory : ∀ r ∈ row.riskCategory, r = request.riskCategory
  tool : ∀ t ∈ row.toolId, request.toolId = some t

/-- The restrictions on a request, where the rules are those with `p`. -/
def Situation.restrictions (x : Situation) (p : PolicyRow → Prop) : Set PolicyOutcome :=
  {o | (∃ row ∈ x.table, p row ∧ o = row.outcome) ∨
    o = evaluateAutonomy x.request.autonomyLevel x.request.riskCategory (.finite 1) .allow ∨
    ∃ rule ∈ x.autonomyRule, o = rule.requiredOutcome}

/-- The evaluation of a request in the context of its tenant answers `o`. -/
def Returns (collation : String → String → Bool) (x : Situation) (o : PolicyOutcome) : Prop :=
  ∃ decision, evaluate collation x.request.tenantId x = .ok decision ∧ decision.outcome = o

/-- What a row restricts; its scope, its priority and its names left out. -/
def PolicyRow.restriction (row : PolicyRow) :=
  (row.isSystem, row.tenantId, row.missionId, row.agentId, row.capability, row.toolId,
    row.riskCategory, row.outcome)

/-- Policy evaluation is the exact upper bound of all restrictions. -/
structure ExactUpperBound (collation : String → String → Bool) (x : Situation) : Prop where
  /-- A stop that is active or unknown denies. -/
  stopped : x.stop ≠ .stopped false → Returns collation x .deny
  /-- Otherwise the answer is the most restrictive of all restrictions that apply. -/
  exact : x.stop = .stopped false → ∃ o, Returns collation x o ∧
    IsGreatest (x.restrictions (Applies x.request)) o
  /-- Order, scope and priority of the rules do not matter. -/
  unordered : ∀ collation' table' o, (table'.map PolicyRow.restriction).Perm
      (x.table.map PolicyRow.restriction) →
    Returns collation x o → Returns collation' { x with table := table' } o
  /-- A further rule never makes the answer less restrictive. -/
  rule_tightens : ∀ row o o', Returns collation x o →
    Returns collation { x with table := row :: x.table } o' → o ≤ o'
  /-- Nor does an autonomy rule. -/
  autonomyRule_tightens : ∀ rule o o', x.autonomyRule = none → Returns collation x o →
    Returns collation { x with autonomyRule := some rule } o' → o ≤ o'
  /-- A stored rule that does not apply does not matter. -/
  foreign : ∀ before row after o, x.table = before ++ row :: after → ¬ Applies x.request row →
    Returns collation x o → Returns collation { x with table := before ++ after } o

/-- Where no stop is active, no rule of another tool that is selected is more restrictive than
every restriction that applies. -/
def OtherToolsDominated (x : Situation) : Prop :=
  x.stop = .stopped false → ∀ row ∈ x.table, row.selected x.request.tenantId x.request = true →
    (∃ t ∈ row.toolId, x.request.toolId ≠ some t) →
    ∃ o ∈ x.restrictions (Applies x.request), row.outcome ≤ o

/-! ## Rules that are selected -/

section

variable {collation : String → String → Bool} {x : Situation} {row : PolicyRow} {o : PolicyOutcome}

theorem unsetOr_iff {column : Option String} {value : String} :
    unsetOr column value = true ↔ ∀ v ∈ column, v = value := by
  cases column <;> simp [unsetOr]

/-- A rule applies iff it is selected and sets no other tool. -/
theorem applies_iff {request : AIExecutionRequest} :
    Applies request row ↔ row.selected request.tenantId request = true ∧
      ∀ t ∈ row.toolId, request.toolId = some t := by
  have hcapability : row.capability.all (request.capabilities.contains ·) = true ↔
      ∀ c ∈ row.capability, c ∈ request.capabilities := by
    cases row.capability <;> simp
  unfold PolicyRow.selected
  simp only [Bool.and_eq_true, Bool.or_eq_true, decide_eq_true_eq, unsetOr_iff, hcapability]
  constructor
  · rintro ⟨ht, hm, ha, hc, hr, htool⟩
    exact ⟨⟨⟨⟨⟨ht, hm⟩, ha⟩, hc⟩, hr⟩, htool⟩
  · rintro ⟨⟨⟨⟨⟨ht, hm⟩, ha⟩, hc⟩, hr⟩, htool⟩
    exact ⟨ht, hm, ha, hc, hr, htool⟩

theorem restrictions_mono {p q : PolicyRow → Prop} (h : ∀ row, p row → q row) :
    x.restrictions p ⊆ x.restrictions q := by
  rintro o (⟨row, hmem, hp, ho⟩ | ho)
  · exact .inl ⟨row, hmem, h row hp, ho⟩
  · exact .inr ho

/-- The merged rules are the greatest of ALLOW and their outcomes. -/
theorem mergePolicyOutcomes_isGreatest (rules : List PolicyRule) :
    IsGreatest {o | o = .allow ∨ ∃ rule ∈ rules, o = rule.outcome} (mergePolicyOutcomes rules) := by
  unfold mergePolicyOutcomes
  simp only [tightenOutcome_eq_max]
  have h := isGreatest_foldl_max PolicyRule.outcome
    (rules.mergeSort fun a b => a.scope.order ≤ b.scope.order) PolicyOutcome.allow
  simpa only [List.mem_mergeSort] using h

theorem mem_findRules {rule : PolicyRule} :
    rule ∈ findRules collation x.request.tenantId x.request x.table ↔
      ∃ row ∈ x.table, row.selected x.request.tenantId x.request = true ∧
        row.toPolicyRule = rule := by
  simp [findRules, and_assoc]

theorem allow_le (o : PolicyOutcome) : .allow ≤ o := by
  cases o <;> decide

/-- The target outcome is the greatest of the level's ceiling and the autonomy rule's outcome. -/
theorem target_isGreatest (base : PolicyOutcome) (autonomyRule : Option AutonomyRule) :
    IsGreatest {o | o = base ∨ ∃ rule ∈ autonomyRule, o = rule.requiredOutcome}
      (match autonomyRule with
        | some rule => tightenOutcome base rule.requiredOutcome
        | none => base) := by
  cases autonomyRule with
  | none => simp [IsGreatest, upperBounds]
  | some rule =>
    simp only [tightenOutcome_eq_max]
    constructor
    · rcases max_choice base rule.requiredOutcome with h | h
      · exact .inl h
      · exact .inr ⟨rule, rfl, h⟩
    · rintro o (rfl | ⟨rule', hrule, rfl⟩)
      · exact le_max_left _ _
      · cases hrule
        exact le_max_right _ _

/-- **The answer is the greatest restriction of the rules that are selected.** -/
theorem evaluate_isGreatest (collation : String → String → Bool) (hstop : x.stop = .stopped false) :
    ∃ o, Returns collation x o ∧
      IsGreatest (x.restrictions fun row => row.selected x.request.tenantId x.request = true) o := by
  have hceiling : ∀ rules : List PolicyRule,
      (if rules.length = 0 then .allow else mergePolicyOutcomes rules) = mergePolicyOutcomes rules := by
    intro rules
    split
    next h =>
      rw [List.length_eq_zero_iff.mp h]
      simp [mergePolicyOutcomes]
    · rfl
  refine ⟨_, ⟨_, by simp only [evaluate, hstop, ne_eq, not_true_eq_false, if_false]; rfl, rfl⟩, ?_⟩
  simp only [buildDecision, hceiling, tightenOutcome_eq_max]
  have hunion := (mergePolicyOutcomes_isGreatest
    (findRules collation x.request.tenantId x.request x.table)).union (target_isGreatest
      (evaluateAutonomy x.request.autonomyLevel x.request.riskCategory (.finite 1) .allow)
      x.autonomyRule)
  simp only [tightenOutcome_eq_max] at hunion
  refine (isGreatest_iff_isCofinalFor ?_ hunion).mpr ?_
  · rintro o (⟨row, hmem, hsel, rfl⟩ | ho)
    · exact .inl (.inr ⟨row.toPolicyRule, mem_findRules.mpr ⟨row, hmem, hsel, rfl⟩, rfl⟩)
    · exact .inr ho
  · rintro o ((rfl | ⟨rule, hrule, rfl⟩) | ho)
    · exact ⟨_, .inr (.inl rfl), allow_le _⟩
    · obtain ⟨row, hmem, hsel, rfl⟩ := mem_findRules.mp hrule
      exact ⟨_, .inl ⟨row, hmem, hsel, rfl⟩, le_refl _⟩
    · exact ⟨o, .inr ho, le_refl o⟩

/-! ## Answers -/

theorem Returns.unique {o' : PolicyOutcome} (h : Returns collation x o)
    (h' : Returns collation x o') : o = o' := by
  obtain ⟨d, hd, rfl⟩ := h
  obtain ⟨d', hd', rfl⟩ := h'
  rw [hd] at hd'
  cases hd'
  rfl

/-- Where the stop is active or unknown, the answer is DENY. -/
theorem returns_iff_of_stop (hstop : x.stop ≠ .stopped false) : Returns collation x o ↔ o = .deny := by
  have hdeny : Returns collation x .deny := by
    cases hs : x.stop with
    | failed => exact ⟨_, by simp only [evaluate, hs, ne_eq, not_true_eq_false, if_false]; rfl, rfl⟩
    | stopped active =>
      cases active with
      | false => exact absurd hs hstop
      | true => exact ⟨_, by simp only [evaluate, hs, ne_eq, not_true_eq_false, if_false]; rfl, rfl⟩
  constructor
  · intro h
    exact h.unique hdeny
  · rintro rfl
    exact hdeny

/-- Where no stop is active, the answer is the greatest restriction of the rules selected. -/
theorem returns_iff (hstop : x.stop = .stopped false) : Returns collation x o ↔
    IsGreatest (x.restrictions fun row => row.selected x.request.tenantId x.request = true) o := by
  obtain ⟨o', hreturns, hgreatest⟩ := evaluate_isGreatest collation hstop
  constructor
  · intro h
    rw [h.unique hreturns]
    exact hgreatest
  · intro h
    rw [h.unique hgreatest]
    exact hreturns

/-- The restrictions that apply are among those that are selected. -/
theorem restrictions_applies_subset : x.restrictions (Applies x.request) ⊆
    x.restrictions fun row => row.selected x.request.tenantId x.request = true :=
  restrictions_mono fun _ h => (applies_iff.mp h).1

/-- The restrictions that apply dominate those that are selected iff they dominate those of other
tools. -/
theorem isCofinalFor_iff : IsCofinalFor
      (x.restrictions fun row => row.selected x.request.tenantId x.request = true)
      (x.restrictions (Applies x.request)) ↔
    ∀ row ∈ x.table, row.selected x.request.tenantId x.request = true →
      (∃ t ∈ row.toolId, x.request.toolId ≠ some t) →
      ∃ o ∈ x.restrictions (Applies x.request), row.outcome ≤ o := by
  constructor
  · intro h row hmem hsel _
    exact h (.inl ⟨row, hmem, hsel, rfl⟩)
  · intro h o ho
    rcases ho with ⟨row, hmem, hsel, rfl⟩ | ho
    · by_cases htool : ∃ t ∈ row.toolId, x.request.toolId ≠ some t
      · exact h row hmem hsel htool
      · have happlies : Applies x.request row := by
          refine applies_iff.mpr ⟨hsel, fun t ht => ?_⟩
          by_contra hne
          exact htool ⟨t, ht, hne⟩
        exact ⟨row.outcome, .inl ⟨row, hmem, happlies, rfl⟩, le_refl _⟩
    · exact ⟨o, .inr ho, le_refl o⟩

/-- The answer is the greatest restriction that applies iff other tools are dominated. -/
theorem exact_iff (hstop : x.stop = .stopped false) :
    (∃ o, Returns collation x o ∧ IsGreatest (x.restrictions (Applies x.request)) o) ↔
      OtherToolsDominated x := by
  obtain ⟨o, hreturns, hgreatest⟩ := evaluate_isGreatest collation hstop
  have hiff := isGreatest_iff_isCofinalFor restrictions_applies_subset hgreatest
  rw [isCofinalFor_iff] at hiff
  constructor
  · rintro ⟨o', ho', happlies⟩ _
    rw [ho'.unique hreturns] at happlies
    exact hiff.mp happlies
  · intro h
    exact ⟨o, hreturns, hiff.mpr (h hstop)⟩

/-! ## Other tables -/

/-- Rows that restrict alike are selected alike. -/
theorem selected_congr {row' : PolicyRow} {tenantId : String} {request : AIExecutionRequest}
    (h : row'.restriction = row.restriction) :
    row'.selected tenantId request = row.selected tenantId request ∧ row'.outcome = row.outcome := by
  simp only [PolicyRow.restriction, Prod.mk.injEq] at h
  obtain ⟨hsystem, htenant, hmission, hagent, hcapability, -, hrisk, houtcome⟩ := h
  unfold PolicyRow.selected
  rw [hsystem, htenant, hmission, hagent, hcapability, hrisk]
  exact ⟨rfl, houtcome⟩

/-- A table whose rows all restrict like rows of another one has no more restrictions. -/
theorem restrictions_subset_of_table (table table' : List PolicyRow)
    (h : ∀ row ∈ table', ∃ row' ∈ table, row'.restriction = row.restriction) :
    ({ x with table := table' } : Situation).restrictions
        (fun row => row.selected x.request.tenantId x.request = true) ⊆
      ({ x with table := table } : Situation).restrictions
        fun row => row.selected x.request.tenantId x.request = true := by
  rintro o (⟨row, hmem, hsel, rfl⟩ | ho)
  · obtain ⟨row', hmem', hrow⟩ := h row hmem
    obtain ⟨hsel', houtcome⟩ := selected_congr hrow
    exact .inl ⟨row', hmem', hsel'.trans hsel, houtcome.symm⟩
  · exact .inr ho

/-- Tables with the same restrictions, in any order, give the same answer. -/
theorem returns_of_perm {collation' : String → String → Bool} {table' : List PolicyRow}
    (hperm : (table'.map PolicyRow.restriction).Perm (x.table.map PolicyRow.restriction))
    (h : Returns collation x o) : Returns collation' { x with table := table' } o := by
  by_cases hstop : x.stop = .stopped false
  · rw [returns_iff hstop] at h
    refine (returns_iff (x := { x with table := table' }) hstop).mpr ?_
    have heq : ({ x with table := table' } : Situation).restrictions
        (fun row => row.selected x.request.tenantId x.request = true) =
        x.restrictions fun row => row.selected x.request.tenantId x.request = true := by
      apply Set.Subset.antisymm
      · refine restrictions_subset_of_table x.table table' fun row hrow => ?_
        simpa using hperm.mem_iff.mp (List.mem_map_of_mem hrow)
      · refine restrictions_subset_of_table table' x.table fun row hrow => ?_
        simpa using hperm.mem_iff.mpr (List.mem_map_of_mem hrow)
    rw [heq]
    exact h
  · rw [returns_iff_of_stop hstop] at h
    exact (returns_iff_of_stop (x := { x with table := table' }) hstop).mpr h

/-- A situation with more restrictions gets no less restrictive an answer. -/
theorem returns_mono {y : Situation} {o' : PolicyOutcome} (hstop : y.stop = x.stop)
    (hsub : (x.restrictions fun row => row.selected x.request.tenantId x.request = true) ⊆
      y.restrictions fun row => row.selected y.request.tenantId y.request = true)
    (h : Returns collation x o) (h' : Returns collation y o') : o ≤ o' := by
  by_cases hs : x.stop = .stopped false
  · exact ((returns_iff hs).mp h).mono ((returns_iff (hstop.trans hs)).mp h') hsub
  · rw [(returns_iff_of_stop hs).mp h, (returns_iff_of_stop (hstop ▸ hs)).mp h']

/-- Where other tools are dominated, a stored rule that does not apply may be left out. -/
theorem returns_without {before after : List PolicyRow} (hdom : OtherToolsDominated x)
    (htable : x.table = before ++ row :: after) (hrow : ¬ Applies x.request row)
    (h : Returns collation x o) : Returns collation { x with table := before ++ after } o := by
  by_cases hstop : x.stop = .stopped false
  · have hkept : ({ x with table := before ++ after } : Situation).restrictions (Applies x.request) =
        x.restrictions (Applies x.request) := by
      ext o
      simp only [Situation.restrictions, htable, Set.mem_ofPred_eq, List.mem_append, List.mem_cons]
      constructor
      · rintro (⟨r, hr, happlies, ho⟩ | ho)
        · exact .inl ⟨r, hr.imp_right .inr, happlies, ho⟩
        · exact .inr ho
      · rintro (⟨r, hr | rfl | hr, happlies, ho⟩ | ho)
        · exact .inl ⟨r, .inl hr, happlies, ho⟩
        · exact absurd happlies hrow
        · exact .inl ⟨r, .inr hr, happlies, ho⟩
        · exact .inr ho
    have hdom' : OtherToolsDominated { x with table := before ++ after } := by
      intro _ r hr hsel htool
      rw [hkept]
      refine hdom hstop r ?_ hsel htool
      rw [htable]
      simpa using Or.imp_right Or.inr (List.mem_append.mp hr)
    obtain ⟨o₁, (ho₁ : Returns collation x o₁), hgreatest₁⟩ := (exact_iff hstop).mpr hdom
    obtain ⟨o₂, (ho₂ : Returns collation { x with table := before ++ after } o₂), hgreatest₂⟩ :=
      (exact_iff (x := { x with table := before ++ after }) hstop).mpr hdom'
    rw [hkept] at hgreatest₂
    rw [h.unique ho₁, hgreatest₁.unique hgreatest₂]
    exact ho₂
  · rw [returns_iff_of_stop hstop] at h
    exact (returns_iff_of_stop (x := { x with table := before ++ after }) hstop).mpr h

end

/-! ## The contract -/

/-- **Policy evaluation is the exact upper bound of the restrictions iff no rule of another tool is
more restrictive than all that apply.** -/
theorem exactUpperBound_iff (collation : String → String → Bool) (x : Situation) :
    ExactUpperBound collation x ↔ OtherToolsDominated x := by
  constructor
  · intro h hstop
    exact (exact_iff hstop).mp (h.exact hstop) hstop
  · intro hdom
    constructor
    · intro hstop
      exact (returns_iff_of_stop hstop).mpr rfl
    · intro hstop
      exact (exact_iff hstop).mpr hdom
    · intro collation' table' o hperm h
      exact returns_of_perm hperm h
    · intro row o o' h h'
      refine returns_mono (x := x) (y := { x with table := row :: x.table }) rfl ?_ h h'
      exact restrictions_subset_of_table (row :: x.table) x.table fun r hr =>
        ⟨r, List.mem_cons_of_mem row hr, rfl⟩
    · intro rule o o' hnone h h'
      refine returns_mono (x := x) (y := { x with autonomyRule := some rule }) rfl ?_ h h'
      rintro o (hrow | hlevel | ⟨rule', hrule', -⟩)
      · exact .inl hrow
      · exact .inr (.inl hlevel)
      · rw [hnone] at hrule'
        cases hrule'
    · intro before row after o htable hrow h
      exact returns_without hdom htable hrow h

/-! ## A rule of another tool -/

/-- A request of level 5 for the tool `search`, and a rule that denies the tool `delete`. -/
def searchUnderDeleteRule : Situation where
  request := ⟨"e1", "t1", "m1", "a1", "1", "search", [], .finite 5, "LOW", some "search"⟩
  stop := .stopped false
  table := [⟨⟨"p1", some "t1", .action, none, none, none, some "delete", none, .deny, "1", 0⟩, false⟩]
  autonomyRule := none

/-- **The rule of the other tool denies the request.** -/
theorem not_exactUpperBound_otherTool :
    ¬ ExactUpperBound (fun _ _ => true) searchUnderDeleteRule := by
  intro h
  obtain ⟨o, hreturns, hmem, -⟩ := h.exact rfl
  have hdeny : Returns (fun _ _ => true) searchUnderDeleteRule .deny := ⟨_, rfl, by decide +kernel⟩
  rw [hreturns.unique hdeny] at hmem
  rcases hmem with ⟨row, hrow, happlies, -⟩ | hlevel | ⟨rule, hrule, -⟩
  · rw [List.mem_singleton.mp hrow] at happlies
    have htool := happlies.tool "delete" rfl
    revert htool
    decide
  · revert hlevel
    decide +kernel
  · cases hrule

end VegaRevenue.ControlPlane
