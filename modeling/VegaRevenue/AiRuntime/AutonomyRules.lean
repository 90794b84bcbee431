import VegaRevenue.AiRuntime.Decision

/-!
# The autonomy rules of runtime and control plane

The decision engine has the rules of `evaluateAutonomy` once more, by its own reading of levels and
risk categories.

* `policyAwareDecide_outcome` — the engine by what it reads
* `malformed_iff` — the levels that the control plane takes for malformed
* `never_loosens_iff` — when the engine is at least as restrictive, and the same
-/

namespace VegaRevenue.AiRuntime

open ControlPlane

/-! ## The engine by what it reads -/

/-- What the engine reads of a request; the confidence is any number. -/
structure Considered where
  requiredApprovals : List String
  policyOutcome : PolicyOutcome
  level : JsNumber
  risk : String
  confidence : JsNumber

namespace Considered

/-- The approvals an execution needs. -/
def approvals (c : Considered) : List String :=
  let approvals := c.requiredApprovals.foldl addOnce []
  let approvals :=
    if c.policyOutcome = .requireApproval then addOnce approvals "policy" else approvals
  let approvals :=
    if c.risk ∈ highRiskCategories ∧ c.level.lt (.finite 4) then
      addOnce approvals ("high-risk-" ++ c.risk.toLower)
    else approvals
  let approvals :=
    if c.level.lt (.finite 2) then addOnce approvals "autonomy-level" else approvals
  if c.confidence.lt (.finite (1 / 2)) then addOnce approvals "low-confidence" else approvals

/-- The outcome of `decide`. -/
def decided (c : Considered) : PolicyOutcome :=
  if c.policyOutcome = .deny then .deny
  else if 0 < c.approvals.length then .requireApproval
  else .allow

/-- The ceiling of the control plane. -/
def ceiling (c : Considered) : PolicyOutcome :=
  evaluateAutonomy c.level c.risk c.confidence c.policyOutcome

end Considered

def DecisionRequest.considered (request : DecisionRequest) : Considered where
  requiredApprovals := request.reasoning.requiredApprovals.getD []
  policyOutcome := request.policyDecision.outcome
  level := request.execution.autonomyLevel
  risk := request.execution.riskCategory
  confidence := .finite request.reasoning.confidence

/-- **The engine decides by what it considers.** -/
theorem policyAwareDecide_outcome {request : DecisionRequest} {output : DecisionOutput}
    (h : policyAwareDecide request = .ok output) : output.outcome = request.considered.decided := by
  have happrovals : request.considered.approvals = neededApprovals request := by
    by_cases hconfidence : request.reasoning.confidence < 1 / 2
    · simp only [Considered.approvals, neededApprovals, DecisionRequest.considered,
        JsNumber.lt_finite, hconfidence, decide_true, if_true]
      congr
    · simp only [Considered.approvals, neededApprovals, DecisionRequest.considered,
        JsNumber.lt_finite, hconfidence, decide_false, if_false, Bool.false_eq_true]
      congr
  unfold Considered.decided
  rw [happrovals]
  unfold policyAwareDecide at h
  split at h
  next hdeny =>
    cases h
    exact (if_pos hdeny).symm
  next hdeny =>
    dsimp only at h
    have hdeny' : request.considered.policyOutcome ≠ .deny := hdeny
    rw [if_neg hdeny']
    split at h
    next hsome =>
      cases h
      exact (if_pos hsome).symm
    next hnone =>
      cases h
      exact (if_neg hnone).symm

/-! ## Levels -/

/-- The levels that the control plane takes for malformed. -/
def malformed (level : JsNumber) : Bool :=
  level.lt (.finite 0) || (JsNumber.finite 5).lt level || !level.isInteger

/-- **All but 0 to 5 are malformed.** -/
theorem malformed_iff (level : JsNumber) :
    malformed level = false ↔ ∃ n : Nat, n ≤ 5 ∧ level = .finite n := by
  unfold malformed
  cases level with
  | finite q =>
    simp only [JsNumber.lt_finite, JsNumber.isInteger, Bool.or_eq_false_iff, Bool.not_eq_false',
      decide_eq_false_iff_not, decide_eq_true_eq, Rat.not_lt, JsNumber.finite.injEq]
    constructor
    · rintro ⟨⟨hlow, hhigh⟩, hden⟩
      have hnum : (q.num : Rat) = q := (Rat.den_eq_one_iff q).mp hden
      have hnonneg : 0 ≤ q.num := Rat.num_nonneg.mpr hlow
      refine ⟨q.num.toNat, ?_, ?_⟩
      · rw [← hnum] at hhigh
        have hle : q.num ≤ 5 := by exact_mod_cast hhigh
        omega
      · rw [← hnum]
        have htoNat : ((q.num.toNat : Nat) : Int) = q.num := Int.toNat_of_nonneg hnonneg
        exact_mod_cast (congrArg (fun z : Int => (z : Rat)) htoNat).symm
    · rintro ⟨n, hn, rfl⟩
      refine ⟨⟨by exact_mod_cast Nat.zero_le n, by exact_mod_cast hn⟩, ?_⟩
      exact Rat.den_natCast n
  | nan | negInfinity | infinity => simp [JsNumber.isInteger]

/-! ## Agreement -/

namespace Considered

variable (c : Considered)

/-- Both take the risk to be too high for the level. -/
def HighRisk : Prop := c.risk ∈ highRiskCategories ∧ c.level.lt (.finite 4) = true

/-- The control plane takes the risk to be too high for the level; letter case does not matter. -/
def HighRiskAnyCase : Prop :=
  toUpperCase c.risk ∈ highRiskCategories ∧ c.level.lt (.finite 4) = true

/-- What else makes both ask for an approval. -/
def Approvable : Prop :=
  c.policyOutcome = .requireApproval ∨ c.level.lt (.finite 2) = true ∨
    c.confidence.lt (.finite (1 / 2)) = true

variable {c}

theorem approvals_eq_nil :
    c.approvals = [] ↔ c.requiredApprovals = [] ∧ ¬ c.HighRisk ∧ ¬ c.Approvable := by
  unfold approvals HighRisk Approvable
  simp only [ite_addOnce_eq_nil, foldl_addOnce_eq_nil]
  tauto

/-- The engine denies what the policy denies and else asks or allows. -/
theorem decided_eq (h : c.policyOutcome ≠ .deny) [Decidable c.HighRisk] [Decidable c.Approvable] :
    c.decided =
      if c.requiredApprovals = [] ∧ ¬ c.HighRisk ∧ ¬ c.Approvable then .allow
      else .requireApproval := by
  unfold decided
  rw [if_neg h]
  by_cases hnil : c.approvals = []
  · rw [if_neg (by rw [hnil]; exact Nat.lt_irrefl 0), if_pos (approvals_eq_nil.mp hnil)]
  · rw [if_pos (List.length_pos_iff.mpr hnil), if_neg fun h => hnil (approvals_eq_nil.mpr h)]

theorem ceiling_of_malformed (h : c.policyOutcome ≠ .deny) (hlevel : malformed c.level = true) :
    c.ceiling = .deny := by
  unfold ceiling evaluateAutonomy
  rw [if_neg h]
  exact if_pos hlevel

/-- Of a level it knows the control plane asks or allows. -/
theorem ceiling_eq (h : c.policyOutcome ≠ .deny) (hlevel : malformed c.level = false)
    [Decidable c.HighRiskAnyCase] [Decidable c.Approvable] :
    c.ceiling = if ¬ c.HighRiskAnyCase ∧ ¬ c.Approvable then .allow else .requireApproval := by
  have hcontains : (["HIGH", "CRITICAL"].contains (toUpperCase c.risk) && c.level.lt (.finite 4)) =
      true ↔ c.HighRiskAnyCase := by
    simp [HighRiskAnyCase, highRiskCategories]
  have htighten : tightenOutcome c.policyOutcome .requireApproval = .requireApproval := by
    cases hpolicy : c.policyOutcome with
    | allow => rfl
    | requireApproval => rfl
    | deny => exact absurd hpolicy h
  unfold ceiling evaluateAutonomy
  rw [if_neg h, if_neg (by rw [Bool.not_eq_true]; exact hlevel), htighten]
  by_cases hrisk : c.HighRiskAnyCase
  · rw [if_pos (hcontains.mpr hrisk), if_neg fun hnot => hnot.1 hrisk]
  · rw [if_neg fun hboth => hrisk (hcontains.mp hboth)]
    by_cases happrovable : c.Approvable
    · have hask : (if ¬ c.HighRiskAnyCase ∧ ¬ c.Approvable then PolicyOutcome.allow
          else .requireApproval) = .requireApproval := if_neg fun hnot => hnot.2 happrovable
      rw [hask]
      rcases happrovable with hpolicy | hlow | hconfidence
      · rw [hpolicy]
        split
        · rfl
        · split <;> rfl
      · rw [if_pos hlow]
      · rw [if_pos hconfidence]
        split <;> rfl
    · have hallow : (if ¬ c.HighRiskAnyCase ∧ ¬ c.Approvable then PolicyOutcome.allow
          else .requireApproval) = .allow := if_pos ⟨hrisk, happrovable⟩
      rw [hallow, if_neg fun hlow => happrovable (.inr (.inl hlow)),
        if_neg fun hconfidence => happrovable (.inr (.inr hconfidence))]
      cases hpolicy : c.policyOutcome with
      | allow => rfl
      | requireApproval => exact absurd (.inl hpolicy) happrovable
      | deny => exact absurd hpolicy h

theorem HighRisk.anyCase (h : c.HighRisk) : c.HighRiskAnyCase := by
  refine ⟨?_, h.2⟩
  have hcases : c.risk = "HIGH" ∨ c.risk = "CRITICAL" := by simpa [highRiskCategories] using h.1
  rcases hcases with hrisk | hrisk
  · rw [hrisk]
    decide +kernel
  · rw [hrisk]
    decide +kernel

/-- **When the engine is at least as restrictive as the control plane, and the same where the
reasoning asks for no approvals**: the policy denies, or the level is 0 to 5 and a risk that is
only high in another letter case needs an approval anyway. -/
theorem never_loosens_iff (c : Considered) :
    (c.ceiling ≤ c.decided ∧ (c.requiredApprovals = [] → c.decided = c.ceiling)) ↔
      c.policyOutcome = .deny ∨
        (∃ n : Nat, n ≤ 5 ∧ c.level = .finite n) ∧
          (c.HighRiskAnyCase → c.HighRisk ∨ c.requiredApprovals ≠ [] ∨ c.Approvable) := by
  classical
  by_cases hdeny : c.policyOutcome = .deny
  · have hboth : c.ceiling = .deny ∧ c.decided = .deny := by
      unfold ceiling evaluateAutonomy decided
      rw [if_pos hdeny, if_pos hdeny]
      exact ⟨rfl, rfl⟩
    rw [hboth.1, hboth.2]
    simp [hdeny]
  · rw [← malformed_iff]
    have hdecided := decided_eq hdeny
    cases hlevel : malformed c.level with
    | true =>
      -- the control plane denies, and the engine never denies by itself
      have hceiling := ceiling_of_malformed hdeny hlevel
      have hne : ¬ c.ceiling ≤ c.decided := by
        rw [hceiling, hdecided]
        split <;> decide
      simp [hne, hdeny]
    | false =>
      have hceiling := ceiling_eq hdeny hlevel
      rw [hceiling, hdecided]
      have hrisk := HighRisk.anyCase (c := c)
      by_cases happrovable : c.Approvable
      · simp [happrovable]
      · by_cases hany : c.HighRiskAnyCase
        · by_cases hspelled : c.HighRisk
          · simp [happrovable, hany, hspelled]
          · by_cases hasked : c.requiredApprovals = []
            · simp [happrovable, hany, hspelled, hasked, hdeny]
            · simp [happrovable, hany, hspelled, hasked]
        · have hspelled : ¬ c.HighRisk := fun h => hany (hrisk h)
          have hbottom (outcome : PolicyOutcome) : .allow ≤ outcome := by
            cases outcome <;> decide
          by_cases hasked : c.requiredApprovals = []
          · simp [happrovable, hany, hspelled, hasked]
          · simp [happrovable, hany, hspelled, hasked, hbottom]

def beyondScale : Considered := ⟨[], .allow, .finite 6, "LOW", .finite 1⟩

def smallLetters : Considered := ⟨[], .allow, .finite 3, "high", .finite 1⟩

/-- The engine allows a level beyond the scale, and a high risk written in small letters. -/
theorem loosens :
    (beyondScale.ceiling = .deny ∧ beyondScale.decided = .allow ∧
      ¬ beyondScale.ceiling ≤ beyondScale.decided) ∧
    (smallLetters.ceiling = .requireApproval ∧ smallLetters.decided = .allow ∧
      ¬ smallLetters.ceiling ≤ smallLetters.decided) := by
  decide +kernel

end Considered

end VegaRevenue.AiRuntime
