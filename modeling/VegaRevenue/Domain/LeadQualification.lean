import VegaRevenue.Domain.Lead
import VegaRevenue.Lib.Machine

/-!
# Lead qualification

Any operations on a lead, in any order, from its creation on.

* `evaluate_cases` — an evaluation changes nothing, or it decides on a pending lead that has no
  snapshot
* `final_and_justified` — a snapshot is set once and stays, an evaluation decides by the filters and
  the thresholds, and a lead that is not qualified stays so
-/

namespace VegaRevenue.Lead

inductive Op where
  | evaluate (input : EvaluationInput) (now : Date)
  | approve (now : Date)
  | reject (reason : String) (now : Date)
  | recordConversationOutcome (outcome : ConversationOutcome) (reason : String) (now : Date)

def step : Machine.Step Lead Op OpResult := fun a op =>
  match op with
  | .evaluate input now => evaluate a input now
  | .approve now => (approve a now, .ok)
  | .reject reason now => (reject a reason now, .ok)
  | .recordConversationOutcome outcome reason now => recordConversationOutcome a outcome reason now

/-! ## What the checks let through -/

theorem component_eq_ok {key : String} {n : JsNumber} {q : Rat} (h : component key n = .ok q) :
    n = .finite q := by
  cases n with
  | finite p => rw [Except.ok.inj h]
  | nan => cases h
  | negInfinity => cases h
  | infinity => cases h

theorem Scores.check_overall {s : Scores JsNumber} {e : Scores Rat} (h : s.check = .ok e) :
    s.overall = .finite e.overall := by
  unfold Scores.check at h
  split at h
  · cases h
  · obtain ⟨icpMatch, -, h⟩ := of_bind_eq_ok h
    obtain ⟨signalScore, -, h⟩ := of_bind_eq_ok h
    obtain ⟨intentScore, -, h⟩ := of_bind_eq_ok h
    obtain ⟨evidenceConfidence, -, h⟩ := of_bind_eq_ok h
    obtain ⟨overall, hoverall, h⟩ := of_bind_eq_ok h
    cases h
    exact component_eq_ok hoverall

theorem checkThresholds_eq_ok {q r : JsNumber} {t : Rat × Rat} (h : checkThresholds q r = .ok t) :
    q = .finite t.1 ∧ r = .finite t.2 ∧ t.2 ≤ t.1 := by
  unfold checkThresholds at h
  split at h
  · split at h
    · cases h
    next hle =>
      cases h
      exact ⟨rfl, rfl, Rat.not_lt.mp hle⟩
  · cases h

theorem EvaluationInput.check_eq_ok {input : EvaluationInput} {e : Evaluation}
    (h : input.check = .ok e) :
    input.scores.overall = .finite e.scores.overall ∧
      input.qualificationThreshold = .finite e.qualificationThreshold ∧
      input.reviewThreshold = .finite e.reviewThreshold ∧
      e.reviewThreshold ≤ e.qualificationThreshold := by
  obtain ⟨scores, hscores, h⟩ := of_bind_eq_ok h
  obtain ⟨⟨qualification, review⟩, hthresholds, h⟩ := of_bind_eq_ok h
  obtain ⟨evaluatedAt, -, h⟩ := of_bind_eq_ok h
  cases h
  exact ⟨Scores.check_overall hscores, checkThresholds_eq_ok hthresholds⟩

/-! ## The outcome -/

/-- No hard filter failed. -/
def EvaluationInput.PassesFilters (input : EvaluationInput) : Prop :=
  ∀ hf ∈ input.hardFilterResults, hf.passed = true

/-- The status is what the filters and the thresholds give. -/
structure Justified (input : EvaluationInput) (status : Status) : Prop where
  qualified : status = .qualified ↔
    input.PassesFilters ∧ input.qualificationThreshold.le input.scores.overall = true
  needsReview : status = .needsReview ↔
    input.PassesFilters ∧ input.reviewThreshold.le input.scores.overall = true ∧
      input.scores.overall.lt input.qualificationThreshold = true
  notQualified : status = .notQualified ↔ status ≠ .qualified ∧ status ≠ .needsReview

theorem EvaluationInput.failedFilters_eq_nil {input : EvaluationInput} :
    input.failedFilters = [] ↔ input.PassesFilters := by
  simp [failedFilters, PassesFilters, List.filter_eq_nil_iff]

theorem justified_decision {input : EvaluationInput} {e : Evaluation}
    (hcheck : input.check = .ok e) : Justified input (input.decision e).1.status := by
  obtain ⟨hoverall, hqualification, hreview, hle⟩ := EvaluationInput.check_eq_ok hcheck
  have hfilters : input.failedFilters = [] ↔ input.PassesFilters :=
    EvaluationInput.failedFilters_eq_nil
  unfold EvaluationInput.decision
  by_cases hpass : input.PassesFilters
  · rw [if_neg (not_not.mpr (hfilters.mpr hpass))]
    by_cases hq : e.qualificationThreshold ≤ e.scores.overall
    · have hnot : ¬ e.scores.overall < e.qualificationThreshold := Rat.not_lt.mpr hq
      rw [if_pos hq]
      constructor <;>
        simp [QualificationOutcome.status, hoverall, hqualification, hreview, hpass, hq, hnot]
    · rw [if_neg hq]
      by_cases hr : e.reviewThreshold ≤ e.scores.overall
      · rw [if_pos hr]
        constructor <;>
          simp [QualificationOutcome.status, hoverall, hqualification, hreview, hpass, hq, hr,
            Rat.not_le.mp hq]
      · rw [if_neg hr]
        constructor <;>
          simp [QualificationOutcome.status, hoverall, hqualification, hreview, hpass, hq, hr]
  · rw [if_pos (mt hfilters.mp hpass)]
    constructor <;> simp [QualificationOutcome.status, hpass]

/-! ## What an operation does -/

/-- **An evaluation that fails changes nothing; one that succeeds finds a pending lead without a
snapshot.** -/
theorem evaluate_cases (a : Lead) (input : EvaluationInput) (now : Date) :
    (∃ message, evaluate a input now = (a, .fail message)) ∨
      a.state.qualificationSnapshot = none ∧ a.state.status = .pending ∧
        ∃ e, input.check = .ok e ∧ evaluate a input now =
          (qualify (a.write { a.state with status := .evaluating }) input e now, .ok) := by
  unfold evaluate
  split
  · exact .inl ⟨_, rfl⟩
  next hsnapshot =>
    split
    · exact .inl ⟨_, rfl⟩
    next hstatus =>
      cases hcheck : input.check with
      | error message => exact .inl ⟨message, rfl⟩
      | ok e =>
        refine .inr ⟨?_, not_not.mp hstatus, e, rfl, rfl⟩
        simpa using hsnapshot

@[simp] theorem qualify_status (a : Lead) (input : EvaluationInput) (e : Evaluation) (now : Date) :
    (qualify a input e now).state.status = (input.decision e).1.status := rfl

@[simp] theorem qualify_snapshot (a : Lead) (input : EvaluationInput) (e : Evaluation)
    (now : Date) : (qualify a input e now).state.qualificationSnapshot =
      some (input.snapshot e a.state) := rfl

theorem status_ne_evaluating (o : QualificationOutcome) : o.status ≠ .evaluating := by
  cases o <;> simp [QualificationOutcome.status]

/-- What a decision by a person or a conversation leaves alone, and where it leads. -/
theorem decision_cases (a : Lead) {op : Op} (hop : ∀ input now, op ≠ .evaluate input now) :
    (step a op).1.state.qualificationSnapshot = a.state.qualificationSnapshot ∧
      ((step a op).1.state.status = a.state.status ∨
        (step a op).1.state.status = .notQualified ∨
          (step a op).1.state.status = .qualified ∧ a.state.status ≠ .notQualified) := by
  cases op with
  | evaluate input now => exact absurd rfl (hop input now)
  | approve now =>
    simp only [step, approve]
    split
    · exact ⟨rfl, .inl rfl⟩
    next h =>
      refine ⟨rfl, .inr (.inr ⟨rfl, ?_⟩)⟩
      rw [not_not.mp h]
      decide
  | reject reason now =>
    simp only [step, reject]
    split
    · exact ⟨rfl, .inl rfl⟩
    · exact ⟨rfl, .inr (.inl rfl)⟩
  | recordConversationOutcome outcome reason now =>
    simp only [step, recordConversationOutcome]
    split
    · exact ⟨rfl, .inl rfl⟩
    next h =>
      cases outcome with
      | qualified => exact ⟨rfl, .inr (.inr ⟨rfl, fun hs => h ⟨hs, rfl⟩⟩)⟩
      | notQualified => exact ⟨rfl, .inr (.inl rfl)⟩

/-! ## One step -/

/-- A snapshot stays. -/
theorem snapshot_step {s : QualificationSnapshot} {a : Lead}
    (h : a.state.qualificationSnapshot = some s) (op : Op) :
    (step a op).1.state.qualificationSnapshot = some s := by
  by_cases hop : ∃ input now, op = .evaluate input now
  · obtain ⟨input, now, rfl⟩ := hop
    rcases evaluate_cases a input now with ⟨message, heq⟩ | ⟨hnone, -⟩
    · rw [step, heq]
      exact h
    · rw [hnone] at h
      cases h
  · have hcases := decision_cases a (fun input now heq => hop ⟨input, now, heq⟩)
    rw [hcases.1, h]

theorem status_step {a : Lead} (h : a.state.status ≠ .evaluating) (op : Op) :
    (step a op).1.state.status ≠ .evaluating := by
  by_cases hop : ∃ input now, op = .evaluate input now
  · obtain ⟨input, now, rfl⟩ := hop
    rcases evaluate_cases a input now with ⟨message, heq⟩ | ⟨-, -, e, -, heq⟩
    · rw [step, heq]
      exact h
    · rw [step, heq]
      exact status_ne_evaluating _
  · have hcases := decision_cases a (fun input now heq => hop ⟨input, now, heq⟩)
    rcases hcases.2 with hs | hs | ⟨hs, -⟩
    · rw [hs]
      exact h
    · simp [hs]
    · simp [hs]

/-- A lead that is not qualified stays so. -/
theorem notQualified_step {a : Lead} (h : a.state.status = .notQualified) (op : Op) :
    (step a op).1.state.status = .notQualified := by
  by_cases hop : ∃ input now, op = .evaluate input now
  · obtain ⟨input, now, rfl⟩ := hop
    rcases evaluate_cases a input now with ⟨message, heq⟩ | ⟨-, hpending, -⟩
    · rw [step, heq]
      exact h
    · rw [hpending] at h
      cases h
  · have hcases := decision_cases a (fun input now heq => hop ⟨input, now, heq⟩)
    rcases hcases.2 with hs | hs | ⟨-, hne⟩
    · rw [hs, h]
    · exact hs
    · exact absurd h hne

/-! ## Any operations -/

/-- What holds of an evaluation of `a`. -/
structure EvaluatesOnce (a : Lead) (input : EvaluationInput) (now : Date) : Prop where
  failed : (evaluate a input now).2 ≠ .ok → (evaluate a input now).1 = a
  once : (evaluate a input now).2 = .ok → a.state.qualificationSnapshot = none
  set : (evaluate a input now).2 = .ok →
    (evaluate a input now).1.state.qualificationSnapshot.isSome = true
  justified : (evaluate a input now).2 = .ok →
    Justified input (evaluate a input now).1.state.status

theorem evaluatesOnce (a : Lead) (input : EvaluationInput) (now : Date) :
    EvaluatesOnce a input now := by
  rcases evaluate_cases a input now with ⟨message, heq⟩ | ⟨hnone, -, e, hcheck, heq⟩
  · constructor <;> simp [heq]
  · constructor
    · simp [heq]
    · exact fun _ => hnone
    · simp [heq]
    · intro _
      rw [heq]
      exact justified_decision hcheck

/-- The law of a lead on which `ops` are done. -/
structure FinalAndJustified (a : Lead) (ops : List Op) : Prop where
  /-- A snapshot is never replaced or dropped. -/
  snapshot : ∀ pre post, ops = pre ++ post → ∀ s,
    (Machine.final step a pre).state.qualificationSnapshot = some s →
      (Machine.final step a ops).state.qualificationSnapshot = some s
  evaluate : ∀ pre input now post, ops = pre ++ .evaluate input now :: post →
    EvaluatesOnce (Machine.final step a pre) input now
  neverEvaluating : Machine.Throughout step (·.state.status ≠ .evaluating) a ops
  absorbing : ∀ pre post, ops = pre ++ post →
    (Machine.final step a pre).state.status = .notQualified →
      (Machine.final step a ops).state.status = .notQualified

/-- **Whatever is done to a lead after its creation, its qualification is final and justified.** -/
theorem final_and_justified (props : Props) (ops : List Op) :
    FinalAndJustified (create props) ops where
  snapshot := by
    rintro pre post rfl s hs
    have hstep : ∀ (b : Lead) op, b.state.qualificationSnapshot = some s →
        (step b op).1.state.qualificationSnapshot = some s := fun b op h => snapshot_step h op
    rw [Machine.final_append]
    exact Machine.final_invariant hstep post hs
  evaluate := fun _ input now _ _ => evaluatesOnce _ input now
  neverEvaluating := by
    have hstart : (create props).state.status ≠ .evaluating := by
      simp [create, Versioned.Aggregate.init]
    exact Machine.throughout_of_stays (fun _ op h => status_step h op) ops hstart
  absorbing := by
    rintro pre post rfl hs
    have hstep : ∀ (b : Lead) op, b.state.status = .notQualified →
        (step b op).1.state.status = .notQualified := fun b op h => notQualified_step h op
    rw [Machine.final_append]
    exact Machine.final_invariant hstep post hs

end VegaRevenue.Lead
