import Mathlib.Algebra.Order.BigOperators.Group.List
import Mathlib.Data.List.Infix
import VegaRevenue.Domain.IcpProfile
import VegaRevenue.Domain.LeadQualification
import VegaRevenue.Intelligence.ResearchEngine
import VegaRevenue.Shared.Casing
import VegaRevenue.Shared.Rounding

/-!
# The scorers

How an account fits a profile, what its signals and its evidence are worth, and what a lead is
evaluated with.

* `LeadScorer.score_overall` — the overall score is linear in the three it is made of
* `evaluation_check` — an evaluation passes its checks iff its overall score is not negative
-/

namespace VegaRevenue.Intelligence

open IcpProfile (HardFilter SoftCriterion ScoringWeights)

/-- How texts are compared and numbers written. -/
structure Wording where
  casing : Casing
  numberText : Rat → String

/-- `text.includes(part)`. -/
def includes (text part : String) : Bool := part.toList <:+: text.toList

/-- A number between zero and one. -/
def Unit01 (q : Rat) : Prop := 0 ≤ q ∧ q ≤ 1

/-! ## The account -/

namespace IcpScorer

structure Result where
  score : Rat
  passed : Bool
  reasons : List String

section

variable (w : Wording) (account : Account.Props) (hard : HardFilter)

def industryFailure : Option String :=
  let industries := hard.industries.getD []
  if industries = [] ∨ account.industry.any (fun i => i ≠ "" && industries.contains i) then none
  else
    let industry := account.industry.getD "undefined"
    some (s!"Industry {industry} not in " ++ ", ".intercalate industries)

def territoryFailure : Option String :=
  let territories := hard.territories.getD []
  if territories = [] ∨ account.territories.any territories.contains then none
  else
    some ("Territory " ++ ", ".intercalate account.territories ++ " not in " ++
      ", ".intercalate territories)

def belowMinimum : Option String :=
  match hard.minEmployees, account.employeeCount with
  | some least, some count =>
    if count < least then
      some s!"Employee count {w.numberText count} below minimum {w.numberText least}"
    else none
  | _, _ => none

def aboveMaximum : Option String :=
  match hard.maxEmployees, account.employeeCount with
  | some most, some count =>
    if most < count then
      some s!"Employee count {w.numberText count} above maximum {w.numberText most}"
    else none
  | _, _ => none

/-- The first hard filter that the account fails. -/
def failure : Option String :=
  industryFailure account hard <|> territoryFailure account hard <|>
    belowMinimum w account hard <|> aboveMaximum w account hard

end

section

variable (w : Wording)

def criterionMatches (criterion : SoftCriterion) (account : Account.Props) : Bool :=
  let term := w.casing.toLowerCase criterion.criterion
  let named := account.techStack.any fun t => includes term (w.casing.toLowerCase t)
  if includes term "tech" || includes term "stack" then named
  else if includes term "growth" && account.employeeCount.any (50 < ·) then true
  else if includes term "dynamics" || includes term "erp" then named
  else false

/-- The criteria that the account meets. -/
def matched (account : Account.Props) (criteria : List SoftCriterion) : List SoftCriterion :=
  criteria.filter (criterionMatches w · account)

/-- What the criteria weigh together. -/
def weight (criteria : List SoftCriterion) : Rat := (criteria.map (·.weight)).sum

def passedReasons (account : Account.Props) (profile : IcpProfile.State) : List String :=
  let industry := account.industry.getD "undefined"
  (if profile.hardFilters.industries.getD [] = [] then [] else [s!"Industry {industry} matches ICP"]) ++
    (if profile.hardFilters.territories.getD [] = [] then [] else ["Territory matches ICP"]) ++
    (matched w account profile.softCriteria).map fun c =>
      s!"Soft criterion \"{c.criterion}\" matched (+{w.numberText c.weight})"

/-- The score of an account that passes the hard filters. -/
def fit (account : Account.Props) (profile : IcpProfile.State) : Rat :=
  let softWeight := weight profile.softCriteria
  let softScore := weight (matched w account profile.softCriteria)
  let normalizedSoft := if 0 < softWeight then softScore / softWeight else 5 / 10
  min (95 / 100) (toHundredths (6 / 10 + normalizedSoft * (35 / 100)))

def score (account : Account.Props) (profile : IcpProfile.State) : Result :=
  match failure w account profile.hardFilters with
  | some reason => ⟨0, false, [reason]⟩
  | none => ⟨fit w account profile, true, passedReasons w account profile⟩

end

end IcpScorer

/-! ## The signals -/

namespace SignalScorer

structure Scored where
  relevance : Rat
  confidence : Rat
  recencyWeight : Option Rat := none

def Scored.recency (s : Scored) : Rat := s.recencyWeight.getD 1

def score (signals : List Scored) : Rat :=
  if signals = [] then 0
  else
    let total := (signals.map fun s => s.relevance * s.confidence * s.recency).sum
    let weightSum := (signals.map (·.recency)).sum
    let normalized := if 0 < weightSum then total / weightSum else 0
    min 1 (toHundredths normalized)

end SignalScorer

/-! ## The evidence -/

structure Confidence where
  confidence : Rat
  isFresh : Bool

def Confidence.value (e : Confidence) : Rat := e.confidence * if e.isFresh then 1 else 7 / 10

def computeEvidenceConfidence (evidence : List Confidence) : Rat :=
  if evidence = [] then 0
  else min 1 (toHundredths ((evidence.map (·.value)).sum / evidence.length))

/-! ## The lead -/

namespace LeadScorer

def score (icpMatch signalScore evidenceConfidence : Rat) (weights : ScoringWeights) :
    Lead.Scores Rat :=
  let intentScore := min 1 ((icpMatch + signalScore) / 2)
  let overall := weights.icpMatch * icpMatch + weights.signal * signalScore +
    weights.intent * intentScore + weights.evidenceConfidence * evidenceConfidence
  { icpMatch
    signalScore
    intentScore := toHundredths intentScore
    evidenceConfidence
    overall := min 1 (toHundredths overall) }

end LeadScorer

def deriveHardFilterResults (w : Wording) (icpResult : IcpScorer.Result) :
    List Lead.HardFilterResult :=
  if icpResult.passed then []
  else
    icpResult.reasons.map fun reason =>
      let lower := w.casing.toLowerCase reason
      if includes lower "industry" then ⟨"INDUSTRY", false⟩
      else if includes lower "territory" then ⟨"TERRITORY", false⟩
      else if includes lower "employee" then ⟨"COMPANY_SIZE", false⟩
      else ⟨"INDUSTRY", false⟩

/-- The `normalizedFeatures` of an account. -/
def normalizedFeatures (account : Account.Props) : Lead.JsValue :=
  .obj 0
    [("industry", account.industry.elim .null .str),
      ("employeeCount", account.employeeCount.elim .null fun n => .num (.finite n)),
      ("territories", .arr 1 (account.territories.map .str))]

def finiteScores (s : Lead.Scores Rat) : Lead.Scores JsNumber :=
  ⟨.finite s.icpMatch, .finite s.signalScore, .finite s.intentScore, .finite s.evidenceConfidence,
    .finite s.overall⟩

/-- The score of the signals in effect. -/
def signalScore (signals : List Signal) : Rat :=
  SignalScorer.score (signals.map fun s => { relevance := s.relevance, confidence := s.confidence })

/-- The confidence of the evidence of an account. -/
def evidenceConfidence (isFresh : Evidence → Date → Bool) (evidence : List Evidence) (now : Date) :
    Rat :=
  computeEvidenceConfidence (evidence.map fun e => ⟨e.confidence, isFresh e now⟩)

section

variable (w : Wording) (isFresh : Evidence → Date → Bool) (profile : IcpProfile.State)

/-- The scores of a lead. -/
def leadScores (account : Account.Props) (evidence : List Evidence) (signals : List Signal)
    (now : Date) : Lead.Scores Rat :=
  LeadScorer.score (IcpScorer.score w account profile).score (signalScore signals)
    (evidenceConfidence isFresh evidence now) profile.scoringWeights

/-- What `evaluateLead` evaluates the lead with. -/
def evaluation (account : Account.Props) (evidence : List Evidence) (signals : List Signal)
    (now : Date) : Lead.EvaluationInput where
  scores := finiteScores (leadScores w isFresh profile account evidence signals now)
  qualificationThreshold := .finite profile.qualificationThreshold
  reviewThreshold := .finite profile.reviewThreshold
  hardFilterResults := deriveHardFilterResults w (IcpScorer.score w account profile)
  evidenceIds := evidence.map (·.evidenceId)
  signalIds := signals.map (·.id)
  normalizedFeatures := normalizedFeatures account
  snapshotSchemaVersion := "1.0"
  scoringPolicyVersion := "1.0"
  algorithmVersion := "1.0"
  evaluatedAt := some now

end

/-! ## Between zero and one -/

theorem unit01_zero : Unit01 0 := ⟨le_refl 0, by norm_num⟩

theorem unit01_one : Unit01 1 := ⟨by norm_num, le_refl 1⟩

theorem unit01_mul {p q : Rat} (hp : Unit01 p) (hq : Unit01 q) : Unit01 (p * q) :=
  ⟨mul_nonneg hp.1 hq.1, mul_le_one₀ hp.2 hq.1 hq.2⟩

/-- The mean of some such numbers is one, and so is what it rounds to. -/
theorem unit01_mean {l : List Rat} (h : ∀ q ∈ l, Unit01 q) :
    Unit01 (min 1 (toHundredths (l.sum / l.length))) := by
  have hsum : 0 ≤ l.sum ∧ l.sum ≤ l.length := by
    induction l with
    | nil => simp
    | cons q l ih =>
      obtain ⟨hq, hl⟩ := List.forall_mem_cons.mp h
      obtain ⟨hlow, hhigh⟩ := ih hl
      rw [List.sum_cons, List.length_cons]
      push_cast
      exact ⟨add_nonneg hq.1 hlow, by linarith [hq.2]⟩
  have hmean : Unit01 (l.sum / l.length) :=
    ⟨div_nonneg hsum.1 (Nat.cast_nonneg _), div_le_one_of_le₀ hsum.2 (Nat.cast_nonneg _)⟩
  obtain ⟨hlow, hhigh⟩ := toHundredths_unit hmean
  exact ⟨le_min (by norm_num) hlow, min_le_left _ _⟩

theorem SignalScorer.score_unit {signals : List SignalScorer.Scored}
    (h : ∀ s ∈ signals, Unit01 s.relevance ∧ Unit01 s.confidence ∧ s.recencyWeight = none) :
    Unit01 (SignalScorer.score signals) := by
  unfold SignalScorer.score
  split
  · exact unit01_zero
  next hne =>
    have hvalues : signals.map (fun s => s.relevance * s.confidence * s.recency) =
        signals.map fun s => s.relevance * s.confidence := by
      refine List.map_congr_left fun s hs => ?_
      rw [SignalScorer.Scored.recency, (h s hs).2.2, Option.getD_none, mul_one]
    have hweights : (signals.map (·.recency)).sum = (signals.length : Rat) := by
      have hones : signals.map (·.recency) = List.replicate signals.length 1 := by
        refine List.eq_replicate_iff.mpr ⟨List.length_map _, fun r hr => ?_⟩
        obtain ⟨s, hs, rfl⟩ := List.mem_map.mp hr
        rw [SignalScorer.Scored.recency, (h s hs).2.2, Option.getD_none]
      rw [hones, List.sum_replicate, nsmul_eq_mul, mul_one]
    have hpos : (0 : Rat) < signals.length := by
      exact_mod_cast List.length_pos_iff.mpr hne
    dsimp only
    rw [hvalues, hweights, if_pos hpos, ← List.length_map (fun s => s.relevance * s.confidence)]
    refine unit01_mean fun q hq => ?_
    obtain ⟨s, hs, rfl⟩ := List.mem_map.mp hq
    exact unit01_mul (h s hs).1 (h s hs).2.1

theorem computeEvidenceConfidence_unit {evidence : List Confidence}
    (h : ∀ e ∈ evidence, Unit01 e.confidence) : Unit01 (computeEvidenceConfidence evidence) := by
  unfold computeEvidenceConfidence
  split
  · exact unit01_zero
  · rw [← List.length_map (·.value)]
    refine unit01_mean fun q hq => ?_
    obtain ⟨e, he, rfl⟩ := List.mem_map.mp hq
    refine unit01_mul (h e he) ?_
    split
    · exact unit01_one
    · exact ⟨by norm_num, by norm_num⟩

theorem signalScore_unit {signals : List Signal}
    (h : ∀ row ∈ signals, Unit01 row.relevance ∧ Unit01 row.confidence) :
    Unit01 (signalScore signals) := by
  refine SignalScorer.score_unit fun s hs => ?_
  obtain ⟨row, hrow, rfl⟩ := List.mem_map.mp hs
  exact ⟨(h row hrow).1, (h row hrow).2, rfl⟩

theorem evidenceConfidence_unit {isFresh : Evidence → Date → Bool} {evidence : List Evidence}
    {now : Date} (h : ∀ row ∈ evidence, Unit01 row.confidence) :
    Unit01 (evidenceConfidence isFresh evidence now) := by
  refine computeEvidenceConfidence_unit fun e he => ?_
  obtain ⟨row, hrow, rfl⟩ := List.mem_map.mp he
  exact h row hrow

/-! ## The score of an account -/

namespace IcpScorer

variable (w : Wording) (account : Account.Props) (profile : IcpProfile.State)

theorem fit_le_one : fit w account profile ≤ 1 :=
  le_trans (min_le_left _ _) (by norm_num)

theorem score_le_one : (score w account profile).score ≤ 1 := by
  unfold score
  split
  · exact unit01_zero.2
  · exact fit_le_one w account profile

/-- How far the criteria that are met may weigh against the rest of them. -/
theorem fit_nonneg_iff : 0 ≤ fit w account profile ↔
    (0 < weight profile.softCriteria → -121 * weight profile.softCriteria ≤
      70 * weight (matched w account profile.softCriteria)) := by
  unfold fit
  dsimp only
  rw [le_min_iff, toHundredths_nonneg_iff, and_iff_right (by norm_num)]
  by_cases hpos : 0 < weight profile.softCriteria
  · rw [if_pos hpos]
    have hshare : -1 / 200 ≤ 6 / 10 + weight (matched w account profile.softCriteria) /
          weight profile.softCriteria * (35 / 100) ↔
        -121 / 70 ≤ weight (matched w account profile.softCriteria) / weight profile.softCriteria := by
      constructor
      · intro h
        linarith
      · intro h
        linarith
    rw [hshare, le_div_iff₀ hpos]
    constructor
    · intro h _
      linarith
    · intro h
      have := h hpos
      linarith
  · rw [if_neg hpos]
    exact ⟨fun _ h => absurd h hpos, fun _ => by norm_num⟩

end IcpScorer

/-! ## The overall score -/

/-- What the weights make of the three scores together. -/
def weighed (weights : ScoringWeights) (icpMatch signalScore evidenceConfidence : Rat) : Rat :=
  (weights.icpMatch + weights.intent / 2) * icpMatch +
    (weights.signal + weights.intent / 2) * signalScore +
    weights.evidenceConfidence * evidenceConfidence

/-- **The overall score is linear in the three scores it is made of, but for its rounding.** -/
theorem LeadScorer.score_overall {icpMatch signalScore : Rat} (hicp : icpMatch ≤ 1)
    (hsignal : signalScore ≤ 1) (evidenceConfidence : Rat) (weights : ScoringWeights) :
    (LeadScorer.score icpMatch signalScore evidenceConfidence weights).overall =
      min 1 (toHundredths (weighed weights icpMatch signalScore evidenceConfidence)) := by
  have hintent : min 1 ((icpMatch + signalScore) / 2) = (icpMatch + signalScore) / 2 :=
    min_eq_right (by linarith)
  unfold LeadScorer.score weighed
  dsimp only
  rw [hintent]
  congr 2
  ring

/-! ## The evaluation -/

theorem elementsJsonSafe_str (texts : List String) (seen : List Nat) :
    Lead.elementsJsonSafe (texts.map .str) seen = some seen := by
  induction texts with
  | nil => rfl
  | cons t texts ih =>
    rw [List.map_cons, Lead.elementsJsonSafe, Lead.isJsonSafe]
    exact ih

theorem normalizedFeatures_safe (account : Account.Props) :
    (Lead.isJsonSafe (normalizedFeatures account) []).isNone = false := by
  unfold normalizedFeatures
  cases account.industry with
  | none =>
    cases account.employeeCount with
    | none => simp [Lead.isJsonSafe, Lead.membersJsonSafe, elementsJsonSafe_str]
    | some n => simp [Lead.isJsonSafe, Lead.membersJsonSafe, elementsJsonSafe_str, JsNumber.isFinite]
  | some i =>
    cases account.employeeCount with
    | none => simp [Lead.isJsonSafe, Lead.membersJsonSafe, elementsJsonSafe_str]
    | some n => simp [Lead.isJsonSafe, Lead.membersJsonSafe, elementsJsonSafe_str, JsNumber.isFinite]

/-- Every reason is a filter that failed. -/
theorem mem_deriveHardFilterResults {w : Wording} {icpResult : IcpScorer.Result}
    {hf : Lead.HardFilterResult} (h : hf ∈ deriveHardFilterResults w icpResult) :
    hf.filter ∈ Lead.hardFilterCodes ∧ hf.passed = false := by
  unfold deriveHardFilterResults at h
  split at h
  · cases h
  · obtain ⟨reason, -, rfl⟩ := List.mem_map.mp h
    dsimp only
    split
    · exact ⟨by decide, rfl⟩
    · split
      · exact ⟨by decide, rfl⟩
      · split
        · exact ⟨by decide, rfl⟩
        · exact ⟨by decide, rfl⟩

section

variable (w : Wording) (isFresh : Evidence → Date → Bool) (profile : IcpProfile.State)
  (account : Account.Props) (evidence : List Evidence) (signals : List Signal) (now : Date)

/-- An account is evaluated as it passes the hard filters. -/
theorem passesFilters_iff :
    (evaluation w isFresh profile account evidence signals now).PassesFilters ↔
      IcpScorer.failure w account profile.hardFilters = none := by
  unfold Lead.EvaluationInput.PassesFilters evaluation
  dsimp only
  cases hfailure : IcpScorer.failure w account profile.hardFilters with
  | none =>
    rw [IcpScorer.score, hfailure]
    exact ⟨fun _ => rfl, fun _ hf hmem => absurd hmem List.not_mem_nil⟩
  | some reason =>
    rw [IcpScorer.score, hfailure]
    obtain ⟨hf, hmem⟩ : ∃ hf, hf ∈ deriveHardFilterResults w ⟨0, false, [reason]⟩ :=
      ⟨_, List.mem_cons_self⟩
    refine ⟨fun h => ?_, nofun⟩
    have hpassed := h hf hmem
    rw [(mem_deriveHardFilterResults hmem).2] at hpassed
    cases hpassed

theorem evaluation_checkRest :
    (evaluation w isFresh profile account evidence signals now).checkRest = .ok now := by
  have hcodes : (deriveHardFilterResults w (IcpScorer.score w account profile)).find?
      (fun hf => hf.filter ∉ Lead.hardFilterCodes) = none := by
    rw [List.find?_eq_none]
    intro hf hmem
    simp [(mem_deriveHardFilterResults hmem).1]
  unfold Lead.EvaluationInput.checkRest evaluation
  dsimp only
  rw [if_neg (by decide), if_neg (by decide), if_neg (by decide), normalizedFeatures_safe,
    if_neg (by decide), hcodes]

/-- **An evaluation passes its checks where the overall score is between zero and one.** -/
theorem evaluation_check_ok (hle : profile.reviewThreshold ≤ profile.qualificationThreshold)
    (h : Unit01 (leadScores w isFresh profile account evidence signals now).overall) :
    (evaluation w isFresh profile account evidence signals now).check =
      .ok ⟨leadScores w isFresh profile account evidence signals now,
        profile.qualificationThreshold, profile.reviewThreshold, now⟩ := by
  have hscores : (evaluation w isFresh profile account evidence signals now).scores.check =
      .ok (leadScores w isFresh profile account evidence signals now) := by
    unfold Lead.Scores.check evaluation finiteScores
    dsimp only
    rw [JsNumber.lt_finite, JsNumber.lt_finite, decide_eq_false (not_lt.mpr h.1),
      decide_eq_false (not_lt.mpr h.2), Bool.or_false, if_neg (by decide)]
    rfl
  have hthresholds : Lead.checkThresholds (.finite profile.qualificationThreshold)
      (.finite profile.reviewThreshold) =
        .ok (profile.qualificationThreshold, profile.reviewThreshold) :=
    if_neg (not_lt.mpr hle)
  have hrest := evaluation_checkRest w isFresh profile account evidence signals now
  unfold Lead.EvaluationInput.check
  rw [hscores, hrest]
  show (Lead.checkThresholds (.finite profile.qualificationThreshold)
    (.finite profile.reviewThreshold) >>= _) = _
  rw [hthresholds]
  rfl

theorem evaluation_check_error
    (h : ¬Unit01 (leadScores w isFresh profile account evidence signals now).overall) :
    (evaluation w isFresh profile account evidence signals now).check =
      .error "Overall lead score must be between 0 and 1" := by
  have hscores : (evaluation w isFresh profile account evidence signals now).scores.check =
      .error "Overall lead score must be between 0 and 1" := by
    unfold Lead.Scores.check evaluation finiteScores
    dsimp only
    rw [JsNumber.lt_finite, JsNumber.lt_finite, if_pos]
    rw [Bool.or_eq_true, decide_eq_true_iff, decide_eq_true_iff]
    rw [Unit01, not_and_or, not_le, not_le] at h
    exact h
  unfold Lead.EvaluationInput.check
  rw [hscores]
  rfl

end

end VegaRevenue.Intelligence
