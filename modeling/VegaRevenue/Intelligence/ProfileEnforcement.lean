import VegaRevenue.Intelligence.Repeat
import VegaRevenue.Intelligence.Scoring

/-!
# What a profile enforces

A lead is saved evaluated, with scores between zero and one, and is qualified or reviewed only where
its account violates none of the hard filters of the profile.

* `evaluateLead_saves` — what `evaluateLead` leaves in the store
* `enforces_iff` — on which accounts a profile is enforced
-/

namespace VegaRevenue.Intelligence

open IcpProfile (HardFilter ScoringWeights)
open Programs

/-! ## The law -/

/-- The industry of the account is excluded. -/
def Excluded (hard : HardFilter) (account : Account.Props) : Prop :=
  ∃ industry ∈ account.industry, industry ∈ hard.excludedIndustries.getD []

/-- The account violates none of the hard filters. -/
structure MeetsFilters (hard : HardFilter) (account : Account.Props) : Prop where
  industry : hard.industries.getD [] ≠ [] →
    ∃ industry ∈ account.industry, industry ∈ hard.industries.getD []
  notExcluded : ¬Excluded hard account
  territory : hard.territories.getD [] ≠ [] →
    ∃ territory ∈ account.territories, territory ∈ hard.territories.getD []
  employees : ∀ count ∈ account.employeeCount,
    (∀ least ∈ hard.minEmployees, least ≤ count) ∧ ∀ most ∈ hard.maxEmployees, count ≤ most

/-- The lead has been evaluated, and the profile is enforced on it. -/
structure Enforced (hard : HardFilter) (account : Account.Props) (lead : Lead.Props) : Prop where
  evaluated : lead.qualificationSnapshot.isSome = true
  icpMatch : Unit01 lead.icpMatch
  signalScore : Unit01 lead.signalScore
  intentScore : Unit01 lead.intentScore
  evidenceConfidence : Unit01 lead.evidenceConfidence
  overall : Unit01 lead.overall
  filters : lead.status = .qualified ∨ lead.status = .needsReview → MeetsFilters hard account

/-- The engine with a profile. -/
def Env.scoring (env : Env) (w : Wording) (isFresh : Evidence → Date → Bool)
    (profile : IcpProfile.State) : Env :=
  { env with
    icpProfileId := profile.id
    icpProfileVersionId := profile.versionId
    evaluation := Intelligence.evaluation w isFresh profile }

/-- The key of the lead of an account and a contact. -/
def leadKey (env : Env) (account : Account) (contact : Contact) : String × String :=
  (env.ctx.tenantId, "lead-" ++ account.state.id ++ "-" ++ contact.state.id)

/-- The profile is enforced on every lead that is saved for the account, whatever is stored and
detected of it. -/
def Enforces (env : Env) (w : Wording) (profile : IcpProfile.State) (account : Account) : Prop :=
  ∀ isFresh pass contact s s',
    exec ((env.scoring w isFresh profile).evaluateLead pass account contact) s = (.ok (), s') →
    (∀ row ∈ s'.signals, Unit01 row.relevance ∧ Unit01 row.confidence) →
    (∀ row ∈ s'.evidence, Unit01 row.confidence) →
    ∃ r, s'.leads.find (leadKey env account contact) = some r ∧
      Enforced profile.hardFilters account.state r.payload

/-! ## What is saved -/

section

variable (env : Env) (pass : Pass) (account : Account) (contact : Contact)

theorem detectSignals_mem (accountId : String) :
    Ensures (fun _ => True) (env.detectSignalsForAccount pass accountId)
      (fun signals s => ∀ row ∈ signals, row ∈ s.signals) (fun _ _ => True) := by
  unfold Env.detectSignalsForAccount
  cases pass.signals accountId with
  | none => exact ensures_pure fun s _ row hrow => absurd hrow List.not_mem_nil
  | some detected =>
    have hsave : Ensures (fun _ => True) (env.saveSignals pass accountId detected)
        (fun _ _ => True) (fun _ _ => True) := by
      intro s _
      split <;> trivial
    refine ensures_bind hsave fun _ => ensures_get_bind fun s _ => ensures_pure ?_
    rintro _ rfl row hrow
    exact (List.mem_filter.mp hrow).1

/-- What a saved lead was made of is in the store. -/
def Saved (s : Store) : Prop :=
  ∃ evidence signals, (∀ row ∈ evidence, row ∈ s.evidence) ∧ (∀ row ∈ signals, row ∈ s.signals) ∧
    ∃ r, s.leads.find (leadKey env account contact) = some r ∧
      r.payload = (env.newLead pass account contact evidence signals).state

theorem newLead_key (evidence : List Evidence) (signals : List Signal) :
    (env.newLead pass account contact evidence signals).state.tenantId = env.ctx.tenantId ∧
      (env.newLead pass account contact evidence signals).state.id =
        (leadKey env account contact).2 := by
  unfold Env.newLead Lead.evaluate
  dsimp only
  split
  · exact ⟨rfl, rfl⟩
  · split
    · exact ⟨rfl, rfl⟩
    · split
      · exact ⟨rfl, rfl⟩
      · exact ⟨rfl, rfl⟩

theorem saveLead_saves {lead : Lead} (hid : lead.state.id = (leadKey env account contact).2)
    {s s' : Store} (h : exec (env.saveLead lead) s = (.ok (), s')) :
    ∃ leads, s' = { s with leads } ∧
      ∃ r, leads.find (leadKey env account contact) = some r ∧ r.payload = lead.state := by
  unfold Env.saveLead at h
  rw [exec_bind, exec_get] at h
  dsimp only at h
  cases hsave : s.leads.save env.ctx lead with
  | error e =>
    rw [hsave] at h
    cases h
  | ok leads =>
    rw [hsave] at h
    cases h
    refine ⟨leads, rfl, ?_⟩
    unfold ConversationHandling.Leads.save at hsave
    split at hsave
    · cases hsave
    · split at hsave
      next rows hrows =>
        cases hsave
        rw [hid] at hrows
        exact ⟨_, Versioned.Table.find_save_self hrows, rfl⟩
      · split at hsave
        · cases hsave
        · cases hsave

/-- **`evaluateLead` saves a lead made of stored evidence and signals.** -/
theorem evaluateLead_saves :
    Ensures (fun _ => True) (env.evaluateLead pass account contact)
      (fun _ => Saved env pass account contact) (fun _ _ => True) := by
  refine ensures_bind (detectSignals_mem env pass _) fun signals =>
    ensures_get_bind fun s hsignals => ?_
  rintro _ rfl
  split
  next s' hsave =>
    obtain ⟨leads, rfl, hr⟩ :=
      saveLead_saves env account contact (newLead_key env pass account contact _ signals).2 hsave
    exact ⟨_, signals, fun row hrow => (List.mem_filter.mp hrow).1, hsignals, hr⟩
  · trivial

end

/-! ## The filters -/

/-- An account that fails no filter that is read, and is not excluded, violates none. -/
theorem meetsFilters_of_failure {w : Wording} {account : Account.Props} {hard : HardFilter}
    (h : IcpScorer.failure w account hard = none) (hexcluded : ¬Excluded hard account) :
    MeetsFilters hard account := by
  obtain ⟨hindustry, hterritory, hbelow, habove⟩ : IcpScorer.industryFailure account hard = none ∧
      IcpScorer.territoryFailure account hard = none ∧ IcpScorer.belowMinimum w account hard = none ∧
      IcpScorer.aboveMaximum w account hard = none := by
    simpa [IcpScorer.failure] using h
  refine ⟨fun hne => ?_, hexcluded, fun hne => ?_, fun count hcount =>
    ⟨fun least hleast => ?_, fun most hmost => ?_⟩⟩
  · unfold IcpScorer.industryFailure at hindustry
    dsimp only at hindustry
    split at hindustry
    next hpass =>
      have hany := hpass.resolve_left hne
      cases hi : account.industry with
      | none =>
        rw [hi] at hany
        cases hany
      | some industry =>
        rw [hi, Option.any_some, Bool.and_eq_true] at hany
        exact ⟨industry, rfl, List.contains_iff_mem.mp hany.2⟩
    · cases hindustry
  · unfold IcpScorer.territoryFailure at hterritory
    dsimp only at hterritory
    split at hterritory
    next hpass =>
      obtain ⟨territory, hmem, hlisted⟩ := List.any_eq_true.mp (hpass.resolve_left hne)
      exact ⟨territory, hmem, List.contains_iff_mem.mp hlisted⟩
    · cases hterritory
  · unfold IcpScorer.belowMinimum at hbelow
    rw [Option.mem_def.mp hcount, Option.mem_def.mp hleast] at hbelow
    dsimp only at hbelow
    split at hbelow
    · cases hbelow
    next hle => exact not_lt.mp hle
  · unfold IcpScorer.aboveMaximum at habove
    rw [Option.mem_def.mp hcount, Option.mem_def.mp hmost] at habove
    dsimp only at habove
    split at habove
    · cases habove
    next hle => exact not_lt.mp hle

/-! ## What a profile and an account allow -/

/-- The least that the weights make of the three scores, whatever signals and evidence there are. -/
def leastWeighed (weights : ScoringWeights) (icpMatch : Rat) : Rat :=
  (weights.icpMatch + weights.intent / 2) * icpMatch + min 0 (weights.signal + weights.intent / 2) +
    min 0 weights.evidenceConfidence

def greatestWeighed (weights : ScoringWeights) (icpMatch : Rat) : Rat :=
  (weights.icpMatch + weights.intent / 2) * icpMatch + max 0 (weights.signal + weights.intent / 2) +
    max 0 weights.evidenceConfidence

theorem mul_unit_bounds (c : Rat) {q : Rat} (hq : Unit01 q) : min 0 c ≤ c * q ∧ c * q ≤ max 0 c := by
  obtain ⟨hlow, hhigh⟩ := hq
  rcases le_total 0 c with hc | hc
  · rw [min_eq_left hc, max_eq_right hc]
    exact ⟨mul_nonneg hc hlow, mul_le_of_le_one_right hc hhigh⟩
  · rw [min_eq_right hc, max_eq_left hc]
    exact ⟨le_mul_of_le_one_right hc hhigh, mul_nonpos_of_nonpos_of_nonneg hc hlow⟩

theorem weighed_bounds (weights : ScoringWeights) (icpMatch : Rat) {signal evidence : Rat}
    (hs : Unit01 signal) (he : Unit01 evidence) :
    leastWeighed weights icpMatch ≤ weighed weights icpMatch signal evidence ∧
      weighed weights icpMatch signal evidence ≤ greatestWeighed weights icpMatch := by
  have hsignal := mul_unit_bounds (weights.signal + weights.intent / 2) hs
  have hevidence := mul_unit_bounds weights.evidenceConfidence he
  unfold leastWeighed greatestWeighed weighed
  exact ⟨by linarith [hsignal.1, hevidence.1], by linarith [hsignal.2, hevidence.2]⟩

/-- The score of nothing, or the full one. -/
def extreme (full : Bool) : Rat := if full then 1 else 0

theorem exists_min (c : Rat) : ∃ full, c * extreme full = min 0 c := by
  rcases le_total 0 c with hc | hc
  · exact ⟨false, by rw [min_eq_left hc]; exact mul_zero c⟩
  · exact ⟨true, by rw [min_eq_right hc]; exact mul_one c⟩

theorem exists_max (c : Rat) : ∃ full, c * extreme full = max 0 c := by
  rcases le_total 0 c with hc | hc
  · exact ⟨true, by rw [max_eq_right hc]; exact mul_one c⟩
  · exact ⟨false, by rw [max_eq_left hc]; exact mul_zero c⟩

/-- When a profile is enforced on an account. -/
structure Enforceable (w : Wording) (profile : IcpProfile.State) (account : Account.Props) : Prop where
  /-- The criteria that are met do not weigh too much against the others. -/
  criteria : IcpScorer.failure w account profile.hardFilters = none →
    0 < IcpScorer.weight profile.softCriteria →
      -121 * IcpScorer.weight profile.softCriteria ≤
        70 * IcpScorer.weight (IcpScorer.matched w account profile.softCriteria)
  /-- No weights below zero outweigh the others. -/
  weights : -1 / 200 ≤
    leastWeighed profile.scoringWeights (IcpScorer.score w account profile).score
  /-- An excluded account cannot reach the threshold. -/
  excluded : IcpScorer.failure w account profile.hardFilters = none →
    Excluded profile.hardFilters account →
      toHundredths (greatestWeighed profile.scoringWeights (IcpScorer.score w account profile).score) <
        profile.reviewThreshold

/-! ## One lead -/

/-- An evaluation of a created lead goes as its checks go. -/
theorem evaluate_create {props : Lead.Props} (hprops : props.qualificationSnapshot = none)
    (input : Lead.EvaluationInput) (now : Date) :
    Lead.evaluate (Lead.create props) input now =
      match input.check with
      | .error message => (Lead.create props, .fail message)
      | .ok e =>
        (Lead.qualify ((Lead.create props).write { props with status := .evaluating }) input e now,
          .ok) := by
  have hsnapshot : (Lead.create props).state.qualificationSnapshot.isSome = false := by
    show props.qualificationSnapshot.isSome = false
    rw [hprops]
    rfl
  have hstatus : ¬(Lead.create props).state.status ≠ .pending := fun h => h rfl
  unfold Lead.evaluate
  rw [hsnapshot, if_neg (by decide), if_neg hstatus]
  rfl

/-- The two outcomes above the lower threshold. -/
theorem qualified_or_review {passes : Prop} {q r overall : Rat} (hle : r ≤ q) :
    (passes ∧ (JsNumber.finite q).le (.finite overall) = true) ∨
        (passes ∧ (JsNumber.finite r).le (.finite overall) = true ∧
          (JsNumber.finite overall).lt (.finite q) = true) ↔
      passes ∧ r ≤ overall := by
  rw [JsNumber.le_finite, JsNumber.le_finite, JsNumber.lt_finite, decide_eq_true_iff,
    decide_eq_true_iff, decide_eq_true_iff]
  constructor
  · rintro (⟨hpasses, hq⟩ | ⟨hpasses, hr, -⟩)
    · exact ⟨hpasses, le_trans hle hq⟩
    · exact ⟨hpasses, hr⟩
  · rintro ⟨hpasses, hr⟩
    rcases le_or_gt q overall with hq | hq
    · exact .inl ⟨hpasses, hq⟩
    · exact .inr ⟨hpasses, hr, hq⟩

/-- The lead holds the scores, and its status is the one they and the filters give. -/
structure Evaluated (review : Rat) (input : Lead.EvaluationInput) (scores : Lead.Scores Rat)
    (lead : Lead.Props) : Prop where
  snapshot : lead.qualificationSnapshot.isSome = true
  icpMatch : lead.icpMatch = scores.icpMatch
  signalScore : lead.signalScore = scores.signalScore
  intentScore : lead.intentScore = scores.intentScore
  evidenceConfidence : lead.evidenceConfidence = scores.evidenceConfidence
  overall : lead.overall = scores.overall
  status : lead.status = .qualified ∨ lead.status = .needsReview ↔
    input.PassesFilters ∧ review ≤ scores.overall

section

variable (env : Env) (w : Wording) (isFresh : Evidence → Date → Bool) {profile : IcpProfile.State}
  (pass : Pass) (account : Account) (contact : Contact) (evidence : List Evidence)
  (signals : List Signal)

/-- **A lead is evaluated where its overall score is between zero and one.** -/
theorem newLead_evaluated (hle : profile.reviewThreshold ≤ profile.qualificationThreshold)
    (h : Unit01 (leadScores w isFresh profile account.state evidence signals pass.now).overall) :
    Evaluated profile.reviewThreshold
      (evaluation w isFresh profile account.state evidence signals pass.now)
      (leadScores w isFresh profile account.state evidence signals pass.now)
      ((env.scoring w isFresh profile).newLead pass account contact evidence signals).state := by
  have hcheck := evaluation_check_ok w isFresh profile account.state evidence signals pass.now hle h
  have hscoring : ((env.scoring w isFresh profile).evaluation account.state evidence signals
      pass.now).check = _ := hcheck
  obtain ⟨hqualified, hreview, -⟩ := Lead.justified_decision hcheck
  unfold Env.newLead
  dsimp only
  rw [evaluate_create rfl, hscoring]
  refine ⟨rfl, rfl, rfl, rfl, rfl, rfl, ?_⟩
  exact (or_congr hqualified hreview).trans (qualified_or_review hle)

theorem newLead_pending
    (h : ¬Unit01 (leadScores w isFresh profile account.state evidence signals pass.now).overall) :
    ((env.scoring w isFresh profile).newLead pass account contact evidence
      signals).state.qualificationSnapshot = none := by
  have hcheck := evaluation_check_error w isFresh profile account.state evidence signals pass.now h
  have hscoring : ((env.scoring w isFresh profile).evaluation account.state evidence signals
      pass.now).check = _ := hcheck
  unfold Env.newLead
  dsimp only
  rw [evaluate_create rfl, hscoring]
  rfl

/-- **The profile is enforced on a lead iff the fit of its account is not negative, nor what the
weights make of its scores, and an excluded account stays below the threshold.** -/
theorem enforced_newLead_iff
    (hle : profile.reviewThreshold ≤ profile.qualificationThreshold)
    (hone : profile.qualificationThreshold ≤ 1)
    (hsignals : ∀ row ∈ signals, Unit01 row.relevance ∧ Unit01 row.confidence)
    (hevidence : ∀ row ∈ evidence, Unit01 row.confidence) :
    Enforced profile.hardFilters account.state
        ((env.scoring w isFresh profile).newLead pass account contact evidence signals).state ↔
      0 ≤ (IcpScorer.score w account.state profile).score ∧
        -1 / 200 ≤ weighed profile.scoringWeights (IcpScorer.score w account.state profile).score
          (signalScore signals) (evidenceConfidence isFresh evidence pass.now) ∧
        (IcpScorer.failure w account.state profile.hardFilters = none →
          Excluded profile.hardFilters account.state →
          toHundredths (weighed profile.scoringWeights
            (IcpScorer.score w account.state profile).score (signalScore signals)
            (evidenceConfidence isFresh evidence pass.now)) < profile.reviewThreshold) := by
  have hicp := IcpScorer.score_le_one w account.state profile
  have hs : Unit01 (signalScore signals) := signalScore_unit hsignals
  have he : Unit01 (evidenceConfidence isFresh evidence pass.now) := evidenceConfidence_unit hevidence
  have hoverall := LeadScorer.score_overall hicp hs.2
    (evidenceConfidence isFresh evidence pass.now) profile.scoringWeights
  have hpasses := passesFilters_iff w isFresh profile account.state evidence signals pass.now
  generalize hsum : weighed profile.scoringWeights (IcpScorer.score w account.state profile).score
    (signalScore signals) (evidenceConfidence isFresh evidence pass.now) = sum at hoverall ⊢
  have hunit : Unit01 (leadScores w isFresh profile account.state evidence signals pass.now).overall ↔
      -1 / 200 ≤ sum := by
    rw [← toHundredths_nonneg_iff]
    show Unit01 (LeadScorer.score _ _ _ _).overall ↔ _
    rw [hoverall]
    exact ⟨fun h => (le_min_iff.mp h.1).2, fun h => ⟨le_min unit01_one.1 h, min_le_left _ _⟩⟩
  by_cases hsum' : -1 / 200 ≤ sum
  · have hlead := newLead_evaluated env w isFresh pass account contact evidence signals hle
      (hunit.mpr hsum')
    have hstatus := hlead.status
    rw [hpasses, show (leadScores w isFresh profile account.state evidence signals
      pass.now).overall = min 1 (toHundredths sum) from hoverall] at hstatus
    constructor
    · intro h
      have hfit := h.icpMatch
      rw [hlead.icpMatch] at hfit
      refine ⟨hfit.1, hsum', fun hfailure hexcluded => ?_⟩
      by_contra hnot
      have hreached : profile.reviewThreshold ≤ min 1 (toHundredths sum) :=
        le_min (le_trans hle hone) (not_lt.mp hnot)
      exact (h.filters (hstatus.mpr ⟨hfailure, hreached⟩)).notExcluded hexcluded
    · rintro ⟨hfit, -, hexcluded⟩
      refine ⟨hlead.snapshot, ?_, ?_, ?_, ?_, ?_, fun hreached => ?_⟩
      · rw [hlead.icpMatch]
        exact ⟨hfit, hicp⟩
      · rw [hlead.signalScore]
        exact hs
      · rw [hlead.intentScore]
        exact toHundredths_unit
          ⟨le_min unit01_one.1 (by linarith [hs.1] : 0 ≤ (_ + signalScore signals) / 2),
            min_le_left _ _⟩
      · rw [hlead.evidenceConfidence]
        exact he
      · rw [hlead.overall]
        exact hunit.mpr hsum'
      · obtain ⟨hfailure, hreached⟩ := hstatus.mp hreached
        refine meetsFilters_of_failure hfailure fun hex => ?_
        exact absurd (le_trans hreached (min_le_right _ _)) (not_le.mpr (hexcluded hfailure hex))
  · have hpending := newLead_pending env w isFresh pass account contact evidence signals
      (fun h => hsum' (hunit.mp h))
    refine ⟨fun h => ?_, fun h => absurd h.2.1 hsum'⟩
    have hsnapshot := h.evaluated
    rw [hpending] at hsnapshot
    cases hsnapshot

end

/-! ## Every lead of an account -/

/-- A store with a signal in effect and a piece of evidence, or without them. -/
def extremeStore (env : Env) (account : Account) (signal evidence : Bool) : Store where
  signals := if signal then
    [{ id := "s1", tenantId := env.ctx.tenantId, workspaceId := env.ctx.workspaceId,
       accountId := account.state.id, signalType := "BUSINESS_CHANGE", observedAt := 0,
       effectiveFrom := 0, effectiveUntil := 1, source := "provider", confidence := 1,
       relevance := 1, observedSignal := "", interpretedSignal := "", evidenceIds := [],
       dedupIdentity := "s1" }] else []
  evidence := if evidence then
    [{ evidenceId := "e1", tenantId := env.ctx.tenantId, workspaceId := env.ctx.workspaceId,
       accountId := account.state.id, missionId := none, claimType := "INDUSTRY",
       normalizedValue := .null, source := "provider", observedAt := 0, confidence := 1,
       evidenceFingerprint := "e1" }] else []

/-- A pass that detects nothing new. -/
def quietPass : Pass where
  accounts := []
  duplicateAccount _ := none
  intelligence _ := {}
  contacts _ := []
  duplicateContact _ := false
  enriched candidate := ⟨candidate, 1, .uncertain⟩
  signals _ := some []
  now := 0

def extremeContact : Contact :=
  .discover { id := "c1", tenantId := "t1", workspaceId := "w1", accountId := "a1", createdAt := 0,
              updatedAt := 0 } "provider"

section

theorem signalScore_extreme (env : Env) (account : Account) (signal evidence : Bool) :
    signalScore (extremeStore env account signal evidence).signals = extreme signal := by
  cases signal with
  | false => rfl
  | true =>
    simp only [signalScore, extremeStore, if_true, List.map_cons, List.map_nil, SignalScorer.score,
      SignalScorer.Scored.recency, List.sum_cons, List.sum_nil, extreme]
    norm_num [toHundredths_one]

theorem evidenceConfidence_extreme (env : Env) (account : Account) (signal evidence : Bool) :
    evidenceConfidence (fun _ _ => true) (extremeStore env account signal evidence).evidence 0 =
      extreme evidence := by
  cases evidence with
  | false => rfl
  | true =>
    simp only [evidenceConfidence, extremeStore, if_true, List.map_cons, List.map_nil,
      computeEvidenceConfidence, Confidence.value, List.sum_cons, List.sum_nil, extreme]
    norm_num [toHundredths_one]

theorem extremeStore_unit (env : Env) (account : Account) (signal evidence : Bool) :
    (∀ row ∈ (extremeStore env account signal evidence).signals,
        Unit01 row.relevance ∧ Unit01 row.confidence) ∧
      ∀ row ∈ (extremeStore env account signal evidence).evidence, Unit01 row.confidence := by
  constructor
  · intro row hrow
    cases signal with
    | false => cases hrow
    | true =>
      rw [List.mem_singleton.mp hrow]
      exact ⟨unit01_one, unit01_one⟩
  · intro row hrow
    cases evidence with
    | false => cases hrow
    | true =>
      rw [List.mem_singleton.mp hrow]
      exact unit01_one

/-- What is saved from such a store. -/
theorem exec_extreme (env : Env) (account : Account) (contact : Contact) (signal evidence : Bool) :
    ∃ leads, exec (env.evaluateLead quietPass account contact)
        (extremeStore env account signal evidence) =
          (.ok (), { extremeStore env account signal evidence with leads }) ∧
      ∃ r, leads.find (leadKey env account contact) = some r ∧
        r.payload = (env.newLead quietPass account contact
          (extremeStore env account signal evidence).evidence
          (extremeStore env account signal evidence).signals).state := by
  have hsignals : env.activeSignals (extremeStore env account signal evidence) account.state.id 0 =
      (extremeStore env account signal evidence).signals := by
    cases signal with
    | false => rfl
    | true => simp [Env.activeSignals, extremeStore]
  have hevidence : (extremeStore env account signal evidence).evidence.filter (fun row =>
      row.tenantId = env.ctx.tenantId && row.workspaceId = env.ctx.workspaceId &&
        row.accountId = account.state.id) = (extremeStore env account signal evidence).evidence := by
    cases evidence with
    | false => rfl
    | true => simp [extremeStore]
  have hdetect : exec (env.detectSignalsForAccount quietPass account.state.id)
      (extremeStore env account signal evidence) =
        (.ok (extremeStore env account signal evidence).signals,
          extremeStore env account signal evidence) := by
    rw [← hsignals]
    rfl
  generalize hlead : env.newLead quietPass account contact
    (extremeStore env account signal evidence).evidence
    (extremeStore env account signal evidence).signals = lead
  obtain ⟨htenant, hid⟩ : lead.state.tenantId = env.ctx.tenantId ∧
      lead.state.id = (leadKey env account contact).2 := by
    rw [← hlead]
    exact newLead_key env quietPass account contact _ _
  have hfresh : lead.loadedVersion = none := by
    rw [← hlead]
    exact Env.newLead_loadedVersion _ _ _ _ _
  have hsave : ∃ leads, exec (env.saveLead lead) (extremeStore env account signal evidence) =
      (.ok (), { extremeStore env account signal evidence with leads }) := by
    have hnew : ConversationHandling.Leads.save [] env.ctx lead =
        .ok [((env.ctx.tenantId, lead.state.id), ⟨lead.state, lead.version⟩)] := by
      unfold ConversationHandling.Leads.save
      rw [if_neg (not_not.mpr htenant.symm),
        Versioned.Table.save_eq_some_iff.mpr (.inl ⟨hfresh, rfl, rfl⟩)]
      rfl
    refine ⟨[((env.ctx.tenantId, lead.state.id), ⟨lead.state, lead.version⟩)], ?_⟩
    unfold Env.saveLead
    rw [exec_bind, exec_get]
    dsimp only
    rw [show (extremeStore env account signal evidence).leads = [] from rfl, hnew]
    rfl
  obtain ⟨leads, hsave⟩ := hsave
  have hrun : exec (env.evaluateLead quietPass account contact)
      (extremeStore env account signal evidence) =
        (.ok (), { extremeStore env account signal evidence with leads }) := by
    unfold Env.evaluateLead
    rw [exec_bind, hdetect]
    dsimp only
    rw [exec_bind, exec_get]
    dsimp only
    rw [hevidence, hlead]
    exact hsave
  obtain ⟨leads', heq, hr⟩ := saveLead_saves env account contact hid hsave
  obtain rfl : leads = leads' := congrArg Store.leads heq
  exact ⟨leads, hrun, hr⟩

/-- **A profile is enforced on an account, whatever is stored and detected of it, iff the criteria
and the weights allow it.** -/
theorem enforces_iff (env : Env) (w : Wording) {props : IcpProfile.Props} {now : Date}
    {profile : IcpProfile} (hprofile : IcpProfile.create props now = .ok profile)
    (account : Account) :
    Enforces env w profile.state account ↔ Enforceable w profile.state account.state := by
  obtain ⟨hreview, hle, hone⟩ := IcpProfile.create_thresholds hprofile
  have hfit : 0 ≤ (IcpScorer.score w account.state profile.state).score ↔
      (IcpScorer.failure w account.state profile.state.hardFilters = none →
        0 < IcpScorer.weight profile.state.softCriteria →
          -121 * IcpScorer.weight profile.state.softCriteria ≤
            70 * IcpScorer.weight (IcpScorer.matched w account.state profile.state.softCriteria)) := by
    cases hfailure : IcpScorer.failure w account.state profile.state.hardFilters with
    | none =>
      rw [IcpScorer.score, hfailure]
      exact (IcpScorer.fit_nonneg_iff w account.state profile.state).trans
        ⟨fun h _ => h, fun h => h rfl⟩
    | some reason =>
      rw [IcpScorer.score, hfailure]
      exact ⟨fun _ h => absurd h (Option.some_ne_none reason), fun _ => le_refl 0⟩
  constructor
  · intro h
    -- the leads of the stores at the extremes
    have hextreme : ∀ signal evidence, 0 ≤ (IcpScorer.score w account.state profile.state).score ∧
        -1 / 200 ≤ weighed profile.state.scoringWeights
          (IcpScorer.score w account.state profile.state).score (extreme signal) (extreme evidence) ∧
        (IcpScorer.failure w account.state profile.state.hardFilters = none →
          Excluded profile.state.hardFilters account.state →
          toHundredths (weighed profile.state.scoringWeights
            (IcpScorer.score w account.state profile.state).score (extreme signal)
            (extreme evidence)) < profile.state.reviewThreshold) := by
      intro signal evidence
      obtain ⟨leads, hrun, r, hr, hpayload⟩ := exec_extreme
        (env.scoring w (fun _ _ => true) profile.state) account extremeContact signal evidence
      obtain ⟨hsignals, hevidence⟩ := extremeStore_unit
        (env.scoring w (fun _ _ => true) profile.state) account signal evidence
      obtain ⟨r', hr', henforced⟩ :=
        h (fun _ _ => true) quietPass extremeContact _ _ hrun hsignals hevidence
      obtain rfl : r = r' := Option.some.inj (hr.symm.trans hr')
      rw [hpayload] at henforced
      have hlead := (enforced_newLead_iff env w (fun _ _ => true) quietPass account extremeContact
        _ _ hle hone hsignals hevidence).mp henforced
      rw [signalScore_extreme] at hlead
      rw [show evidenceConfidence (fun _ _ => true) _ quietPass.now = extreme evidence from
        evidenceConfidence_extreme _ account signal evidence] at hlead
      exact hlead
    refine ⟨hfit.mp (hextreme false false).1, ?_, fun hfailure hex => ?_⟩
    · obtain ⟨signal, hsignal⟩ :=
        exists_min (profile.state.scoringWeights.signal + profile.state.scoringWeights.intent / 2)
      obtain ⟨evidence, hevidence⟩ := exists_min profile.state.scoringWeights.evidenceConfidence
      have hlow := (hextreme signal evidence).2.1
      rw [weighed, hsignal, hevidence] at hlow
      exact hlow
    · obtain ⟨signal, hsignal⟩ :=
        exists_max (profile.state.scoringWeights.signal + profile.state.scoringWeights.intent / 2)
      obtain ⟨evidence, hevidence⟩ := exists_max profile.state.scoringWeights.evidenceConfidence
      have hhigh := (hextreme signal evidence).2.2 hfailure hex
      rw [weighed, hsignal, hevidence] at hhigh
      exact hhigh
  · rintro ⟨hcriteria, hweights, hexcluded⟩ isFresh pass contact s s' hrun hsignals hevidence
    have hsaved := evaluateLead_saves (env.scoring w isFresh profile.state) pass account contact s
      trivial
    rw [hrun] at hsaved
    obtain ⟨evidence, signals, hevidenceIn, hsignalsIn, r, hr, hpayload⟩ := hsaved
    have hs : ∀ row ∈ signals, Unit01 row.relevance ∧ Unit01 row.confidence :=
      fun row hrow => hsignals row (hsignalsIn row hrow)
    have he : ∀ row ∈ evidence, Unit01 row.confidence :=
      fun row hrow => hevidence row (hevidenceIn row hrow)
    have hunit : Unit01 (evidenceConfidence isFresh evidence pass.now) := evidenceConfidence_unit he
    obtain ⟨hlow, hhigh⟩ := weighed_bounds profile.state.scoringWeights
      (IcpScorer.score w account.state profile.state).score (signalScore_unit hs) hunit
    refine ⟨r, hr, ?_⟩
    rw [hpayload]
    refine (enforced_newLead_iff env w isFresh pass account contact evidence signals hle hone hs
      he).mpr ⟨hfit.mpr hcriteria, le_trans hweights hlow, fun hfailure hex => ?_⟩
    exact lt_of_le_of_lt (toHundredths_mono hhigh) (hexcluded hfailure hex)

end

/-! ## An excluded industry -/

/-- A profile that excludes an industry. -/
def sampleProfileProps : IcpProfile.Props where
  versionId := "v1"
  version := 1
  tenantId := "t1"
  workspaceId := "w1"
  name := "Mid-market"
  hardFilters := { excludedIndustries := some ["Gambling"] }
  scoringWeights := ⟨4 / 10, 3 / 10, 2 / 10, 1 / 10⟩
  qualificationThreshold := 7 / 10
  reviewThreshold := 3 / 10

def sampleProfile : IcpProfile.State := .of sampleProfileProps 0

def plainWording : Wording := ⟨asciiCasing, fun _ => ""⟩

/-- An account of the excluded industry. -/
def sampleAccount : Account :=
  .create { id := "acme", tenantId := "t1", workspaceId := "w1", name := "Acme",
            industry := some "Gambling", createdAt := 0, updatedAt := 0 }

theorem create_sample : IcpProfile.create sampleProfileProps 0 =
    .ok ((Versioned.Aggregate.init sampleProfile).applyEvent
      (.created "icp-unknown" "v1" 1 "Mid-market")) := by
  have hvalid : IcpProfile.validateProps sampleProfileProps = none := by decide +kernel
  unfold IcpProfile.create
  rw [hvalid]
  rfl

theorem enforces_sample : Enforces sampleEnv plainWording sampleProfile sampleAccount ↔
    Enforceable plainWording sampleProfile sampleAccount.state :=
  enforces_iff sampleEnv plainWording create_sample sampleAccount

/-- How the evaluation of its first contact ends. -/
def sampleEvaluated : Except RunError Unit × Store :=
  exec ((sampleEnv.scoring plainWording (fun _ _ => true) sampleProfile).evaluateLead quietPass
    sampleAccount extremeContact) {}

theorem sampleEvaluated_ends : sampleEvaluated.1.toOption = some () ∧
    sampleEvaluated.2.signals.length = 0 ∧ sampleEvaluated.2.evidence.length = 0 ∧
    (sampleEvaluated.2.leads.find (leadKey sampleEnv sampleAccount extremeContact)).map
      (·.payload.status) = some .needsReview := by
  decide +kernel

/-- **An account of an excluded industry is reviewed.** -/
theorem not_enforces_sample : ¬Enforces sampleEnv plainWording sampleProfile sampleAccount := by
  intro h
  obtain ⟨hok, hsignals, hevidence, hstatus⟩ := sampleEvaluated_ends
  have hrun : exec ((sampleEnv.scoring plainWording (fun _ _ => true) sampleProfile).evaluateLead
      quietPass sampleAccount extremeContact) {} = (.ok (), sampleEvaluated.2) :=
    Prod.ext (eq_ok_of_toOption hok) rfl
  obtain ⟨r, hr, henforced⟩ := h (fun _ _ => true) quietPass extremeContact {} _ hrun
    (fun row hrow => by rw [List.length_eq_zero_iff.mp hsignals] at hrow; cases hrow)
    (fun row hrow => by rw [List.length_eq_zero_iff.mp hevidence] at hrow; cases hrow)
  rw [hr] at hstatus
  have hmeets := henforced.filters (.inr (Option.some.inj hstatus))
  exact hmeets.notExcluded ⟨"Gambling", rfl, List.mem_singleton.mpr rfl⟩

end VegaRevenue.Intelligence
