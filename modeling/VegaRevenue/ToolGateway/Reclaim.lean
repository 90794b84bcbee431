import VegaRevenue.ToolGateway.AtMostOnce
import VegaRevenue.ToolGateway.HttpToolProvider
import VegaRevenue.ToolGateway.RetryLoop

/-!
# Claiming a key again

A call that won the claim of its key and returned has set the outcome of its last attempt, and a
later claim is decided by what `persistClaimOutcome` stored: not by what the provider said it
submitted, but by one error code.

* `claim_after_iff` — a later claim wins iff the last attempt ended with `NOT_SUBMITTED`, and not
  unknown
* `reclaimable_iff` — when this is what the provider said
* `http_not_reclaimable` — a key is never free again after a call of the HTTP provider
-/

namespace VegaRevenue.ToolGateway

open Idempotency (Triple)
open Idempotency.Postgres (Record)

/-! ## One whole call -/

section

variable (deps : Deps) (request : ToolCallRequest) (i : Nat) (w : World) (inputs : Nat → Input)

/-- The call after its first `m` steps. -/
def called (m : Nat) : World × Pc := after deps request i inputs (w, .start) m

/-- The call is granted, and wins the claim of its key. -/
structure Won (grant : Grant) (key : Triple) : Prop where
  granted : gates deps request (inputs 0).answers = .inr grant
  keyed : claimTriple? request grant.definition = some key
  won : (Idempotency.Postgres.claim w.store key (inputs 2).now).2 = .claimed true

/-- What the loop of the call is given: its first three steps come before. -/
def loopInputs (k : Nat) : Input := inputs (3 + k)

/-- The outcome of the last attempt. -/
def finalOutcome (grant : Grant) : ToolProviderOutcome :=
  outcomeOf grant.definition (supplyOf (loopInputs inputs))
    (loopAttempts grant (loopInputs inputs) - 1)

def finalStatus (grant : Grant) : ToolCallStatus :=
  statusOf grant.definition (supplyOf (loopInputs inputs))
    (loopAttempts grant (loopInputs inputs) - 1)

/-- A request that was not submitted ends with `NOT_SUBMITTED`, and one that was submitted, with a
known result, does not. -/
def ReportsSubmission (o : ToolProviderOutcome) : Prop :=
  (o.submitted = false → o.errorCode = some "NOT_SUBMITTED") ∧
    (o.submitted = true → o.resultKnown = true → o.errorCode ≠ some "NOT_SUBMITTED")

/-- After `m` steps a later claim of the key wins iff the last attempt did not submit, and was no
success. -/
def ReclaimableIffUnsubmitted (grant : Grant) (key : Triple) (m : Nat) : Prop :=
  ∀ now, (Idempotency.Postgres.claim (called deps request i w inputs m).1.store key now).2 =
      .claimed true ↔
    (finalOutcome inputs grant).submitted = false ∧ finalStatus inputs grant ≠ .success

end

section

variable {deps : Deps} {request : ToolCallRequest} {i : Nat} {w : World} {inputs : Nat → Input}
variable {grant : Grant} {key : Triple}

/-- The call that won goes into the loop. -/
theorem called_won (h : Won deps request w inputs grant key) :
    called deps request i w inputs 3 =
      ((w.record (.invocationCreated i grant.definition grant.decision)).keep
          (Idempotency.Postgres.claim w.store key (inputs 2).now).1,
        .attempt grant 0 none) := by
  have hone : called deps request i w inputs 1 = (w, .createInvocation grant) := by
    show next deps request i (inputs 0) w .start = _
    unfold next
    rw [h.granted]
  have htwo : called deps request i w inputs 2 =
      (w.record (.invocationCreated i grant.definition grant.decision), .claim grant) := by
    show next deps request i (inputs 1) (called deps request i w inputs 1).1
      (called deps request i w inputs 1).2 = _
    rw [hone]
    rfl
  show next deps request i (inputs 2) (called deps request i w inputs 2).1
    (called deps request i w inputs 2).2 = _
  rw [htwo]
  simp only [next, h.keyed, World.record_store, h.won]

/-- After the loop the outcome is to be persisted, and the record of the key is still claimed. -/
theorem called_looped (h : Won deps request w inputs grant key) :
    ∃ w', w'.store = (Idempotency.Postgres.claim w.store key (inputs 2).now).1 ∧
      called deps request i w inputs (3 + (3 * loopAttempts grant (loopInputs inputs) + 1)) =
        (w', .persist grant (loopResult request grant (loopInputs inputs))) := by
  have hwon := called_won (i := i) h
  unfold called at hwon ⊢
  rw [after_add, hwon]
  exact ⟨_, rfl, after_loop deps request i grant _ (loopInputs inputs)⟩

/-- A call that came to accept its result returns over the table it came with. -/
theorem store_of_accepting {n m : Nat} {w' : World} {result r : ToolCallResult}
    (haccepting : called deps request i w inputs n = (w', .accept grant result))
    (hreturned : (called deps request i w inputs m).2 = .returned r) :
    (called deps request i w inputs m).1.store = w'.store := by
  have hlast : ∃ w'' r', w''.store = w'.store ∧
      called deps request i w inputs (n + 1) = (w'', .returned r') := by
    show ∃ w'' r', w''.store = w'.store ∧
      next deps request i (inputs n) (called deps request i w inputs n).1
        (called deps request i w inputs n).2 = (w'', .returned r')
    rw [haccepting]
    simp only [next]
    split
    · refine ⟨_, _, ?_, rfl⟩
      rfl
    · refine ⟨_, _, ?_, rfl⟩
      rfl
  obtain ⟨w'', r', hstore, hlast⟩ := hlast
  have hsame : called deps request i w inputs m = called deps request i w inputs (n + 1) := by
    refine after_eq_of_ended ?_ ?_
    · show (called deps request i w inputs m).2.ended = true
      rw [hreturned]
      rfl
    · show (called deps request i w inputs (n + 1)).2.ended = true
      rw [hlast]
      rfl
  rw [hsame, hlast]
  exact hstore

/-- A call that threw does not return. -/
theorem not_returned_of_threw {n m : Nat} {r : ToolCallResult}
    (hthrew : (called deps request i w inputs n).2 = .threw) :
    (called deps request i w inputs m).2 ≠ .returned r := by
  intro hreturned
  have hsame : called deps request i w inputs m = called deps request i w inputs n := by
    refine after_eq_of_ended ?_ ?_
    · show (called deps request i w inputs m).2.ended = true
      rw [hreturned]
      rfl
    · show (called deps request i w inputs n).2.ended = true
      rw [hthrew]
      rfl
  rw [hsame, hthrew] at hreturned
  cases hreturned

/-- **What a call that won and returned leaves under its key.** -/
theorem called_returned (h : Won deps request w inputs grant key) {m : Nat} {r : ToolCallResult}
    (hreturned : (called deps request i w inputs m).2 = .returned r) :
    ∃ record, (called deps request i w inputs m).1.store key = some record ∧
      match persistedStatus (loopResult request grant (loopInputs inputs)) with
      | none => record.status = .pending
      | some status => record.status = status ∧
          record.result = StoredOutcome (loopResult request grant (loopInputs inputs)) := by
  obtain ⟨w', hstore, hlooped⟩ := called_looped (i := i) h
  generalize 3 + (3 * loopAttempts grant (loopInputs inputs) + 1) = n at hlooped
  have hpersist : called deps request i w inputs (n + 1) =
      next deps request i (inputs n) w' (.persist grant (loopResult request grant
        (loopInputs inputs))) := by
    show next deps request i (inputs n) (called deps request i w inputs n).1
      (called deps request i w inputs n).2 = _
    rw [hlooped]
  simp only [next, h.keyed] at hpersist
  cases hstatus : persistedStatus (loopResult request grant (loopInputs inputs)) with
  | none =>
    -- the outcome is unknown, and the record stays as it was claimed
    rw [hstatus] at hpersist
    rw [store_of_accepting hpersist hreturned, hstore]
    rcases Idempotency.Postgres.claim_cases w.store key (inputs 2).now with
      ⟨-, -, record, hpending, hclaimed⟩ | ⟨hlost, -⟩
    · exact ⟨record, by rw [hclaimed, Function.update_self], hpending⟩
    · exact absurd h.won hlost
  | some status =>
    rw [hstatus] at hpersist
    dsimp only at hpersist
    rcases Idempotency.Postgres.set_cases deps.store w'.store key
        (StoredOutcome (loopResult request grant (loopInputs inputs)))
        { status := some status } (inputs n).now with
      ⟨hanswer, -, record, hrecord, hresult, hset⟩ | ⟨hanswer, -, -⟩
    · rw [hanswer] at hpersist
      rw [store_of_accepting hpersist hreturned, World.keep_store, hset]
      exact ⟨record, Function.update_self .., hrecord, hresult⟩
    · rw [hanswer] at hpersist
      have hthrew : (called deps request i w inputs (n + 1)).2 = .threw := by rw [hpersist]
      exact absurd hreturned (not_returned_of_threw hthrew)

/-! ## A later claim -/

/-- The result of the last attempt, in the words of its outcome. -/
theorem persistedStatus_failed_iff (request : ToolCallRequest) :
    persistedStatus (loopResult request grant (loopInputs inputs)) = some .failed ↔
      finalStatus inputs grant ≠ .outcomeUnknown ∧ finalStatus inputs grant ≠ .success := by
  have hstatus : (loopResult request grant (loopInputs inputs)).status =
      finalStatus inputs grant := rfl
  unfold persistedStatus
  rw [hstatus]
  split
  next hunknown => simp [hunknown]
  next hknown =>
    split
    next hsuccess => simp [hsuccess]
    next hfailed => simp [hknown, hfailed]

/-- The stored payload of a failure says that nothing was submitted iff the error code does. -/
theorem storedSubmitted_eq_false_iff (request : ToolCallRequest)
    (hfailed : finalStatus inputs grant ≠ .success) :
    storedSubmitted (loopResult request grant (loopInputs inputs)) = false ↔
      (finalOutcome inputs grant).errorCode = some "NOT_SUBMITTED" := by
  have hstatus : (loopResult request grant (loopInputs inputs)).status ≠ .success := hfailed
  have herror : (loopResult request grant (loopInputs inputs)).error.map ToolCallError.code =
      some ((finalOutcome inputs grant).errorCode.getD "PROVIDER_ERROR") := by
    show (if finalStatus inputs grant = .success then none else some _).map
      ToolCallError.code = _
    rw [if_neg hfailed]
    show some ((finalOutcome inputs grant).errorCode.getD
      (if finalStatus inputs grant = .success then "OK" else "PROVIDER_ERROR")) = _
    rw [if_neg hfailed]
  unfold storedSubmitted
  rw [herror]
  cases hcode : (finalOutcome inputs grant).errorCode with
  | none => simp [hstatus]
  | some code => simp [hstatus]

/-- An outcome with an error code is no success, and it is unknown only if it was submitted. -/
theorem finalStatus_of_code
    (hcode : (finalOutcome inputs grant).errorCode = some "NOT_SUBMITTED") :
    finalStatus inputs grant ≠ .success ∧
      (finalStatus inputs grant ≠ .outcomeUnknown ↔
        ((finalOutcome inputs grant).submitted = true →
          (finalOutcome inputs grant).resultKnown = true)) := by
  unfold finalStatus statusOf
  have houtcome : outcomeOf grant.definition (supplyOf (loopInputs inputs))
      (loopAttempts grant (loopInputs inputs) - 1) = finalOutcome inputs grant := rfl
  have hthrew : ((supplyOf (loopInputs inputs)
      (loopAttempts grant (loopInputs inputs) - 1)).outcome grant.definition).2 = true →
      (finalOutcome inputs grant).resultKnown = false := by
    unfold finalOutcome outcomeOf
    cases supplyOf (loopInputs inputs) (loopAttempts grant (loopInputs inputs) - 1) with
    | answered answer => exact nofun
    | threw message => exact fun _ => rfl
  rw [houtcome]
  generalize finalOutcome inputs grant = o at hcode hthrew
  generalize ((supplyOf (loopInputs inputs)
    (loopAttempts grant (loopInputs inputs) - 1)).outcome grant.definition).2 = threw at hthrew
  unfold mapOutcomeStatus
  rw [hcode]
  cases hsubmitted : o.submitted <;> cases hknown : o.resultKnown <;> cases threw <;>
    simp_all [blank]

theorem not_success_of_not_submitted {o : ToolProviderOutcome} (h : o.submitted = false)
    (threw : Bool) : mapOutcomeStatus o threw ≠ .success := by
  unfold mapOutcomeStatus
  rw [h, Bool.and_false, Bool.false_and, Bool.and_false, if_neg Bool.false_ne_true]
  repeat' split
  all_goals exact nofun

/-- **A later claim wins iff the last attempt ended with `NOT_SUBMITTED`**, and was not sent with an
unknown result. -/
theorem claim_after_iff (h : Won deps request w inputs grant key) {m : Nat} {r : ToolCallResult}
    (hreturned : (called deps request i w inputs m).2 = .returned r)
    (now : Idempotency.Clock) :
    (Idempotency.Postgres.claim (called deps request i w inputs m).1.store key now).2 =
        .claimed true ↔
      (finalOutcome inputs grant).errorCode = some "NOT_SUBMITTED" ∧
        ((finalOutcome inputs grant).submitted = true →
          (finalOutcome inputs grant).resultKnown = true) := by
  have hsendable : Idempotency.Postgres.sendable key = true := by
    by_contra hnot
    have hwon := h.won
    unfold Idempotency.Postgres.claim Idempotency.Postgres.claimRow? at hwon
    rw [if_neg hnot] at hwon
    cases hwon
  obtain ⟨record, hrecord, hkept⟩ := called_returned h hreturned
  rw [Idempotency.Postgres.claim_won_iff hsendable, ClaimRegister.wins, hrecord]
  show record.reclaimable = true ↔ _
  unfold Record.reclaimable
  rw [Bool.and_eq_true, decide_eq_true_eq, decide_eq_true_eq]
  constructor
  · rintro ⟨hfailed, hsubmitted⟩
    split at hkept
    · rw [hkept] at hfailed
      cases hfailed
    next status hstatus =>
      rw [← hkept.1, hfailed] at hstatus
      obtain ⟨hknown, hnot⟩ := (persistedStatus_failed_iff request).mp hstatus
      have hcode := (storedSubmitted_eq_false_iff request hnot).mp (by
        unfold Record.submitted at hsubmitted
        rw [hkept.2] at hsubmitted
        simpa [StoredOutcome, Json.memberBoolean, Json.member?, Json.toSqlBoolean] using hsubmitted)
      exact ⟨hcode, (finalStatus_of_code hcode).2.mp hknown⟩
  · rintro ⟨hcode, hknown⟩
    obtain ⟨hnot, hunknown⟩ := finalStatus_of_code hcode
    have hstatus := (persistedStatus_failed_iff request).mpr ⟨hunknown.mpr hknown, hnot⟩
    rw [hstatus] at hkept
    refine ⟨hkept.1, ?_⟩
    unfold Record.submitted
    rw [hkept.2]
    have hstored := (storedSubmitted_eq_false_iff request hnot).mpr hcode
    simp [StoredOutcome, Json.memberBoolean, Json.member?, Json.toSqlBoolean, hstored]

/-- **When a key is free for another call exactly where nothing was submitted.** -/
theorem reclaimable_iff (h : Won deps request w inputs grant key) {m : Nat} {r : ToolCallResult}
    (hreturned : (called deps request i w inputs m).2 = .returned r) :
    ReclaimableIffUnsubmitted deps request i w inputs grant key m ↔
      ReportsSubmission (finalOutcome inputs grant) := by
  have hlater := claim_after_iff h hreturned
  have hsuccess : (finalOutcome inputs grant).submitted = false →
      finalStatus inputs grant ≠ .success := by
    intro hsubmitted
    show mapOutcomeStatus (finalOutcome inputs grant) _ ≠ _
    exact not_success_of_not_submitted hsubmitted _
  constructor
  · intro hiff
    have hnow := (hlater .epoch).symm.trans (hiff .epoch)
    constructor
    · intro hsubmitted
      exact (hnow.mpr ⟨hsubmitted, hsuccess hsubmitted⟩).1
    · intro hsubmitted hknown hcode
      have hnot := (hnow.mp ⟨hcode, fun _ => hknown⟩).1
      rw [hsubmitted] at hnot
      cases hnot
  · rintro ⟨hunsent, hsent⟩ now
    rw [hlater now]
    constructor
    · rintro ⟨hcode, hknown⟩
      have hsubmitted : (finalOutcome inputs grant).submitted = false := by
        by_contra hnot
        have hsubmitted := Bool.of_not_eq_false hnot
        exact hsent hsubmitted (hknown hsubmitted) hcode
      exact ⟨hsubmitted, hsuccess hsubmitted⟩
    · rintro ⟨hsubmitted, -⟩
      refine ⟨hunsent hsubmitted, fun hsent => ?_⟩
      rw [hsubmitted] at hsent
      cases hsent

/-- **A key is never free again after a call of the HTTP provider**, not even after one that was
refused before any request was made. -/
theorem http_not_reclaimable (h : Won deps request w inputs grant key) {m : Nat}
    {r : ToolCallResult} (hreturned : (called deps request i w inputs m).2 = .returned r)
    (o : HttpToolProvider.Options) (route : Option String)
    (hhttp : ∀ k, ∃ meets, (inputs k).execution = HttpToolProvider.execute o route meets)
    (now : Idempotency.Clock) :
    (Idempotency.Postgres.claim (called deps request i w inputs m).1.store key now).2 ≠
      .claimed true := by
  intro hwon
  have hcode := ((claim_after_iff h hreturned now).mp hwon).1
  unfold finalOutcome outcomeOf supplyOf loopInputs at hcode
  obtain ⟨meets, hexecution⟩ :=
    hhttp (3 + (3 * (loopAttempts grant (loopInputs inputs) - 1) + 1))
  unfold loopInputs at hexecution
  rw [hexecution] at hcode
  exact HttpToolProvider.execute_errorCode o route meets grant.definition hcode

end

/-! ## A call without a route -/

/-- No route is configured. -/
def noRoutes : HttpToolProvider.Options where
  policy := { allowedHosts := [], allowedSchemes := ["https"], allowPrivateNetwork := false
              allowRedirects := false }
  secrets := false
  parseUrl := fun _ => none
  casing := asciiCasing

/-- Nothing would be answered. -/
def unreachable : HttpToolProvider.Meets := ⟨.ok "", .failed⟩

/-- Everything is allowed, and the provider has no destination. -/
def refusedInput : Input :=
  { accepted with execution := HttpToolProvider.execute noRoutes none unreachable }

theorem won_mail (input : Input) (hanswers : input.answers = accepted.answers) :
    Won mailDeps (mailRequest "k1") ⟨Idempotency.Postgres.empty, []⟩ (fun _ => input)
      ⟨mailTool, .allow⟩ ⟨"t1", "tool:mail:execute", "k1"⟩ where
  granted := by
    rw [hanswers]
    rfl
  keyed := by decide +kernel
  won := (Idempotency.Postgres.claim_won_iff (by decide +kernel)).mpr rfl

/-- One attempt is made, and the call returns. -/
theorem mail_returned (input : Input)
    (h : (match (called mailDeps (mailRequest "k1") 0 ⟨Idempotency.Postgres.empty, []⟩
      (fun _ => input) 9).2 with | .returned _ => true | _ => false) = true) :
    ∃ r, (called mailDeps (mailRequest "k1") 0 ⟨Idempotency.Postgres.empty, []⟩
      (fun _ => input) 9).2 = .returned r := by
  split at h
  next r hr => exact ⟨r, hr⟩
  next => cases h

/-- **A call that was refused before any request was made leaves its key taken.** -/
theorem not_reclaimable_refused :
    ∃ r, Won mailDeps (mailRequest "k1") ⟨Idempotency.Postgres.empty, []⟩ (fun _ => refusedInput)
        ⟨mailTool, .allow⟩ ⟨"t1", "tool:mail:execute", "k1"⟩ ∧
      (called mailDeps (mailRequest "k1") 0 ⟨Idempotency.Postgres.empty, []⟩
        (fun _ => refusedInput) 9).2 = .returned r ∧
      ¬ ReclaimableIffUnsubmitted mailDeps (mailRequest "k1") 0 ⟨Idempotency.Postgres.empty, []⟩
        (fun _ => refusedInput) ⟨mailTool, .allow⟩ ⟨"t1", "tool:mail:execute", "k1"⟩ 9 := by
  obtain ⟨r, hr⟩ := mail_returned refusedInput (by decide +kernel)
  have hwon := won_mail refusedInput rfl
  refine ⟨r, hwon, hr, fun h => ?_⟩
  have hfree := (h .epoch).mpr ⟨by decide +kernel, by decide +kernel⟩
  exact http_not_reclaimable hwon hr noRoutes none (fun _ => ⟨unreachable, rfl⟩) .epoch hfree

/-- The provider reports what it did not submit as such. -/
def unsentInput : Input :=
  { accepted with
    execution := .answered ⟨⟨false, true, false, none, none, none, some "NOT_SUBMITTED", none⟩,
      false, nofun⟩ }

theorem reclaimable_unsent :
    ∃ r, (called mailDeps (mailRequest "k1") 0 ⟨Idempotency.Postgres.empty, []⟩
        (fun _ => unsentInput) 9).2 = .returned r ∧
      (ReclaimableIffUnsubmitted mailDeps (mailRequest "k1") 0 ⟨Idempotency.Postgres.empty, []⟩
          (fun _ => unsentInput) ⟨mailTool, .allow⟩ ⟨"t1", "tool:mail:execute", "k1"⟩ 9 ↔
        ReportsSubmission (finalOutcome (fun _ => unsentInput) ⟨mailTool, .allow⟩)) := by
  obtain ⟨r, hr⟩ := mail_returned unsentInput (by decide +kernel)
  exact ⟨r, hr, reclaimable_iff (won_mail unsentInput rfl) hr⟩

end VegaRevenue.ToolGateway
