import VegaRevenue.Idempotency.Exclusive
import VegaRevenue.Idempotency.InMemory

/-!
# The test double agrees with the Postgres store

Both stores start empty and run the same calls under the same clock. `Agree` relates their states
and `Comparable` is what a call has to meet for them to stay in step.

* `outputs_eq_of_comparable` — the two stores answer alike along every history of comparable calls
* `not_outputs_eq_joined_keys` — they part where two triples have one joined key
-/

namespace VegaRevenue.Idempotency

/-- A store as its callers observe it. -/
def observed {S : Type} (m : Machine.Step S Statement Answer) :
    Machine.Step S Statement Observation :=
  fun s st => ((m s st).1, (m s st).2.observe st.now)

/-- The row and the entry of one triple. A key that was only claimed has the JSON `null` in the
table and `undefined` in the map. -/
structure Matches (r : Postgres.Record) (r' : InMemory.Record) (expiresAt : Rat) : Prop where
  status : r'.status = r.status
  date : timestamptz expiresAt = some r.expiresAt
  result : r'.result = some r.result ∨
    r'.result = none ∧ r.result = .null ∧ r.status = .pending

structure Agree (p : Postgres.Store) (m : InMemory.Store) : Prop where
  /-- Every row has a matching entry under its joined key. -/
  row : ∀ k r, p k = some r → ∃ r' e, m.entries (InMemory.key k) = some r' ∧
    m.expiries (InMemory.key k) = some e ∧ Matches r r' e
  /-- Every entry stems from a row. -/
  entry : ∀ j r', m.entries j = some r' → ∃ k, InMemory.key k = j ∧ (p k).isSome

/-- No other triple with a row has the joined key of `k`. -/
def Unshared (p : Postgres.Store) (k : Triple) : Prop :=
  ∀ k', InMemory.key k' = InMemory.key k → (p k').isSome → k' = k

/-- What a call has to meet, in the states it runs in, for the stores to stay in step. -/
structure Comparable (p : Postgres.Store) (m : InMemory.Store) (st : Statement) : Prop where
  sendable : Postgres.sendable st.call.triple
  unshared : Unshared p st.call.triple
  get : ∀ k, st.call = .get k → ∀ r', m.entries (InMemory.key k) = some r' → r'.result.isSome
  set : ∀ k result options, st.call = .set k result options → result.storable ∧
    (timestamptz (expiry st.now (InMemory.ttl options))).isSome ∧
    (options.status = some .pending → InMemory.ttl options = neverExpireSeconds)
  claim : ∀ k ttlSeconds, st.call = .claim k ttlSeconds → ∀ r, p k = some r →
    r.status = .failed → r.CastAgrees

theorem agree_empty : Agree Postgres.empty InMemory.empty := by
  constructor
  · intro k r h; cases h
  · intro j r' h; cases h

/-! ## One call -/

/-- A date that can be stored is a valid date. -/
theorem newDate_of_timestamptz {t : Rat} {d : Int} (h : timestamptz t = some d) :
    newDate t = some d := (Option.filter_eq_some_iff.mp h).1

/-- Where no other triple has the joined key, no row means no entry. -/
theorem Agree.entries_eq_none {p : Postgres.Store} {m : InMemory.Store} {k : Triple}
    (h : Agree p m) (hk : Unshared p k) (hp : p k = none) : m.entries (InMemory.key k) = none := by
  cases he : m.entries (InMemory.key k) with
  | none => rfl
  | some r' =>
    obtain ⟨k', hkey, hsome⟩ := h.entry _ r' he
    obtain rfl := hk k' hkey hsome
    rw [hp] at hsome
    cases hsome

/-- Writing matching records under an unshared key keeps the stores in agreement. -/
theorem Agree.put {p : Postgres.Store} {m : InMemory.Store} {k : Triple} {r : Postgres.Record}
    {r' : InMemory.Record} {e : Rat} (h : Agree p m) (hk : Unshared p k) (hr : Matches r r' e) :
    Agree (Function.update p k (some r)) (m.put (InMemory.key k) r' e) := by
  constructor
  · intro k₁ r₁ h₁
    by_cases hk₁ : k₁ = k
    · subst hk₁
      rw [Function.update_self] at h₁
      obtain rfl := Option.some.inj h₁
      exact ⟨r', e, InMemory.put_entries_self .., InMemory.put_expiries_self .., hr⟩
    · rw [Function.update_of_ne hk₁] at h₁
      have hkey : InMemory.key k₁ ≠ InMemory.key k := by
        intro hkey
        exact hk₁ (hk k₁ hkey (by rw [h₁]; rfl))
      rw [InMemory.put_entries_ne _ _ _ hkey, InMemory.put_expiries_ne _ _ _ hkey]
      exact h.row k₁ r₁ h₁
  · intro j r₁ h₁
    by_cases hj : j = InMemory.key k
    · exact ⟨k, hj.symm, by simp⟩
    · rw [InMemory.put_entries_ne _ _ _ hj] at h₁
      obtain ⟨k₁, hkey, hsome⟩ := h.entry j r₁ h₁
      refine ⟨k₁, hkey, ?_⟩
      have hk₁ : k₁ ≠ k := by
        rintro rfl
        exact hj hkey.symm
      rwa [Function.update_of_ne hk₁]

theorem Agree.get {p : Postgres.Store} {m : InMemory.Store} {k : Triple} {now : Clock}
    (h : Agree p m) (hok : Comparable p m ⟨.get k, now⟩) :
    (Postgres.get p k).observe now = (InMemory.get m (InMemory.key k)).observe now := by
  have hsend : Postgres.sendable k = true := hok.sendable
  have hk : Unshared p k := hok.unshared
  unfold Postgres.get InMemory.get
  rw [if_pos hsend]
  cases hp : p k with
  | none =>
    rw [h.entries_eq_none hk hp]
    rfl
  | some r =>
    obtain ⟨r', e, he, hx, hm⟩ := h.row k r hp
    have hresult : r'.result = some r.result := by
      rcases hm.result with hres | ⟨hres, -⟩
      · exact hres
      · have := hok.get k rfl r' he
        rw [hres] at this
        cases this
    simp [he, hx, Answer.observe, RecordView.observe, Postgres.Record.view, InMemory.Store.view,
      hm.status, hresult, newDate_of_timestamptz hm.date]

theorem Agree.set {p : Postgres.Store} {m : InMemory.Store} {k : Triple} {result : Json}
    {options : Options} {now : Clock} (h : Agree p m)
    (hok : Comparable p m ⟨.set k result options, now⟩) :
    Agree (Postgres.set {} p k result options now).1
        (InMemory.set m (InMemory.key k) result options now) ∧
      (Postgres.set {} p k result options now).2 = .stored := by
  obtain ⟨hstorable, hdate, hpending⟩ := hok.set k result options rfl
  obtain ⟨d, hd⟩ := Option.isSome_iff_exists.mp hdate
  have hsend : Postgres.sendable k = true := hok.sendable
  -- both stores give the record the same time to live
  have httl : (if options.status.getD .completed = .pending then neverExpireSeconds
      else options.ttlSeconds.getD 86400) = InMemory.ttl options := by
    by_cases hs : options.status.getD .completed = .pending
    · have hs' : options.status = some .pending := by
        cases ho : options.status with
        | none => simp [ho] at hs
        | some s => simpa [ho] using hs
      rw [if_pos hs, hpending hs']
    · rw [if_neg hs]
      unfold InMemory.ttl
      rw [if_neg hs]
      cases options.ttlSeconds <;> rfl
  have hrow : Postgres.setRow? {} k result options now = some fun old =>
      ⟨options.status.getD .completed, result, (old.map Postgres.Record.createdAt).getD now.ms,
        d⟩ := by
    unfold Postgres.setRow?
    simp only [hsend, hstorable, Bool.and_self, if_true, Option.getD_none]
    rw [httl, hd, Option.map_some]
  unfold Postgres.set InMemory.set
  rw [hrow]
  exact ⟨h.put hok.unshared ⟨rfl, hd, Or.inl rfl⟩, rfl⟩

/-- Where the cast agrees, a claim is won on a row iff it is won on the matching entry. -/
theorem Matches.canReclaim {r : Postgres.Record} {r' : InMemory.Record} {e : Rat}
    (hm : Matches r r' e) (hcast : r.status = .failed → r.CastAgrees) :
    r'.canReclaim = r.reclaimable := by
  rw [Postgres.Record.reclaimable_eq_unsubmitted hcast]
  unfold InMemory.Record.canReclaim Postgres.Record.unsubmitted
  rcases hm.result with hres | ⟨-, -, hs⟩
  · rw [hm.status, hres, Option.any_some]
  · simp [hm.status, hs]

theorem Agree.claim {p : Postgres.Store} {m : InMemory.Store} {k : Triple}
    {ttlSeconds : Option Rat} {now : Clock} (h : Agree p m)
    (hok : Comparable p m ⟨.claim k ttlSeconds, now⟩) :
    Agree (Postgres.claim p k now).1 (InMemory.claim m (InMemory.key k) now).1 ∧
      (Postgres.claim p k now).2 = (InMemory.claim m (InMemory.key k) now).2 := by
  have hsend : Postgres.sendable k = true := hok.sendable
  have hk : Unshared p k := hok.unshared
  obtain ⟨row, hrow⟩ := Postgres.claimRow?_of_sendable now hsend
  have hwins : (m.entries (InMemory.key k)).all InMemory.Record.canReclaim =
      ClaimRegister.wins Postgres.Record.reclaimable p k := by
    unfold ClaimRegister.wins
    cases hp : p k with
    | none => rw [h.entries_eq_none hk hp]; rfl
    | some r =>
      obtain ⟨r', e, he, -, hm⟩ := h.row k r hp
      rw [he, Option.all_some, Option.all_some, hm.canReclaim (hok.claim k ttlSeconds rfl r hp)]
  rw [Postgres.claim_eq hrow]
  unfold InMemory.claim
  rw [hwins]
  by_cases hw : ClaimRegister.wins Postgres.Record.reclaimable p k = true
  · rw [if_pos hw, if_pos hw]
    obtain ⟨hstatus, hresult, hdate⟩ := Postgres.claimRow?_pending hrow (p k)
    refine ⟨h.put hk ⟨hstatus.symm, ?_, Or.inr ⟨rfl, hresult, hstatus⟩⟩, rfl⟩
    rw [timestamptz_never, hdate]
  · rw [if_neg hw, if_neg hw, if_neg]
    · exact ⟨h, rfl⟩
    · rintro ⟨r, hp, hf, hinv⟩
      exact (hok.claim k ttlSeconds rfl r hp hf).1 hinv

/-- A comparable call keeps the stores in agreement and is answered alike. -/
theorem Agree.step (p : Postgres.Store) (m : InMemory.Store) (st : Statement) (h : Agree p m)
    (hok : Comparable p m st) :
    Agree (observed (Postgres.step {}) p st).1 (observed InMemory.step m st).1 ∧
      (observed (Postgres.step {}) p st).2 = (observed InMemory.step m st).2 := by
  obtain ⟨call, now⟩ := st
  cases call with
  | get k => exact ⟨h, h.get hok⟩
  | set k result options =>
    obtain ⟨hagree, hstored⟩ := h.set hok
    exact ⟨hagree, congrArg (Answer.observe now) hstored⟩
  | claim k ttlSeconds =>
    obtain ⟨hagree, hanswer⟩ := h.claim hok
    exact ⟨hagree, congrArg (Answer.observe now) hanswer⟩

/-! ## Whole histories -/

/-- Every call of the history is comparable, in the states it runs in. -/
def ComparableHistory (h : List Statement) : Prop :=
  Machine.Along (observed (Postgres.step {})) (observed InMemory.step) Comparable
    Postgres.empty InMemory.empty h

/-- **The two stores answer alike along every history of comparable calls.** -/
theorem outputs_eq_of_comparable (h : List Statement) (hok : ComparableHistory h) :
    Machine.outputs (observed (Postgres.step {})) Postgres.empty h =
      Machine.outputs (observed InMemory.step) InMemory.empty h :=
  Machine.outputs_eq_of_sim Agree.step h agree_empty hok

/-- A send that failed before it was submitted. -/
def setUnsubmitted : Statement :=
  ⟨.set ⟨"t1", "outreach:send", "k1"⟩ (.obj [("submitted", .bool false)])
    { status := some .failed }, .epoch⟩

def claimAgain : Statement :=
  ⟨.claim ⟨"t1", "outreach:send", "k1"⟩ none, ⟨1, by decide, by decide⟩⟩

/-- Its key is claimed again. -/
theorem outputs_eq_unsubmitted_claimed :
    Machine.outputs (observed (Postgres.step {})) Postgres.empty [setUnsubmitted, claimAgain] =
      Machine.outputs (observed InMemory.step) InMemory.empty [setUnsubmitted, claimAgain] := by
  apply outputs_eq_of_comparable
  refine ⟨⟨by decide, ?_, ?_, ?_, ?_⟩, ⟨by decide, ?_, ?_, ?_, ?_⟩, trivial⟩
  · intro k' _ h; cases h
  · intro k h; cases h
  · intro k result options h
    cases h
    exact ⟨by decide, by decide +kernel, by decide⟩
  · intro k ttlSeconds h; cases h
  · intro k' _ hsome
    by_contra hne
    have hnone : (Postgres.step {} Postgres.empty setUnsubmitted).1 k' = none :=
      Postgres.step_ne {} Postgres.empty setUnsubmitted hne
    simp [observed, hnone] at hsome
  · intro k h; cases h
  · intro k result options h; cases h
  · intro k ttlSeconds h r hr _
    cases h
    have hall : ((Postgres.step {} Postgres.empty setUnsubmitted).1
        ⟨"t1", "outreach:send", "k1"⟩).all (fun r => r.submitted ≠ .invalid &&
          r.result.memberIsBool "submitted" false) = true := by decide +kernel
    rw [show (Postgres.step {} Postgres.empty setUnsubmitted).1 _ = some r from hr,
      Option.all_some, Bool.and_eq_true, decide_eq_true_eq] at hall
    exact ⟨hall.1, fun _ => hall.2⟩

/-- **Two triples with one joined key are one key of the test double and two of the table.** -/
theorem not_outputs_eq_joined_keys :
    ¬ ∀ h : List Statement, Machine.outputs (observed (Postgres.step {})) Postgres.empty h =
      Machine.outputs (observed InMemory.step) InMemory.empty h := by
  intro hall
  have heq := hall [⟨.claim ⟨"t1:outreach", "send", "k1"⟩ none, ⟨0, by decide, by decide⟩⟩,
    ⟨.claim ⟨"t1", "outreach:send", "k1"⟩ none, ⟨1, by decide, by decide⟩⟩]
  have hwon := congrArg (List.map Observation.won) heq
  revert hwon
  decide +kernel

end VegaRevenue.Idempotency
