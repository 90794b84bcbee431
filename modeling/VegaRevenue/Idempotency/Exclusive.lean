import VegaRevenue.Idempotency.Postgres

/-!
# Claims on the Postgres store are exclusive

`ClaimsExclusive` is what `IIdempotencyStore.claim` promises of a history, with
`result.submitted === false` as the only licence to claim a key again.

* `claimsExclusive_iff` — a history keeps the promise iff no claim of it meets a FAILED record
  whose `submitted` the cast to boolean reads otherwise than `===` does
-/

namespace VegaRevenue.Idempotency.Postgres

/-- The stored result proves that nothing was submitted: FAILED with `submitted === false`. -/
def Record.unsubmitted (r : Record) : Bool :=
  r.status = .failed && r.result.memberIsBool "submitted" false

/-- The statement is a claim of `k`. -/
def Claims (k : Triple) (st : Statement) : Prop := ∃ ttlSeconds, st.call = .claim k ttlSeconds

/-- The statement is a set on `k` that Postgres accepts. -/
def Stores (config : Config) (k : Triple) (st : Statement) : Prop :=
  ∃ result options, st.call = .set k result options ∧
    (setRow? config k result options st.now).isSome

/-- The statement stores FAILED with `submitted === false` on `k`. -/
def StoresUnsubmitted (config : Config) (k : Triple) (st : Statement) : Prop :=
  ∃ result options, st.call = .set k result options ∧
    (setRow? config k result options st.now).isSome ∧ options.status = some .failed ∧
    result.memberIsBool "submitted" false

/-- The table after a history that starts from the empty one. -/
def after (config : Config) (h : List Statement) : Store := Machine.final (step config) empty h

/-- What the store promises of a history. -/
structure ClaimsExclusive (config : Config) (h : List Statement) : Prop where
  /-- Between two claims that were won, a set stored FAILED with `submitted === false`, and no
  later set replaced it. -/
  failed_between : ∀ k h₁ a h₂ b h₃, h = h₁ ++ a :: (h₂ ++ b :: h₃) → Claims k a → Claims k b →
    (step config (after config h₁) a).2 = .claimed true →
    (step config (after config (h₁ ++ a :: h₂)) b).2 = .claimed true →
    ∃ g₁ st g₂, h₂ = g₁ ++ st :: g₂ ∧ StoresUnsubmitted config k st ∧
      ∀ u ∈ g₂, ¬ Stores config k u
  /-- A claim that meets any other record is not won and changes nothing. -/
  occupied : ∀ k h₁ b h₃ r, h = h₁ ++ b :: h₃ → Claims k b → after config h₁ k = some r →
    r.unsubmitted = false → step config (after config h₁) b = (after config h₁, .claimed false)
  /-- A statement changes no record of another triple. -/
  frame : ∀ k h₁ b h₃, h = h₁ ++ b :: h₃ → k ≠ b.call.triple →
    (step config (after config h₁) b).1 k = after config h₁ k

/-- The cast reads `submitted` the way `===` does. -/
def Record.CastAgrees (r : Record) : Prop :=
  r.submitted ≠ .invalid ∧ (r.submitted = .value false → r.result.memberIsBool "submitted" false)

/-- No claim of the history meets a FAILED record whose `submitted` the cast misreads. -/
def CastsAgree (config : Config) (h : List Statement) : Prop :=
  ∀ k h₁ b h₃ r, h = h₁ ++ b :: h₃ → Claims k b → after config h₁ k = some r →
    r.status = .failed → r.CastAgrees

/-! ## The rows of a history -/

/-- The sendable triples are the only ones with rows. -/
def RowsSendable (s : Store) : Prop := ∀ k r, s k = some r → sendable k = true

theorem rowsSendable_step (config : Config) (s : Store) (st : Statement) (hs : RowsSendable s) :
    RowsSendable (step config s st).1 := by
  intro k r hk
  by_cases hkt : k = st.call.triple
  · rw [(step_refines config s st).1] at hk
    obtain ⟨call, now⟩ := st
    cases call with
    | get k' => exact hs k r hk
    | set k' result options =>
      cases hrow : setRow? config k' result options now with
      | none =>
        simp only [op, hrow, ClaimRegister.step] at hk
        exact hs k r hk
      | some row => exact hkt ▸ sendable_of_setRow? hrow
    | claim k' ttlSeconds =>
      cases hrow : claimRow? k' now with
      | none =>
        simp only [op, hrow, ClaimRegister.step] at hk
        exact hs k r hk
      | some row => exact hkt ▸ sendable_of_claimRow? hrow
  · rw [step_ne config s st hkt] at hk
    exact hs k r hk

theorem sendable_of_after {config : Config} {h : List Statement} {k : Triple} {r : Record}
    (hr : after config h k = some r) : sendable k = true := by
  have hempty : RowsSendable empty := by intro k r hk; cases hk
  exact Machine.final_invariant (rowsSendable_step config) h hempty k r hr

/-- A claim of a key with a row is sent, and its answer depends on the row alone. -/
theorem step_claims {config : Config} {h : List Statement} {k : Triple} {b : Statement}
    {r : Record} (hb : Claims k b) (hr : after config h k = some r) :
    ∃ row : Option Record → Record, step config (after config h) b =
      if r.reclaimable then
        (Function.update (after config h) k (some (row (some r))), .claimed true)
      else if r.status = .failed ∧ r.submitted = .invalid then (after config h, .threw)
      else (after config h, .claimed false) := by
  obtain ⟨ttlSeconds, hc⟩ := hb
  obtain ⟨call, now⟩ := b
  obtain rfl : call = .claim k ttlSeconds := hc
  obtain ⟨row, hrow⟩ := claimRow?_of_sendable now (sendable_of_after hr)
  refine ⟨row, ?_⟩
  rw [show step config (after config h) ⟨.claim k ttlSeconds, now⟩ = claim (after config h) k now
    from rfl, claim_eq hrow]
  simp [ClaimRegister.wins, hr]

/-- `submitted === false` lets a record be reclaimed. -/
theorem Record.reclaimable_of_unsubmitted {r : Record} (h : r.unsubmitted = true) :
    r.reclaimable = true := by
  unfold unsubmitted at h
  rw [Bool.and_eq_true, decide_eq_true_eq] at h
  unfold reclaimable submitted
  rw [Json.memberBoolean_of_memberIsBool h.2]
  simp [h.1]

/-- Where the cast agrees, exactly the unsubmitted records are reclaimed. -/
theorem Record.reclaimable_eq_unsubmitted {r : Record} (h : r.status = .failed → r.CastAgrees) :
    r.reclaimable = r.unsubmitted := by
  cases hu : r.unsubmitted with
  | true => exact reclaimable_of_unsubmitted hu
  | false =>
    by_contra hne
    have hrec : r.reclaimable = true := by simpa using hne
    unfold reclaimable at hrec
    rw [Bool.and_eq_true, decide_eq_true_eq, decide_eq_true_eq] at hrec
    have hsub := (h hrec.1).2 hrec.2
    simp [unsubmitted, hrec.1, hsub] at hu

/-! ## The promise -/

/-- A claim stores a record that cannot be reclaimed. -/
theorem op_occupies (config : Config) (k : Triple) (st : Statement) :
    (op config st).Occupies Record.reclaimable k := by
  intro store hop old
  obtain ⟨call, now⟩ := st
  cases call with
  | get k' => cases hop
  | set k' result options =>
    simp only [op] at hop
    split at hop <;> cases hop
  | claim k' ttlSeconds =>
    simp only [op] at hop
    split at hop
    · cases hop
    next row hrow =>
      cases hop
      simp [Record.reclaimable, (claimRow?_pending hrow old).1]

/-- The register puts of a statement are its accepted sets. -/
theorem putsOn_op_iff {config : Config} {k : Triple} {st : Statement} :
    (op config st).PutsOn k ↔ Stores config k st := by
  obtain ⟨call, now⟩ := st
  unfold ClaimRegister.Op.PutsOn Stores
  cases call with
  | get k' => simp [op]
  | claim k' ttlSeconds =>
    simp only [op, reduceCtorEq, false_and, exists_false, iff_false, not_exists]
    intro store
    split <;> simp
  | set k' result options =>
    simp only [op]
    constructor
    · rintro ⟨store, hs⟩
      cases hrow : setRow? config k' result options now with
      | none => rw [hrow] at hs; cases hs
      | some row =>
        rw [hrow] at hs
        cases hs
        exact ⟨result, options, rfl, by rw [hrow]; rfl⟩
    · rintro ⟨result', options', hc, hsome⟩
      cases hc
      obtain ⟨row, hrow⟩ := Option.isSome_iff_exists.mp hsome
      exact ⟨row, by rw [hrow]⟩

/-- A won claim leaves its key occupied, and a claim is won only on a free key. -/
theorem wins_of_claimed {config : Config} {s : Store} {k : Triple} {b : Statement}
    (hb : Claims k b) (hwon : (step config s b).2 = .claimed true) :
    ClaimRegister.wins Record.reclaimable s k = true ∧
      ClaimRegister.wins Record.reclaimable (step config s b).1 k = false := by
  obtain ⟨ttlSeconds, hc⟩ := hb
  have hwon' := (step_refines config s b).2.mp hwon
  rw [(step_refines config s b).1]
  obtain ⟨call, now⟩ := b
  obtain rfl : call = .claim k ttlSeconds := hc
  have hocc := op_occupies config k ⟨.claim k ttlSeconds, now⟩
  simp only [op] at hwon' hocc ⊢
  cases hrow : claimRow? k now with
  | none => rw [hrow] at hwon'; cases hwon'
  | some row =>
    rw [hrow] at hwon' hocc
    refine ⟨?_, ClaimRegister.wins_step_take hocc⟩
    by_contra hne
    rw [ClaimRegister.step_take_of_occupied (by simpa using hne)] at hwon'
    cases hwon'

theorem after_append (config : Config) (g h : List Statement) :
    after config (g ++ h) = Machine.final (step config) (after config g) h :=
  Machine.final_append ..

/-- Between two won claims of a key lies an accepted set, whose row the second claim meets. -/
theorem exists_set_between (config : Config) {k : Triple} {h₁ h₂ : List Statement}
    {a b : Statement} (ha : Claims k a) (hb : Claims k b)
    (hwa : (step config (after config h₁) a).2 = .claimed true)
    (hwb : (step config (after config (h₁ ++ a :: h₂)) b).2 = .claimed true) :
    ∃ g₁ st g₂ row old, h₂ = g₁ ++ st :: g₂ ∧ op config st = .put k row ∧
      after config (h₁ ++ a :: h₂) k = some (row old) ∧ (row old).reclaimable = true ∧
      ∀ u ∈ g₂, ¬ Stores config k u := by
  have hocc := (wins_of_claimed ha hwa).2
  have hfree := (wins_of_claimed hb hwb).1
  rw [after_append, Machine.final_cons, final_refines] at hfree
  obtain ⟨before, row, rest, hsplit, hrec, hrest⟩ :=
    ClaimRegister.exists_put_of_wins hocc (h₂.map (op config))
      (by simpa using fun st _ => op_occupies config k st) hfree
  obtain ⟨g₁, tail, rfl, hg₁, htail⟩ := List.map_eq_append_iff.mp hsplit
  obtain ⟨st, g₂, rfl, hst, hg₂⟩ := List.map_eq_cons_iff.mp htail
  rw [ClaimRegister.wins, hrec] at hfree
  refine ⟨g₁, st, g₂, row, _, rfl, hst, ?_, by simpa using hfree, ?_⟩
  · rw [after_append, Machine.final_cons, final_refines]
    exact hrec
  · intro u hu hstores
    exact hrest (op config u) (hg₂ ▸ List.mem_map_of_mem hu) (putsOn_op_iff.mpr hstores)

/-- A statement that puts a reclaimable row stores FAILED with what the cast reads as false. -/
theorem storesUnsubmitted_of_put {config : Config} {k : Triple} {st : Statement}
    {row : Option Record → Record} {old : Option Record} (hst : op config st = .put k row)
    (hrec : (row old).unsubmitted = true) : StoresUnsubmitted config k st := by
  obtain ⟨result, options, hc, hsome⟩ := putsOn_op_iff.mp ⟨row, hst⟩
  obtain ⟨call, now⟩ := st
  obtain rfl : call = .set k result options := hc
  obtain ⟨row', hrow⟩ := Option.isSome_iff_exists.mp hsome
  obtain rfl : row' = row := by
    simp only [op, show setRow? config k result options now = some row' from hrow] at hst
    cases hst
    rfl
  obtain ⟨hstatus, hresult⟩ := setRow?_status hrow old
  unfold Record.unsubmitted at hrec
  rw [Bool.and_eq_true, decide_eq_true_eq, hstatus, hresult] at hrec
  refine ⟨result, options, rfl, hsome, ?_, hrec.2⟩
  cases ho : options.status with
  | none => simp [ho] at hrec
  | some status => simpa [ho] using hrec.1

/-- **A history keeps the promise iff no claim of it meets a FAILED record whose `submitted` the
cast misreads.** -/
theorem claimsExclusive_iff (config : Config) (h : List Statement) :
    ClaimsExclusive config h ↔ CastsAgree config h := by
  constructor
  · intro hp k h₁ b h₃ r hh hb hr hf
    cases hu : r.unsubmitted with
    | true =>
      have hsub : r.result.memberIsBool "submitted" false = true := by
        simpa [Record.unsubmitted, hf] using hu
      have hcast : r.submitted = .value false := Json.memberBoolean_of_memberIsBool hsub
      exact ⟨by rw [hcast]; simp, fun _ => hsub⟩
    | false =>
      have hocc := hp.occupied k h₁ b h₃ r hh hb hr hu
      obtain ⟨row, hstep⟩ := step_claims hb hr
      rw [hocc] at hstep
      by_cases hrec : r.reclaimable = true
      · rw [if_pos hrec] at hstep
        simp at hstep
      · rw [if_neg hrec] at hstep
        have hne : r.submitted ≠ .value false := by
          intro hv
          exact hrec (by simp [Record.reclaimable, hf, hv])
        refine ⟨?_, fun hv => absurd hv hne⟩
        intro hinv
        rw [if_pos ⟨hf, hinv⟩] at hstep
        simp at hstep
  · intro hagree
    constructor
    · intro k h₁ a h₂ b h₃ hh ha hb hwa hwb
      obtain ⟨g₁, st, g₂, row, old, rfl, hst, hr, hrec, hg₂⟩ := exists_set_between config ha hb hwa hwb
      have hcast := hagree k (h₁ ++ a :: (g₁ ++ st :: g₂)) b h₃ (row old) (by simp [hh]) hb hr
      rw [Record.reclaimable_eq_unsubmitted hcast] at hrec
      exact ⟨g₁, st, g₂, rfl, storesUnsubmitted_of_put hst hrec, hg₂⟩
    · intro k h₁ b h₃ r hh hb hr hu
      have hcast := hagree k h₁ b h₃ r hh hb hr
      obtain ⟨row, hstep⟩ := step_claims hb hr
      rw [hstep, Record.reclaimable_eq_unsubmitted hcast, hu, if_neg (by simp), if_neg]
      rintro ⟨hf, hinv⟩
      exact (hcast hf).1 hinv
    · intro k h₁ b h₃ _ hk
      exact step_ne config _ b hk

/-- FAILED with the string `"false"`, as `submitted` may be stored. -/
def setStringFalse : Statement :=
  ⟨.set ⟨"t1", "outreach:send", "k1"⟩ (.obj [("submitted", .str "false")])
    { status := some .failed }, .epoch⟩

/-- **A claim is won on it, although `submitted === false` does not hold.** -/
theorem not_claimsExclusive_string_false :
    ¬ ClaimsExclusive {} [setStringFalse,
      ⟨.claim ⟨"t1", "outreach:send", "k1"⟩ none, ⟨1, by decide, by decide⟩⟩] := by
  intro h
  have hsome : (after {} [setStringFalse] ⟨"t1", "outreach:send", "k1"⟩).isSome = true := by
    decide +kernel
  obtain ⟨r, hr⟩ := Option.isSome_iff_exists.mp hsome
  have hu : r.unsubmitted = false := by
    have hall : (after {} [setStringFalse] ⟨"t1", "outreach:send", "k1"⟩).all
        (fun r => !r.unsubmitted) = true := by decide +kernel
    simpa [hr] using hall
  have hocc := h.occupied _ [setStringFalse] _ [] r rfl ⟨none, rfl⟩ hr hu
  have hwon : (step {} (after {} [setStringFalse])
      ⟨.claim ⟨"t1", "outreach:send", "k1"⟩ none, ⟨1, by decide, by decide⟩⟩).2.won = true := by
    decide +kernel
  rw [hocc] at hwon
  cases hwon

end VegaRevenue.Idempotency.Postgres
