import VegaRevenue.Idempotency.Store
import VegaRevenue.Lib.ClaimRegister

/-!
# `PostgresIdempotencyStore`

The table `idempotency.keys` and the statements on it. A claim and a set are one statement each;
the `get` by which a claim that was not won reads the live record is a statement of its own.

* `step_refines` — the table is a claim register whose free records are the FAILED ones with
  `(result->>'submitted')::boolean = false`
-/

namespace VegaRevenue.Idempotency.Postgres

/-- A row of `idempotency.keys`. -/
structure Record where
  status : Status
  result : Json
  createdAt : Int
  expiresAt : Int

/-- The rows by primary key `(tenant_id, key, scope)`. -/
abbrev Store := Triple → Option Record

structure Config where
  defaultTtlSeconds : Option Rat := none

/-- The parameters of a statement can be sent: none holds a NUL. -/
def sendable (k : Triple) : Bool :=
  textStorable k.tenantId && textStorable k.scope && textStorable k.key

def Record.view (r : Record) : RecordView :=
  ⟨r.status, some r.result, r.createdAt, some r.expiresAt⟩

/-- `(result->>'submitted')::boolean`. -/
def Record.submitted (r : Record) : SqlBoolean := r.result.memberBoolean "submitted"

/-! ## The statements -/

/-- The upsert of `set`, from the row it replaces; `none` when Postgres rejects it. A row that is
replaced keeps its `created_at`. -/
def setRow? (config : Config) (k : Triple) (result : Json) (options : Options) (now : Clock) :
    Option (Option Record → Record) :=
  let status := options.status.getD .completed
  let ttlSeconds :=
    if status = .pending then neverExpireSeconds
    else options.ttlSeconds.getD (config.defaultTtlSeconds.getD 86400)
  if sendable k && result.storable then
    (timestamptz (expiry now ttlSeconds)).map fun expiresAt old =>
      ⟨status, result, (old.map Record.createdAt).getD now.ms, expiresAt⟩
  else none

/-- The upsert of `claim`. -/
def claimRow? (k : Triple) (now : Clock) : Option (Option Record → Record) :=
  if sendable k then
    (timestamptz (expiry now neverExpireSeconds)).map fun expiresAt old =>
      ⟨.pending, .null, (old.map Record.createdAt).getD now.ms, expiresAt⟩
  else none

def get (s : Store) (k : Triple) : Answer :=
  if sendable k then .record ((s k).map Record.view) else .threw

def set (config : Config) (s : Store) (k : Triple) (result : Json) (options : Options)
    (now : Clock) : Store × Answer :=
  match setRow? config k result options now with
  | none => (s, .threw)
  | some row => (Function.update s k (some (row (s k))), .stored)

/-- The `INSERT … ON CONFLICT DO UPDATE … WHERE … RETURNING` of `claim`. -/
def claim (s : Store) (k : Triple) (now : Clock) : Store × Answer :=
  match claimRow? k now with
  | none => (s, .threw)
  | some row =>
    match s k with
    | none => (Function.update s k (some (row none)), .claimed true)
    | some r =>
      if r.status = .failed then
        match r.submitted with
        | .value false => (Function.update s k (some (row (some r))), .claimed true)
        -- a text that spells no boolean makes the statement fail
        | .invalid => (s, .threw)
        | _ => (s, .claimed false)
      else (s, .claimed false)

def step (config : Config) : Machine.Step Store Statement Answer
  | s, ⟨.get k, _⟩ => (s, get s k)
  | s, ⟨.set k result options, now⟩ => set config s k result options now
  | s, ⟨.claim k _, now⟩ => claim s k now

/-- The empty table. -/
def empty : Store := fun _ => none

/-! ## The table as a claim register -/

/-- The `WHERE` guard of the claim. -/
def Record.reclaimable (r : Record) : Bool := r.status = .failed && r.submitted = .value false

/-- The register operation of a statement; a rejected one does nothing. -/
def op (config : Config) : Statement → ClaimRegister.Op Triple Record
  | ⟨.get _, _⟩ => .skip
  | ⟨.set k result options, now⟩ =>
    match setRow? config k result options now with
    | none => .skip
    | some row => .put k row
  | ⟨.claim k _, now⟩ =>
    match claimRow? k now with
    | none => .skip
    | some row => .take k row

theorem claimRow?_of_sendable {k : Triple} (now : Clock) (h : sendable k = true) :
    ∃ row, claimRow? k now = some row := by
  unfold claimRow?
  rw [if_pos h, timestamptz_never]
  exact ⟨_, rfl⟩

theorem sendable_of_claimRow? {k : Triple} {now : Clock} {row : Option Record → Record}
    (h : claimRow? k now = some row) : sendable k = true := by
  unfold claimRow? at h
  split at h
  · assumption
  · cases h

theorem sendable_of_setRow? {config : Config} {k : Triple} {result : Json} {options : Options}
    {now : Clock} {row : Option Record → Record}
    (h : setRow? config k result options now = some row) : sendable k = true := by
  unfold setRow? at h
  dsimp only at h
  split at h
  next hs => exact (Bool.and_eq_true_iff.mp hs).1
  · cases h

/-- A claimed row is PENDING with a JSON `null`. -/
theorem claimRow?_pending {k : Triple} {now : Clock} {row : Option Record → Record}
    (h : claimRow? k now = some row) (old : Option Record) :
    (row old).status = .pending ∧ (row old).result = .null ∧
      (row old).expiresAt = now.ms + neverExpireMs := by
  unfold claimRow? at h
  rw [timestamptz_never] at h
  split at h
  · obtain rfl := Option.some.inj h
    exact ⟨rfl, rfl, rfl⟩
  · cases h

/-- A set row has the status and result it was given. -/
theorem setRow?_status {config : Config} {k : Triple} {result : Json} {options : Options}
    {now : Clock} {row : Option Record → Record}
    (h : setRow? config k result options now = some row) (old : Option Record) :
    (row old).status = options.status.getD .completed ∧ (row old).result = result := by
  unfold setRow? at h
  dsimp only at h
  split at h
  · obtain ⟨d, -, rfl⟩ := Option.map_eq_some_iff.mp h
    exact ⟨rfl, rfl⟩
  · cases h

/-- What a claim does, by the row it meets. -/
theorem claim_eq {s : Store} {k : Triple} {now : Clock} {row : Option Record → Record}
    (h : claimRow? k now = some row) :
    claim s k now =
      if ClaimRegister.wins Record.reclaimable s k then
        (Function.update s k (some (row (s k))), .claimed true)
      else if ∃ r, s k = some r ∧ r.status = .failed ∧ r.submitted = .invalid then (s, .threw)
      else (s, .claimed false) := by
  unfold claim ClaimRegister.wins
  rw [h]
  cases hk : s k with
  | none => simp
  | some r =>
    by_cases hf : r.status = .failed
    · cases hb : r.submitted with
      | value b => cases b <;> simp [Record.reclaimable, hf, hb]
      | _ => simp [Record.reclaimable, hf, hb]
    · simp [Record.reclaimable, hf]

/-- A claim whose parameters can be sent is won iff the key is free. -/
theorem claim_won_iff {s : Store} {k : Triple} {now : Clock} (h : sendable k = true) :
    (claim s k now).2 = .claimed true ↔ ClaimRegister.wins Record.reclaimable s k = true := by
  obtain ⟨row, hrow⟩ := claimRow?_of_sendable now h
  rw [claim_eq hrow]
  split
  next hwins => simp [hwins]
  next hlost =>
    split <;> simp [hlost]

/-- A claim that is won stores a PENDING row on a free key; every other claim changes nothing. -/
theorem claim_cases (s : Store) (k : Triple) (now : Clock) :
    ((claim s k now).2 = .claimed true ∧ ClaimRegister.wins Record.reclaimable s k = true ∧
      ∃ r, r.status = .pending ∧ (claim s k now).1 = Function.update s k (some r)) ∨
    ((claim s k now).2 ≠ .claimed true ∧ (claim s k now).1 = s) := by
  cases hrow : claimRow? k now with
  | none =>
    right
    unfold claim
    rw [hrow]
    exact ⟨by simp, rfl⟩
  | some row =>
    rw [claim_eq hrow]
    by_cases hw : ClaimRegister.wins Record.reclaimable s k = true
    · left
      rw [if_pos hw]
      exact ⟨rfl, hw, row (s k), (claimRow?_pending hrow _).1, rfl⟩
    · right
      rw [if_neg hw]
      split <;> exact ⟨by simp, rfl⟩

/-- A set is rejected and changes nothing, or it stores its status and result. -/
theorem set_cases (config : Config) (s : Store) (k : Triple) (result : Json) (options : Options)
    (now : Clock) :
    ((set config s k result options now).2 = .stored ∧
      (setRow? config k result options now).isSome ∧
      ∃ r, r.status = options.status.getD .completed ∧ r.result = result ∧
        (set config s k result options now).1 = Function.update s k (some r)) ∨
    ((set config s k result options now).2 = .threw ∧
      setRow? config k result options now = none ∧
      (set config s k result options now).1 = s) := by
  unfold set
  cases hrow : setRow? config k result options now with
  | none => right; exact ⟨rfl, rfl, rfl⟩
  | some row =>
    left
    obtain ⟨hstatus, hresult⟩ := setRow?_status hrow (s k)
    exact ⟨rfl, rfl, row (s k), hstatus, hresult, rfl⟩

/-- **The table moves as the register does, and a claim wins exactly where a take does.** -/
theorem step_refines (config : Config) (s : Store) (st : Statement) :
    (step config s st).1 = (ClaimRegister.step Record.reclaimable s (op config st)).1 ∧
      ((step config s st).2 = .claimed true ↔
        (ClaimRegister.step Record.reclaimable s (op config st)).2 = true) := by
  obtain ⟨call, now⟩ := st
  cases call with
  | get k =>
    unfold step op get
    constructor
    · rfl
    · dsimp only; split <;> simp [ClaimRegister.step]
  | set k result options =>
    unfold step op set
    dsimp only
    cases setRow? config k result options now with
    | none => simp [ClaimRegister.step]
    | some row => simp [ClaimRegister.step]
  | claim k ttlSeconds =>
    unfold step op
    dsimp only
    cases hr : claimRow? k now with
    | none => simp [ClaimRegister.step, claim, hr]
    | some row =>
      dsimp only
      rw [claim_eq hr]
      by_cases hw : ClaimRegister.wins Record.reclaimable s k = true
      · simp [ClaimRegister.step, hw]
      · rw [if_neg hw]
        split <;> simp [ClaimRegister.step, hw]

/-- The table after a history is the register after its operations. -/
theorem final_refines (config : Config) (s : Store) (h : List Statement) :
    Machine.final (step config) s h =
      Machine.final (ClaimRegister.step Record.reclaimable) s (h.map (op config)) := by
  induction h generalizing s with
  | nil => rfl
  | cons st h ih =>
    rw [List.map_cons, Machine.final_cons, Machine.final_cons, ← (step_refines config s st).1, ih]

/-- A statement changes the row of its own triple only. -/
theorem step_ne (config : Config) (s : Store) (st : Statement) {k : Triple}
    (hk : k ≠ st.call.triple) : (step config s st).1 k = s k := by
  rw [(step_refines config s st).1]
  apply ClaimRegister.step_ne
  intro hkey
  obtain ⟨call, now⟩ := st
  cases call with
  | get k' => cases hkey
  | set k' result options =>
    simp only [op] at hkey
    split at hkey
    · cases hkey
    · exact hk (Option.some.inj hkey).symm
  | claim k' ttlSeconds =>
    simp only [op] at hkey
    split at hkey
    · cases hkey
    · exact hk (Option.some.inj hkey).symm

end VegaRevenue.Idempotency.Postgres
