import Mathlib.Data.List.Nodup

/-!
# Tables under row-level security

A table holds rows with unique keys. A statement runs under a policy: it sees the rows that are
`visible` (`USING`), and it fails as a whole where a row it writes does not pass `check`
(`WITH CHECK`).

* `lookup_update`, `lookup_insert` — what a statement leaves under each key
-/

namespace RowSecurity

variable {R K : Type*}

structure Policy (R : Type*) where
  visible : R → Bool
  check : R → Bool

/-- The rows of a table, in the order of their insertion. -/
structure Table {R K : Type*} (key : R → K) where
  rows : List R
  unique : (rows.map key).Nodup

namespace Table

variable {key : R → K}

/-- The rows a statement with this `WHERE` works on. -/
def selects (policy : Policy R) (p : R → Bool) (r : R) : Bool := policy.visible r && p r

/-- `SELECT … WHERE`. -/
def select (t : Table key) (policy : Policy R) (p : R → Bool) : List R :=
  t.rows.filter (selects policy p)

theorem unique_map (t : Table key) {f : R → R} (hf : ∀ r, key (f r) = key r) (p : R → Bool) :
    ((t.rows.map fun r => if p r then f r else r).map key).Nodup := by
  have hkeys : (t.rows.map fun r => if p r then f r else r).map key = t.rows.map key := by
    rw [List.map_map]
    refine List.map_congr_left fun r _ => ?_
    show key (if p r then f r else r) = key r
    split
    · exact hf r
    · rfl
  rw [hkeys]
  exact t.unique

/-- `UPDATE … SET … WHERE`, of columns that are not the key; `none` where it fails. -/
def update? (t : Table key) (policy : Policy R) (p : R → Bool) (f : R → R)
    (hf : ∀ r, key (f r) = key r) : Option (Table key) :=
  if t.rows.all fun r => !selects policy p r || policy.check (f r) then
    some ⟨t.rows.map fun r => if selects policy p r then f r else r, t.unique_map hf _⟩
  else none

/-- A row that an update writes passes the check. -/
theorem check_of_update {t t' : Table key} {policy : Policy R} {p : R → Bool} {f : R → R}
    {hf : ∀ r, key (f r) = key r} {r : R} (h : t.update? policy p f hf = some t')
    (hr : r ∈ t.rows) (hsel : selects policy p r = true) : policy.check (f r) = true := by
  unfold update? at h
  split at h
  next hall =>
    have := List.all_eq_true.mp hall r hr
    simpa [hsel] using this
  · cases h

/-- An update succeeds where every row it writes passes the check. -/
theorem exists_update (t : Table key) (policy : Policy R) (p : R → Bool) (f : R → R)
    (hf : ∀ r, key (f r) = key r)
    (hall : ∀ r ∈ t.rows, selects policy p r = true → policy.check (f r) = true) :
    ∃ t', t.update? policy p f hf = some t' := by
  unfold update?
  rw [if_pos]
  · exact ⟨_, rfl⟩
  · rw [List.all_eq_true]
    intro r hr
    cases hsel : selects policy p r with
    | false => rfl
    | true => exact hall r hr hsel

variable [DecidableEq K]

def lookup (t : Table key) (k : K) : Option R := t.rows.find? fun r => key r = k

/-- `INSERT`; `none` where the key is taken, by a visible row or not, or the row does not pass. -/
def insert? (t : Table key) (policy : Policy R) (r : R) : Option (Table key) :=
  if h : key r ∈ t.rows.map key then none
  else if policy.check r then
    some ⟨t.rows ++ [r], by
      rw [List.map_append, List.map_singleton]
      exact List.nodup_append.mpr ⟨t.unique, List.nodup_singleton _, by
        rintro a ha b hb rfl
        rw [List.mem_singleton.mp hb] at ha
        exact h ha⟩⟩
  else none

variable {t t' : Table key} {policy : Policy R} {p : R → Bool} {f : R → R}
  {hf : ∀ r, key (f r) = key r} {k : K} {r : R}

theorem key_of_lookup (h : t.lookup k = some r) : key r = k := by
  simpa using List.find?_some h

theorem mem_of_lookup (h : t.lookup k = some r) : r ∈ t.rows := List.mem_of_find?_eq_some h

/-- A row of the table is found under its key. -/
theorem lookup_of_mem (h : r ∈ t.rows) : t.lookup (key r) = some r := by
  unfold lookup
  cases hfind : t.rows.find? fun x => key x = key r with
  | none => simpa using List.find?_eq_none.mp hfind r h
  | some x =>
    have hx : key x = key r := by simpa using List.find?_some hfind
    rw [List.inj_on_of_nodup_map t.unique (List.mem_of_find?_eq_some hfind) h hx]

theorem lookup_eq_none : t.lookup k = none ↔ k ∉ t.rows.map key := by
  simp [lookup]

/-- The row of a key is selected where it is visible. -/
theorem head?_select_key (policy : Policy R) (k : K) :
    (t.select policy fun r => key r = k).head? = (t.lookup k).filter policy.visible := by
  unfold select
  rw [List.head?_filter]
  cases hfind : t.rows.find? (selects policy fun r => key r = k) with
  | some r =>
    have hsel := List.find?_some hfind
    simp only [selects, Bool.and_eq_true, decide_eq_true_eq] at hsel
    have hlookup := lookup_of_mem (List.mem_of_find?_eq_some hfind)
    rw [hsel.2] at hlookup
    rw [hlookup, Option.filter_some, if_pos hsel.1]
  | none =>
    cases hlookup : t.lookup k with
    | none => rfl
    | some r =>
      have hr := List.find?_eq_none.mp hfind r (mem_of_lookup hlookup)
      simp only [selects, key_of_lookup hlookup, Bool.and_eq_true, decide_true, and_true] at hr
      rw [Option.filter_some, if_neg hr]

/-- What an update leaves under each key. -/
theorem lookup_update (h : t.update? policy p f hf = some t') (k : K) :
    t'.lookup k = (t.lookup k).map fun r => if selects policy p r then f r else r := by
  unfold update? at h
  split at h
  · cases h
    unfold lookup
    rw [List.find?_map]
    congr 2
    funext r
    show decide (key (if selects policy p r then f r else r) = k) = decide (key r = k)
    split
    · rw [hf]
    · rfl
  · cases h

/-- What an insert leaves under each key. -/
theorem lookup_insert (h : t.insert? policy r = some t') (k : K) :
    t'.lookup k = if key r = k then some r else t.lookup k := by
  unfold insert? at h
  split at h
  · cases h
  next hnew =>
    split at h
    · cases h
      unfold lookup
      rw [List.find?_append]
      by_cases hk : key r = k
      · rw [if_pos hk]
        have hnone : t.lookup k = none := lookup_eq_none.mpr (hk ▸ hnew)
        unfold lookup at hnone
        simp [hnone, hk]
      · simp [hk]
    · cases h

/-- An insert succeeds where the key is new and the row passes the check. -/
theorem exists_insert (t : Table key) (policy : Policy R) (r : R) (hnew : t.lookup (key r) = none)
    (hcheck : policy.check r = true) : ∃ t', t.insert? policy r = some t' := by
  unfold insert?
  rw [dif_neg (lookup_eq_none.mp hnew), if_pos hcheck]
  exact ⟨_, rfl⟩

/-- An inserted row passes the check, and its key is new. -/
theorem of_insert (h : t.insert? policy r = some t') :
    policy.check r = true ∧ t.lookup (key r) = none := by
  unfold insert? at h
  split at h
  · cases h
  next hnew =>
    split at h
    next hcheck => exact ⟨hcheck, lookup_eq_none.mpr hnew⟩
    · cases h

end Table

end RowSecurity
