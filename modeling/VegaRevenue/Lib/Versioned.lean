import Mathlib.Data.List.Nodup

/-!
# Versioned rows and the compare-and-swap save

A row holds a payload and a version. An aggregate is the in-memory copy of a row: its state,
the version it has reached and the version it was loaded at. A save succeeds iff the stored
version is still the loaded one, and then stores the state and the version reached.

* `save_eq_some_iff` — when a save succeeds, and what it stores
* `find_save_self`, `find_save_ne` — the rows after a save
-/

namespace Versioned

variable {K σ ε : Type*}

/-! ## Aggregates -/

/-- The in-memory copy of a versioned row, with the events applied since it was loaded. -/
structure Aggregate (σ ε : Type*) where
  state : σ
  version : Nat
  loadedVersion : Option Nat
  domainEvents : List ε
deriving DecidableEq

namespace Aggregate

/-- A fresh aggregate that has never been stored. -/
def init (s : σ) : Aggregate σ ε := ⟨s, 0, none, []⟩

/-- Records an event and moves the version. -/
def applyEvent (a : Aggregate σ ε) (e : ε) : Aggregate σ ε :=
  { a with domainEvents := a.domainEvents ++ [e], version := a.version + 1 }

/-- Writes the state without an event. The version stays. -/
def write (a : Aggregate σ ε) (s : σ) : Aggregate σ ε := { a with state := s }

/-- Takes `version` as both the current and the loaded version. -/
def setVersion (a : Aggregate σ ε) (version : Nat) : Aggregate σ ε :=
  { a with version := version, loadedVersion := some version }

def clearDomainEvents (a : Aggregate σ ε) : Aggregate σ ε := { a with domainEvents := [] }

/-- The copy a load builds from a stored payload and version. -/
def reconstitute (s : σ) (version : Nat) : Aggregate σ ε :=
  ((init s).setVersion version).clearDomainEvents

@[simp] theorem applyEvent_state (a : Aggregate σ ε) (e : ε) : (a.applyEvent e).state = a.state :=
  rfl
@[simp] theorem applyEvent_version (a : Aggregate σ ε) (e : ε) :
    (a.applyEvent e).version = a.version + 1 := rfl
@[simp] theorem applyEvent_loadedVersion (a : Aggregate σ ε) (e : ε) :
    (a.applyEvent e).loadedVersion = a.loadedVersion := rfl
@[simp] theorem write_state (a : Aggregate σ ε) (s : σ) : (a.write s).state = s := rfl
@[simp] theorem write_version (a : Aggregate σ ε) (s : σ) : (a.write s).version = a.version := rfl
@[simp] theorem write_loadedVersion (a : Aggregate σ ε) (s : σ) :
    (a.write s).loadedVersion = a.loadedVersion := rfl

end Aggregate

/-! ## Operations

`Tracks a b silent` is what an operation from `a` to `b` owes the version: it moves, or the
operation leaves the state alone, or it took a `silent` branch. -/

/-- `b` is `a` after an operation that writes without an event only where `silent` holds. -/
def Aggregate.Tracks (a b : Aggregate σ ε) (silent : Prop) : Prop :=
  b.loadedVersion = a.loadedVersion ∧
    (a.version < b.version ∨ b.version = a.version ∧ (b.state = a.state ∨ silent))

namespace Aggregate.Tracks

variable {a b : Aggregate σ ε} {silent : Prop}

theorem refl (a : Aggregate σ ε) (silent : Prop) : a.Tracks a silent := ⟨rfl, .inr ⟨rfl, .inl rfl⟩⟩

theorem version_le (h : a.Tracks b silent) : a.version ≤ b.version := by
  rcases h.2 with hlt | ⟨heq, -⟩
  · omega
  · omega

/-- An event makes an operation loud. -/
theorem of_lt (hl : b.loadedVersion = a.loadedVersion) (hv : a.version < b.version) :
    a.Tracks b silent := ⟨hl, .inl hv⟩

/-- A write without an event is silent where it changes the state. -/
theorem write (a : Aggregate σ ε) {s : σ} (h : s ≠ a.state → silent) :
    a.Tracks (a.write s) silent := by
  refine ⟨rfl, .inr ⟨rfl, ?_⟩⟩
  by_cases hs : s = a.state
  · exact .inl hs
  · exact .inr (h hs)

/-- Writing the state before an operation that tracks `silent` again. -/
theorem after_write {s : σ} (h : (a.write s).Tracks b False)
    (hs : s ≠ a.state → b.version = a.version → silent) : a.Tracks b silent := by
  obtain ⟨hl, hv⟩ := h
  refine ⟨hl, ?_⟩
  rcases hv with hlt | ⟨heq, hst | hf⟩
  · exact .inl hlt
  · refine .inr ⟨heq, ?_⟩
    by_cases hne : s = a.state
    · exact .inl (hst.trans hne)
    · exact .inr (hs hne heq)
  · exact hf.elim

theorem mono {silent' : Prop} (h : a.Tracks b silent) (hs : silent → silent') :
    a.Tracks b silent' := ⟨h.1, h.2.imp id fun hv => ⟨hv.1, hv.2.imp id hs⟩⟩

/-- Two operations in a row, neither of them silent. -/
theorem trans {c : Aggregate σ ε} (h : a.Tracks b False) (h' : b.Tracks c False) :
    a.Tracks c False := by
  obtain ⟨hl, hv⟩ := h
  obtain ⟨hl', hv'⟩ := h'
  refine ⟨hl'.trans hl, ?_⟩
  rcases hv with hlt | ⟨heq, hst | hf⟩
  · have : b.version ≤ c.version := version_le ⟨hl', hv'⟩
    exact .inl (by omega)
  · rcases hv' with hlt' | ⟨heq', hst' | hf'⟩
    · exact .inl (by omega)
    · exact .inr ⟨heq'.trans heq, .inl (hst'.trans hst)⟩
    · exact hf'.elim
  · exact hf.elim

end Aggregate.Tracks

/-! ## Tables -/

/-- A stored row. -/
structure Row (σ : Type*) where
  payload : σ
  version : Nat
deriving DecidableEq

/-- The compare-and-swap on one row. -/
def Row.swap (r : Row σ) (a : Aggregate σ ε) : Option (Row σ) :=
  if a.loadedVersion = some r.version then some ⟨a.state, a.version⟩ else none

/-- The rows of a table with their primary keys. -/
abbrev Table (K σ : Type*) := List (K × Row σ)

namespace Table

variable [DecidableEq K]

/-- `SELECT` by primary key. -/
def find (t : Table K σ) (k : K) : Option (Row σ) := (List.find? (fun p => p.1 = k) t).map Prod.snd

/-- `UPDATE` by primary key. -/
def replace (t : Table K σ) (k : K) (r : Row σ) : Table K σ :=
  t.map fun p => if p.1 = k then (k, r) else p

/-- The save of an aggregate: an insert when it was never stored, else a compare-and-swap on
the loaded version. `none` is a conflict. -/
def save (t : Table K σ) (k : K) (a : Aggregate σ ε) : Option (Table K σ) :=
  match a.loadedVersion, t.find k with
  | none, none => some (t ++ [(k, ⟨a.state, a.version⟩)])
  | some v, some r => if r.version = v then some (t.replace k ⟨a.state, a.version⟩) else none
  | _, _ => none

theorem find_cons (p : K × Row σ) (t : Table K σ) (k : K) :
    find (p :: t) k = if p.1 = k then some p.2 else find t k := by
  unfold find
  rw [List.find?_cons]
  by_cases h : p.1 = k <;> simp [h]

theorem find_append_single (t : Table K σ) (k k' : K) (r : Row σ) :
    find (t ++ [(k, r)]) k' = (find t k').or (if k = k' then some r else none) := by
  induction t with
  | nil => simp [find]
  | cons p t ih =>
    rw [List.cons_append, find_cons, find_cons, ih]
    split <;> rfl

theorem find_replace_self {t : Table K σ} {k : K} {r₀ : Row σ} (r : Row σ)
    (h : find t k = some r₀) : find (replace t k r) k = some r := by
  induction t with
  | nil => simp [find] at h
  | cons p t ih =>
    rw [find_cons] at h
    unfold replace at ih ⊢
    rw [List.map_cons, find_cons]
    by_cases hp : p.1 = k
    · simp [hp]
    · rw [if_neg hp] at h
      rw [if_neg hp, if_neg hp]
      exact ih h

theorem find_replace_ne (t : Table K σ) {k k' : K} (r : Row σ) (h : k' ≠ k) :
    find (replace t k r) k' = find t k' := by
  induction t with
  | nil => rfl
  | cons p t ih =>
    unfold replace at ih ⊢
    rw [List.map_cons, find_cons, find_cons, ih]
    by_cases hp : p.1 = k
    · have hne : p.1 ≠ k' := fun hk => h (hk.symm.trans hp)
      rw [if_pos hp, if_neg (Ne.symm h), if_neg hne]
    · rw [if_neg hp]

/-- **When a save succeeds, and what it stores.** -/
theorem save_eq_some_iff {t t' : Table K σ} {k : K} {a : Aggregate σ ε} :
    save t k a = some t' ↔
      (a.loadedVersion = none ∧ find t k = none ∧ t' = t ++ [(k, ⟨a.state, a.version⟩)]) ∨
      ∃ v r, a.loadedVersion = some v ∧ find t k = some r ∧ r.version = v ∧
        t' = replace t k ⟨a.state, a.version⟩ := by
  unfold save
  cases hl : a.loadedVersion <;> cases hf : find t k <;> simp [eq_comm]

/-- On a row that exists, a save is the compare-and-swap on that row. -/
theorem save_eq_swap {t : Table K σ} {k : K} {r : Row σ} (h : find t k = some r)
    (a : Aggregate σ ε) : save t k a = (r.swap a).map (replace t k) := by
  unfold save Row.swap
  rw [h]
  cases hl : a.loadedVersion with
  | none => simp
  | some v =>
    by_cases hv : r.version = v
    · simp [hv]
    · simp [hv, Ne.symm hv]

/-- The saved row. -/
theorem find_save_self {t t' : Table K σ} {k : K} {a : Aggregate σ ε} (h : save t k a = some t') :
    find t' k = some ⟨a.state, a.version⟩ := by
  rcases save_eq_some_iff.mp h with ⟨-, hf, rfl⟩ | ⟨v, r, -, hf, -, rfl⟩
  · rw [find_append_single, hf]; simp
  · exact find_replace_self _ hf

/-- A save changes no other row. -/
theorem find_save_ne {t t' : Table K σ} {k k' : K} {a : Aggregate σ ε} (h : save t k a = some t')
    (hk : k' ≠ k) : find t' k' = find t k' := by
  rcases save_eq_some_iff.mp h with ⟨-, -, rfl⟩ | ⟨v, r, -, -, -, rfl⟩
  · rw [find_append_single, if_neg (Ne.symm hk), Option.or_none]
  · exact find_replace_ne _ _ hk

/-- The rows of a key after a save. -/
theorem find_save {t t' : Table K σ} {k : K} {a : Aggregate σ ε} (h : save t k a = some t')
    (k' : K) : find t' k' = if k' = k then some ⟨a.state, a.version⟩ else find t k' := by
  by_cases hk : k' = k
  · rw [if_pos hk, hk, find_save_self h]
  · rw [if_neg hk, find_save_ne h hk]

/-- A save keeps the primary keys apart. -/
theorem nodup_save {t t' : Table K σ} {k : K} {a : Aggregate σ ε} (h : save t k a = some t')
    (hn : (t.map Prod.fst).Nodup) : (t'.map Prod.fst).Nodup := by
  rcases save_eq_some_iff.mp h with ⟨-, hf, rfl⟩ | ⟨v, r, -, -, -, rfl⟩
  · rw [List.map_append, List.nodup_append]
    refine ⟨hn, List.nodup_singleton _, ?_⟩
    intro k₁ hk₁ k₂ hk₂ heq
    obtain ⟨p, hp, rfl⟩ := List.mem_map.mp hk₁
    obtain rfl := List.mem_singleton.mp hk₂
    have hnone := List.find?_eq_none.mp (Option.map_eq_none_iff.mp hf) p hp
    simp [heq] at hnone
  · have hkeys : (replace t k ⟨a.state, a.version⟩).map Prod.fst = t.map Prod.fst := by
      unfold replace
      rw [List.map_map]
      refine List.map_congr_left fun p _ => ?_
      show (if p.1 = k then (k, _) else p).1 = p.1
      split
      next hp => exact hp.symm
      · rfl
    rw [hkeys]
    exact hn

/-- Where the primary keys are apart, a row is found under its key. -/
theorem find_of_mem {t : Table K σ} (hn : (t.map Prod.fst).Nodup) {k : K} {r : Row σ}
    (h : (k, r) ∈ t) : find t k = some r := by
  induction t with
  | nil => cases h
  | cons p t ih =>
    rw [List.map_cons, List.nodup_cons] at hn
    rw [find_cons]
    rcases List.mem_cons.mp h with rfl | ht
    · rw [if_pos rfl]
    · have hne : p.1 ≠ k := by
        rintro rfl
        exact hn.1 (List.mem_map.mpr ⟨_, ht, rfl⟩)
      rw [if_neg hne]
      exact ih hn.2 ht

/-- A loaded copy saves exactly when the stored row is still at its loaded version. -/
theorem save_loaded {t : Table K σ} {k : K} {a : Aggregate σ ε} {v : Nat}
    (hl : a.loadedVersion = some v) :
    (save t k a).isSome ↔ ∃ r, find t k = some r ∧ r.version = v := by
  unfold save
  rw [hl]
  cases hf : find t k with
  | none => simp
  | some r => simp only [Option.some.injEq, exists_eq_left']; split <;> simp_all

end Table

end Versioned
