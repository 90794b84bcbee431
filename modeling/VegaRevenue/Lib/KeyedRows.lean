import Mathlib.Data.List.Nodup

/-!
# Rows with a unique key

`INSERT … ON CONFLICT (key) DO NOTHING` and `… DO UPDATE`, on the list of the rows of a table.

* `filter_insertAll` — a part of the table that the key decides takes the inserts of its own rows
* `forall_mem_insertAll_iff` — when every insert leaves a row like its own
* `eq_of_mem_upsertAll`, `mem_upsertAll` — after an upsert of rows with different keys, a key holds
  the row that was upserted
-/

namespace KeyedRows

variable {R K : Type*} [DecidableEq K] (key : R → K)

/-- `ON CONFLICT DO NOTHING`. -/
def insertMissing (rows : List R) (r : R) : List R :=
  if rows.any (key · = key r) then rows else rows ++ [r]

/-- `ON CONFLICT DO UPDATE` of every column that is not part of the key. -/
def upsert (rows : List R) (r : R) : List R :=
  if rows.any (key · = key r) then rows.map fun x => if key x = key r then r else x
  else rows ++ [r]

def insertAll (rows new : List R) : List R := new.foldl (insertMissing key) rows

def upsertAll (rows new : List R) : List R := new.foldl (upsert key) rows

variable {key}

theorem filter_insertMissing {P : R → Bool} (hP : ∀ x y, key x = key y → P x = P y)
    (rows : List R) (r : R) :
    (insertMissing key rows r).filter P =
      if P r then insertMissing key (rows.filter P) r else rows.filter P := by
  unfold insertMissing
  have hany : P r = true →
      (rows.filter P).any (key · = key r) = rows.any (key · = key r) := by
    intro hr
    rw [List.any_filter]
    refine congrArg _ (funext fun x => ?_)
    by_cases hx : key x = key r
    · rw [hP x r hx, hr, Bool.true_and]
    · simp [hx]
  by_cases hr : P r = true
  · rw [if_pos hr, hany hr]
    split
    · rfl
    · rw [List.filter_append, List.filter_cons_of_pos hr, List.filter_nil]
  · rw [if_neg hr]
    split
    · rfl
    · rw [List.filter_append, List.filter_cons_of_neg hr, List.filter_nil, List.append_nil]

/-- **A part of the table that the key decides takes the inserts of its own rows.** -/
theorem filter_insertAll {P : R → Bool} (hP : ∀ x y, key x = key y → P x = P y)
    {new : List R} (hnew : ∀ r ∈ new, P r = true) (rows : List R) :
    (insertAll key rows new).filter P = insertAll key (rows.filter P) new := by
  induction new generalizing rows with
  | nil => rfl
  | cons r new ih =>
    show (insertAll key (insertMissing key rows r) new).filter P =
      insertAll key (insertMissing key (rows.filter P) r) new
    rw [ih fun x hx => hnew x (List.mem_cons_of_mem r hx), filter_insertMissing hP,
      if_pos (hnew r List.mem_cons_self)]

theorem insertMissing_keys {rows : List R} (h : (rows.map key).Nodup) (r : R) :
    ((insertMissing key rows r).map key).Nodup := by
  unfold insertMissing
  split
  · exact h
  next hnone =>
    rw [List.map_append, List.map_singleton]
    refine List.nodup_append'.mpr ⟨h, List.nodup_singleton _, ?_⟩
    simpa using hnone

/-- Inserts keep the key unique. -/
theorem insertAll_keys {rows : List R} (h : (rows.map key).Nodup) (new : List R) :
    ((insertAll key rows new).map key).Nodup := by
  induction new generalizing rows with
  | nil => exact h
  | cons r new ih => exact ih (insertMissing_keys h r)

/-- Rows with new keys are all inserted, in their order, where no two of them have one key. -/
theorem insertAll_eq_append {rows new : List R} (hnodup : (new.map key).Nodup)
    (hnew : ∀ r ∈ new, key r ∉ rows.map key) : insertAll key rows new = rows ++ new := by
  induction new generalizing rows with
  | nil => exact (List.append_nil rows).symm
  | cons r new ih =>
    rw [List.map_cons, List.nodup_cons] at hnodup
    have hr := hnew r List.mem_cons_self
    have hinserted : insertMissing key rows r = rows ++ [r] := by
      unfold insertMissing
      rw [if_neg]
      intro hany
      obtain ⟨x, hx, hkey⟩ := List.any_eq_true.mp hany
      exact hr (of_decide_eq_true hkey ▸ List.mem_map_of_mem hx)
    show insertAll key (insertMissing key rows r) new = rows ++ r :: new
    rw [hinserted, ih hnodup.2, List.append_assoc]
    · rfl
    · intro x hx hmem
      rw [List.map_append, List.mem_append] at hmem
      rcases hmem with hold | hsame
      · exact hnew x (List.mem_cons_of_mem r hx) hold
      · rw [List.map_singleton, List.mem_singleton] at hsame
        exact hnodup.1 (hsame ▸ List.mem_map_of_mem hx)

theorem any_key_iff {rows : List R} {r : R} :
    rows.any (key · = key r) = true ↔ ∃ row ∈ rows, key row = key r := by
  rw [List.any_eq_true]
  exact exists_congr fun row => and_congr_right fun _ => decide_eq_true_iff

/-- A row is in the table after the inserts iff it was there, or is the first of its key. -/
theorem mem_insertAll_iff {rows new : List R} {x : R} :
    x ∈ insertAll key rows new ↔
      x ∈ rows ∨ (∀ row ∈ rows, key row ≠ key x) ∧ new.find? (key · = key x) = some x := by
  induction new generalizing rows with
  | nil => simp [insertAll]
  | cons r new ih =>
    show x ∈ insertAll key (insertMissing key rows r) new ↔ _
    rw [ih, insertMissing, List.find?_cons]
    by_cases hany : rows.any (key · = key r) = true
    · rw [if_pos hany]
      obtain ⟨row, hrow, hkey⟩ := any_key_iff.mp hany
      refine or_congr_right (and_congr_right fun hnone => ?_)
      rw [decide_eq_false fun h => hnone row hrow (hkey.trans h)]
    · rw [if_neg hany]
      have hnone : ∀ row ∈ rows, key row ≠ key r := fun row hrow hkey =>
        hany (any_key_iff.mpr ⟨row, hrow, hkey⟩)
      by_cases hx : key r = key x
      · rw [decide_eq_true hx, ← hx]
        constructor
        · rintro (hmem | ⟨hother, -⟩)
          · rcases List.mem_append.mp hmem with hmem | hmem
            · exact .inl hmem
            · exact .inr ⟨hnone, congrArg some (List.mem_singleton.mp hmem).symm⟩
          · exact absurd rfl (hother r (List.mem_append_right _ List.mem_cons_self))
        · rintro (hmem | ⟨-, hr⟩)
          · exact .inl (List.mem_append_left _ hmem)
          · rw [Option.some.inj hr]
            exact .inl (List.mem_append_right _ List.mem_cons_self)
      · have hne : x ≠ r := fun h => hx (congrArg key h).symm
        rw [decide_eq_false hx, List.mem_append, List.mem_singleton, or_iff_left hne,
          List.forall_mem_append, List.forall_mem_singleton, and_iff_left hx]

theorem mem_of_mem_insertAll {rows new : List R} {x : R} (h : x ∈ insertAll key rows new) :
    x ∈ rows ++ new := by
  rcases mem_insertAll_iff.mp h with hx | ⟨-, hx⟩
  · exact List.mem_append_left _ hx
  · exact List.mem_append_right _ (List.mem_of_find?_eq_some hx)

/-- **Each row that was to be inserted has one like it in the table iff it had one before, or its
key is new and shared only with rows like it.** -/
theorem forall_mem_insertAll_iff {same : R → R → Prop} (hsame : Equivalence same)
    {rows new : List R} (hkey : ∀ a ∈ rows ++ new, ∀ b ∈ new, same a b → key a = key b) :
    (∀ c ∈ new, ∃ row ∈ insertAll key rows new, same row c) ↔
      ∀ c ∈ new, (∃ row ∈ rows, same row c) ∨
        (∀ row ∈ rows, key row ≠ key c) ∧ ∀ d ∈ new, key d = key c → same d c := by
  constructor
  · intro h c hc
    by_cases hold : ∃ row ∈ rows, same row c
    · exact .inl hold
    · right
      obtain ⟨first, hfirst, hlike⟩ := h c hc
      have hcfirst := hkey first (mem_of_mem_insertAll hfirst) c hc hlike
      obtain ⟨hnone, hfind⟩ := (mem_insertAll_iff.mp hfirst).resolve_left fun hmem =>
        hold ⟨first, hmem, hlike⟩
      rw [hcfirst] at hnone hfind
      refine ⟨hnone, fun d hd hdc => ?_⟩
      obtain ⟨row, hrow, hrowlike⟩ := h d hd
      have hrowkey := (hkey row (mem_of_mem_insertAll hrow) d hd hrowlike).trans hdc
      obtain ⟨-, hfind'⟩ := (mem_insertAll_iff.mp hrow).resolve_left fun hmem =>
        hnone row hmem hrowkey
      rw [hrowkey, hfind] at hfind'
      rw [← Option.some.inj hfind'] at hrowlike
      exact hsame.trans (hsame.symm hrowlike) hlike
  · intro h c hc
    rcases h c hc with ⟨row, hrow, hlike⟩ | ⟨hnone, hsole⟩
    · exact ⟨row, mem_insertAll_iff.mpr (.inl hrow), hlike⟩
    · obtain ⟨d, hd⟩ := Option.isSome_iff_exists.mp
        (List.find?_isSome.mpr ⟨c, hc, decide_eq_true rfl⟩ :
          (new.find? (key · = key c)).isSome = true)
      have hdc := List.find?_some hd
      rw [decide_eq_true_iff] at hdc
      refine ⟨d, mem_insertAll_iff.mpr (.inr ?_), hsole d (List.mem_of_find?_eq_some hd) hdc⟩
      rw [hdc]
      exact ⟨hnone, hd⟩

theorem mem_upsert {rows : List R} {r x : R} (hx : x ∈ upsert key rows r) :
    x = r ∨ x ∈ rows ∧ key x ≠ key r := by
  unfold upsert at hx
  split at hx
  · obtain ⟨y, hy, rfl⟩ := List.mem_map.mp hx
    split
    · exact .inl rfl
    next hne => exact .inr ⟨hy, hne⟩
  next hnone =>
    rcases List.mem_append.mp hx with hx | hx
    · refine .inr ⟨hx, fun hk => hnone ?_⟩
      exact List.any_eq_true.mpr ⟨x, hx, decide_eq_true hk⟩
    · exact .inl (List.mem_singleton.mp hx)

theorem mem_upsert_self (rows : List R) (r : R) : r ∈ upsert key rows r := by
  unfold upsert
  split
  next h =>
    obtain ⟨x, hx, hk⟩ := List.any_eq_true.mp h
    exact List.mem_map.mpr ⟨x, hx, if_pos (of_decide_eq_true hk)⟩
  · exact List.mem_append_right _ (List.mem_singleton_self r)

theorem mem_upsert_of_ne {rows : List R} {r x : R} (hx : x ∈ rows) (hk : key x ≠ key r) :
    x ∈ upsert key rows r := by
  unfold upsert
  split
  · exact List.mem_map.mpr ⟨x, hx, if_neg hk⟩
  · exact List.mem_append_left _ hx

/-- A row that was not upserted by its key was there before. -/
theorem mem_of_mem_upsertAll {new rows : List R} {x : R} (hx : x ∈ upsertAll key rows new)
    (hk : ∀ r ∈ new, key r ≠ key x) : x ∈ rows := by
  induction new generalizing rows with
  | nil => exact hx
  | cons r new ih =>
    rcases mem_upsert (ih hx fun y hy => hk y (List.mem_cons_of_mem r hy)) with rfl | ⟨hmem, -⟩
    · exact absurd rfl (hk x List.mem_cons_self)
    · exact hmem

theorem mem_upsertAll_of_ne {new rows : List R} {x : R} (hx : x ∈ rows)
    (hk : ∀ r ∈ new, key r ≠ key x) : x ∈ upsertAll key rows new := by
  induction new generalizing rows with
  | nil => exact hx
  | cons r new ih =>
    exact ih (mem_upsert_of_ne hx (Ne.symm (hk r List.mem_cons_self)))
      fun y hy => hk y (List.mem_cons_of_mem r hy)

/-- **After an upsert of rows with different keys, each of them is there.** -/
theorem mem_upsertAll {new rows : List R} (hnew : (new.map key).Nodup) {r : R} (hr : r ∈ new) :
    r ∈ upsertAll key rows new := by
  induction new generalizing rows with
  | nil => cases hr
  | cons a new ih =>
    obtain ⟨ha, hnew⟩ := List.nodup_cons.mp hnew
    show r ∈ upsertAll key (upsert key rows a) new
    rcases List.mem_cons.mp hr with rfl | hr
    · refine mem_upsertAll_of_ne (mem_upsert_self rows r) fun y hy hk => ha ?_
      exact hk ▸ List.mem_map_of_mem hy
    · exact ih hnew hr

/-- **After an upsert of rows with different keys, a key holds the row that was upserted.** -/
theorem eq_of_mem_upsertAll {new rows : List R} (hnew : (new.map key).Nodup) {r x : R}
    (hr : r ∈ new) (hx : x ∈ upsertAll key rows new) (hk : key x = key r) : x = r := by
  induction new generalizing rows with
  | nil => cases hr
  | cons a new ih =>
    obtain ⟨ha, hnew⟩ := List.nodup_cons.mp hnew
    rcases List.mem_cons.mp hr with rfl | hr
    · have hother : ∀ y ∈ new, key y ≠ key x := fun y hy h =>
        ha (h.trans hk ▸ List.mem_map_of_mem hy)
      rcases mem_upsert (mem_of_mem_upsertAll hx hother) with heq | ⟨-, hne⟩
      · exact heq
      · exact absurd hk hne
    · exact ih hnew hr hx

end KeyedRows
