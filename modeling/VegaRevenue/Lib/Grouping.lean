import Mathlib.Data.List.Induction
import Mathlib.Data.List.Nodup

/-!
# Grouping by a key

A `Map` from keys to arrays, filled by one pass over a list, and the choice of one element from
each group.

* `mem_groups_iff` — the groups are the parts of the list with one key
* `mem_choose_iff`, `nodup_choose` — what is chosen from the groups, each once
* `find?_eq_some_iff_first`, `find?_eq_some_iff_of_unique` — the first element with a property, and
  the only one
-/

namespace Grouping

variable {A K : Type*} [DecidableEq K] (key : A → K)

/-- The element goes to the end of its group; a new group is the last. -/
def insert (groups : List (K × List A)) (a : A) : List (K × List A) :=
  if groups.any (·.1 = key a) then
    groups.map fun g => if g.1 = key a then (g.1, g.2 ++ [a]) else g
  else groups ++ [(key a, [a])]

def groups (as : List A) : List (K × List A) := as.foldl (insert key) []

variable {key}

theorem groups_concat (as : List A) (a : A) :
    groups key (as ++ [a]) = insert key (groups key as) a := by
  unfold groups
  rw [List.foldl_append, List.foldl_cons, List.foldl_nil]

theorem insert_keys {gs : List (K × List A)} (h : (gs.map Prod.fst).Nodup) (a : A) :
    ((insert key gs a).map Prod.fst).Nodup := by
  unfold insert
  split
  · have hsame : (Prod.fst ∘ fun g : K × List A => if g.1 = key a then (g.1, g.2 ++ [a]) else g) =
        Prod.fst := by
      funext g
      show (if g.1 = key a then (g.1, g.2 ++ [a]) else g).1 = g.1
      split <;> rfl
    rw [List.map_map, hsame]
    exact h
  next hnone =>
    rw [List.map_append, List.map_singleton]
    refine List.nodup_append'.mpr ⟨h, List.nodup_singleton _, ?_⟩
    simpa using hnone

/-- No key has two groups. -/
theorem nodup_keys (as : List A) : ((groups key as).map Prod.fst).Nodup := by
  induction as using List.reverseRecOn with
  | nil => exact List.nodup_nil
  | append_singleton as a ih =>
    rw [groups_concat]
    exact insert_keys ih a

/-- Where an element goes. -/
theorem mem_insert_iff (gs : List (K × List A)) (a : A) (k : K) (g : List A) :
    (k, g) ∈ insert key gs a ↔
      if k = key a then
        (∃ g', (k, g') ∈ gs ∧ g = g' ++ [a]) ∨ (∀ g', (k, g') ∉ gs) ∧ g = [a]
      else (k, g) ∈ gs := by
  unfold insert
  split
  next hsome =>
    obtain ⟨⟨k₀, g₀⟩, hmem₀, hk₀⟩ := List.any_eq_true.mp hsome
    obtain rfl : k₀ = key a := of_decide_eq_true hk₀
    rw [List.mem_map]
    split
    next hk =>
      subst hk
      constructor
      · rintro ⟨⟨k', g'⟩, hmem, heq⟩
        split at heq
        · obtain ⟨rfl, rfl⟩ := Prod.mk.inj heq
          exact .inl ⟨g', hmem, rfl⟩
        next hne =>
          obtain ⟨rfl, rfl⟩ := Prod.mk.inj heq
          exact absurd rfl hne
      · rintro (⟨g', hmem, rfl⟩ | ⟨hnone, -⟩)
        · exact ⟨(key a, g'), hmem, if_pos rfl⟩
        · exact absurd hmem₀ (hnone g₀)
    next hk =>
      constructor
      · rintro ⟨⟨k', g'⟩, hmem, heq⟩
        split at heq
        next hk' =>
          obtain ⟨rfl, rfl⟩ := Prod.mk.inj heq
          exact absurd hk' hk
        · rwa [← heq]
      · exact fun hmem => ⟨(k, g), hmem, if_neg hk⟩
  next hnone =>
    have hfree : ∀ g', (key a, g') ∉ gs := by
      intro g' hmem
      exact hnone (List.any_eq_true.mpr ⟨_, hmem, decide_eq_true rfl⟩)
    rw [List.mem_append, List.mem_singleton, Prod.mk.injEq]
    split
    next hk =>
      subst hk
      constructor
      · rintro (hmem | ⟨-, hg⟩)
        · exact absurd hmem (hfree g)
        · exact .inr ⟨hfree, hg⟩
      · rintro (⟨g', hmem, -⟩ | ⟨-, hg⟩)
        · exact absurd hmem (hfree g')
        · exact .inr ⟨rfl, hg⟩
    next hk =>
      exact ⟨fun h => h.resolve_right fun heq => hk heq.1, .inl⟩

/-- **The groups are the parts of the list with one key**, those that are not empty. -/
theorem mem_groups_iff {as : List A} {k : K} {g : List A} :
    (k, g) ∈ groups key as ↔ g = as.filter (key · = k) ∧ g ≠ [] := by
  induction as using List.reverseRecOn generalizing k g with
  | nil => simp [groups]
  | append_singleton as a ih =>
    rw [groups_concat, mem_insert_iff, List.filter_append]
    by_cases hk : key a = k
    · have hone : [a].filter (key · = k) = [a] := by simp [hk]
      rw [if_pos hk.symm, hone]
      constructor
      · rintro (⟨g', hmem, rfl⟩ | ⟨hnone, rfl⟩)
        · rw [(ih.mp hmem).1]
          exact ⟨rfl, by simp⟩
        · have hempty : as.filter (key · = k) = [] := by
            by_contra hne
            exact hnone _ (ih.mpr ⟨rfl, hne⟩)
          rw [hempty]
          exact ⟨rfl, by simp⟩
      · rintro ⟨rfl, -⟩
        by_cases hempty : as.filter (key · = k) = []
        · refine .inr ⟨fun g' hmem => ?_, by rw [hempty]; rfl⟩
          obtain ⟨hg, hne⟩ := ih.mp hmem
          exact hne (hg.trans hempty)
        · exact .inl ⟨_, ih.mpr ⟨rfl, hempty⟩, rfl⟩
    · have hnone : [a].filter (key · = k) = [] := by simp [hk]
      rw [if_neg (Ne.symm hk), hnone, List.append_nil, ih]

/-! ## A choice from each group -/

section

variable {select : List A → Option A} {as : List A}

/-- What is chosen from the groups of a list. -/
def choose (key : A → K) (select : List A → Option A) (as : List A) : List A :=
  (groups key as).filterMap fun g => select g.2

/-- A group chooses one of its own. -/
def Selects (select : List A → Option A) : Prop := ∀ g a, select g = some a → a ∈ g

/-- **What is chosen is what its own group chooses.** -/
theorem mem_choose_iff (hselects : Selects select) {a : A} :
    a ∈ choose key select as ↔ select (as.filter (key · = key a)) = some a := by
  unfold choose
  rw [List.mem_filterMap]
  constructor
  · rintro ⟨⟨k, g⟩, hmem, hselect⟩
    obtain ⟨hg, -⟩ := mem_groups_iff.mp hmem
    have ha := hselects g a hselect
    rw [hg] at ha
    have hk : key a = k := of_decide_eq_true (List.mem_filter.mp ha).2
    rw [hk, ← hg]
    exact hselect
  · intro hselect
    refine ⟨(key a, _), mem_groups_iff.mpr ⟨rfl, fun hempty => ?_⟩, hselect⟩
    have ha := hselects _ a hselect
    rw [hempty] at ha
    exact List.not_mem_nil ha

/-- **Nothing is chosen twice.** -/
theorem nodup_choose (hselects : Selects select) : (choose key select as).Nodup := by
  unfold choose
  have hnodup : ((groups key as).map Prod.fst).Nodup := nodup_keys as
  have hkeys : (groups key as).Pairwise fun g g' => g.1 ≠ g'.1 := List.pairwise_map.mp hnodup
  refine List.pairwise_filterMap.mpr (hkeys.imp_of_mem ?_)
  rintro ⟨k, g⟩ ⟨k', g'⟩ hmem hmem' hne a ha a' ha' rfl
  have hkey : ∀ {k : K} {g : List A}, (k, g) ∈ groups key as → select g = some a → key a = k := by
    intro k g hmem hselect
    have hin := hselects g a hselect
    rw [(mem_groups_iff.mp hmem).1] at hin
    exact of_decide_eq_true (List.mem_filter.mp hin).2
  exact hne ((hkey hmem ha).symm.trans (hkey hmem' ha'))

end

/-! ## The first element with a property -/

/-- The first element with a property is one before which no other has it. -/
theorem find?_eq_some_iff_first {p : A → Bool} {as : List A} (h : as.Nodup) {a : A} :
    as.find? p = some a ↔ a ∈ as ∧ p a = true ∧ ∀ b, p b = true → ¬ [b, a].Sublist as := by
  induction as with
  | nil => simp
  | cons c as ih =>
    obtain ⟨hc, has⟩ := List.nodup_cons.mp h
    by_cases hp : p c = true
    · rw [List.find?_cons_of_pos hp]
      constructor
      · intro hca
        obtain rfl := Option.some.inj hca
        refine ⟨List.mem_cons_self, hp, fun b hb hsub => hc ?_⟩
        cases hsub with
        | cons _ hsub => exact hsub.subset (by simp)
        | cons_cons _ hsub => exact List.singleton_sublist.mp hsub
      · rintro ⟨hmem, hpa, hfirst⟩
        rcases List.mem_cons.mp hmem with rfl | hmem
        · rfl
        · exact absurd ((List.singleton_sublist.mpr hmem).cons_cons c) (hfirst c hp)
    · rw [List.find?_cons_of_neg hp, ih has]
      constructor
      · rintro ⟨hmem, hpa, hfirst⟩
        refine ⟨List.mem_cons_of_mem c hmem, hpa, fun b hb hsub => ?_⟩
        cases hsub with
        | cons _ hsub => exact hfirst b hb hsub
        | cons_cons _ hsub => exact hp hb
      · rintro ⟨hmem, hpa, hfirst⟩
        rcases List.mem_cons.mp hmem with rfl | hmem
        · exact absurd hpa hp
        · exact ⟨hmem, hpa, fun b hb hsub => hfirst b hb (hsub.cons c)⟩

/-- The only element with a property is found. -/
theorem find?_eq_some_iff_of_unique {p : A → Bool} {as : List A}
    (h : ∀ a ∈ as, ∀ b ∈ as, p a = true → p b = true → a = b) {a : A} :
    as.find? p = some a ↔ a ∈ as ∧ p a = true := by
  constructor
  · exact fun hfind => ⟨List.mem_of_find?_eq_some hfind, List.find?_some hfind⟩
  · rintro ⟨hmem, hpa⟩
    cases hfind : as.find? p with
    | none => exact absurd hpa (List.find?_eq_none.mp hfind a hmem)
    | some b => rw [h b (List.mem_of_find?_eq_some hfind) a hmem (List.find?_some hfind) hpa]

/-- A pair of a part of the list is a pair of the list whose members are in the part. -/
theorem pair_sublist_filter {q : A → Bool} {as : List A} {a b : A} :
    [a, b].Sublist (as.filter q) ↔ [a, b].Sublist as ∧ q a = true ∧ q b = true := by
  constructor
  · intro h
    have hmem : ∀ c ∈ [a, b], q c = true := fun c hc => (List.mem_filter.mp (h.subset hc)).2
    exact ⟨h.trans List.filter_sublist, hmem a (by simp), hmem b (by simp)⟩
  · rintro ⟨h, ha, hb⟩
    have hfilter := h.filter q
    rwa [List.filter_cons_of_pos ha, List.filter_cons_of_pos hb, List.filter_nil] at hfilter

end Grouping
