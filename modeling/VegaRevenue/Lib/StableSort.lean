import Mathlib.Data.List.Sort

/-!
# When a stable sort is a function of the set

A stable sort keeps the order of elements that its relation does not tell apart. What it returns is
then the same for every order of its input iff there are no two such elements.

* `orderIndependent_iff` — the criterion
-/

namespace VegaRevenue.StableSort

variable {α : Type} {r : α → α → Prop}

/-- The relation tells any two elements of the list apart. -/
def TellsApart (r : α → α → Prop) (l : List α) : Prop := ∀ a ∈ l, ∀ b ∈ l, r a b → r b a → a = b

/-- Two elements stand in one order only in a list without duplicates. -/
theorem not_pair_sublist {l : List α} (hl : l.Nodup) {a b : α} (hab : [a, b].Sublist l) :
    ¬ [b, a].Sublist l := by
  intro hba
  obtain ⟨l₁, l₂, rfl, ha₁, hb₂⟩ := List.cons_sublist_iff.mp hab
  obtain ⟨k₁, k₂, hk, hb₁, ha₂⟩ := List.cons_sublist_iff.mp hba
  have hdisjoint := List.disjoint_of_nodup_append hl
  have hb₂ : b ∈ l₂ := List.singleton_sublist.mp hb₂
  have ha₂ : a ∈ k₂ := List.singleton_sublist.mp ha₂
  rcases List.append_eq_append_iff.mp hk with ⟨m, hk₁, hl₂⟩ | ⟨m, hl₁, hk₂⟩
  · -- the second cut lies behind the first: `a` would stand on both sides of the first
    refine hdisjoint ha₁ ?_
    rw [hl₂]
    exact List.mem_append_right m ha₂
  · refine hdisjoint ?_ hb₂
    rw [hl₁]
    exact List.mem_append_left m hb₁

variable [DecidableRel r]

theorem mem_sort {l : List α} {a : α} : a ∈ l.insertionSort r ↔ a ∈ l :=
  (l.perm_insertionSort r).mem_iff

variable [Std.Total r] [IsTrans α r]

/-- A relation that tells the elements apart sorts every order of them the same way. -/
theorem sort_eq_of_perm {l l' : List α} (h : TellsApart r l) (hperm : l'.Perm l) :
    l'.insertionSort r = l.insertionSort r := by
  have hsorted := (l'.perm_insertionSort r).trans (hperm.trans (l.perm_insertionSort r).symm)
  refine hsorted.eq_of_pairwise ?_ (l'.pairwise_insertionSort r) (l.pairwise_insertionSort r)
  intro a b ha hb
  exact h a (hperm.subset (mem_sort.mp ha)) b (mem_sort.mp hb)

theorem exists_perm_cons_cons {l : List α} {a b : α} (ha : a ∈ l) (hb : b ∈ l) (hab : a ≠ b) :
    ∃ rest, l.Perm (a :: b :: rest) := by
  classical
  have hmem : b ∈ l.erase a := (List.mem_erase_of_ne hab.symm).mpr hb
  exact ⟨(l.erase a).erase b,
    (List.perm_cons_erase ha).trans ((List.perm_cons_erase hmem).cons a)⟩

/-- **A stable sort is a function of the set iff its relation tells the elements apart.** -/
theorem orderIndependent_iff {l : List α} (hl : l.Nodup) :
    (∀ l' : List α, l'.Perm l → l'.insertionSort r = l.insertionSort r) ↔ TellsApart r l := by
  constructor
  · intro h a ha b hb hrab hrba
    by_contra hab
    obtain ⟨rest, hrest⟩ := exists_perm_cons_cons ha hb hab
    have hswap : (b :: a :: rest).Perm l := (List.Perm.swap a b rest).trans hrest.symm
    -- each order of the two survives the sort
    have hfirst := List.pair_sublist_insertionSort hrab
      (((List.nil_sublist rest).cons_cons b).cons_cons a)
    have hsecond := List.pair_sublist_insertionSort hrba
      (((List.nil_sublist rest).cons_cons a).cons_cons b)
    rw [h _ hrest.symm] at hfirst
    rw [h _ hswap] at hsecond
    exact not_pair_sublist ((l.perm_insertionSort r).nodup_iff.mpr hl) hfirst hsecond
  · exact fun h l' hperm => sort_eq_of_perm h hperm

end VegaRevenue.StableSort
