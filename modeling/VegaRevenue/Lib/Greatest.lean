import Mathlib.Order.Bounds.Basic
import Mathlib.Order.MinMax

/-!
# Greatest elements

The greatest of the values along a list, and when a part of a set has the greatest element of the
whole.
-/

namespace Greatest

/-- A fold with `max` ends in the greatest of the start and the values met. -/
theorem isGreatest_foldl_max {α β : Type*} [LinearOrder α] (f : β → α) (l : List β) (a : α) :
    IsGreatest {o | o = a ∨ ∃ b ∈ l, o = f b} (l.foldl (fun c b => max c (f b)) a) := by
  induction l generalizing a with
  | nil => simp [IsGreatest, upperBounds]
  | cons b l ih =>
    obtain ⟨hmem, hub⟩ := ih (max a (f b))
    constructor
    · rcases hmem with h | ⟨b', hb', h⟩
      · rcases max_choice a (f b) with hmax | hmax
        · exact .inl (h.trans hmax)
        · exact .inr ⟨b, List.mem_cons_self, h.trans hmax⟩
      · exact .inr ⟨b', List.mem_cons_of_mem b hb', h⟩
    · have hstart := hub (Or.inl rfl)
      rintro o (rfl | ⟨b', hb', rfl⟩)
      · exact le_trans (le_max_left _ _) hstart
      · rcases List.mem_cons.mp hb' with rfl | hb'
        · exact le_trans (le_max_right _ _) hstart
        · exact hub (Or.inr ⟨b', hb', rfl⟩)

/-- **A part has the greatest element of the whole iff it is cofinal in it.** -/
theorem isGreatest_iff_isCofinalFor {α : Type*} [PartialOrder α] {s t : Set α} {m : α}
    (hst : s ⊆ t) (ht : IsGreatest t m) : IsGreatest s m ↔ IsCofinalFor t s := by
  constructor
  · intro hs a ha
    exact ⟨m, hs.1, ht.2 ha⟩
  · intro hcofinal
    obtain ⟨b, hb, hmb⟩ := hcofinal ht.1
    have hbm : b = m := le_antisymm (ht.2 (hst hb)) hmb
    exact ⟨hbm ▸ hb, fun a ha => ht.2 (hst ha)⟩

end Greatest
