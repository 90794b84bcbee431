import Mathlib.Algebra.BigOperators.Group.List.Basic
import Mathlib.Data.List.AList

/-!
# Charges under keys

A tally holds at most one charge under each key. Writing a key that holds one replaces it, so the
total moves by the new charge less the one that was held.

* `total_put`, `total_remove` — what a write and a removal do to the total
-/

namespace Tally

variable {K M : Type*}

/-- Charges by key. -/
abbrev Charges (K M : Type*) := AList fun _ : K => M

def total [AddCommMonoid M] (t : Charges K M) : M := (t.entries.map Sigma.snd).sum

variable [DecidableEq K]

def put (t : Charges K M) (key : K) (charge : M) : Charges K M := t.insert key charge

def remove (t : Charges K M) (key : K) : Charges K M := t.erase key

/-- What the key holds, nothing where it is not there. -/
def held [Zero M] (t : Charges K M) (key : K) : M := (t.lookup key).getD 0

@[simp] theorem held_put [Zero M] (t : Charges K M) (key : K) (charge : M) :
    held (put t key charge) key = charge := by
  simp [held, put]

/-! ## The total -/

variable [AddCommGroup M]

/-- The charge of a key is one of the summands. -/
theorem sum_kerase (key : K) (entries : List (Sigma fun _ : K => M)) :
    ((entries.kerase key).map Sigma.snd).sum =
      (entries.map Sigma.snd).sum - (entries.dlookup key).getD 0 := by
  induction entries with
  | nil => simp
  | cons e entries ih =>
    obtain ⟨k, m⟩ := e
    by_cases h : key = k
    · subst h
      simp
    · rw [List.kerase_cons_ne h, List.dlookup_cons_ne _ _ h, List.map_cons, List.sum_cons,
        List.map_cons, List.sum_cons, ih, add_sub_assoc]

/-- **A removal takes what was held.** -/
theorem total_remove (t : Charges K M) (key : K) :
    total (remove t key) = total t - held t key := sum_kerase key t.entries

/-- **A write adds its charge and takes what was held.** -/
theorem total_put (t : Charges K M) (key : K) (charge : M) :
    total (put t key charge) = total t - held t key + charge := by
  rw [← total_remove]
  unfold total put remove
  rw [AList.entries_insert, List.map_cons, List.sum_cons, add_comm]
  rfl

end Tally
