import Mathlib.Data.List.Induction
import VegaRevenue.Lib.Machine

/-!
# Keyed registers that are claimed

A register keeps one record per key. A `put` overwrites the record of its key; a `take` wins iff
there is no record or the record is `free`, and then stores its own. A stored record may depend
on the one it replaces.

* `step_ne` — an operation changes its own key only
* `step_take_of_occupied` — a take that does not win changes nothing
* `exists_put_of_wins` — an occupied key is won again only on the record of a `put` that no later
  `put` replaced
-/

namespace ClaimRegister

variable {K R : Type*}

abbrev State (K R : Type*) := K → Option R

/-- An operation; `store` gives the new record from the one it replaces. -/
inductive Op (K R : Type*) where
  | put (key : K) (store : Option R → R)
  | take (key : K) (store : Option R → R)
  | skip

/-- A take of this key would win. -/
def wins (free : R → Bool) (s : State K R) (k : K) : Bool := (s k).all free

variable [DecidableEq K]

/-- The answer of a step says whether a take won. -/
def step (free : R → Bool) : Machine.Step (State K R) (Op K R) Bool
  | s, .put k store => (Function.update s k (some (store (s k))), false)
  | s, .take k store =>
    if wins free s k then (Function.update s k (some (store (s k))), true) else (s, false)
  | s, .skip => (s, false)

/-- `op` is a put on `k`. -/
def Op.PutsOn (op : Op K R) (k : K) : Prop := ∃ store, op = .put k store

/-- Takes of `k` store records that are not free. -/
def Op.Occupies (free : R → Bool) (k : K) (op : Op K R) : Prop :=
  ∀ store, op = .take k store → ∀ r, free (store r) = false

/-- The key an operation is about. -/
def Op.key? : Op K R → Option K
  | put k _ => some k
  | take k _ => some k
  | skip => none

/-- An operation changes its own key only. -/
theorem step_ne {free : R → Bool} {s : State K R} {op : Op K R} {k : K} (h : op.key? ≠ some k) :
    (step free s op).1 k = s k := by
  cases op with
  | put k' store =>
    have hk : k ≠ k' := fun e => h (congrArg some e.symm)
    simp [step, hk]
  | take k' store =>
    have hk : k ≠ k' := fun e => h (congrArg some e.symm)
    simp only [step]
    split <;> simp [hk]
  | skip => rfl

/-- A take that does not win changes nothing. -/
theorem step_take_of_occupied {free : R → Bool} {s : State K R} {k : K} {store : Option R → R}
    (h : wins free s k = false) : step free s (.take k store) = (s, false) := by
  simp [step, h]

/-- After a take the key is occupied. -/
theorem wins_step_take {free : R → Bool} {s : State K R} {k : K} {store : Option R → R}
    (h : (Op.take k store).Occupies free k) : wins free (step free s (.take k store)).1 k = false := by
  simp only [step]
  cases hw : wins free s k with
  | true => simpa [wins] using h store rfl (s k)
  | false => simpa [wins] using hw

/-- Where a key can be won after an operation that is no put on it, the operation left it alone. -/
theorem step_eq_of_wins {free : R → Bool} {s : State K R} {k : K} {op : Op K R}
    (hput : ¬ op.PutsOn k) (hocc : op.Occupies free k)
    (h : wins free (step free s op).1 k = true) : (step free s op).1 k = s k := by
  by_cases hk : op.key? = some k
  · cases op with
    | put k' store =>
      obtain rfl : k' = k := Option.some.inj hk
      exact absurd ⟨store, rfl⟩ hput
    | take k' store =>
      obtain rfl : k' = k := Option.some.inj hk
      rw [wins_step_take hocc] at h
      cases h
    | skip => rfl
  · exact step_ne hk

/-- **An occupied key is won again only on the record of a `put` that no later `put` replaced.** -/
theorem exists_put_of_wins {free : R → Bool} {k : K} {s : State K R} (hw : wins free s k = false)
    (ops : List (Op K R)) (hops : ∀ op ∈ ops, op.Occupies free k)
    (h : wins free (Machine.final (step free) s ops) k = true) :
    ∃ before store after, ops = before ++ .put k store :: after ∧
      Machine.final (step free) s ops k = some (store (Machine.final (step free) s before k)) ∧
      ∀ op ∈ after, ¬ op.PutsOn k := by
  induction ops using List.reverseRecOn with
  | nil => rw [Machine.final_nil, hw] at h; cases h
  | append_singleton ops op ih =>
    rw [Machine.final_concat] at h ⊢
    by_cases hput : op.PutsOn k
    · obtain ⟨store, rfl⟩ := hput
      exact ⟨ops, store, [], rfl, by simp [step], by simp⟩
    · have hsame := step_eq_of_wins hput (hops op (by simp)) h
      have hw' : wins free (Machine.final (step free) s ops) k = true := by
        unfold wins at h ⊢
        rw [← hsame]
        exact h
      obtain ⟨before, store, after, rfl, hrec, hafter⟩ :=
        ih (fun o ho => hops o (List.mem_append_left _ ho)) hw'
      refine ⟨before, store, after ++ [op], by simp, hsame.trans hrec, ?_⟩
      intro o ho
      rcases List.mem_append.mp ho with ho | ho
      · exact hafter o ho
      · rw [List.mem_singleton.mp ho]
        exact hput

end ClaimRegister
