import Mathlib.Data.List.Nodup
import VegaRevenue.Lib.ClaimRegister
import VegaRevenue.Lib.Interleave

/-!
# Keys that are claimed for good

Every call holds the keys it has claimed, in the order of its claims. A step adds a key that it
wins, or drops keys; what is dropped stays occupied, since nobody puts a free record back.

* `Apart.step` — a step that is a `Move` keeps the holdings of the calls apart
* `apart_run` — no key is ever held by two calls, or twice by one
-/

namespace Holdings

open ClaimRegister (State wins)

variable {K R World Pc ι : Type*} {free : R → Bool} {register : World → State K R}
  {held : Nat → Pc → List K}

/-- No key is held twice, and a held key is occupied. -/
structure Apart (free : R → Bool) (register : World → State K R) (held : Nat → Pc → List K)
    (c : Interleave.Config World Pc) : Prop where
  nodup : ∀ i, (held i (c.pc i)).Nodup
  occupied : ∀ i k, k ∈ held i (c.pc i) → wins free (register c.world) k = false
  apart : ∀ i j k, k ∈ held i (c.pc i) → k ∈ held j (c.pc j) → i = j

/-- Before any call holds a key, the holdings are apart. -/
theorem Apart.initial {c : Interleave.Config World Pc} (h : ∀ i, held i (c.pc i) = []) :
    Apart free register held c where
  nodup i := by rw [h i]; exact List.nodup_nil
  occupied i k hk := by rw [h i] at hk; cases hk
  apart i j k hk _ := by rw [h i] at hk; cases hk

variable [DecidableEq K]

/-- What a step does to the register and to the keys of the call that moves. -/
inductive Move (free : R → Bool) (s s' : State K R) (o o' : List K) : Prop where
  | keeps (register : s' = s) (held : o'.Sublist o)
  | takes (key : K) (record : R) (won : wins free s key = true) (occupied : free record = false)
      (register : s' = Function.update s key (some record)) (held : o'.Sublist (o ++ [key]))

/-- A key that is occupied stays so. -/
theorem Move.occupied {s s' : State K R} {o o' : List K} (h : Move free s s' o o') {k : K}
    (hk : wins free s k = false) : wins free s' k = false := by
  cases h with
  | keeps hs _ =>
    rw [hs]
    exact hk
  | takes key record hwon _ hs _ =>
    have hne : k ≠ key := by
      rintro rfl
      rw [hk] at hwon
      cases hwon
    rw [hs]
    simpa [wins, hne] using hk

/-- A key held after a step was held before it, or is the one the step won. -/
theorem Move.mem_held {s s' : State K R} {o o' : List K} (h : Move free s s' o o') {k : K}
    (hk : k ∈ o') : k ∈ o ∨ wins free s k = true ∧ wins free s' k = false := by
  cases h with
  | keeps _ ho => exact .inl (ho.subset hk)
  | takes key record hwon hocc hs ho =>
    rcases List.mem_append.mp (ho.subset hk) with hk | hk
    · exact .inl hk
    · obtain rfl := List.mem_singleton.mp hk
      refine .inr ⟨hwon, ?_⟩
      rw [hs]
      simpa [wins] using hocc

namespace Apart

variable {f : Interleave.Stepper World Pc ι} {c : Interleave.Config World Pc}
  {a : Interleave.Tick ι}

/-- **A step that is a move keeps the holdings apart.** -/
theorem step (h : Apart free register held c)
    (hmove : Move free (register c.world) (register (c.step f a).world)
      (held a.call (c.pc a.call)) (held a.call ((c.step f a).pc a.call))) :
    Apart free register held (c.step f a) := by
  -- a key of a call was its own before, or it was free and the call has just won it
  have hbefore : ∀ {i k}, k ∈ held i ((c.step f a).pc i) →
      k ∈ held i (c.pc i) ∨ i = a.call ∧ wins free (register c.world) k = true ∧
        wins free (register (c.step f a).world) k = false := by
    intro i k hk
    by_cases hi : i = a.call
    · subst hi
      exact (hmove.mem_held hk).imp id fun hwon => ⟨rfl, hwon⟩
    · rw [Interleave.Config.step_pc_ne f c hi] at hk
      exact .inl hk
  have hfree : ∀ {i k}, k ∈ held i (c.pc i) → wins free (register c.world) k ≠ true := by
    intro i k hk
    rw [h.occupied i k hk]
    exact nofun
  constructor
  · intro i
    by_cases hi : i = a.call
    · subst hi
      cases hmove with
      | keeps _ ho => exact ho.nodup (h.nodup a.call)
      | takes key record hwon _ _ ho =>
        refine ho.nodup (List.nodup_append.mpr ⟨h.nodup a.call, List.nodup_singleton key, ?_⟩)
        intro k hk k' hk' heq
        obtain rfl := List.mem_singleton.mp hk'
        exact hfree hk (heq ▸ hwon)
    · rw [Interleave.Config.step_pc_ne f c hi]
      exact h.nodup i
  · intro i k hk
    rcases hbefore hk with hb | ⟨-, -, hocc⟩
    · exact hmove.occupied (h.occupied i k hb)
    · exact hocc
  · intro i j k hi hj
    rcases hbefore hi with hi | ⟨hia, hwon, -⟩ <;> rcases hbefore hj with hj | ⟨hja, hwon', -⟩
    · exact h.apart i j k hi hj
    · exact absurd hwon' (hfree hi)
    · exact absurd hwon (hfree hj)
    · rw [hia, hja]

end Apart

/-- **In a run of moves from empty hands, no key is ever held twice.** -/
theorem apart_run {f : Interleave.Stepper World Pc ι}
    (hmove : ∀ i e w p, Move free (register w) (register (f i e w p).1) (held i p)
      (held i (f i e w p).2))
    (s : List (Interleave.Tick ι)) {c : Interleave.Config World Pc}
    (h : ∀ i, held i (c.pc i) = []) :
    Apart free register held (Interleave.run f c s) := by
  refine Interleave.run_invariant (fun c a hc => hc.step ?_) (Apart.initial h)
  rw [Interleave.Config.step_pc_self]
  exact hmove a.call a.input c.world (c.pc a.call)

end Holdings
