import Mathlib.Algebra.Order.Floor.Ring
import Mathlib.Data.Rat.Floor
import Mathlib.Tactic.Linarith

/-!
# Numbers rounded to hundredths

`Math.round` rounds to the next integer, a half upward.

* `toHundredths_nonneg_iff` — what rounds to a number that is not negative
-/

namespace VegaRevenue

/-- `Math.round(x)`. -/
def mathRound (x : Rat) : Int := ⌊x + 1 / 2⌋

/-- `Math.round(x * 100) / 100`. -/
def toHundredths (x : Rat) : Rat := mathRound (x * 100) / 100

theorem mathRound_mono {x y : Rat} (h : x ≤ y) : mathRound x ≤ mathRound y :=
  Int.floor_mono (by linarith)

theorem mathRound_intCast (n : Int) : mathRound n = n := by
  rw [mathRound, Int.floor_eq_iff]
  constructor
  · linarith
  · linarith

theorem toHundredths_mono {x y : Rat} (h : x ≤ y) : toHundredths x ≤ toHundredths y := by
  have hround : mathRound (x * 100) ≤ mathRound (y * 100) := mathRound_mono (by linarith)
  have hcast : (mathRound (x * 100) : Rat) ≤ mathRound (y * 100) := Int.cast_le.mpr hround
  unfold toHundredths
  linarith

theorem toHundredths_zero : toHundredths 0 = 0 := by
  have h : mathRound (0 * 100) = 0 := by
    rw [zero_mul]
    exact_mod_cast mathRound_intCast 0
  rw [toHundredths, h]
  norm_num

theorem toHundredths_one : toHundredths 1 = 1 := by
  have h : mathRound (1 * 100) = 100 := by
    rw [one_mul]
    exact_mod_cast mathRound_intCast 100
  rw [toHundredths, h]
  norm_num

/-- A number between zero and one stays there. -/
theorem toHundredths_unit {x : Rat} (h : 0 ≤ x ∧ x ≤ 1) :
    0 ≤ toHundredths x ∧ toHundredths x ≤ 1 :=
  ⟨toHundredths_zero ▸ toHundredths_mono h.1, toHundredths_one ▸ toHundredths_mono h.2⟩

/-- Half a hundredth below zero rounds to zero, and no less does. -/
theorem toHundredths_nonneg_iff {x : Rat} : 0 ≤ toHundredths x ↔ -1 / 200 ≤ x := by
  have hround : 0 ≤ mathRound (x * 100) ↔ -1 / 200 ≤ x := by
    rw [mathRound, Int.floor_nonneg]
    constructor
    · intro h
      linarith
    · intro h
      linarith
  rw [← hround, toHundredths]
  constructor
  · intro h
    have hcast : (0 : Rat) ≤ mathRound (x * 100) := by linarith
    exact_mod_cast hcast
  · intro h
    have hcast : (0 : Rat) ≤ mathRound (x * 100) := by exact_mod_cast h
    linarith

end VegaRevenue
