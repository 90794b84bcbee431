import Mathlib.Data.Int.ModEq
import Mathlib.Data.Nat.Digits.Defs
import Mathlib.Tactic.Linarith
import Mathlib.Tactic.Ring

/-!
# Rolling hashes

A hash that multiplies by a base and adds the next unit is the value of the units as digits, up to
multiples of the word size.

* `foldl_modEq` — what such a hash comes to
* `natAbs_eq_iff` — two signed words have one absolute value iff they are congruent up to sign
-/

namespace RollingHash

/-- The value of the units as digits to the base `b`, the first of them the highest. -/
def value (b : Int) : List Int → Int
  | [] => 0
  | u :: us => u * b ^ us.length + value b us

/-- **A step that multiplies and adds, up to multiples of `m`, makes the value of the units.** -/
theorem foldl_modEq {m b : Int} {step : Int → Int → Int}
    (hstep : ∀ h u, step h u ≡ h * b + u [ZMOD m]) (us : List Int) (h : Int) :
    us.foldl step h ≡ h * b ^ us.length + value b us [ZMOD m] := by
  induction us generalizing h with
  | nil =>
    rw [List.foldl_nil, value, List.length_nil, pow_zero, mul_one, add_zero]
  | cons u us ih =>
    have hfirst : step h u * b ^ us.length + value b us ≡
        (h * b + u) * b ^ us.length + value b us [ZMOD m] :=
      ((hstep h u).mul_right _).add_right _
    have hsum : (h * b + u) * b ^ us.length + value b us =
        h * b ^ (u :: us).length + value b (u :: us) := by
      rw [value, List.length_cons]
      ring
    rw [List.foldl_cons]
    exact hsum ▸ (ih (step h u)).trans hfirst

/-- A word is told by its class. -/
theorem eq_of_modEq {M x y : Int} (hx : -M ≤ x ∧ x < M) (hy : -M ≤ y ∧ y < M)
    (h : x ≡ y [ZMOD 2 * M]) : x = y := by
  have hzero : y - x = 0 := Int.eq_zero_of_abs_lt_dvd h.dvd (abs_lt.mpr ⟨by omega, by omega⟩)
  omega

/-- **Two words have one absolute value iff they are congruent up to sign.** -/
theorem natAbs_eq_iff {M x y : Int} (hx : -M ≤ x ∧ x < M) (hy : -M ≤ y ∧ y < M) :
    x.natAbs = y.natAbs ↔ x ≡ y [ZMOD 2 * M] ∨ x ≡ -y [ZMOD 2 * M] := by
  rw [Int.natAbs_eq_natAbs_iff]
  constructor
  · rintro (rfl | rfl)
    · exact .inl rfl
    · exact .inr rfl
  · rintro (h | h)
    · exact .inl (eq_of_modEq hx hy h)
    · by_cases hleast : y = -M
      · -- the least word is its own opposite
        left
        refine eq_of_modEq hx hy (h.trans (Int.modEq_iff_dvd.mpr ⟨-1, ?_⟩))
        rw [hleast]
        ring
      · exact .inr (eq_of_modEq hx (by omega) h)

/-! ## Numerals -/

/-- What a numeral to the base `b` tells, its digits read by `read`. -/
def ofNumeral {α : Type} (b : Nat) (read : α → Nat) (cs : List α) : Nat :=
  Nat.ofDigits b (cs.reverse.map read)

theorem ofNumeral_digits {α : Type} {b : Nat} {read : α → Nat} {digit : Nat → α} (hb : 1 < b)
    (hdigit : ∀ d < b, read (digit d) = d) (n : Nat) :
    ofNumeral b read ((b.digits n).reverse.map digit) = n := by
  have hread : (b.digits n).map (read ∘ digit) = b.digits n := by
    refine (List.map_congr_left fun d hd => ?_).trans (List.map_id _)
    exact hdigit d (Nat.digits_lt_base hb hd)
  rw [ofNumeral, ← List.map_reverse, List.reverse_reverse, List.map_map, hread, Nat.ofDigits_digits]

end RollingHash
