import Mathlib.Data.Rat.Defs

/-!
# Numbers as JavaScript compares them
-/

namespace VegaRevenue

/-- A JavaScript number. -/
inductive JsNumber where
  | nan
  | negInfinity
  | infinity
  | finite (q : Rat)
deriving DecidableEq

namespace JsNumber

/-- `a < b`; every comparison with `NaN` is false. -/
def lt : JsNumber → JsNumber → Bool
  | finite p, finite q => p < q
  | negInfinity, finite _ | negInfinity, infinity | finite _, infinity => true
  | _, _ => false

/-- `a <= b`. -/
def le : JsNumber → JsNumber → Bool
  | nan, _ | _, nan => false
  | a, b => !b.lt a

/-- `Number.isFinite(a)`. -/
def isFinite : JsNumber → Bool
  | finite _ => true
  | _ => false

/-- `Number.isInteger(a)`. -/
def isInteger : JsNumber → Bool
  | finite q => q.den = 1
  | _ => false

@[simp] theorem lt_finite (p q : Rat) : (finite p).lt (finite q) = decide (p < q) := rfl

@[simp] theorem le_finite (p q : Rat) : (finite p).le (finite q) = decide (p ≤ q) := by
  simp only [le, lt_finite, ← Rat.not_lt, decide_not]

end JsNumber

end VegaRevenue
