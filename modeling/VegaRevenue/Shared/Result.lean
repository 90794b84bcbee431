import Mathlib.Data.Rat.Defs

/-!
# Results, dates and contexts
-/

namespace VegaRevenue

/-- Milliseconds since the epoch. -/
abbrev Date := Int

/-- How an operation of an aggregate ends: `ok`, `fail` with the message of the error it
returns, or a throw with the message of the error. -/
inductive OpResult where
  | ok
  | fail (message : String)
  | threw (message : String)
deriving DecidableEq

/-- `result.success`. -/
def OpResult.success : OpResult → Bool
  | ok => true
  | _ => false

/-- `!s` on an optional string: absent or empty. -/
def blank (s : Option String) : Bool := s.all (· = "")

/-- What becomes of a request to another system. -/
inductive Delivery where
  | answered
  /-- It takes effect, and the caller sees an error. -/
  | unanswered (message : String)
  /-- It takes no effect, and the caller sees an error. -/
  | lost (message : String)
deriving DecidableEq

/-- The caller's tenant and workspace. -/
structure Context where
  tenantId : String
  workspaceId : String
deriving DecidableEq

theorem eq_ok_of_toOption {ε α : Type} {x : Except ε α} {a : α} (h : x.toOption = some a) :
    x = .ok a := by
  cases x with
  | error e => cases h
  | ok b => rw [Option.some.inj h]

theorem of_bind_eq_ok {ε α β : Type} {x : Except ε α} {f : α → Except ε β} {b : β}
    (h : (x >>= f) = .ok b) : ∃ a, x = .ok a ∧ f a = .ok b := by
  cases x with
  | error e => cases h
  | ok a => exact ⟨a, rfl, h⟩

theorem of_map_eq_ok {ε α β : Type} {x : Except ε α} {f : α → β} {b : β}
    (h : x.map f = .ok b) : ∃ a, x = .ok a ∧ f a = b := by
  cases x with
  | error e => cases h
  | ok a => exact ⟨a, rfl, Except.ok.inj h⟩

end VegaRevenue
