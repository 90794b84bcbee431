import Mathlib.Data.Rat.Floor
import VegaRevenue.Shared.Json

/-!
# The idempotency store interface

The calls of `IIdempotencyStore`, the records they answer with, and the dates they compute.
-/

namespace VegaRevenue.Idempotency

inductive Status where
  | pending
  | completed
  | failed
deriving DecidableEq

/-- The tenant of the caller's context, the scope and the key. -/
structure Triple where
  tenantId : String
  scope : String
  key : String
deriving DecidableEq

/-- The options of `set`. -/
structure Options where
  ttlSeconds : Option Rat := none
  status : Option Status := none
deriving DecidableEq

inductive Call where
  | get (k : Triple)
  | set (k : Triple) (result : Json) (options : Options)
  | claim (k : Triple) (ttlSeconds : Option Rat)

/-! ## Dates -/

def maxDate : Int := 8640000000000000

def minTimestamptz : Int := -210866803200000

def neverExpireSeconds : Rat := 100 * 365 * 24 * 60 * 60

def neverExpireMs : Int := 100 * 365 * 24 * 60 * 60 * 1000

/-- A reading of `Date.now()`, in milliseconds: after the epoch, and at least `neverExpireSeconds`
before the last date. -/
structure Clock where
  ms : Int
  afterEpoch : 0 ≤ ms
  beforeLast : ms + neverExpireMs ≤ maxDate
deriving DecidableEq

def Clock.epoch : Clock := ⟨0, by decide, by decide⟩

/-- Rounds toward zero. -/
def truncate (t : Rat) : Int := t.num.tdiv t.den

/-- `new Date(t)`; `none` is the invalid date. -/
def newDate (t : Rat) : Option Int :=
  if -(maxDate : Rat) ≤ t ∧ t ≤ maxDate then some (truncate t) else none

/-- `Date.now() + ttlSeconds * 1000`. -/
def expiry (now : Clock) (ttlSeconds : Rat) : Rat := now.ms + ttlSeconds * 1000

/-- The date stored for `expiresAt`; Postgres rejects the invalid date and the dates before its
first one. -/
def timestamptz (t : Rat) : Option Int :=
  (newDate t).filter fun d => minTimestamptz ≤ d

/-- A call, and what the clock reads when it runs. -/
structure Statement where
  call : Call
  now : Clock

def Call.triple : Call → Triple
  | get k => k
  | set k _ _ => k
  | claim k _ => k

/-! ## Answers -/

/-- A record as `get` answers it. `result` is `none` for `undefined`, `expiresAt` for the invalid
date. -/
structure RecordView where
  status : Status
  result : Option Json
  createdAt : Int
  expiresAt : Option Int

inductive Answer where
  | record (found : Option RecordView)
  | stored
  | claimed (won : Bool)
  | threw

/-- What a caller observes of a record: all of it but `createdAt`, and of `expiresAt` whether it
has passed. -/
structure Observed where
  status : Status
  result : Option Json
  expired : Bool

def RecordView.observe (now : Clock) (v : RecordView) : Observed :=
  ⟨v.status, v.result, v.expiresAt.any fun d => d ≤ now.ms⟩

inductive Observation where
  | record (found : Option Observed)
  | stored
  | claimed (won : Bool)
  | threw

/-- The answer says that a claim was won. -/
def Answer.won : Answer → Bool
  | claimed won => won
  | _ => false

def Observation.won : Observation → Bool
  | claimed won => won
  | _ => false

def Answer.observe (now : Clock) : Answer → Observation
  | record found => .record (found.map (RecordView.observe now))
  | stored => .stored
  | claimed won => .claimed won
  | threw => .threw

/-! ## A century from now -/

theorem expiry_never (now : Clock) :
    expiry now neverExpireSeconds = ((now.ms + neverExpireMs : Int) : Rat) := by
  unfold expiry neverExpireSeconds neverExpireMs
  push_cast
  ring

theorem truncate_intCast (z : Int) : truncate (z : Rat) = z := by
  simp [truncate]

/-- The expiry of a claim is always a date that can be stored. -/
theorem timestamptz_never (now : Clock) :
    timestamptz (expiry now neverExpireSeconds) = some (now.ms + neverExpireMs) := by
  have hlo := now.afterEpoch
  have hhi := now.beforeLast
  have hmin : minTimestamptz ≤ now.ms + neverExpireMs := by
    unfold minTimestamptz neverExpireMs; omega
  have hmax : -maxDate ≤ now.ms + neverExpireMs := by
    unfold maxDate neverExpireMs; omega
  rw [expiry_never]
  unfold timestamptz newDate
  rw [if_pos ⟨by exact_mod_cast hmax, by exact_mod_cast hhi⟩, truncate_intCast]
  simp [hmin]

end VegaRevenue.Idempotency
