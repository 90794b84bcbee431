import Mathlib.Algebra.Ring.Rat
import Mathlib.Data.Rat.Defs
import VegaRevenue.Lib.Tally

/-!
# The budget ledger of executions

`InMemoryExecutionBudgetLedger`: the charges of the provider attempts of an execution, each under
the key of its attempt.

* `accumulated_set`, `accumulated_release` — what a write and a release do to the charges
-/

namespace VegaRevenue.LlmGateway

/-! ## Charges -/

structure Charge where
  costUsd : Rat
  tokens : Rat
deriving DecidableEq

namespace Charge

theorem ext {a b : Charge} (hcost : a.costUsd = b.costUsd) (htokens : a.tokens = b.tokens) :
    a = b := by
  cases a
  cases b
  simp_all

instance : Zero Charge := ⟨⟨0, 0⟩⟩

instance : Add Charge := ⟨fun a b => ⟨a.costUsd + b.costUsd, a.tokens + b.tokens⟩⟩

instance : Neg Charge := ⟨fun a => ⟨-a.costUsd, -a.tokens⟩⟩

instance : AddCommGroup Charge where
  add_assoc a b c := ext (add_assoc _ _ _) (add_assoc _ _ _)
  zero_add a := ext (zero_add _) (zero_add _)
  add_zero a := ext (add_zero _) (add_zero _)
  nsmul := nsmulRec
  zsmul := zsmulRec
  neg_add_cancel a := ext (neg_add_cancel _) (neg_add_cancel _)
  add_comm a b := ext (add_comm _ _) (add_comm _ _)

end Charge

structure ExecutionBudgetLimit where
  maxCostUsd : Rat
  maxTokens : Rat
deriving DecidableEq

/-- A charge that the limit does not allow. -/
def ExecutionBudgetLimit.exceededBy (budget : ExecutionBudgetLimit) (charge : Charge) : Bool :=
  budget.maxCostUsd < charge.costUsd || budget.maxTokens < charge.tokens

/-! ## The ledger -/

/-- The charges by execution; an execution without a bucket has none. -/
abbrev Ledger := String → Tally.Charges String Charge

namespace Ledger

variable (ledger : Ledger) (executionId attemptKey : String)

def empty : Ledger := fun _ => ∅

def getAccumulated : Charge := Tally.total (ledger executionId)

/-- `this.bucket(executionId).set(attemptKey, charge)`. -/
def set (charge : Charge) : Ledger :=
  Function.update ledger executionId (Tally.put (ledger executionId) attemptKey charge)

/-- None where the attempt is not permitted. -/
def tryReserve (estimate : Charge) (budget : ExecutionBudgetLimit) : Option Ledger :=
  if budget.exceededBy (ledger.getAccumulated executionId + estimate) then none
  else some (ledger.set executionId attemptKey estimate)

def commitActual (actual : Charge) : Ledger := ledger.set executionId attemptKey actual

def release : Ledger :=
  Function.update ledger executionId (Tally.remove (ledger executionId) attemptKey)

def retain (_executionId _attemptKey : String) : Ledger := ledger

/-- What the attempt holds. -/
def held : Charge := Tally.held (ledger executionId) attemptKey

variable {ledger executionId attemptKey}

theorem accumulated_set (charge : Charge) :
    (ledger.set executionId attemptKey charge).getAccumulated executionId =
      ledger.getAccumulated executionId - ledger.held executionId attemptKey + charge := by
  unfold getAccumulated set held
  rw [Function.update_self, Tally.total_put]

theorem accumulated_release :
    (ledger.release executionId attemptKey).getAccumulated executionId =
      ledger.getAccumulated executionId - ledger.held executionId attemptKey := by
  unfold getAccumulated release held
  rw [Function.update_self, Tally.total_remove]

theorem held_set (charge : Charge) :
    (ledger.set executionId attemptKey charge).held executionId attemptKey = charge := by
  unfold held set
  rw [Function.update_self, Tally.held_put]

/-- The charges of the other executions stay. -/
theorem accumulated_set_of_ne {executionId' : String} (h : executionId' ≠ executionId)
    (charge : Charge) :
    (ledger.set executionId attemptKey charge).getAccumulated executionId' =
      ledger.getAccumulated executionId' := by
  unfold getAccumulated set
  rw [Function.update_of_ne h]

theorem accumulated_release_of_ne {executionId' : String} (h : executionId' ≠ executionId) :
    (ledger.release executionId attemptKey).getAccumulated executionId' =
      ledger.getAccumulated executionId' := by
  unfold getAccumulated release
  rw [Function.update_of_ne h]

theorem tryReserve_eq_some {estimate : Charge} {budget : ExecutionBudgetLimit} {ledger' : Ledger}
    (h : ledger.tryReserve executionId attemptKey estimate budget = some ledger') :
    budget.exceededBy (ledger.getAccumulated executionId + estimate) = false ∧
      ledger' = ledger.set executionId attemptKey estimate := by
  unfold tryReserve at h
  split at h
  · cases h
  next hfits =>
    cases h
    exact ⟨Bool.eq_false_iff.mpr hfits, rfl⟩

end Ledger

end VegaRevenue.LlmGateway
