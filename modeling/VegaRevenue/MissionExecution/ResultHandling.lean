import VegaRevenue.Lib.Machine
import VegaRevenue.MissionExecution.Jobs

/-!
# The handling of a task result, operation by operation

One call of `handleTaskResult` among other writers of its mission: the approval or the
compensation, the saves with the reloads between them, and the publication of one event after the
other. The module `Engine` takes a save and the publication of its events as one operation.

* `step` — one operation of the call ends, or another writer saves
* `engine_handle`, `engine_proceed`, `engine_publish` — where nothing throws, the call does what the
  engine does
-/

namespace VegaRevenue.MissionExecution.ResultHandling

open Versioned
open Mission (Props completeTask failTask markTaskAwaitingApproval pause)

/-! ## The call -/

/-- How an awaited operation ends. -/
inductive Ending where
  | done
  /-- It throws and has done nothing. -/
  | fails
  /-- It takes effect, then it throws. -/
  | failsLate
  /-- It throws a `ConcurrencyConflictError` and has done nothing. -/
  | conflicts
deriving DecidableEq

/-- The operation took effect. -/
def Ending.effective : Ending → Bool
  | done | failsLate => true
  | fails | conflicts => false

structure Answer where
  ending : Ending := .done
  now : Date
  approvalId : String := "approval"
  idempotencyKey : String := "key"
  /-- `defaultTaskTimeoutSeconds`. -/
  timeoutSeconds : Rat := 3600

def Answer.input (a : Answer) : Input where
  now := a.now
  approvalId := a.approvalId
  idempotencyKey := a.idempotencyKey
  timeoutSeconds := a.timeoutSeconds

structure CompensationRecord where
  compensationId : String
  missionId : String
  taskId : Option String
  actionType : String
  payload : Json

/-- The request of `compensateIfNeeded`. -/
def compensation (m : Mission) (task : MissionTask) : CompensationRecord where
  compensationId := "comp:" ++ m.state.id ++ ":" ++ task.id
  missionId := m.state.id
  taskId := some task.id
  actionType := task.taskType
  payload := .obj [("reason", .str "Task failure compensation")]

/-- What the call waits for. -/
inductive Pc where
  | called (mission : Mission)
  | requestApproval (mission : Mission)
  | saveApproval (mission : Mission) (approval : Approval)
  | notify (mission : Mission)
  | compensate (mission : Mission)
  | saving (current : Mission) (attempt : Nat)
  /-- The publication of an event, with those that are still to follow. -/
  | publishing (current : Mission) (event : Mission.Event) (rest : List Mission.Event)
      (attempt : Nat)
  | reloading (attempt : Nat)
  | returned
  | threw

namespace Pc

def isOver : Pc → Bool
  | returned | threw => true
  | _ => false

/-- The events of a stored mission that have yet to be published. -/
def pending : Pc → List Mission.Event
  | publishing _ event rest _ => event :: rest
  | _ => []

/-- `pc` where the awaited operation has not thrown. -/
def after (ending : Ending) (pc : Pc) : Pc := if ending = .done then pc else threw

end Pc

/-- The stores, the call, and what it has done to them. -/
structure State where
  row : Row Props
  approvals : Table String Approval.Props := []
  pc : Pc
  /-- The mission as the call last loaded or stored it. -/
  seen : Props
  requested : List Approval := []
  compensated : List CompensationRecord := []
  /-- The copies the call has stored. -/
  stored : List Mission := []
  published : List Mission.Event := []

/-- A call with a copy of the mission, which need not be the newest. -/
def start (m : Mission) (row : Row Props) (approvals : Table String Approval.Props) : State where
  row := row
  approvals := approvals
  pc := .called m
  seen := m.state

inductive Event where
  /-- The awaited operation ends. -/
  | step (answer : Answer)
  /-- Another writer saves a copy of its own. -/
  | other (m : Mission)

/-! ## One step -/

/-- The call goes on where an operation succeeds and throws where it is refused. -/
def goOn (r : Mission × OpResult) (pc : Mission → Pc) : Pc :=
  match r with
  | (m, .ok) => pc m
  | _ => .threw

/-- `handleTaskResult` up to its first await. -/
def handle (task : MissionTask) (result : AIExecutionResult) (m : Mission) (now : Date) : Pc :=
  match result.status with
  | .completed =>
    goOn (completeTask m task.id result.outcome.toJson now) fun m => .saving m 0
  | .awaitingApproval =>
    goOn (markTaskAwaitingApproval m task.id (approvalGate task.id) now) .requestApproval
  | .failed | .timedOut | .cancelled =>
    goOn (failTask m task.id result.outcome.summary now) .compensate
  | _ => .saving m 0

/-- The loop over the events of a stored mission. -/
def publish (current : Mission) (events : List Mission.Event) (attempt : Nat) : Pc :=
  match events with
  | [] => .returned
  | event :: rest => .publishing current event rest attempt

/-- The `catch` of `saveAndPublish`. -/
def caught (attempt : Nat) (ending : Ending) : Pc :=
  if ending = .conflicts ∧ attempt < 2 then .reloading attempt else .threw

/-- `missionRepository.save` in `saveAndPublish`. -/
def save (current : Mission) (attempt : Nat) (ending : Ending) (s : State) : State :=
  if ending.effective then
    match s.row.swap current with
    | some row =>
      { s with
        row
        seen := current.state
        stored := s.stored ++ [current]
        pc := .after ending (publish current current.domainEvents attempt) }
    | none => { s with pc := caught attempt .conflicts }
  else { s with pc := caught attempt ending }

/-- `eventBus.publish` in `saveAndPublish`. -/
def publishEvent (current : Mission) (event : Mission.Event) (rest : List Mission.Event)
    (attempt : Nat) (ending : Ending) (s : State) : State :=
  if ending.effective then
    { s with
      published := s.published ++ [event]
      pc := .after ending (publish current rest attempt) }
  else { s with pc := caught attempt ending }

/-- The reload of `saveAndPublish`; a callback that is refused ends the call without an error. -/
def reload (task : MissionTask) (result : AIExecutionResult) (attempt : Nat) (a : Answer)
    (s : State) : State :=
  if a.ending = .done then
    { s with
      seen := s.row.payload
      pc :=
        match (Job.result task result).reapply a.input
            (.reconstitute s.row.payload s.row.version) with
        | (m, .ok) => .saving m (attempt + 1)
        | _ => .returned }
  else { s with pc := .threw }

/-- `approvalRepository.save` in `requestApproval`. -/
def saveApproval (m : Mission) (approval : Approval) (ending : Ending) (s : State) : State :=
  if ending.effective then
    match s.approvals.save approval.state.id approval with
    | some approvals =>
      { s with
        approvals
        requested := s.requested ++ [approval]
        pc := .after ending (.notify m) }
    | none => { s with pc := .threw }
  else { s with pc := .threw }

/-- `compensationPort.execute`. -/
def compensate (task : MissionTask) (result : AIExecutionResult) (m : Mission) (a : Answer)
    (s : State) : State :=
  if a.ending.effective then
    { s with
      compensated := s.compensated ++ [compensation m task]
      pc := .after a.ending (goOn (blockExecuting task.id result a.now m) fun m => .saving m 0) }
  else { s with pc := .threw }

/-- The awaited operation of the call ends. -/
def proceedCall (task : MissionTask) (result : AIExecutionResult) (a : Answer) (s : State) :
    State :=
  match s.pc with
  | .called m => { s with pc := handle task result m a.now }
  | .requestApproval m =>
    { s with
      pc := .after a.ending
        (match Approval.create (approvalProps s.row.payload task result a.input) with
          | .ok approval => .saveApproval m approval
          | .error _ => .threw) }
  | .saveApproval m approval => saveApproval m approval a.ending s
  | .notify m =>
    { s with
      pc := .after a.ending
        (goOn (pause m (awaitingApproval task.id) a.now) fun m => .saving m 0) }
  | .compensate m => compensate task result m a s
  | .saving current attempt => save current attempt a.ending s
  | .publishing current event rest attempt => publishEvent current event rest attempt a.ending s
  | .reloading attempt => reload task result attempt a s
  | .returned | .threw => s

/-- One step; the call knows no other writer. -/
def step (task : MissionTask) (result : AIExecutionResult) : Machine.Step State Event Unit :=
  fun s e =>
    match e with
    | .step a => (proceedCall task result a s, ())
    | .other m => ({ s with row := (s.row.swap m).getD s.row }, ())

/-! ## The call in the engine -/

/-- Where the engine goes on after a result was handled. -/
def afterwards (call : Call) (task : MissionTask) : MissionExecution.Pc :=
  match call with
  | .missionStep => .loadStatus task.id
  | .mission iterations => .load (.mission iterations)

theorem next_result (call : Call) (task : MissionTask) (result : AIExecutionResult) (m : Mission) :
    (Job.result task result).next call m = afterwards call task := by
  cases call <;> rfl

/-- What a call of the engine waits for; it takes the publication with the save. -/
def Pc.engine (call : Call) (task : MissionTask) (result : AIExecutionResult) :
    Pc → MissionExecution.Pc
  | called _ => .loadResult call task result
  | requestApproval m => .requestApproval call task result m
  | saveApproval m approval => .saveApproval call task result m approval
  | notify m => .notify call task result m
  | compensate m => .compensate call task result m
  | saving current attempt => .saving call (.result task result) current attempt
  | publishing _ _ _ _ | returned => afterwards call task
  | reloading attempt => .reloading call (.result task result) attempt
  | threw => .threw

/-- The call waits for an operation that the engine waits for too. -/
def Pc.shared : Pc → Bool
  | requestApproval _ | saveApproval _ _ | notify _ | compensate _ | saving _ _ | reloading _ => true
  | _ => false

section

variable {call : Call} {task : MissionTask} {result : AIExecutionResult}

theorem engine_goOn (call : Call) (task : MissionTask) (result : AIExecutionResult)
    (r : Mission × OpResult) (pc : Mission → Pc) :
    (goOn r pc).engine call task result = orThrow r fun m => (pc m).engine call task result := by
  obtain ⟨m, res⟩ := r
  cases res <;> rfl

theorem engine_publish (current : Mission) (events : List Mission.Event) (attempt : Nat) :
    (publish current events attempt).engine call task result = afterwards call task := by
  cases events <;> rfl

theorem engine_handle (call : Call) (task : MissionTask) (result : AIExecutionResult) (m : Mission)
    (now : Date) :
    (handle task result m now).engine call task result = handleTaskResult call m task result now := by
  obtain ⟨executionId, status, outcome⟩ := result
  cases status <;> first | rfl | exact engine_goOn _ _ _ _ _

/-- The stores of a step of the engine are those of the call, and it waits for the same. -/
structure Agrees (call : Call) (task : MissionTask) (result : AIExecutionResult) (s : State)
    (r : World × MissionExecution.Pc) : Prop where
  mission : r.1.mission = s.row
  approvals : r.1.approvals = s.approvals
  pc : r.2 = s.pc.engine call task result

/-- **An operation that does not throw ends in the call as it ends in the engine.** -/
theorem engine_proceed {s : State} {a : Answer} {w : World} (i : Nat) (hdone : a.ending = .done)
    (hshared : s.pc.shared = true) (h : Agrees call task result s (w, s.pc.engine call task result)) :
    Agrees call task result (proceedCall task result a s)
      (proceed i a.input w (s.pc.engine call task result)) := by
  obtain ⟨hmission, happrovals, -⟩ := h
  have hafter : ∀ pc : Pc, pc.after a.ending = pc := fun pc => by simp [Pc.after, hdone]
  have heffective : a.ending.effective = true := by rw [hdone]; rfl
  cases hpc : s.pc with
  | requestApproval m =>
    simp only [proceedCall, hpc, hafter, proceed, Pc.engine]
    refine ⟨hmission, happrovals, ?_⟩
    dsimp only
    rw [show w.mission = s.row from hmission]
    cases Approval.create (approvalProps s.row.payload task result a.input) <;> rfl
  | saveApproval m approval =>
    simp only [proceedCall, hpc, proceed, Pc.engine, saveApproval, heffective, if_true, hafter]
    rw [show w.approvals = s.approvals from happrovals]
    cases s.approvals.save approval.state.id approval with
    | none => exact ⟨hmission, happrovals, rfl⟩
    | some approvals => exact ⟨hmission, rfl, rfl⟩
  | notify m =>
    simp only [proceedCall, hpc, hafter]
    have hgo := engine_goOn call task result
      (pause m (awaitingApproval task.id) a.now) fun m => .saving m 0
    exact ⟨hmission, happrovals, hgo.symm⟩
  | compensate m =>
    simp only [proceedCall, hpc, compensate, heffective, if_true, hafter]
    have hgo := engine_goOn call task result
      (blockExecuting task.id result a.now m) fun m => .saving m 0
    exact ⟨hmission, happrovals, hgo.symm⟩
  | saving current attempt =>
    simp only [proceedCall, hpc, proceed, Pc.engine, saveAndPublish, save, heffective, if_true, hafter,
      World.save]
    rw [show w.mission = s.row from hmission]
    cases s.row.swap current with
    | none =>
      refine ⟨hmission, happrovals, ?_⟩
      by_cases hlt : attempt < 2
      · simp [caught, hlt, Pc.engine]
      · simp [caught, hlt, Pc.engine]
    | some row =>
      refine ⟨rfl, happrovals, ?_⟩
      show _ = (publish current current.domainEvents attempt).engine call task result
      rw [engine_publish]
      exact next_result call task result (current.setVersion current.version)
  | reloading attempt =>
    simp only [proceedCall, hpc, proceed, Pc.engine, reload, hdone, if_true]
    refine ⟨hmission, happrovals, ?_⟩
    simp only [reloadAndReapply, World.load]
    rw [show w.mission = s.row from hmission]
    cases (Job.result task result).reapply a.input (.reconstitute s.row.payload s.row.version) with
    | mk m r =>
      cases r with
      | ok => rfl
      | fail _ => exact next_result call task result m
      | threw _ => exact next_result call task result m
  | called m => simp [hpc, Pc.shared] at hshared
  | publishing _ _ _ _ => simp [hpc, Pc.shared] at hshared
  | returned => simp [hpc, Pc.shared] at hshared
  | threw => simp [hpc, Pc.shared] at hshared

end

end VegaRevenue.MissionExecution.ResultHandling
