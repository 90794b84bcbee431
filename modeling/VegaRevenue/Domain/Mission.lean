import VegaRevenue.Lib.DepthFirst
import VegaRevenue.Lib.Machine
import VegaRevenue.Lib.Versioned
import VegaRevenue.Shared.Json
import VegaRevenue.Shared.Result
import VegaRevenue.Shared.Text

/-!
# The mission aggregate

A mission, its plan and the tasks of the plan with their dependencies.

* `validateTaskGraph` — the check of `planValid` and `replan`
* `step` — one public operation
* `addTask_cases`, `replan_cases`, `transitionTo_cases`, `moveTask_cases` — what an operation writes
-/

namespace VegaRevenue

/-! ## Tasks -/

inductive TaskStatus where
  | pending
  | running
  | awaitingApproval
  | paused
  | completed
  | failed
  | cancelled
  | timedOut
deriving DecidableEq

def TaskStatus.name : TaskStatus → String
  | pending => "PENDING"
  | running => "RUNNING"
  | awaitingApproval => "AWAITING_APPROVAL"
  | paused => "PAUSED"
  | completed => "COMPLETED"
  | failed => "FAILED"
  | cancelled => "CANCELLED"
  | timedOut => "TIMED_OUT"

/-- `TASK_STATE_TRANSITIONS`. -/
def TaskStatus.transitions : TaskStatus → List TaskStatus
  | pending => [running, cancelled]
  | running => [awaitingApproval, paused, completed, failed, timedOut]
  | awaitingApproval => [running, cancelled]
  | paused => [running, cancelled]
  | completed => []
  | failed => []
  | cancelled => []
  | timedOut => []

def canTransitionTask (source target : TaskStatus) : Bool := target ∈ source.transitions

structure MissionTaskProps where
  id : String
  missionId : String
  planId : String
  agentId : String
  agentVersion : String
  taskType : String
  requiredCapability : Option String := none
  input : Json
  dependsOn : List String
  deadline : Option Date := none
  approvalGateId : Option String := none
  idempotencyKey : String
  correlationId : String

structure MissionTask extends MissionTaskProps where
  status : TaskStatus := .pending
  output : Option Json := none
  startedAt : Option Date := none
  completedAt : Option Date := none

namespace MissionTask

/-- `new MissionTask(props)`. -/
def init (props : MissionTaskProps) : MissionTask := { props with }

/-- The statuses in which a task is over. -/
def ends (s : TaskStatus) : Bool :=
  s = .completed || s = .failed || s = .cancelled || s = .timedOut

/-- `transitionStatus`; the message of its refusal otherwise. -/
def transitionStatus (t : MissionTask) (target : TaskStatus) (now : Date) :
    Except String MissionTask :=
  if canTransitionTask t.status target then
    .ok { t with
      status := target
      startedAt := if target = .running then some now else t.startedAt
      completedAt := if ends target then some now else t.completedAt }
  else
    .error ("Cannot transition task from " ++ t.status.name ++ " to " ++ target.name)

end MissionTask

namespace Mission

/-! ## The mission -/

inductive Status where
  | draft
  | approved
  | scheduled
  | planning
  | executing
  | paused
  | awaitingApproval
  | blocked
  | completed
  | failed
  | cancelled
  | archived
deriving DecidableEq

def Status.name : Status → String
  | draft => "DRAFT"
  | approved => "APPROVED"
  | scheduled => "SCHEDULED"
  | planning => "PLANNING"
  | executing => "EXECUTING"
  | paused => "PAUSED"
  | awaitingApproval => "AWAITING_APPROVAL"
  | blocked => "BLOCKED"
  | completed => "COMPLETED"
  | failed => "FAILED"
  | cancelled => "CANCELLED"
  | archived => "ARCHIVED"

/-- `MISSION_STATE_TRANSITIONS`. -/
def Status.transitions : Status → List Status
  | draft => [approved, cancelled]
  | approved => [scheduled, planning]
  | scheduled => [planning]
  | planning => [executing, paused, cancelled]
  | executing => [paused, awaitingApproval, blocked, completed, failed, cancelled]
  | paused => [executing, cancelled]
  | awaitingApproval => [executing, cancelled]
  | blocked => [executing, failed]
  | completed => [archived]
  | failed => [archived]
  | cancelled => [archived]
  | archived => []

/-- `canTransitionMission`. -/
def canTransition (source target : Status) : Bool := target ∈ source.transitions

def isTerminal (s : Status) : Bool :=
  s = .completed || s = .failed || s = .cancelled || s = .archived

structure Budget where
  maxAiCostUsd : Rat
  maxOutreachCount : Option Rat := none
deriving DecidableEq

structure Constraints where
  workingHours : Option String := none
  noContactDomains : Option (List String) := none
  minimumCompanySize : Option Rat := none
deriving DecidableEq

structure SuccessCriteria where
  targetMeetings : Option Rat := none
  targetOpportunities : Option Rat := none
deriving DecidableEq

structure Plan where
  planId : String
  version : Int
  objectives : List Json := []
  phases : List Json := []
  approvalGates : List Json := []
  fallbackBranches : List Json := []

structure Outcomes where
  meetingsBooked : Option Rat := none
  opportunitiesCreated : Option Rat := none
deriving DecidableEq

inductive WorkspaceBindingState where
  | workspaceBound
  | legacyUnbound
deriving DecidableEq

structure Props where
  id : String
  tenantId : String
  workspaceId : Option String := none
  workspaceBindingState : WorkspaceBindingState := .legacyUnbound
  name : String
  objective : String
  icpId : String
  territory : List String
  channels : List String
  budget : Budget
  autonomyLevel : Rat
  constraints : Constraints
  successCriteria : SuccessCriteria
  deadline : Option Date := none
  ownerUserId : String
  plan : Plan
  status : Status := .draft
  tasks : List MissionTask := []
  approvals : List Json := []
  outcomes : Outcomes := {}
  createdAt : Date
  updatedAt : Date

/-- The payloads of the events. -/
inductive Event where
  | created (missionId name objective icpId : String)
  | approved (missionId approvedBy : String)
  | started (missionId : String)
  | replanned (missionId : String) (planVersion : Int)
  | paused (missionId reason : String)
  | resumed (missionId : String)
  | cancelled (missionId reason : String)
  | completed (missionId : String) (outcomes : Outcomes)
  | failed (missionId reason : String)
  | archived (missionId : String)
  | blocked (missionId reason : String)
  | unblocked (missionId : String)
  | taskAdded (missionId taskId taskType idempotencyKey : String)
  | taskStatusChanged (missionId taskId : String) (status : TaskStatus)
  | taskTimedOut (missionId taskId : String)
  | taskCancelled (missionId taskId reason : String)
deriving DecidableEq

end Mission

/-- `Mission`. -/
abbrev Mission := Versioned.Aggregate Mission.Props Mission.Event

namespace Mission

/-- `Mission.create`; the message of its refusal otherwise. -/
def create (props : Props) (now : Date) : Except String Mission :=
  if props.workspaceBindingState ≠ .workspaceBound ∨ blank props.workspaceId then
    .error "New Mission requires an authoritative workspace"
  else if trim props.objective = "" then .error "Mission objective is required"
  else if trim props.icpId = "" then .error "ICP reference is required"
  else if props.deadline.any (· ≤ now) then .error "Deadline must be in the future"
  else
    let mission : Mission := .init props
    .ok (mission.applyEvent (.created props.id props.name props.objective props.icpId))

def transitionTo (m : Mission) (target : Status) (event : Event) (now : Date) :
    Mission × OpResult :=
  if canTransition m.state.status target then
    ((m.write { m.state with status := target, updatedAt := now }).applyEvent event, .ok)
  else
    (m, .fail ("Cannot transition mission from " ++ m.state.status.name ++ " to " ++ target.name))

/-! ## The task graph -/

/-- `taskById.get(id)`: of tasks with one id the map holds the last. -/
def taskById (tasks : List MissionTask) (id : String) : Option MissionTask :=
  tasks.reverse.find? (·.id = id)

/-- The dependencies a visit of the task follows. -/
def dependencies (tasks : List MissionTask) (id : String) : List String :=
  ((taskById tasks id).map (·.dependsOn)).getD []

/-- The error of one task: no agent, an empty capability, or a dependency that is not planned. -/
def taskError (ids : List String) (t : MissionTask) : Option String :=
  if trim t.agentId = "" then some ("Task " ++ t.id ++ " missing required agent/capability")
  else if t.requiredCapability.any (trim · = "") then
    some ("Task " ++ t.id ++ " missing required capability")
  else (t.dependsOn.find? (· ∉ ids)).map fun id => "Missing dependency " ++ id ++ " in plan"

/-- `validateTaskGraph`: the message of the first error it finds. -/
def validateTaskGraph (tasks : List MissionTask) (planVersion : Int) : Option String :=
  let ids := tasks.map (·.id)
  if planVersion ≤ 0 then some "Plan version must be positive"
  else if ¬ ids.Nodup then some "Duplicate task IDs in plan"
  else
    match tasks.findSome? (taskError ids) with
    | some message => some message
    | none =>
      if (DepthFirst.visitAll (dependencies tasks) (ids.length + 1) ids).isSome then none
      else some "Cyclic dependency detected in plan"

def planValid (m : Mission) (now : Date) : Mission × OpResult :=
  match validateTaskGraph m.state.tasks m.state.plan.version with
  | some message => (m, .fail message)
  | none => transitionTo m .executing (.started m.state.id) now

/-- The task a new plan carries over: `existingCompleted.get(id)`. -/
def existingCompleted (tasks : List MissionTask) (id : String) : Option MissionTask :=
  (tasks.filter (·.status = .completed)).reverse.find? (·.id = id)

/-- A task of a new plan; one that was completed under its id stays so. -/
def replanTask (tasks : List MissionTask) (props : MissionTaskProps) : MissionTask :=
  match existingCompleted tasks props.id with
  | some existing =>
    { props with
      status := existing.status
      output := existing.output
      startedAt := existing.startedAt
      completedAt := existing.completedAt }
  | none => .init props

def replan (m : Mission) (newPlan : Plan) (newTasks : List MissionTaskProps) (now : Date) :
    Mission × OpResult :=
  if isTerminal m.state.status then (m, .fail "Cannot replan a terminal mission")
  else if newPlan.version ≤ 0 then (m, .fail "Plan version must be positive")
  else if newPlan.version ≤ m.state.plan.version then
    (m, .fail ("Plan version " ++ toString newPlan.version ++
      " is not greater than current version " ++ toString m.state.plan.version))
  else
    let tasks := newTasks.map (replanTask m.state.tasks)
    match validateTaskGraph tasks newPlan.version with
    | some message => (m, .fail message)
    | none =>
      ((m.write { m.state with plan := newPlan, tasks, updatedAt := now }).applyEvent
        (.replanned m.state.id newPlan.version), .ok)

/-! ## The status of the mission -/

def approve (m : Mission) (actorId : String) (now : Date) : Mission × OpResult :=
  transitionTo m .approved (.approved m.state.id actorId) now

def schedule (m : Mission) (now : Date) : Mission × OpResult :=
  transitionTo m .scheduled (.started m.state.id) now

def start (m : Mission) (now : Date) : Mission × OpResult :=
  transitionTo m .planning (.started m.state.id) now

def pause (m : Mission) (reason : String) (now : Date) : Mission × OpResult :=
  transitionTo m .paused (.paused m.state.id reason) now

def resume (m : Mission) (now : Date) : Mission × OpResult :=
  transitionTo m .executing (.resumed m.state.id) now

def cancel (m : Mission) (reason : String) (now : Date) : Mission × OpResult :=
  transitionTo m .cancelled (.cancelled m.state.id reason) now

/-- The outcomes are written by the factory of the event, so only where the mission completes. -/
def complete (m : Mission) (outcomes : Outcomes) (now : Date) : Mission × OpResult :=
  match transitionTo m .completed (.completed m.state.id outcomes) now with
  | (m', .ok) => (m'.write { m'.state with outcomes }, .ok)
  | r => r

def fail (m : Mission) (reason : String) (now : Date) : Mission × OpResult :=
  transitionTo m .failed (.failed m.state.id reason) now

def archive (m : Mission) (now : Date) : Mission × OpResult :=
  transitionTo m .archived (.archived m.state.id) now

def block (m : Mission) (reason : String) (now : Date) : Mission × OpResult :=
  transitionTo m .blocked (.blocked m.state.id reason) now

def unblock (m : Mission) (now : Date) : Mission × OpResult :=
  transitionTo m .executing (.unblocked m.state.id) now

/-! ## The tasks of the mission -/

/-- `mission.plan = plan`. -/
def setPlan (m : Mission) (plan : Plan) : Mission := m.write { m.state with plan }

def addTask (m : Mission) (props : MissionTaskProps) : Mission × OpResult :=
  if isTerminal m.state.status then (m, .fail "Cannot add tasks to a terminal mission")
  else if m.state.tasks.any (·.id = props.id) then (m, .fail "Duplicate task ID in plan")
  else if m.state.tasks.any (·.idempotencyKey = props.idempotencyKey) then
    (m, .fail "Duplicate task idempotency key")
  else if props.requiredCapability.any (trim · = "") then
    (m, .fail "Task missing required capability")
  else
    ((m.write { m.state with tasks := m.state.tasks ++ [.init props] }).applyEvent
      (.taskAdded m.state.id props.id props.taskType props.idempotencyKey), .ok)

def findTask (tasks : List MissionTask) (id : String) : Option MissionTask :=
  tasks.find? (·.id = id)

/-- The tasks after the first one with this id was changed. -/
def setTask (id : String) (t' : MissionTask) : List MissionTask → List MissionTask
  | [] => []
  | t :: tasks => if t.id = id then t' :: tasks else t :: setTask id t' tasks

/-- The operations on one task: its transition, then what `change` writes to it, then the events. -/
def moveTask (m : Mission) (id : String) (target : TaskStatus)
    (change : MissionTask → MissionTask) (events : List Event) (now : Date) : Mission × OpResult :=
  match findTask m.state.tasks id with
  | none => (m, .fail "Task not found")
  | some t =>
    match t.transitionStatus target now with
    | .error message => (m, .fail message)
    | .ok t' =>
      let moved := m.write { m.state with tasks := setTask id (change t') m.state.tasks }
      ((.taskStatusChanged m.state.id id target :: events).foldl
        Versioned.Aggregate.applyEvent moved, .ok)

/-- A dependency of the task is not completed. -/
def incompleteDependencies (tasks : List MissionTask) (t : MissionTask) : Bool :=
  t.dependsOn.any fun id => !tasks.any fun t' => t'.id = id && t'.status = .completed

def startTask (m : Mission) (id : String) (now : Date) : Mission × OpResult :=
  match findTask m.state.tasks id with
  | none => (m, .fail "Task not found")
  | some t =>
    if m.state.status ≠ .executing then (m, .fail "Mission must be executing to start a task")
    else if incompleteDependencies m.state.tasks t then
      (m, .fail "Task dependencies are not completed")
    else moveTask m id .running (fun t => t) [] now

def completeTask (m : Mission) (id : String) (output : Json) (now : Date) : Mission × OpResult :=
  moveTask m id .completed (fun t => { t with output := some output }) [] now

def failTask (m : Mission) (id reason : String) (now : Date) : Mission × OpResult :=
  moveTask m id .failed (fun t => { t with output := some (.obj [("reason", .str reason)]) }) [] now

def timeoutTask (m : Mission) (id : String) (now : Date) : Mission × OpResult :=
  moveTask m id .timedOut (fun t => t) [.taskTimedOut m.state.id id] now

def cancelTask (m : Mission) (id reason : String) (now : Date) : Mission × OpResult :=
  moveTask m id .cancelled (fun t => t) [.taskCancelled m.state.id id reason] now

def markTaskAwaitingApproval (m : Mission) (id approvalGateId : String) (now : Date) :
    Mission × OpResult :=
  moveTask m id .awaitingApproval
    (fun t => { t with approvalGateId := some approvalGateId }) [] now

/-! ## Runs -/

/-- The public operations, and the assignment to the public field `plan`. -/
inductive Op where
  | approve (actorId : String)
  | schedule
  | start
  | planValid
  | replan (newPlan : Plan) (newTasks : List MissionTaskProps)
  | pause (reason : String)
  | resume
  | cancel (reason : String)
  | complete (outcomes : Outcomes)
  | fail (reason : String)
  | archive
  | block (reason : String)
  | unblock
  | setPlan (plan : Plan)
  | addTask (props : MissionTaskProps)
  | startTask (id : String)
  | completeTask (id : String) (output : Json)
  | failTask (id reason : String)
  | timeoutTask (id : String)
  | cancelTask (id reason : String)
  | markTaskAwaitingApproval (id approvalGateId : String)

def Op.apply (now : Date) (m : Mission) : Op → Mission × OpResult
  | approve actorId => m.approve actorId now
  | schedule => m.schedule now
  | start => m.start now
  | planValid => m.planValid now
  | replan newPlan newTasks => m.replan newPlan newTasks now
  | pause reason => m.pause reason now
  | resume => m.resume now
  | cancel reason => m.cancel reason now
  | complete outcomes => m.complete outcomes now
  | fail reason => m.fail reason now
  | archive => m.archive now
  | block reason => m.block reason now
  | unblock => m.unblock now
  | setPlan plan => (m.setPlan plan, .ok)
  | addTask props => m.addTask props
  | startTask id => m.startTask id now
  | completeTask id output => m.completeTask id output now
  | failTask id reason => m.failTask id reason now
  | timeoutTask id => m.timeoutTask id now
  | cancelTask id reason => m.cancelTask id reason now
  | markTaskAwaitingApproval id approvalGateId => m.markTaskAwaitingApproval id approvalGateId now

/-- One operation, and what the clock reads when it runs. -/
def step : Machine.Step Mission (Op × Date) OpResult := fun m i => i.1.apply i.2 m

/-! ## What an operation writes -/

section

variable {m : Mission} {now : Date}

theorem transitionTo_cases (m : Mission) (target : Status) (event : Event) (now : Date) :
    (canTransition m.state.status target = false ∧ (transitionTo m target event now).1 = m) ∨
      canTransition m.state.status target = true ∧
        (transitionTo m target event now).1 =
          (m.write { m.state with status := target, updatedAt := now }).applyEvent event := by
  unfold transitionTo
  split
  next h => exact .inr ⟨h, rfl⟩
  next h => exact .inl ⟨Bool.eq_false_iff.mpr h, rfl⟩

/-- `addTask` does not refuse the task. -/
structure Addable (m : Mission) (props : MissionTaskProps) : Prop where
  open_ : isTerminal m.state.status = false
  newId : ∀ t ∈ m.state.tasks, t.id ≠ props.id
  newKey : ∀ t ∈ m.state.tasks, t.idempotencyKey ≠ props.idempotencyKey
  capable : props.requiredCapability.any (trim · = "") = false

/-- What an addition does and answers. -/
theorem addTask_outcome (m : Mission) (props : MissionTaskProps) :
    (¬ Addable m props ∧ ∃ message, addTask m props = (m, .fail message)) ∨
      Addable m props ∧ addTask m props =
        ((m.write { m.state with tasks := m.state.tasks ++ [.init props] }).applyEvent
          (.taskAdded m.state.id props.id props.taskType props.idempotencyKey), .ok) := by
  unfold addTask
  split
  next h => exact .inl ⟨fun ha => by simp [ha.open_] at h, _, rfl⟩
  next hopen =>
    split
    next h =>
      obtain ⟨t, ht, hid⟩ := List.any_eq_true.mp h
      exact .inl ⟨fun ha => ha.newId t ht (of_decide_eq_true hid), _, rfl⟩
    next hid =>
      split
      next h =>
        obtain ⟨t, ht, hkey⟩ := List.any_eq_true.mp h
        exact .inl ⟨fun ha => ha.newKey t ht (of_decide_eq_true hkey), _, rfl⟩
      next hkey =>
        split
        next h => exact .inl ⟨fun ha => by simp [ha.capable] at h, _, rfl⟩
        next hcap =>
          refine .inr ⟨⟨Bool.eq_false_iff.mpr hopen, ?_, ?_, Bool.eq_false_iff.mpr hcap⟩, rfl⟩
          · simpa using hid
          · simpa using hkey

theorem addTask_cases (m : Mission) (props : MissionTaskProps) :
    (¬ Addable m props ∧ (addTask m props).1 = m) ∨
      Addable m props ∧ (addTask m props).1 =
        (m.write { m.state with tasks := m.state.tasks ++ [.init props] }).applyEvent
          (.taskAdded m.state.id props.id props.taskType props.idempotencyKey) := by
  rcases addTask_outcome m props with ⟨hrefused, message, hr⟩ | ⟨hadd, hr⟩
  · exact .inl ⟨hrefused, congrArg Prod.fst hr⟩
  · exact .inr ⟨hadd, congrArg Prod.fst hr⟩

/-- The tasks of a new plan. -/
def replanned (m : Mission) (newTasks : List MissionTaskProps) : List MissionTask :=
  newTasks.map (replanTask m.state.tasks)

/-- `replan` does not refuse the plan. -/
structure Replannable (m : Mission) (newPlan : Plan) (newTasks : List MissionTaskProps) : Prop where
  open_ : isTerminal m.state.status = false
  newer : m.state.plan.version < newPlan.version
  valid : validateTaskGraph (replanned m newTasks) newPlan.version = none

/-- What a replan does and answers. -/
theorem replan_outcome (m : Mission) (newPlan : Plan) (newTasks : List MissionTaskProps)
    (now : Date) :
    (¬ Replannable m newPlan newTasks ∧ ∃ message,
      replan m newPlan newTasks now = (m, .fail message)) ∨
      Replannable m newPlan newTasks ∧ replan m newPlan newTasks now =
        ((m.write { m.state with
          plan := newPlan, tasks := replanned m newTasks, updatedAt := now }).applyEvent
          (.replanned m.state.id newPlan.version), .ok) := by
  unfold replan
  split
  next h => exact .inl ⟨fun hr => by simp [hr.open_] at h, _, rfl⟩
  next hopen =>
    split
    next h =>
      refine .inl ⟨fun hr => ?_, _, rfl⟩
      have hvalid := hr.valid
      unfold validateTaskGraph at hvalid
      rw [if_pos h] at hvalid
      cases hvalid
    · split
      next h => exact .inl ⟨fun hr => absurd hr.newer (Int.not_lt.mpr h), _, rfl⟩
      next hnewer =>
        dsimp only
        split
        next message h =>
          refine .inl ⟨fun hr => ?_, _, rfl⟩
          have hvalid := hr.valid
          rw [show validateTaskGraph (replanned m newTasks) newPlan.version = some message
            from h] at hvalid
          cases hvalid
        next h => exact .inr ⟨⟨Bool.eq_false_iff.mpr hopen, Int.not_le.mp hnewer, h⟩, rfl⟩

theorem replan_cases (m : Mission) (newPlan : Plan) (newTasks : List MissionTaskProps)
    (now : Date) :
    (¬ Replannable m newPlan newTasks ∧ (replan m newPlan newTasks now).1 = m) ∨
      Replannable m newPlan newTasks ∧ (replan m newPlan newTasks now).1 =
        (m.write { m.state with
          plan := newPlan, tasks := replanned m newTasks, updatedAt := now }).applyEvent
          (.replanned m.state.id newPlan.version) := by
  rcases replan_outcome m newPlan newTasks now with ⟨hrefused, message, hr⟩ | ⟨hplan, hr⟩
  · exact .inl ⟨hrefused, congrArg Prod.fst hr⟩
  · exact .inr ⟨hplan, congrArg Prod.fst hr⟩

theorem create_ok {props : Props} (h : create props now = .ok m) :
    m = (Versioned.Aggregate.init props).applyEvent
      (.created props.id props.name props.objective props.icpId) := by
  unfold create at h
  iterate 4
    split at h
    · cases h
  cases h
  rfl

/-- The task after its transition. -/
theorem transitionStatus_ok {t t' : MissionTask} {target : TaskStatus}
    (h : t.transitionStatus target now = .ok t') :
    canTransitionTask t.status target = true ∧ t'.toMissionTaskProps = t.toMissionTaskProps ∧
      t'.status = target := by
  unfold MissionTask.transitionStatus at h
  split at h
  next hcan =>
    cases h
    exact ⟨hcan, rfl, rfl⟩
  · cases h

theorem foldl_applyEvent_state (events : List Event) (m : Mission) :
    (events.foldl Versioned.Aggregate.applyEvent m).state = m.state := by
  induction events generalizing m with
  | nil => rfl
  | cons e events ih => rw [List.foldl_cons, ih, Versioned.Aggregate.applyEvent_state]

/-- The task that is found is the one that is changed. -/
theorem setTask_split {tasks : List MissionTask} {id : String} {t : MissionTask}
    (h : findTask tasks id = some t) :
    ∃ l r, tasks = l ++ t :: r ∧ ∀ t', setTask id t' tasks = l ++ t' :: r := by
  induction tasks with
  | nil => cases h
  | cons a tasks ih =>
    rw [findTask, List.find?_cons] at h
    by_cases ha : a.id = id
    · simp only [ha, decide_true] at h
      obtain rfl := Option.some.inj h
      exact ⟨[], tasks, rfl, fun t' => by rw [setTask, if_pos ha]; rfl⟩
    · simp only [ha, decide_false] at h
      obtain ⟨l, r, hsplit, hset⟩ := ih h
      refine ⟨a :: l, r, by rw [hsplit]; rfl, fun t' => ?_⟩
      rw [setTask, if_neg ha, hset]
      rfl

/-- A task moves, or the operation is refused. -/
theorem moveTask_cases (m : Mission) (id : String) (target : TaskStatus)
    (change : MissionTask → MissionTask) (events : List Event) (now : Date) :
    (moveTask m id target change events now).1 = m ∨
      ∃ t t', findTask m.state.tasks id = some t ∧ t.transitionStatus target now = .ok t' ∧
        (moveTask m id target change events now).1.state =
          { m.state with tasks := setTask id (change t') m.state.tasks } := by
  unfold moveTask
  split
  · exact .inl rfl
  next t ht =>
    split
    · exact .inl rfl
    next t' ht' =>
      refine .inr ⟨t, t', ht, ht', ?_⟩
      dsimp only
      rw [foldl_applyEvent_state]
      rfl

end

/-! ## A sample -/

def sampleTask (id : String) (dependsOn : List String) : MissionTaskProps where
  id := id
  missionId := "mission"
  planId := "plan"
  agentId := "agent"
  agentVersion := "1.0.0"
  taskType := "research"
  input := .null
  dependsOn := dependsOn
  idempotencyKey := "task:" ++ id
  correlationId := "correlation"

def sampleMission : Props where
  id := "mission"
  tenantId := "tenant"
  workspaceId := some "workspace"
  workspaceBindingState := .workspaceBound
  name := "Pipeline"
  objective := "Create qualified pipeline"
  icpId := "icp"
  territory := []
  channels := ["email"]
  budget := { maxAiCostUsd := 100 }
  autonomyLevel := 1
  constraints := {}
  successCriteria := {}
  ownerUserId := "user"
  plan := { planId := "plan", version := 1 }
  createdAt := 0
  updatedAt := 0

/-- The mission `create` makes of the sample. -/
def sampleCreated : Mission :=
  (Versioned.Aggregate.init sampleMission).applyEvent
    (.created "mission" "Pipeline" "Create qualified pipeline" "icp")

theorem create_sampleMission : create sampleMission 0 = .ok sampleCreated := by
  unfold create
  rw [if_neg (by decide), if_neg (by decide), if_neg (by decide), if_neg (by decide)]
  rfl

end Mission

end VegaRevenue
