import VegaRevenue.Domain.Approval
import VegaRevenue.Lib.Interleave

/-!
# The mission execution engine

Calls of `executeMission` and `executeMissionStep`, operators who pause, resume or cancel the
mission, and decisions on approvals, interleaved over one stored mission. A call waits for one
operation at a time (a load, a save, a call of the agent); what it computes between two of them
is part of the step that ends the first.

* `runTask`, `handleTaskResult`, `evaluateCompletion` — what is computed on a loaded copy
* `Job.reapply`, `Job.next` — `saveAndPublish` after a lost race and after it returned
* `next` — one step of a call
-/

namespace VegaRevenue.MissionExecution

open Interleave
open Versioned
open Mission (Props Plan findTask addTask setPlan planValid startTask completeTask failTask
  markTaskAwaitingApproval pause block complete fail)

/-! ## What the agent answers -/

inductive AIExecutionStatus where
  | pending
  | running
  | awaitingApproval
  | paused
  | completed
  | failed
  | cancelled
  | timedOut
  | requiresReconciliation
deriving DecidableEq

structure ExecutionOutcome where
  summary : String
  decisions : List Json := []
  actions : List Json := []
  evidence : List Json := []

/-- The outcome as the output of a task. -/
def ExecutionOutcome.toJson (o : ExecutionOutcome) : Json :=
  .obj [("summary", .str o.summary), ("decisions", .arr o.decisions), ("actions", .arr o.actions),
    ("evidence", .arr o.evidence)]

structure AIExecutionResult where
  executionId : String
  status : AIExecutionStatus
  outcome : ExecutionOutcome

def pausedResult (executionId : String) : AIExecutionResult where
  executionId := executionId
  status := .paused
  outcome := { summary := "Mission is no longer executing; aborting task execution" }

/-! ## The world -/

/-- What is observed of a mission: the tasks of a save, and an execution of a task by a call. -/
inductive Entry where
  | stored (tasks : List MissionTask)
  | executed (call : Nat) (taskId : String)

/-- The stored mission, the approvals, and what was observed, the latest first. -/
structure World where
  mission : Row Props
  approvals : Table String Approval.Props := []
  log : List Entry := []

namespace World

def load (w : World) : Mission := .reconstitute w.mission.payload w.mission.version

/-- `missionRepository.save`; `none` is a conflict. -/
def save (w : World) (m : Mission) : Option World :=
  (w.mission.swap m).map fun row =>
    { w with mission := row, log := .stored m.state.tasks :: w.log }

end World

/-- What the environment hands a step. -/
structure Input where
  now : Date
  /-- The operation that is awaited throws. -/
  fault : Bool := false
  /-- A save is committed, then publishing an event throws. -/
  unpublished : Bool := false
  /-- What the planner answers, `none` where it or a check of a capability throws. -/
  plan : Option (Plan × List MissionTaskProps) := none
  /-- The agents of a plan are all there when it is applied again. -/
  capable : Bool := true
  /-- What the agent answers, `none` where the call throws. -/
  result : Option AIExecutionResult := none
  executionId : String := "execution"
  approvalId : String := "approval"
  idempotencyKey : String := "key"
  /-- `defaultTaskTimeoutSeconds`. -/
  timeoutSeconds : Rat := 3600

/-! ## Calls -/

/-- The method a step belongs to; `executeMission` counts the iterations it has begun. -/
inductive Call where
  | missionStep
  | mission (iterations : Nat)

def maxIterations : Nat := 1000

/-- What `saveAndPublish` is called for; `reapply` is its callback. -/
inductive Job where
  | plan (plan : Plan) (tasks : List MissionTaskProps)
  | start (task : MissionTask) (executionId : String)
  | result (task : MissionTask) (result : AIExecutionResult)
  /-- The status the caller's copy of the mission has reached. -/
  | completion (status : Mission.Status)

inductive Control where
  | pause (reason : String)
  | resume
  | cancel (reason : String)

inductive Decision where
  | approve (actorId reason : String)
  | reject (actorId reason : String)
  | expire

/-- What a call waits for. -/
inductive Pc where
  | plan
  | load (call : Call)
  | saving (call : Call) (job : Job) (current : Mission) (attempt : Nat)
  | reloading (call : Call) (job : Job) (attempt : Nat)
  | resolve (call : Call) (task : MissionTask) (executionId : String)
  | execute (call : Call) (task : MissionTask) (executionId : String)
  | loadResult (call : Call) (task : MissionTask) (result : AIExecutionResult)
  | requestApproval (call : Call) (task : MissionTask) (result : AIExecutionResult)
      (mission : Mission)
  | saveApproval (call : Call) (task : MissionTask) (result : AIExecutionResult)
      (mission : Mission) (approval : Approval)
  | notify (call : Call) (task : MissionTask) (result : AIExecutionResult) (mission : Mission)
  | compensate (call : Call) (task : MissionTask) (result : AIExecutionResult)
      (mission : Mission)
  | loadStatus (completedTaskId : String)
  | control (control : Control) (attempt : Nat)
  | saveControl (control : Control) (mission : Mission) (attempt : Nat)
  | decide (approvalId : String) (decision : Decision)
  | saveDecision (approval : Approval)
  | returned (status : Option Mission.Status) (completedTaskId : Option String)
  | threw

/-! ## On a loaded copy -/

/-- `a`, then `b` on what it leaves; a refusal of `a` ends it. -/
def andThen (a : Mission × OpResult) (b : Mission → Mission × OpResult) : Mission × OpResult :=
  match a with
  | (m, .ok) => b m
  | r => r

/-- A call that goes on where an operation succeeds and throws where it is refused. -/
def orThrow (r : Mission × OpResult) (pc : Mission → Pc) : Pc :=
  match r with
  | (m, .ok) => pc m
  | _ => .threw

def addTasks (m : Mission) : List MissionTaskProps → Mission × OpResult
  | [] => (m, .ok)
  | props :: rest => andThen (addTask m props) fun m => addTasks m rest

/-- The new tasks and the plan, and the transition to EXECUTING. -/
def applyPlan (plan : Plan) (tasks : List MissionTaskProps) (now : Date) (m : Mission) :
    Mission × OpResult :=
  andThen (addTasks m tasks) fun m => planValid (setPlan m plan) now

def planMission (m : Mission) (input : Input) : Pc :=
  if m.state.status ≠ .planning then .threw
  else
    match input.plan with
    | none => .threw
    | some (plan, tasks) =>
      orThrow (applyPlan plan tasks input.now m) fun m => .saving (.mission 0) (.plan plan tasks) m 0

/-- Among tasks of this id in the mission there is none, or it is not RUNNING. -/
def notRunning (m : Mission) (taskId : String) : Bool :=
  (findTask m.state.tasks taskId).all fun t => t.status ≠ .running

/-- The mission is no longer executing, and the task was not started. -/
def aborted (m : Mission) (taskId : String) : Bool :=
  m.state.status ≠ .executing && notRunning m taskId

/-- `runTask` up to the save of the started task. -/
def runTask (call : Call) (m : Mission) (task : MissionTask) (input : Input) : Pc :=
  if aborted m task.id then .loadResult call task (pausedResult input.executionId)
  else
    orThrow (startTask m task.id input.now) fun m => .saving call (.start task input.executionId) m 0

/-- `selectNextTask`. -/
def selectNextTask (tasks : List MissionTask) : Option MissionTask :=
  let completedIds := (tasks.filter (·.status = .completed)).map (·.id)
  tasks.find? fun t => t.status = .pending && t.dependsOn.all (· ∈ completedIds)

def allTasksCompleted (m : Mission) : Bool := m.state.tasks.all (·.status = .completed)

def noRunnableTasks : String := "No runnable tasks remain and not all tasks completed"

/-- The decision of `evaluateCompletion`. -/
def complete? (now : Date) (m : Mission) : Mission × OpResult :=
  if allTasksCompleted m then
    complete m { meetingsBooked := some 0, opportunitiesCreated := some 0 } now
  else fail m noRunnableTasks now

def evaluateCompletion (call : Call) (m : Mission) (now : Date) : Pc :=
  orThrow (complete? now m) fun m => .saving call (.completion m.state.status) m 0

/-- The body of the loop of `executeMission` and of `executeMissionStep`, on the mission it
loaded. -/
def executeLoaded (call : Call) (m : Mission) (input : Input) : Pc :=
  if m.state.status ≠ .executing then
    .returned (match call with | .missionStep => some m.state.status | .mission _ => none) none
  else
    match selectNextTask m.state.tasks with
    | none => evaluateCompletion call m input.now
    | some task => runTask call m task input

def approvalGate (taskId : String) : String := "approval:" ++ taskId

def awaitingApproval (taskId : String) : String := "Awaiting approval for task " ++ taskId

def taskFailed (taskId : String) (result : AIExecutionResult) : String :=
  "Task " ++ taskId ++ " failed: " ++ result.outcome.summary

/-- The mission is blocked where it is still executing. -/
def blockExecuting (taskId : String) (result : AIExecutionResult) (now : Date) (m : Mission) :
    Mission × OpResult :=
  if m.state.status = .executing then block m (taskFailed taskId result) now else (m, .ok)

def handleTaskResult (call : Call) (m : Mission) (task : MissionTask) (result : AIExecutionResult)
    (now : Date) : Pc :=
  match result.status with
  | .completed =>
    orThrow (completeTask m task.id result.outcome.toJson now) fun m =>
      .saving call (.result task result) m 0
  | .awaitingApproval =>
    orThrow (markTaskAwaitingApproval m task.id (approvalGate task.id) now) fun m =>
      .requestApproval call task result m
  | .failed | .timedOut | .cancelled =>
    orThrow (failTask m task.id result.outcome.summary now) fun m => .compensate call task result m
  | _ => .saving call (.result task result) m 0

/-- The props of the approval a task asks for. -/
def approvalProps (mission : Props) (task : MissionTask) (result : AIExecutionResult)
    (input : Input) : Approval.Props where
  id := input.approvalId
  tenantId := mission.tenantId
  workspaceId := mission.workspaceId
  workspaceBindingState := .workspaceBound
  missionId := mission.id
  taskId := some task.id
  executionId := some result.executionId
  actionType := task.taskType
  riskCategory := "MEDIUM"
  proposedAction := result.outcome.actions
  evidence := result.outcome.evidence
  reasoning := result.outcome.summary
  confidence := 9 / 10
  requestedBy := task.agentId
  approverRole := "mission-owner"
  timeoutSeconds := input.timeoutSeconds
  idempotencyKey := input.idempotencyKey
  createdAt := input.now
  updatedAt := input.now

/-! ## `saveAndPublish` -/

/-- The callback that does the work of the job again on the mission that was loaded last. -/
def Job.reapply (input : Input) (m : Mission) : Job → Mission × OpResult
  | .plan newPlan tasks =>
    if input.capable then applyPlan newPlan tasks input.now m else (m, .fail "Missing agent")
  | .start task _ => startTask m task.id input.now
  | .result task answer =>
    match answer.status with
    | .completed => completeTask m task.id answer.outcome.toJson input.now
    | .awaitingApproval =>
      andThen (markTaskAwaitingApproval m task.id (approvalGate task.id) input.now) fun m =>
        pause m (awaitingApproval task.id) input.now
    | .failed | .timedOut | .cancelled =>
      andThen (failTask m task.id answer.outcome.summary input.now)
        (blockExecuting task.id answer input.now)
    | _ => (m, .ok)
  | .completion _ => complete? input.now m

/-- What the call does with the mission `saveAndPublish` returns. -/
def Job.next (call : Call) (m : Mission) : Job → Pc
  | .plan _ _ => .load (.mission 0)
  | .start task executionId =>
    if aborted m task.id then .loadResult call task (pausedResult executionId)
    else .resolve call task executionId
  | .result task _ =>
    match call with
    | .missionStep => .loadStatus task.id
    | .mission iterations => .load (.mission iterations)
  | .completion status =>
    .returned (match call with | .missionStep => some status | .mission _ => none) none

/-! ## Operators and approvers -/

/-- `pauseMission`, `resumeMission` and `cancelMission` on the mission they loaded. -/
def Control.decide (c : Control) (m : Mission) (attempt : Nat) (now : Date) : Pc :=
  match c with
  | pause reason =>
    if m.state.status = .paused then .returned none none
    else if m.state.status ≠ .planning ∧ m.state.status ≠ .executing then .threw
    else orThrow (Mission.pause m reason now) fun m => .saveControl c m attempt
  | resume =>
    if m.state.status = .executing then .returned none none
    else if m.state.status ≠ .paused then .threw
    else orThrow (Mission.resume m now) fun m => .saveControl c m attempt
  | cancel reason =>
    if Mission.isTerminal m.state.status then .returned none none
    else orThrow (Mission.cancel m reason now) fun m => .saveControl c m attempt

def Decision.apply (d : Decision) (a : Approval) (now : Date) : Approval × OpResult :=
  match d with
  | approve actorId reason => Approval.approve a actorId reason now
  | reject actorId reason => Approval.reject a actorId reason now
  | expire => Approval.expire a now

/-! ## One step -/

/-- The save of `saveAndPublish`. -/
def saveAndPublish (call : Call) (job : Job) (current : Mission) (attempt : Nat) (input : Input)
    (w : World) : World × Pc :=
  match w.save current with
  | some w' =>
    (w', if input.unpublished then .threw else job.next call (current.setVersion current.version))
  | none => (w, if attempt < 2 then .reloading call job attempt else .threw)

/-- The reload of `saveAndPublish` after a conflict. -/
def reloadAndReapply (call : Call) (job : Job) (attempt : Nat) (input : Input) (w : World) : Pc :=
  match job.reapply input w.load with
  | (m, .ok) => .saving call job m (attempt + 1)
  -- the state already satisfies or conflicts with what was intended
  | (m, _) => job.next call m

/-- One step that does not throw. -/
def proceed (i : Nat) (input : Input) (w : World) : Pc → World × Pc
  | .plan => (w, planMission w.load input)
  | .load .missionStep => (w, executeLoaded .missionStep w.load input)
  | .load (.mission iterations) =>
    (w, if iterations < maxIterations then executeLoaded (.mission (iterations + 1)) w.load input
      else .returned none none)
  | .saving call job current attempt => saveAndPublish call job current attempt input w
  | .reloading call job attempt => (w, reloadAndReapply call job attempt input w)
  | .resolve call task executionId => (w, .execute call task executionId)
  | .execute call task _ =>
    ({ w with log := .executed i task.id :: w.log },
      match input.result with
      | some result => .loadResult call task result
      | none => .threw)
  | .loadResult call task result =>
    let task := (findTask w.mission.payload.tasks task.id).getD task
    (w, handleTaskResult call w.load task result input.now)
  | .requestApproval call task result m =>
    (w, match Approval.create (approvalProps w.mission.payload task result input) with
      | .ok approval => .saveApproval call task result m approval
      | .error _ => .threw)
  | .saveApproval call task result m approval =>
    match w.approvals.save approval.state.id approval with
    | some approvals => ({ w with approvals }, .notify call task result m)
    | none => (w, .threw)
  | .notify call task result m =>
    (w, orThrow (pause m (awaitingApproval task.id) input.now) fun m =>
      .saving call (.result task result) m 0)
  | .compensate call task result m =>
    (w, orThrow (blockExecuting task.id result input.now m) fun m =>
      .saving call (.result task result) m 0)
  | .loadStatus taskId => (w, .returned (some w.mission.payload.status) (some taskId))
  | .control c attempt => (w, c.decide w.load attempt input.now)
  | .saveControl c m attempt =>
    match w.save m with
    | some w' => (w', if input.unpublished then .threw else .returned none none)
    | none => (w, if attempt < 2 then .control c (attempt + 1) else .threw)
  | .decide approvalId d =>
    (w, match w.approvals.find approvalId with
      | none => .threw
      | some row =>
        match d.apply (.reconstitute row.payload row.version) input.now with
        | (a, .ok) => .saveDecision a
        | _ => .threw)
  | .saveDecision a =>
    match w.approvals.save a.state.id a with
    | some approvals => ({ w with approvals }, .returned none none)
    | none => (w, .threw)
  | .returned status taskId => (w, .returned status taskId)
  | .threw => (w, .threw)

/-- One step of a call; an operation that throws leaves the world alone. -/
def next : Stepper World Pc Input := fun i input w p =>
  if input.fault then (w, .threw) else proceed i input w p

/-! ## Runs -/

/-- The calls there are. -/
inductive Start where
  | executeMission
  | executeMissionStep
  | control (control : Control)
  | decide (approvalId : String) (decision : Decision)

def Start.pc : Start → Pc
  | executeMission => .plan
  | executeMissionStep => .load .missionStep
  | control c => .control c 0
  | decide approvalId d => .decide approvalId d

/-- A mission the repository can hold: the key of `mission.tasks` tells its tasks apart. -/
structure StoredMission where
  row : Row Props
  distinct : (row.payload.tasks.map (·.id)).Nodup

/-- Nothing has run yet. -/
def init (mission : StoredMission) (approvals : Table String Approval.Props)
    (calls : Nat → Start) : Interleave.Config World Pc :=
  ⟨{ mission := mission.row, approvals }, fun i => (calls i).pc⟩

/-! ## A sample -/

/-- A mission in EXECUTING with one task to do. -/
def executingMission : StoredMission where
  row := ⟨{ Mission.sampleMission with
    status := .executing
    tasks := [.init (Mission.sampleTask "research" [])] }, 3⟩
  distinct := by decide

end VegaRevenue.MissionExecution
