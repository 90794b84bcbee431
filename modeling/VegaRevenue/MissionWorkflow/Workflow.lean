import VegaRevenue.Domain.Mission
import VegaRevenue.Lib.Machine
import VegaRevenue.Lib.Slot

/-!
# The mission workflow

`MissionWorkflow` as a machine. Signals come at any time and write a variable each; between two
awaits the workflow runs without a break. An event is a signal, the end of the activity that is
awaited, or a look at the condition of a pause.

* `step` — what one event does
-/

namespace VegaRevenue.MissionWorkflow

/-! ## Signals, activities and events -/

structure TenantContext where
  tenantId : String
  workspaceId : String
  userId : String
  correlationId : String
deriving DecidableEq

structure Input extends TenantContext where
  missionId : String

structure Status where
  missionId : String
  status : Mission.Status
  currentTaskId : Option String := none
deriving DecidableEq

inductive Decision where
  | approved
  | rejected
  | expired
deriving DecidableEq

structure ApprovalDecisionSignal where
  approvalId : String
  decision : Decision
  reason : String
deriving DecidableEq

inductive ControlAction where
  | pause
  | resume
  | cancel
  | replan
deriving DecidableEq

structure MissionControlSignal where
  action : ControlAction
  reason : Option String := none
deriving DecidableEq

/-- An activity that the workflow starts. -/
inductive Command where
  | planMission (ctx : TenantContext) (missionId : String)
  | executeMissionStep (ctx : TenantContext) (missionId : String)
  | replanMission (ctx : TenantContext) (missionId : String)
  | checkpoint (ctx : TenantContext) (missionId : String)
deriving DecidableEq

/-- The decisions that an activity is given. The context and the mission's id are all that any of
the four is called with. -/
def Command.decisions : Command → List ApprovalDecisionSignal
  | planMission _ _ | executeMissionStep _ _ | replanMission _ _ | checkpoint _ _ => []

/-- What `executeMissionStep` returns. -/
structure StepResult where
  missionId : String
  status : Mission.Status
  completedTaskId : Option String := none

inductive Event where
  | control (request : MissionControlSignal)
  | approvalDecision (decision : ApprovalDecisionSignal)
  | plannedMission
  | replannedMission
  | checkpointed
  | executedStep (result : StepResult)
  /-- The condition of a pause is looked at, after the signals that came together. -/
  | wake
  /-- The last of three attempts of the activity failed. -/
  | activityFailed

/-! ## States -/

inductive Outcome where
  | returned
  | threw
deriving DecidableEq

/-- Where the workflow awaits. -/
inductive Pc where
  | planMission
  | paused
  | replanMission
  | checkpoint
  | executeMissionStep
  | ended (outcome : Outcome)
deriving DecidableEq

def Pc.isEnded : Pc → Bool
  | ended _ => true
  | _ => false

/-- The start of an activity, with the control requests that had come by then, latest first. -/
structure Start where
  command : Command
  requests : List MissionControlSignal
deriving DecidableEq

/-- The variables of the workflow; `status` is what the query answers. The last field and those of
the slots but `current` are history, which the workflow does not read; a control request counts as
read when the loop acts on it. -/
structure State where
  pc : Pc
  status : Status
  pendingApproval : Slot Unit ApprovalDecisionSignal
  controlRequest : Slot Unit MissionControlSignal
  starts : List Start

/-! ## The workflow -/

section

variable (input : Input)

/-- An activity is started and awaited. -/
def launch (s : State) (pc : Pc) (command : Command) : State × List Command :=
  ({ s with pc, starts := ⟨command, s.controlRequest.received⟩ :: s.starts }, [command])

/-- The variables go with the workflow. -/
def finish (s : State) (outcome : Outcome) : State :=
  { s with
    pc := .ended outcome
    pendingApproval := s.pendingApproval.clear ()
    controlRequest := s.controlRequest.clear () }

def setStatus (s : State) (status : Mission.Status) : State :=
  { s with status := { s.status with status } }

/-- The rest of an iteration without a control request, up to its first await. -/
def proceed (s : State) : State × List Command :=
  launch { s with pendingApproval := s.pendingApproval.clear () } .checkpoint
    (.checkpoint input.toTenantContext input.missionId)

/-- The head of the loop. -/
def iterate (s : State) : State × List Command :=
  match s.controlRequest.current with
  | none => proceed input s
  | some request =>
    match request.action with
    | .cancel =>
      (finish { setStatus s .cancelled with controlRequest := s.controlRequest.take } .returned, [])
    | .pause =>
      ({ setStatus s .paused with
          pc := .paused
          controlRequest := s.controlRequest.take.clear () }, [])
    | .replan =>
      launch { s with controlRequest := s.controlRequest.take } .replanMission
        (.replanMission input.toTenantContext input.missionId)
    | .resume =>
      -- the loop goes round once more, with nothing in the variable
      proceed input
        { setStatus s .executing with controlRequest := s.controlRequest.take.clear () }

/-- `TERMINAL_STATUSES`. -/
def terminalStatuses : List Mission.Status := [.completed, .failed, .cancelled, .archived]

/-- After `executeMissionStep`. -/
def onStep (s : State) (result : StepResult) : State × List Command :=
  let s := { s with
    status := { missionId := result.missionId, status := result.status
                currentTaskId := result.completedTaskId } }
  if result.status ∈ terminalStatuses then (finish s .returned, []) else iterate input s

/-- The workflow goes on after the end of what it awaited. -/
def resume (s : State) : Event → State × List Command
  | .plannedMission =>
    match s.pc with
    | .planMission => iterate input (setStatus s .executing)
    | _ => (s, [])
  | .replannedMission =>
    match s.pc with
    | .replanMission =>
      iterate input
        { setStatus s .executing with controlRequest := s.controlRequest.clear () }
    | _ => (s, [])
  | .checkpointed =>
    match s.pc with
    | .checkpoint =>
      launch s .executeMissionStep
        (.executeMissionStep input.toTenantContext input.missionId)
    | _ => (s, [])
  | .executedStep result =>
    match s.pc with
    | .executeMissionStep => onStep input s result
    | _ => (s, [])
  | .wake =>
    match s.pc, s.controlRequest.current with
    | .paused, some _ => iterate input s
    | _, _ => (s, [])
  | .activityFailed =>
    match s.pc with
    | .planMission | .replanMission | .checkpoint | .executeMissionStep => (finish s .threw, [])
    | _ => (s, [])
  | _ => (s, [])

/-- A signal runs its handler at once; nothing reaches a workflow that ended. -/
def step : Machine.Step State Event (List Command) := fun s event =>
  if s.pc.isEnded then (s, [])
  else
    match event with
    | .control request => ({ s with controlRequest := s.controlRequest.put () request }, [])
    | .approvalDecision decision =>
      ({ s with pendingApproval := s.pendingApproval.put () decision }, [])
    | event => resume input s event

/-- The workflow up to its first await. -/
def start : State :=
  (launch {
    pc := .planMission, status := { missionId := input.missionId, status := .planning }
    pendingApproval := .empty, controlRequest := .empty, starts := [] } .planMission
    (.planMission input.toTenantContext input.missionId)).1

end

end VegaRevenue.MissionWorkflow
