import VegaRevenue.Domain.Mission

/-!
# The approval aggregate
-/

namespace VegaRevenue.Approval

inductive Status where
  | pending
  | approved
  | rejected
  | expired
  | escalated
deriving DecidableEq

def Status.name : Status → String
  | pending => "PENDING"
  | approved => "APPROVED"
  | rejected => "REJECTED"
  | expired => "EXPIRED"
  | escalated => "ESCALATED"

/-- `APPROVAL_STATE_TRANSITIONS`. -/
def Status.transitions : Status → List Status
  | pending => [approved, rejected, expired, escalated]
  | escalated => [approved, rejected, expired]
  | approved => []
  | rejected => []
  | expired => []

/-- `canTransitionApproval`. -/
def canTransition (source target : Status) : Bool := target ∈ source.transitions

structure Props where
  id : String
  tenantId : String
  workspaceId : Option String := none
  workspaceBindingState : Mission.WorkspaceBindingState := .legacyUnbound
  missionId : String
  sequenceId : Option String := none
  taskId : Option String := none
  executionId : Option String := none
  actionType : String
  riskCategory : String
  proposedAction : List Json
  evidence : List Json
  reasoning : String
  confidence : Rat
  requestedBy : String
  approverRole : String
  timeoutSeconds : Rat
  idempotencyKey : String
  status : Status := .pending
  decidedBy : Option String := none
  decisionReason : Option String := none
  createdAt : Date
  updatedAt : Date

/-- The payloads of the events. -/
inductive Event where
  | requested (approvalId missionId : String) (sequenceId taskId executionId : Option String)
      (actionType : String)
  | statusChanged (approvalId missionId : String) (status : Status)
      (decidedBy : Option String) (decisionReason : String)

end Approval

/-- `Approval`. -/
abbrev Approval := Versioned.Aggregate Approval.Props Approval.Event

namespace Approval

/-- `Approval.create`; the message of its refusal otherwise. -/
def create (props : Props) : Except String Approval :=
  if props.workspaceBindingState ≠ .workspaceBound ∨ blank props.workspaceId then
    .error "New Approval requires parent Mission workspace ownership"
  else
    let approval : Approval := .init props
    .ok (approval.applyEvent (.requested props.id props.missionId props.sequenceId props.taskId
      props.executionId props.actionType))

def transition (a : Approval) (status : Status) (decidedBy : Option String) (reason : String)
    (now : Date) : Approval × OpResult :=
  if canTransition a.state.status status then
    ((a.write { a.state with
        status, decidedBy, decisionReason := some reason, updatedAt := now }).applyEvent
      (.statusChanged a.state.id a.state.missionId status decidedBy reason), .ok)
  else
    (a, .fail ("Cannot transition approval from " ++ a.state.status.name ++ " to " ++ status.name))

def approve (a : Approval) (decidedBy reason : String) (now : Date) : Approval × OpResult :=
  transition a .approved (some decidedBy) reason now

def reject (a : Approval) (decidedBy reason : String) (now : Date) : Approval × OpResult :=
  transition a .rejected (some decidedBy) reason now

def expire (a : Approval) (now : Date) : Approval × OpResult :=
  transition a .expired none "Approval timeout exceeded" now

end Approval

end VegaRevenue
