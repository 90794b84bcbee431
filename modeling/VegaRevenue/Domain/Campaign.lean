import VegaRevenue.Domain.OutreachValues
import VegaRevenue.Lib.Versioned

/-!
# The campaign aggregate

The budget of the sends to one lead. Spending moves `sentCount` and `spentCostUsd` without an
event.
-/

namespace VegaRevenue.Campaign

inductive Status where
  | draft
  | pendingApproval
  | approved
  | running
  | paused
  | completed
  | cancelled
deriving DecidableEq

def Status.name : Status → String
  | draft => "DRAFT"
  | pendingApproval => "PENDING_APPROVAL"
  | approved => "APPROVED"
  | running => "RUNNING"
  | paused => "PAUSED"
  | completed => "COMPLETED"
  | cancelled => "CANCELLED"

/-- `CAMPAIGN_STATE_TRANSITIONS`. -/
def Status.transitions : Status → List Status
  | draft => [pendingApproval, cancelled]
  | pendingApproval => [approved, cancelled]
  | approved => [running, cancelled]
  | running => [paused, completed, cancelled]
  | paused => [running, cancelled]
  | completed => []
  | cancelled => []

def canTransition (source target : Status) : Bool := target ∈ source.transitions

/-- `CampaignBudget`; an absent limit does not bind. -/
structure Budget where
  maxSendCount : Option Int := none
  maxCostUsd : Option Rat := none
deriving DecidableEq

structure Props where
  id : String
  tenantId : String
  workspaceId : String
  missionId : Option String := none
  leadId : String
  contactId : String
  recipientFingerprint : Option String := none
  recipientProtectionState : RecipientProtectionState
  channel : OutreachChannel
  steps : List SequenceStep
  budget : Budget := {}
  status : Status := .draft
  sentCount : Int := 0
  spentCostUsd : Rat := 0
  createdAt : Date
  updatedAt : Date
deriving DecidableEq

/-- The payloads of the events. -/
inductive Event where
  | created (campaignId : String) (missionId : Option String) (leadId : String)
      (channel : OutreachChannel)
  | statusChanged (campaignId : String) (source target : Status) (reason : Option String)
      (decidedBy : Option String)
deriving DecidableEq

end Campaign

/-- `OutreachCampaign`. -/
abbrev Campaign := Versioned.Aggregate Campaign.Props Campaign.Event

namespace Campaign

/-- `OutreachCampaign.create`; the error it throws otherwise. -/
def create (props : Props) : Except String Campaign :=
  if props.contactId = "" then .error "Contact and channel are required"
  else
    match assertProtectedRecipient props.recipientFingerprint props.recipientProtectionState with
    | some message => .error message
    | none =>
      if props.steps = [] then .error "Campaign must have at least one sequence step"
      else
        let campaign : Campaign := .init { props with status := .draft }
        .ok (campaign.applyEvent (.created props.id props.missionId props.leadId props.channel))

def transition (a : Campaign) (target : Status) (reason decidedBy : Option String) (now : Date) :
    Campaign × OpResult :=
  if canTransition a.state.status target then
    ((a.write { a.state with status := target, updatedAt := now }).applyEvent
      (.statusChanged a.state.id a.state.status target reason decidedBy), .ok)
  else
    (a, .fail ("Cannot transition campaign from " ++ a.state.status.name ++ " to " ++ target.name))

def submitForApproval (a : Campaign) (now : Date) : Campaign × OpResult :=
  transition a .pendingApproval (some "Submitted for approval") none now

def approve (a : Campaign) (decidedBy reason : String) (now : Date) : Campaign × OpResult :=
  transition a .approved (some reason) (some decidedBy) now

def reject (a : Campaign) (decidedBy reason : String) (now : Date) : Campaign × OpResult :=
  transition a .cancelled (some ("Rejected: " ++ reason)) (some decidedBy) now

def start (a : Campaign) (now : Date) : Campaign × OpResult :=
  transition a .running (some "Campaign started") none now

def pause (a : Campaign) (reason : String) (now : Date) : Campaign × OpResult :=
  transition a .paused (some reason) none now

def resume (a : Campaign) (now : Date) : Campaign × OpResult :=
  transition a .running (some "Campaign resumed") none now

def complete (a : Campaign) (now : Date) : Campaign × OpResult :=
  transition a .completed (some "Campaign completed") none now

def cancel (a : Campaign) (reason : String) (now : Date) : Campaign × OpResult :=
  transition a .cancelled (some reason) none now

/-- The budget allows spending this much more. -/
def Props.affords (s : Props) (sendCount : Int) (costUsd : Rat) : Bool :=
  s.budget.maxSendCount.all (fun limit => s.sentCount + sendCount ≤ limit) &&
    s.budget.maxCostUsd.all (fun limit => s.spentCostUsd + costUsd ≤ limit)

/-- Spends, where the budget allows it. It raises no event. -/
def recordSpend (a : Campaign) (sendCount : Int) (costUsd : Rat) : Campaign × Bool :=
  if a.state.affords sendCount costUsd then
    (a.write { a.state with
      sentCount := a.state.sentCount + sendCount
      spentCostUsd := a.state.spentCostUsd + costUsd }, true)
  else (a, false)

/-- `campaign.spentCostUsd += costUsd`, as the send service writes it. It raises no event. -/
def adjustSpentCost (a : Campaign) (costUsd : Rat) : Campaign :=
  a.write { a.state with spentCostUsd := a.state.spentCostUsd + costUsd }

/-! ## What an operation does -/

/-- A transition either moves the status and the version, or changes nothing and fails. -/
theorem transition_eq (a : Campaign) (target : Status) (reason decidedBy : Option String)
    (now : Date) :
    (canTransition a.state.status target = true ∧
      (transition a target reason decidedBy now).2 = .ok ∧
      (transition a target reason decidedBy now).1.version = a.version + 1 ∧
      (transition a target reason decidedBy now).1.loadedVersion = a.loadedVersion ∧
      (transition a target reason decidedBy now).1.state =
        { a.state with status := target, updatedAt := now }) ∨
    (canTransition a.state.status target = false ∧
      (transition a target reason decidedBy now).2.success = false ∧
      (transition a target reason decidedBy now).1 = a) := by
  unfold transition
  cases canTransition a.state.status target with
  | true => left; exact ⟨rfl, rfl, rfl, rfl, rfl⟩
  | false => right; exact ⟨rfl, rfl, rfl⟩

/-- The fields of the budget, what was spent of it, and the identity outlive a transition. -/
theorem transition_keeps (a : Campaign) (target : Status) (reason decidedBy : Option String)
    (now : Date) :
    (transition a target reason decidedBy now).1.state.id = a.state.id ∧
      (transition a target reason decidedBy now).1.state.budget = a.state.budget ∧
      (transition a target reason decidedBy now).1.state.sentCount = a.state.sentCount := by
  rcases transition_eq a target reason decidedBy now with ⟨-, -, -, -, h⟩ | ⟨-, -, h⟩ <;> rw [h] <;>
    exact ⟨rfl, rfl, rfl⟩

theorem recordSpend_keeps (a : Campaign) (sendCount : Int) (costUsd : Rat) :
    (recordSpend a sendCount costUsd).1.state.id = a.state.id ∧
      (recordSpend a sendCount costUsd).1.state.budget = a.state.budget := by
  unfold recordSpend
  split <;> exact ⟨rfl, rfl⟩

end VegaRevenue.Campaign
