import VegaRevenue.Domain.OutreachValues
import VegaRevenue.Lib.Versioned

/-!
# The sequence aggregate

The steps a recipient is led through. `currentStepIndex` counts the completed ones.
-/

namespace VegaRevenue.Sequence

inductive Status where
  | draft
  | pendingApproval
  | approved
  | running
  | waiting
  | paused
  | completed
  | cancelled
  | failed
deriving DecidableEq

def Status.name : Status → String
  | draft => "DRAFT"
  | pendingApproval => "PENDING_APPROVAL"
  | approved => "APPROVED"
  | running => "RUNNING"
  | waiting => "WAITING"
  | paused => "PAUSED"
  | completed => "COMPLETED"
  | cancelled => "CANCELLED"
  | failed => "FAILED"

/-- `SEQUENCE_STATE_TRANSITIONS`. -/
def Status.transitions : Status → List Status
  | draft => [pendingApproval, cancelled]
  | pendingApproval => [approved, cancelled]
  | approved => [running, cancelled]
  | running => [waiting, paused, completed, cancelled, failed]
  | waiting => [running, paused, completed, cancelled, failed]
  | paused => [running, cancelled]
  | completed => []
  | cancelled => []
  | failed => []

def canTransition (source target : Status) : Bool := target ∈ source.transitions

structure Props where
  id : String
  tenantId : String
  workspaceId : String
  campaignId : String
  leadId : String
  contactId : String
  recipientFingerprint : Option String := none
  recipientCiphertext : Option String := none
  recipientProtectionState : RecipientProtectionState
  steps : List SequenceStep
  status : Status := .draft
  currentStepIndex : Nat := 0
  nextDueAt : Option Date := none
  responseDeadlineAt : Option Date := none
  workflowId : Option String := none
  workflowStartedAt : Option Date := none
  createdAt : Date
  updatedAt : Date
deriving DecidableEq

/-- The payloads of the events. -/
inductive Event where
  | created (sequenceId campaignId leadId : String) (stepCount : Nat)
  | statusChanged (sequenceId campaignId : String) (source target : Status)
      (reason decidedBy : Option String)
  | stepStarted (sequenceId campaignId : String) (stepNumber : Nat) (executionId : String)
  | stepCompleted (sequenceId campaignId : String) (stepNumber : Nat) (executionId : String)
      (nextStepNumber : Option Nat) (nextDueAt : Option Date)
  | stepFailed (sequenceId campaignId : String) (stepNumber : Nat) (executionId reason : String)
      (retryable : Bool)
  | workflowLinked (sequenceId workflowId : String)
deriving DecidableEq

end Sequence

/-- `OutreachSequence`. -/
abbrev Sequence := Versioned.Aggregate Sequence.Props Sequence.Event

namespace Sequence

/-- The message of the `TypeError` that reading `stepNumber` of a missing step throws. -/
def missingStep : String := "Cannot read properties of undefined (reading 'stepNumber')"

/-- `OutreachSequence.create`; the error it throws otherwise. -/
def create (props : Props) (campaignRecipientFingerprint : Option String) :
    Except String Sequence :=
  if props.contactId = "" then .error "Contact is required"
  else
    match assertProtectedRecipientSnapshot props.recipientFingerprint props.recipientCiphertext
        props.recipientProtectionState with
    | some message => .error message
    | none =>
      if campaignRecipientFingerprint ≠ none ∧
          campaignRecipientFingerprint ≠ props.recipientFingerprint then
        .error "Campaign and Sequence recipient fingerprints must match"
      else if props.steps = [] then .error "Sequence must have at least one step"
      else
        let sequence : Sequence := .init { props with status := .draft }
        .ok (sequence.applyEvent
          (.created props.id props.campaignId props.leadId props.steps.length))

def transition (a : Sequence) (target : Status) (reason decidedBy : Option String) (now : Date) :
    Sequence × OpResult :=
  if canTransition a.state.status target then
    ((a.write { a.state with status := target, updatedAt := now }).applyEvent
      (.statusChanged a.state.id a.state.campaignId a.state.status target reason decidedBy), .ok)
  else
    (a, .fail ("Cannot transition sequence from " ++ a.state.status.name ++ " to " ++ target.name))

def submitForApproval (a : Sequence) (now : Date) : Sequence × OpResult :=
  transition a .pendingApproval (some "Submitted for approval") none now

def approve (a : Sequence) (decidedBy reason : String) (now : Date) : Sequence × OpResult :=
  transition a .approved (some reason) (some decidedBy) now

def reject (a : Sequence) (decidedBy reason : String) (now : Date) : Sequence × OpResult :=
  transition a .cancelled (some ("Rejected: " ++ reason)) (some decidedBy) now

def start (a : Sequence) (now : Date) : Sequence × OpResult :=
  transition a .running (some "Sequence started") none now

def startStep (a : Sequence) (executionId : String) (scheduledAt : Date) : Sequence × OpResult :=
  if a.state.status ≠ .running then (a, .fail "Sequence must be RUNNING to start a step")
  else
    match a.state.steps[a.state.currentStepIndex]? with
    | none => (a, .fail "No more steps to start")
    | some step =>
      if a.state.nextDueAt.any (scheduledAt < ·) then
        (a, .fail "Step cannot start before scheduled time")
      else
        (a.applyEvent (.stepStarted a.state.id a.state.campaignId step.stepNumber executionId), .ok)

/-- Counts the current step as completed. The index moves before the step is read, so past the
last step the operation throws with the index moved. -/
def completeStep (a : Sequence) (executionId : String) (nextDueAt : Option Date) (now : Date) :
    Sequence × OpResult :=
  if a.state.status ≠ .running then (a, .fail "Sequence must be RUNNING to complete a step")
  else
    let next := a.state.currentStepIndex + 1
    let b := a.write { a.state with currentStepIndex := next, nextDueAt }
    match a.state.steps[a.state.currentStepIndex]? with
    | none => (b, .threw missingStep)
    | some step =>
      let c := b.applyEvent (.stepCompleted a.state.id a.state.campaignId step.stepNumber
        executionId (a.state.steps[next]?.map SequenceStep.stepNumber) nextDueAt)
      if next < a.state.steps.length then (c, .ok)
      else transition c .completed (some "All steps completed") none now

def failStep (a : Sequence) (executionId reason : String) (retryable : Bool) (now : Date) :
    Sequence × OpResult :=
  if a.state.status ≠ .running then (a, .fail "Sequence must be RUNNING to fail a step")
  else
    match a.state.steps[a.state.currentStepIndex]? with
    | none => (a, .threw missingStep)
    | some step =>
      let b := a.applyEvent (.stepFailed a.state.id a.state.campaignId step.stepNumber executionId
        reason retryable)
      if retryable then (b, .ok) else transition b .failed (some reason) none now

def pause (a : Sequence) (reason : String) (now : Date) : Sequence × OpResult :=
  transition a .paused (some reason) none now

def resume (a : Sequence) (now : Date) : Sequence × OpResult :=
  transition a .running (some "Sequence resumed") none now

def waitForResponse (a : Sequence) (deadline : Date) (now : Date) : Sequence × OpResult :=
  if a.state.status ≠ .running then (a, .fail "Sequence must be RUNNING to wait for response")
  else
    transition (a.write { a.state with responseDeadlineAt := some deadline }) .waiting
      (some "Awaiting recipient response") none now

def continueAfterResponse (a : Sequence) (now : Date) : Sequence × OpResult :=
  transition (a.write { a.state with responseDeadlineAt := none }) .running
    (some "Response received or timeout") none now

def linkWorkflow (a : Sequence) (workflowId : String) (now : Date) : Sequence × OpResult :=
  if !blank a.state.workflowId ∧ a.state.workflowId ≠ some workflowId then
    (a, .fail ("Sequence already linked to workflow " ++ a.state.workflowId.getD ""))
  else
    ((a.write { a.state with
        workflowId := some workflowId, workflowStartedAt := some now, updatedAt := now }).applyEvent
      (.workflowLinked a.state.id workflowId), .ok)

def cancel (a : Sequence) (reason : String) (now : Date) : Sequence × OpResult :=
  transition a .cancelled (some reason) none now

/-! ## What an operation does -/

/-- A transition either moves the status and the version, or changes nothing and fails. -/
theorem transition_eq (a : Sequence) (target : Status) (reason decidedBy : Option String)
    (now : Date) :
    (canTransition a.state.status target = true ∧
      (transition a target reason decidedBy now).2 = .ok ∧
      (transition a target reason decidedBy now).1.version = a.version + 1 ∧
      (transition a target reason decidedBy now).1.loadedVersion = a.loadedVersion ∧
      (transition a target reason decidedBy now).1.state =
        { a.state with status := target, updatedAt := now }) ∨
    (canTransition a.state.status target = false ∧
      (transition a target reason decidedBy now).2.success = false ∧
      (transition a target reason decidedBy now).1 = a) := by
  unfold transition
  cases canTransition a.state.status target with
  | true => left; exact ⟨rfl, rfl, rfl, rfl, rfl⟩
  | false => right; exact ⟨rfl, rfl, rfl⟩

/-- The fields no operation changes and no load overrides. -/
structure Plan where
  campaignId : String
  recipientFingerprint : Option String
  steps : List SequenceStep
deriving DecidableEq

def Props.plan (s : Props) : Plan := ⟨s.campaignId, s.recipientFingerprint, s.steps⟩

/-- `b` is `a` after operations that complete no step. -/
structure Keeps (a b : Sequence) : Prop where
  loadedVersion : b.loadedVersion = a.loadedVersion
  version_le : a.version ≤ b.version
  index : b.state.currentStepIndex = a.state.currentStepIndex
  id : b.state.id = a.state.id
  plan : b.state.plan = a.state.plan

theorem Keeps.refl (a : Sequence) : Keeps a a := ⟨rfl, Nat.le_refl _, rfl, rfl, rfl⟩

theorem transition_keeps (a : Sequence) (target : Status) (reason decidedBy : Option String)
    (now : Date) : Keeps a (transition a target reason decidedBy now).1 := by
  unfold transition
  split
  · exact ⟨rfl, Nat.le_succ _, rfl, rfl, rfl⟩
  · exact Keeps.refl a

theorem write_transition_keeps (a : Sequence) {s : Props}
    (hi : s.currentStepIndex = a.state.currentStepIndex) (hid : s.id = a.state.id)
    (hp : s.plan = a.state.plan) (target : Status) (reason decidedBy : Option String) (now : Date) :
    Keeps a (transition (a.write s) target reason decidedBy now).1 := by
  obtain ⟨hl, hv, hindex, hid', hplan⟩ := transition_keeps (a.write s) target reason decidedBy now
  exact ⟨hl, hv, hindex.trans hi, hid'.trans hid, hplan.trans hp⟩

theorem startStep_keeps (a : Sequence) (executionId : String) (scheduledAt : Date) :
    Keeps a (startStep a executionId scheduledAt).1 := by
  unfold startStep
  split
  · exact Keeps.refl a
  · split
    · exact Keeps.refl a
    · split
      · exact Keeps.refl a
      · exact ⟨rfl, Nat.le_succ _, rfl, rfl, rfl⟩

theorem failStep_keeps (a : Sequence) (executionId reason : String) (retryable : Bool)
    (now : Date) : Keeps a (failStep a executionId reason retryable now).1 := by
  unfold failStep
  split
  · exact Keeps.refl a
  · split
    · exact Keeps.refl a
    next step _ =>
      dsimp only
      split
      · exact ⟨rfl, Nat.le_succ _, rfl, rfl, rfl⟩
      · have h := transition_keeps (a.applyEvent (.stepFailed a.state.id a.state.campaignId
          step.stepNumber executionId reason retryable)) .failed (some reason) none now
        exact ⟨h.loadedVersion, Nat.le_trans (Nat.le_succ _) h.version_le, h.index, h.id, h.plan⟩

theorem waitForResponse_keeps (a : Sequence) (deadline now : Date) :
    Keeps a (waitForResponse a deadline now).1 := by
  unfold waitForResponse
  split
  · exact Keeps.refl a
  · exact write_transition_keeps a (by rfl) (by rfl) (by rfl) _ _ _ now

theorem continueAfterResponse_keeps (a : Sequence) (now : Date) :
    Keeps a (continueAfterResponse a now).1 :=
  write_transition_keeps a (by rfl) (by rfl) (by rfl) _ _ _ now

theorem linkWorkflow_keeps (a : Sequence) (workflowId : String) (now : Date) :
    Keeps a (linkWorkflow a workflowId now).1 := by
  unfold linkWorkflow
  split
  · exact Keeps.refl a
  · exact ⟨rfl, Nat.le_succ _, rfl, rfl, rfl⟩

/-- A step is completed only while RUNNING, and then the version moves with the index. -/
theorem completeStep_cases (a : Sequence) (executionId : String) (nextDueAt : Option Date)
    (now : Date) :
    (a.state.status ≠ .running ∧
      ∃ message, completeStep a executionId nextDueAt now = (a, .fail message)) ∨
    (a.state.status = .running ∧ a.state.steps.length ≤ a.state.currentStepIndex ∧
      (completeStep a executionId nextDueAt now).2 = .threw missingStep) ∨
    (a.state.status = .running ∧ a.state.currentStepIndex < a.state.steps.length ∧
      (completeStep a executionId nextDueAt now).2 = .ok ∧
      (completeStep a executionId nextDueAt now).1.loadedVersion = a.loadedVersion ∧
      a.version < (completeStep a executionId nextDueAt now).1.version ∧
      (completeStep a executionId nextDueAt now).1.state.currentStepIndex =
        a.state.currentStepIndex + 1 ∧
      (completeStep a executionId nextDueAt now).1.state.id = a.state.id ∧
      (completeStep a executionId nextDueAt now).1.state.plan = a.state.plan) := by
  unfold completeStep
  by_cases hr : a.state.status = .running
  · rw [if_neg (not_not_intro hr)]
    dsimp only
    right
    cases hstep : a.state.steps[a.state.currentStepIndex]? with
    | none => exact .inl ⟨hr, List.getElem?_eq_none_iff.mp hstep, rfl⟩
    | some step =>
      obtain ⟨hlt, -⟩ := List.getElem?_eq_some_iff.mp hstep
      refine .inr ⟨hr, hlt, ?_⟩
      dsimp only
      split
      · exact ⟨rfl, rfl, Nat.lt_succ_self _, rfl, rfl, rfl⟩
      · -- the last step completes the sequence, which RUNNING allows
        unfold transition
        rw [if_pos (by simp [hr, canTransition, Status.transitions])]
        exact ⟨rfl, rfl, Nat.lt_succ_of_lt (Nat.lt_succ_self _), rfl, rfl, rfl⟩
  · rw [if_pos hr]
    exact .inl ⟨hr, _, rfl⟩

end VegaRevenue.Sequence
