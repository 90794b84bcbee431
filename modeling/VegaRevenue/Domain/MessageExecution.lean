import VegaRevenue.Domain.OutreachValues
import VegaRevenue.Lib.Versioned

/-!
# The message execution aggregate

One message of one step of a sequence, from its draft to the answer of its recipient. Operations
return the aggregate they leave behind together with their result; a field written before a check
fails stays written.

* `transition_eq` — a transition of the status either raises an event or changes nothing
-/

namespace VegaRevenue.MessageExecution

inductive Status where
  | pending
  | drafting
  | pendingApproval
  | approved
  | sending
  | providerAccepted
  | deliveryPending
  | delivered
  | opened
  | replied
  | bounced
  | failedPreSubmission
  | deliveryFailed
  | deliveryUnknown
  | requiresReconciliation
  | failed
  | cancelled
deriving DecidableEq

def Status.name : Status → String
  | pending => "PENDING"
  | drafting => "DRAFTING"
  | pendingApproval => "PENDING_APPROVAL"
  | approved => "APPROVED"
  | sending => "SENDING"
  | providerAccepted => "PROVIDER_ACCEPTED"
  | deliveryPending => "DELIVERY_PENDING"
  | delivered => "DELIVERED"
  | opened => "OPENED"
  | replied => "REPLIED"
  | bounced => "BOUNCED"
  | failedPreSubmission => "FAILED_PRE_SUBMISSION"
  | deliveryFailed => "DELIVERY_FAILED"
  | deliveryUnknown => "DELIVERY_UNKNOWN"
  | requiresReconciliation => "REQUIRES_RECONCILIATION"
  | failed => "FAILED"
  | cancelled => "CANCELLED"

/-- `MESSAGE_EXECUTION_STATE_TRANSITIONS`. -/
def Status.transitions : Status → List Status
  | pending => [drafting]
  | drafting => [pendingApproval, failed]
  | pendingApproval => [approved, failed]
  | approved => [sending]
  | sending => [providerAccepted, failedPreSubmission, deliveryUnknown, requiresReconciliation]
  | providerAccepted => [deliveryPending]
  | deliveryPending => [delivered, deliveryFailed, deliveryUnknown, requiresReconciliation]
  | delivered => [opened]
  | opened => [replied]
  | _ => []

def canTransition (source target : Status) : Bool := target ∈ source.transitions

structure Props where
  id : String
  tenantId : String
  workspaceId : String
  campaignId : String
  sequenceId : String
  stepNumber : Nat
  leadId : String
  contactId : String
  recipientFingerprint : Option String := none
  recipientCiphertext : Option String := none
  recipientProtectionState : RecipientProtectionState
  channel : OutreachChannel
  idempotencyKey : String
  messageId : Option String := none
  draft : Option MessageDraft := none
  status : Status := .pending
  approvalId : Option String := none
  providerId : Option String := none
  providerMessageId : Option String := none
  internetMessageId : Option String := none
  attempts : Nat := 0
  lastError : Option String := none
  retryClassification : Option RetryClassification := none
  retryAfterMs : Option Nat := none
  providerErrorCode : Option String := none
  providerAcceptedAt : Option Date := none
  deliveredAt : Option Date := none
  deliveryFailedAt : Option Date := none
  failedAt : Option Date := none
  createdAt : Date
  updatedAt : Date
deriving DecidableEq

/-- The payloads of the events. -/
inductive Event where
  | created (executionId campaignId sequenceId : String) (stepNumber : Nat)
      (idempotencyKey : String)
  | statusChanged (executionId campaignId sequenceId : String) (source target : Status)
      (reason : Option String) (providerMessageId : Option String)
deriving DecidableEq

end MessageExecution

/-- `OutreachMessageExecution`. -/
abbrev MessageExecution := Versioned.Aggregate MessageExecution.Props MessageExecution.Event

namespace MessageExecution

/-- `OutreachMessageExecution.create`; the error it throws otherwise. -/
def create (props : Props) : Except String MessageExecution :=
  if props.contactId = "" then .error "Contact is required"
  else
    match assertProtectedRecipientSnapshot props.recipientFingerprint props.recipientCiphertext
        props.recipientProtectionState with
    | some message => .error message
    | none =>
      let execution : MessageExecution := .init { props with status := .pending }
      .ok (execution.applyEvent (.created props.id props.campaignId props.sequenceId
        props.stepNumber props.idempotencyKey))

/-- Changes the status and raises the event, where the table allows the move. -/
def transition (a : MessageExecution) (target : Status) (reason : Option String) (now : Date) :
    MessageExecution × OpResult :=
  if canTransition a.state.status target then
    ((a.write { a.state with status := target, updatedAt := now }).applyEvent
      (.statusChanged a.state.id a.state.campaignId a.state.sequenceId a.state.status target reason
        a.state.providerMessageId), .ok)
  else
    (a, .fail ("Cannot transition message execution from " ++ a.state.status.name ++ " to " ++
      target.name))

/-! ## The fields an operation writes before its transition is checked -/

def Props.withDraft (s : Props) (messageId : String) (draft : MessageDraft) : Props :=
  { s with messageId := some messageId, draft := some draft }

def Props.withAcceptance (s : Props)
    (providerMessageId internetMessageId providerErrorCode : Option String) (now : Date) : Props :=
  { s with
    providerMessageId, internetMessageId, providerErrorCode, providerAcceptedAt := some now }

def Props.withDelivery (s : Props) (internetMessageId : Option String) (now : Date) : Props :=
  { s with
    internetMessageId := if blank internetMessageId then s.internetMessageId else internetMessageId
    deliveredAt := some now }

def Props.withError (s : Props) (reason : String) : Props := { s with lastError := some reason }

/-- What `markFailed` writes in every branch. -/
def Props.withFailure (s : Props) (classification : RetryClassification) (reason : String)
    (providerErrorCode : Option String) (now : Date) : Props :=
  { s with
    retryClassification := some classification, lastError := some reason, providerErrorCode,
    failedAt := some now }

/-! ## The operations -/

def startDrafting (a : MessageExecution) (now : Date) : MessageExecution × OpResult :=
  transition a .drafting (some "Drafting started") now

def setDraft (a : MessageExecution) (messageId : String) (draft : MessageDraft) (now : Date) :
    MessageExecution × OpResult :=
  if a.state.status ≠ .drafting ∧ a.state.status ≠ .pending then
    (a, .fail "Draft can only be set while PENDING or DRAFTING")
  else
    transition (a.write (a.state.withDraft messageId draft)) .pendingApproval
      (some "Draft created and awaiting approval") now

def approve (a : MessageExecution) (approvalId : String) (now : Date) :
    MessageExecution × OpResult :=
  if a.state.status ≠ .pendingApproval then
    (a, .fail "Only PENDING_APPROVAL executions can be approved")
  else
    transition (a.write { a.state with approvalId := some approvalId }) .approved
      (some ("Approved via " ++ approvalId)) now

def reject (a : MessageExecution) (reason : String) (now : Date) : MessageExecution × OpResult :=
  if a.state.status ≠ .pendingApproval then
    (a, .fail "Only PENDING_APPROVAL executions can be rejected")
  else
    transition (a.write (a.state.withError reason)) .failed
      (some ("Rejected: " ++ reason)) now

def markSending (a : MessageExecution) (now : Date) : MessageExecution × OpResult :=
  transition a .sending (some "Sending to provider") now

/-- Counts an attempt. It raises no event. -/
def markProviderAttempt (a : MessageExecution) (providerId : String) (now : Date) :
    MessageExecution × OpResult :=
  if a.state.status ≠ .sending then
    (a, .threw "Can only record provider attempt while SENDING")
  else
    (a.write { a.state with
      providerId := some providerId, attempts := a.state.attempts + 1, updatedAt := now }, .ok)

def markProviderAccepted (a : MessageExecution)
    (providerMessageId internetMessageId providerErrorCode : Option String) (now : Date) :
    MessageExecution × OpResult :=
  transition (a.write (a.state.withAcceptance providerMessageId internetMessageId
      providerErrorCode now)) .providerAccepted
    (some ("Provider accepted: " ++ providerMessageId.getD "no message id")) now

def markDeliveryPending (a : MessageExecution) (now : Date) : MessageExecution × OpResult :=
  transition a .deliveryPending (some "Awaiting delivery confirmation") now

def markDelivered (a : MessageExecution) (internetMessageId : Option String) (now : Date) :
    MessageExecution × OpResult :=
  transition (a.write (a.state.withDelivery internetMessageId now)) .delivered
    (some "Message delivered") now

def markOpened (a : MessageExecution) (now : Date) : MessageExecution × OpResult :=
  transition a .opened (some "Message opened") now

def markReplied (a : MessageExecution) (now : Date) : MessageExecution × OpResult :=
  transition a .replied (some "Recipient replied") now

/-- No status leads to BOUNCED: the transition always fails. -/
def markBounced (a : MessageExecution) (reason : String) (now : Date) :
    MessageExecution × OpResult :=
  transition (a.write (a.state.withError reason)) .bounced
    (some ("Bounced: " ++ reason)) now

/-- `this.status === 'SENDING' || this.status === 'APPROVED'`. -/
def preSubmission (s : Status) : Bool := s = .sending || s = .approved

def markFailed (a : MessageExecution) (classification : RetryClassification) (reason : String)
    (providerErrorCode : Option String) (now : Date) : MessageExecution × OpResult :=
  let b := a.write (a.state.withFailure classification reason providerErrorCode now)
  let status := a.state.status
  if classification ≠ .nonRetryable then
    if preSubmission status then
      -- the status stays, for a retry to go on from it
      (b.write { b.state with updatedAt := now }, .ok)
    else
      transition b .requiresReconciliation
        (some ("Post-acceptance retryable failure: " ++ reason)) now
  else if preSubmission status then
    transition b .failedPreSubmission (some ("Failed before submission: " ++ reason)) now
  else if status = .providerAccepted ∨ status = .deliveryPending ∨ status = .delivered ∨
      status = .opened then
    transition (b.write { b.state with deliveryFailedAt := some now }) .deliveryFailed
      (some ("Delivery failed: " ++ reason)) now
  else
    transition b .failed (some ("Failed: " ++ reason)) now

def markDeliveryUnknown (a : MessageExecution) (reason : String) (now : Date) :
    MessageExecution × OpResult :=
  transition (a.write (a.state.withError reason)) .deliveryUnknown
    (some ("Delivery outcome unknown: " ++ reason)) now

def markRequiresReconciliation (a : MessageExecution) (reason : String) (now : Date) :
    MessageExecution × OpResult :=
  transition (a.write (a.state.withError reason)) .requiresReconciliation
    (some ("Requires reconciliation: " ++ reason)) now

/-- The operator's verdict overrides the table. -/
def markReconciledDelivered (a : MessageExecution) (internetMessageId : Option String)
    (now : Date) : MessageExecution × OpResult :=
  let s := if blank internetMessageId then a.state
    else { a.state with internetMessageId, providerMessageId := internetMessageId }
  ((a.write { s with status := .delivered, deliveredAt := some now, updatedAt := now }).applyEvent
    (.statusChanged s.id s.campaignId s.sequenceId s.status .delivered
      (some "Operator reconciled as delivered") s.providerMessageId), .ok)

def markReconciledFailed (a : MessageExecution) (reason : String) (now : Date) :
    MessageExecution × OpResult :=
  let s := a.state
  ((a.write { s with
      lastError := some reason, failedAt := some now, updatedAt := now,
      status := .failed }).applyEvent
    (.statusChanged s.id s.campaignId s.sequenceId s.status .failed
      (some ("Operator reconciled as failed: " ++ reason)) s.providerMessageId), .ok)

/-- No status leads to CANCELLED: the transition always fails. -/
def cancel (a : MessageExecution) (reason : String) (now : Date) : MessageExecution × OpResult :=
  transition a .cancelled (some ("Cancelled: " ++ reason)) now

/-- Raises no event. -/
def recordRetryAfter (a : MessageExecution) (ms : Nat) : MessageExecution :=
  a.write { a.state with retryAfterMs := some ms }

/-! ## What a transition does -/

/-- A transition either moves the status and the version, or changes nothing and fails. -/
theorem transition_eq (a : MessageExecution) (target : Status) (reason : Option String)
    (now : Date) :
    (canTransition a.state.status target = true ∧
      (transition a target reason now).2 = .ok ∧
      (transition a target reason now).1.version = a.version + 1 ∧
      (transition a target reason now).1.loadedVersion = a.loadedVersion ∧
      (transition a target reason now).1.state =
        { a.state with status := target, updatedAt := now }) ∨
    (canTransition a.state.status target = false ∧
      (transition a target reason now).2.success = false ∧
      (transition a target reason now).1 = a) := by
  unfold transition
  cases canTransition a.state.status target with
  | true => left; exact ⟨rfl, rfl, rfl, rfl, rfl⟩
  | false => right; exact ⟨rfl, rfl, rfl⟩

theorem not_canTransition_bounced (s : Status) : canTransition s .bounced = false := by
  cases s <;> decide

/-! ## What every operation keeps -/

/-- The fields no operation changes. -/
structure Identity where
  id : String
  tenantId : String
  workspaceId : String
  campaignId : String
  sequenceId : String
  stepNumber : Nat
  idempotencyKey : String
deriving DecidableEq

def Props.identity (s : Props) : Identity :=
  ⟨s.id, s.tenantId, s.workspaceId, s.campaignId, s.sequenceId, s.stepNumber, s.idempotencyKey⟩

/-- `b` is `a` after operations: the identity and the loaded version stay, and the status changes
only together with the version. -/
structure Keeps (a b : MessageExecution) : Prop where
  loadedVersion : b.loadedVersion = a.loadedVersion
  version_le : a.version ≤ b.version
  status : b.version = a.version → b.state.status = a.state.status
  identity : b.state.identity = a.state.identity

theorem Keeps.refl (a : MessageExecution) : Keeps a a := ⟨rfl, Nat.le_refl _, fun _ => rfl, rfl⟩

theorem Keeps.trans {a b c : MessageExecution} (h : Keeps a b) (h' : Keeps b c) : Keeps a c := by
  refine ⟨h'.loadedVersion.trans h.loadedVersion, Nat.le_trans h.version_le h'.version_le, ?_,
    h'.identity.trans h.identity⟩
  intro heq
  have hle := h.version_le
  have hle' := h'.version_le
  exact (h'.status (by omega)).trans (h.status (by omega))

theorem Keeps.write (a : MessageExecution) {s : Props} (hs : s.status = a.state.status)
    (hi : s.identity = a.state.identity) : Keeps a (a.write s) :=
  ⟨rfl, Nat.le_refl _, fun _ => hs, hi⟩

theorem transition_keeps (a : MessageExecution) (target : Status) (reason : Option String)
    (now : Date) : Keeps a (transition a target reason now).1 := by
  unfold transition
  split
  · exact ⟨rfl, Nat.le_succ _, fun h => absurd h (Nat.succ_ne_self _), rfl⟩
  · exact Keeps.refl a

/-- A write that keeps status and identity, then a transition. -/
theorem write_transition_keeps (a : MessageExecution) {s : Props}
    (hs : s.status = a.state.status) (hi : s.identity = a.state.identity) (target : Status)
    (reason : Option String) (now : Date) : Keeps a (transition (a.write s) target reason now).1 :=
  (Keeps.write a hs hi).trans (transition_keeps _ target reason now)

theorem approve_keeps (a : MessageExecution) (approvalId : String) (now : Date) :
    Keeps a (approve a approvalId now).1 := by
  unfold approve
  split
  · exact Keeps.refl a
  · exact write_transition_keeps a (by rfl) (by rfl) _ _ now

theorem markSending_keeps (a : MessageExecution) (now : Date) : Keeps a (markSending a now).1 :=
  transition_keeps a _ _ now

theorem markProviderAttempt_keeps (a : MessageExecution) (providerId : String) (now : Date) :
    Keeps a (markProviderAttempt a providerId now).1 := by
  unfold markProviderAttempt
  split
  · exact Keeps.refl a
  · exact Keeps.write a (by rfl) (by rfl)

theorem markProviderAccepted_keeps (a : MessageExecution)
    (providerMessageId internetMessageId providerErrorCode : Option String) (now : Date) :
    Keeps a (markProviderAccepted a providerMessageId internetMessageId providerErrorCode now).1 :=
  write_transition_keeps a (by rfl) (by rfl) _ _ now

theorem markDeliveryPending_keeps (a : MessageExecution) (now : Date) :
    Keeps a (markDeliveryPending a now).1 := transition_keeps a _ _ now

theorem markDelivered_keeps (a : MessageExecution) (internetMessageId : Option String)
    (now : Date) : Keeps a (markDelivered a internetMessageId now).1 :=
  write_transition_keeps a (by rfl) (by rfl) _ _ now

theorem markOpened_keeps (a : MessageExecution) (now : Date) : Keeps a (markOpened a now).1 :=
  transition_keeps a _ _ now

theorem markReplied_keeps (a : MessageExecution) (now : Date) : Keeps a (markReplied a now).1 :=
  transition_keeps a _ _ now

theorem markFailed_keeps (a : MessageExecution) (classification : RetryClassification)
    (reason : String) (providerErrorCode : Option String) (now : Date) :
    Keeps a (markFailed a classification reason providerErrorCode now).1 := by
  unfold markFailed
  dsimp only
  split
  · split
    · exact ⟨rfl, Nat.le_refl _, fun _ => rfl, rfl⟩
    · exact write_transition_keeps a (by rfl) (by rfl) _ _ now
  · split
    · exact write_transition_keeps a (by rfl) (by rfl) _ _ now
    · split
      · exact (Keeps.write a (by rfl) (by rfl)).trans
          (write_transition_keeps _ (by rfl) (by rfl) _ _ now)
      · exact write_transition_keeps a (by rfl) (by rfl) _ _ now

theorem markDeliveryUnknown_keeps (a : MessageExecution) (reason : String) (now : Date) :
    Keeps a (markDeliveryUnknown a reason now).1 :=
  write_transition_keeps a (by rfl) (by rfl) _ _ now

theorem markRequiresReconciliation_keeps (a : MessageExecution) (reason : String) (now : Date) :
    Keeps a (markRequiresReconciliation a reason now).1 :=
  write_transition_keeps a (by rfl) (by rfl) _ _ now

theorem markReconciledDelivered_keeps (a : MessageExecution) (internetMessageId : Option String)
    (now : Date) : Keeps a (markReconciledDelivered a internetMessageId now).1 := by
  refine ⟨rfl, Nat.le_succ _, fun h => absurd h (Nat.succ_ne_self _), ?_⟩
  unfold markReconciledDelivered
  dsimp only
  split <;> rfl

theorem markReconciledFailed_keeps (a : MessageExecution) (reason : String) (now : Date) :
    Keeps a (markReconciledFailed a reason now).1 :=
  ⟨rfl, Nat.le_succ _, fun h => absurd h (Nat.succ_ne_self _), rfl⟩

/-! ## The status an operation leads to -/

/-- After a write that keeps the status, an allowed transition leads to its target. -/
theorem write_transition_status (a : MessageExecution) {s : Props}
    (hs : s.status = a.state.status) {target : Status}
    (hc : canTransition a.state.status target = true) (reason : Option String) (now : Date) :
    (transition (a.write s) target reason now).1.state.status = target ∧
      (transition (a.write s) target reason now).2 = .ok := by
  unfold transition
  rw [Versioned.Aggregate.write_state, hs, if_pos hc]
  exact ⟨rfl, rfl⟩

theorem approve_status {a : MessageExecution} (h : a.state.status = .pendingApproval)
    (approvalId : String) (now : Date) :
    (approve a approvalId now).1.state.status = .approved ∧
      (approve a approvalId now).2 = .ok := by
  unfold approve
  rw [if_neg (not_not_intro h)]
  exact write_transition_status a (by rfl) (by rw [h]; rfl) _ now

theorem markSending_status {a : MessageExecution} (h : a.state.status = .approved) (now : Date) :
    (markSending a now).1.state.status = .sending ∧ (markSending a now).2 = .ok :=
  write_transition_status a (s := a.state) rfl (by rw [h]; rfl) _ now

theorem markProviderAttempt_status {a : MessageExecution} (h : a.state.status = .sending)
    (providerId : String) (now : Date) :
    (markProviderAttempt a providerId now).1.state.status = .sending ∧
      (markProviderAttempt a providerId now).2 = .ok := by
  unfold markProviderAttempt
  rw [if_neg (not_not_intro h)]
  exact ⟨h, rfl⟩

theorem markProviderAccepted_status {a : MessageExecution} (h : a.state.status = .sending)
    (providerMessageId internetMessageId providerErrorCode : Option String) (now : Date) :
    (markProviderAccepted a providerMessageId internetMessageId providerErrorCode
        now).1.state.status = .providerAccepted ∧
      (markProviderAccepted a providerMessageId internetMessageId providerErrorCode now).2 = .ok :=
  write_transition_status a (by rfl) (by rw [h]; rfl) _ now

theorem markDeliveryPending_status {a : MessageExecution} (h : a.state.status = .providerAccepted)
    (now : Date) : (markDeliveryPending a now).1.state.status = .deliveryPending :=
  (write_transition_status a (s := a.state) rfl (by rw [h]; rfl) _ now).1

/-- A failure before the submission that is not to be retried is terminal. -/
theorem markFailed_status_nonRetryable {a : MessageExecution} (h : a.state.status = .sending)
    (reason : String) (providerErrorCode : Option String) (now : Date) :
    (markFailed a .nonRetryable reason providerErrorCode now).1.state.status =
      .failedPreSubmission := by
  unfold markFailed
  dsimp only
  rw [if_neg (by simp), h, if_pos (by rfl)]
  exact (write_transition_status a (by rfl) (by rw [h]; rfl) _ now).1

/-- A failure before the submission that may be retried keeps the status. -/
theorem markFailed_status_retryable {a : MessageExecution} (h : a.state.status = .sending)
    {classification : RetryClassification} (hc : classification ≠ .nonRetryable) (reason : String)
    (providerErrorCode : Option String) (now : Date) :
    (markFailed a classification reason providerErrorCode now).1.state.status = .sending := by
  unfold markFailed
  dsimp only
  rw [if_pos hc, h, if_pos (by rfl)]
  exact h

theorem markDeliveryUnknown_status {a : MessageExecution} (h : a.state.status = .sending)
    (reason : String) (now : Date) :
    (markDeliveryUnknown a reason now).1.state.status = .deliveryUnknown :=
  (write_transition_status a (by rfl) (by rw [h]; rfl) _ now).1

end VegaRevenue.MessageExecution
