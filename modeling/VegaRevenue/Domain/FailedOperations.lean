import VegaRevenue.Domain.NoLostUpdate

/-!
# Operations that fail

An operation that fails should leave its aggregate as it was. Most operations of a message execution
check the transition only after they have written their fields.

* `unchangedOnFailure_iff` — an operation that fails leaves the aggregate unchanged iff it writes
  nothing before a transition that is refused
* `setDraft_writes_before_failing` — the draft of a fresh execution
-/

namespace VegaRevenue

open Versioned

/-- If the operation fails, it leaves `a`. -/
def UnchangedOnFailure {S E : Type} (a : Aggregate S E) (r : Aggregate S E × OpResult) : Prop :=
  r.2.success = false → r.1 = a

section

variable {S E : Type} {a b : Aggregate S E} {result : OpResult}

theorem UnchangedOnFailure.of_success (h : result.success = true) :
    UnchangedOnFailure a (b, result) := by
  intro hfail
  rw [h] at hfail
  cases hfail

theorem UnchangedOnFailure.refl : UnchangedOnFailure a (a, result) := fun _ => rfl

theorem write_eq_self_iff {s : S} : a.write s = a ↔ s = a.state :=
  ⟨fun h => congrArg Aggregate.state h, fun h => by rw [h]; rfl⟩

end

/-! ## Message executions -/

namespace MessageExecution

/-- The operation with its result. -/
def Op.perform (now : Date) (a : MessageExecution) : Op → MessageExecution × OpResult
  | startDrafting => MessageExecution.startDrafting a now
  | setDraft messageId draft => MessageExecution.setDraft a messageId draft now
  | approve approvalId => MessageExecution.approve a approvalId now
  | reject reason => MessageExecution.reject a reason now
  | markSending => MessageExecution.markSending a now
  | markProviderAttempt providerId => MessageExecution.markProviderAttempt a providerId now
  | markProviderAccepted providerMessageId internetMessageId providerErrorCode =>
    MessageExecution.markProviderAccepted a providerMessageId internetMessageId providerErrorCode
      now
  | markDeliveryPending => MessageExecution.markDeliveryPending a now
  | markDelivered internetMessageId => MessageExecution.markDelivered a internetMessageId now
  | markOpened => MessageExecution.markOpened a now
  | markReplied => MessageExecution.markReplied a now
  | markBounced reason => MessageExecution.markBounced a reason now
  | markFailed classification reason providerErrorCode =>
    MessageExecution.markFailed a classification reason providerErrorCode now
  | markDeliveryUnknown reason => MessageExecution.markDeliveryUnknown a reason now
  | markRequiresReconciliation reason => MessageExecution.markRequiresReconciliation a reason now
  | markReconciledDelivered internetMessageId =>
    MessageExecution.markReconciledDelivered a internetMessageId now
  | markReconciledFailed reason => MessageExecution.markReconciledFailed a reason now
  | cancel reason => MessageExecution.cancel a reason now
  | recordRetryAfter ms => (MessageExecution.recordRetryAfter a ms, .ok)

/-- A field is written and the transition after it is refused. -/
def Op.leaks (now : Date) (s : Props) : Op → Prop
  | setDraft messageId draft => s.status = .pending ∧ s.withDraft messageId draft ≠ s
  | markProviderAccepted providerMessageId internetMessageId providerErrorCode =>
    refused s (s.withAcceptance providerMessageId internetMessageId providerErrorCode now)
      .providerAccepted
  | markDelivered internetMessageId => refused s (s.withDelivery internetMessageId now) .delivered
  | markBounced reason => refused s (s.withError reason) .bounced
  | markFailed classification reason providerErrorCode =>
    ∃ target, failureTarget s.status classification = some target ∧
      refused s (failureWrites s classification reason providerErrorCode now) target
  | markDeliveryUnknown reason => refused s (s.withError reason) .deliveryUnknown
  | markRequiresReconciliation reason => refused s (s.withError reason) .requiresReconciliation
  | _ => False

/-- A write that keeps the status, then a transition. -/
theorem write_transition_unchanged_iff (a : MessageExecution) {s : Props}
    (hs : s.status = a.state.status) (target : Status) (reason : Option String) (now : Date) :
    UnchangedOnFailure a (transition (a.write s) target reason now) ↔
      ¬refused a.state s target := by
  unfold refused
  rcases transition_eq (a.write s) target reason now with ⟨hc, hok, -⟩ | ⟨hc, hfail, heq⟩
  · rw [Aggregate.write_state, hs] at hc
    rw [hc]
    constructor
    · rintro - ⟨hfalse, -⟩
      cases hfalse
    · rintro - hfail
      rw [hok] at hfail
      cases hfail
  · rw [Aggregate.write_state, hs] at hc
    unfold UnchangedOnFailure
    rw [hfail, heq, hc, write_eq_self_iff]
    simp

theorem transition_unchanged (a : MessageExecution) (target : Status) (reason : Option String)
    (now : Date) : UnchangedOnFailure a (transition a target reason now) :=
  (write_transition_unchanged_iff a (s := a.state) rfl target reason now).mpr
    fun h => h.2 rfl

/-- A write that keeps a status which allows the transition. -/
theorem write_transition_unchanged_of_can (a : MessageExecution) {s : Props}
    (hs : s.status = a.state.status) {target : Status}
    (hc : canTransition a.state.status target = true) (reason : Option String) (now : Date) :
    UnchangedOnFailure a (transition (a.write s) target reason now) := by
  refine (write_transition_unchanged_iff a hs target reason now).mpr fun h => ?_
  rw [h.1] at hc
  cases hc

theorem setDraft_unchanged_iff (a : MessageExecution) (messageId : String) (draft : MessageDraft)
    (now : Date) : UnchangedOnFailure a (setDraft a messageId draft now) ↔
      ¬(a.state.status = .pending ∧ a.state.withDraft messageId draft ≠ a.state) := by
  unfold setDraft
  split
  next hs => exact ⟨fun _ h => hs.2 h.1, fun _ => .refl⟩
  next hs =>
    rw [write_transition_unchanged_iff a (by rfl)]
    refine not_congr (and_congr_left fun _ => ?_)
    -- of the two statuses that pass the guard, the table refuses PENDING
    rcases not_and_or.mp hs with hs | hs <;> rw [not_not.mp hs] <;> decide

theorem approve_unchanged (a : MessageExecution) (approvalId : String) (now : Date) :
    UnchangedOnFailure a (approve a approvalId now) := by
  unfold approve
  split
  · exact .refl
  next hs =>
    exact write_transition_unchanged_of_can a (by rfl) (by rw [not_not.mp hs]; rfl) _ now

theorem reject_unchanged (a : MessageExecution) (reason : String) (now : Date) :
    UnchangedOnFailure a (reject a reason now) := by
  unfold reject
  split
  · exact .refl
  next hs =>
    exact write_transition_unchanged_of_can a (by rfl) (by rw [not_not.mp hs]; rfl) _ now

theorem markProviderAttempt_unchanged (a : MessageExecution) (providerId : String) (now : Date) :
    UnchangedOnFailure a (markProviderAttempt a providerId now) := by
  unfold markProviderAttempt
  split
  · exact .refl
  · exact .of_success (by rfl)

theorem markFailed_unchanged_iff (a : MessageExecution) (classification : RetryClassification)
    (reason : String) (providerErrorCode : Option String) (now : Date) :
    UnchangedOnFailure a (markFailed a classification reason providerErrorCode now) ↔
      ¬Op.leaks now a.state (.markFailed classification reason providerErrorCode) := by
  obtain ⟨text, heq⟩ := markFailed_eq_match a classification reason providerErrorCode now
  rw [heq]
  show _ ↔ ¬∃ target, failureTarget a.state.status classification = some target ∧
    refused a.state (failureWrites a.state classification reason providerErrorCode now) target
  cases ht : failureTarget a.state.status classification with
  | none =>
    refine ⟨?_, fun _ => .of_success (by rfl)⟩
    rintro - ⟨target, htarget, -⟩
    cases htarget
  | some target =>
    dsimp only
    rw [write_transition_unchanged_iff a (failureWrites_status ..)]
    refine not_congr ⟨fun h => ⟨target, rfl, h⟩, ?_⟩
    rintro ⟨target', htarget, h⟩
    cases htarget
    exact h

theorem Op.perform_unchanged_iff (now : Date) (op : Op) (a : MessageExecution) :
    UnchangedOnFailure a (op.perform now a) ↔ ¬op.leaks now a.state := by
  cases op with
  | setDraft messageId draft => exact setDraft_unchanged_iff a messageId draft now
  | markFailed classification reason providerErrorCode =>
    exact markFailed_unchanged_iff a classification reason providerErrorCode now
  | markProviderAccepted _ _ _ | markDelivered _ | markBounced _ | markDeliveryUnknown _
    | markRequiresReconciliation _ => exact write_transition_unchanged_iff a (by rfl) _ _ now
  | approve approvalId => exact iff_of_true (approve_unchanged a approvalId now) not_false
  | reject reason => exact iff_of_true (reject_unchanged a reason now) not_false
  | markProviderAttempt providerId =>
    exact iff_of_true (markProviderAttempt_unchanged a providerId now) not_false
  | markReconciledDelivered internetMessageId => exact iff_of_true (.of_success (by rfl)) not_false
  | markReconciledFailed reason => exact iff_of_true (.of_success (by rfl)) not_false
  | recordRetryAfter ms => exact iff_of_true (.of_success (by rfl)) not_false
  | _ => exact iff_of_true (transition_unchanged a _ _ now) not_false

end MessageExecution

/-! ## Sequences -/

namespace Sequence

/-- The operation with its result. -/
def Op.perform (now : Date) (a : Sequence) : Op → Sequence × OpResult
  | submitForApproval => Sequence.submitForApproval a now
  | approve decidedBy reason => Sequence.approve a decidedBy reason now
  | reject decidedBy reason => Sequence.reject a decidedBy reason now
  | start => Sequence.start a now
  | startStep executionId scheduledAt => Sequence.startStep a executionId scheduledAt
  | completeStep executionId nextDueAt => Sequence.completeStep a executionId nextDueAt now
  | failStep executionId reason retryable => Sequence.failStep a executionId reason retryable now
  | pause reason => Sequence.pause a reason now
  | resume => Sequence.resume a now
  | waitForResponse deadline => Sequence.waitForResponse a deadline now
  | continueAfterResponse => Sequence.continueAfterResponse a now
  | linkWorkflow workflowId => Sequence.linkWorkflow a workflowId now
  | cancel reason => Sequence.cancel a reason now

theorem transition_unchanged (a : Sequence) (target : Status) (reason decidedBy : Option String)
    (now : Date) : UnchangedOnFailure a (transition a target reason decidedBy now) := by
  unfold transition
  split
  · exact .of_success (by rfl)
  · exact .refl

/-- While RUNNING every transition out of it is allowed. -/
theorem transition_of_running {a : Sequence} (target : Status)
    (hc : canTransition a.state.status target = true) (reason decidedBy : Option String)
    (now : Date) : (transition a target reason decidedBy now).2 = .ok := by
  unfold transition
  rw [if_pos hc]

theorem startStep_unchanged (a : Sequence) (executionId : String) (scheduledAt : Date) :
    UnchangedOnFailure a (startStep a executionId scheduledAt) := by
  unfold startStep
  split
  · exact .refl
  · split
    · exact .refl
    · split
      · exact .refl
      · exact .of_success (by rfl)

/-- A step is lost only past the last one, where the operation throws. -/
theorem completeStep_unchanged_iff (a : Sequence) (executionId : String)
    (nextDueAt : Option Date) (now : Date) :
    UnchangedOnFailure a (completeStep a executionId nextDueAt now) ↔
      ¬Op.silent a.state (.completeStep executionId nextDueAt) := by
  unfold completeStep Op.silent
  by_cases hr : a.state.status = .running
  · rw [if_neg (not_not_intro hr)]
    dsimp only
    cases hstep : a.state.steps[a.state.currentStepIndex]? with
    | none =>
      refine iff_of_false (fun h => ?_) (not_not_intro ⟨hr, rfl⟩)
      have hindex := congrArg (fun b : Sequence => b.state.currentStepIndex) (h rfl)
      exact absurd hindex (Nat.succ_ne_self _)
    | some step =>
      refine iff_of_true ?_ (fun h => nomatch h.2)
      dsimp only
      split
      · exact .of_success (by rfl)
      · -- the last step completes the sequence, which RUNNING allows
        have hok := transition_of_running (a := (a.write { a.state with
            currentStepIndex := a.state.currentStepIndex + 1, nextDueAt }).applyEvent
          (.stepCompleted a.state.id a.state.campaignId step.stepNumber executionId
            (a.state.steps[a.state.currentStepIndex + 1]?.map SequenceStep.stepNumber) nextDueAt))
          .completed (by simp [hr, canTransition, Status.transitions])
          (some "All steps completed") none now
        intro hfail
        rw [hok] at hfail
        cases hfail
  · rw [if_pos hr]
    exact iff_of_true .refl fun h => hr h.1

theorem failStep_unchanged (a : Sequence) (executionId reason : String) (retryable : Bool)
    (now : Date) : UnchangedOnFailure a (failStep a executionId reason retryable now) := by
  unfold failStep
  split
  · exact .refl
  next hr =>
    split
    · exact .refl
    next step _ =>
      dsimp only
      split
      · exact .of_success (by rfl)
      · intro hfail
        rw [transition_of_running _ (by simp [not_not.mp hr, canTransition, Status.transitions])]
          at hfail
        cases hfail

theorem waitForResponse_unchanged (a : Sequence) (deadline now : Date) :
    UnchangedOnFailure a (waitForResponse a deadline now) := by
  unfold waitForResponse
  split
  · exact .refl
  next hr =>
    intro hfail
    rw [transition_of_running _ (by simp [not_not.mp hr, canTransition, Status.transitions])] at hfail
    cases hfail

/-- The deadline is cleared before the transition is checked. -/
theorem continueAfterResponse_unchanged_iff (a : Sequence) (now : Date) :
    UnchangedOnFailure a (continueAfterResponse a now) ↔
      ¬Op.silent a.state .continueAfterResponse := by
  unfold continueAfterResponse Op.silent
  rcases transition_eq (a.write { a.state with responseDeadlineAt := none }) .running
    (some "Response received or timeout") none now with ⟨hc, hok, -⟩ | ⟨hc, hfail, heq⟩
  · rw [Aggregate.write_state] at hc
    rw [hc]
    refine iff_of_true (fun hfail => ?_) (fun h => nomatch h.1)
    rw [hok] at hfail
    cases hfail
  · rw [Aggregate.write_state] at hc
    unfold UnchangedOnFailure
    rw [hfail, heq, hc, write_eq_self_iff]
    constructor
    · rintro h ⟨-, hne⟩
      exact hne (congrArg Props.responseDeadlineAt (h rfl)).symm
    · rintro h -
      have hnone : a.state.responseDeadlineAt = none := by
        by_contra hne
        exact h ⟨rfl, hne⟩
      rw [← hnone]

theorem linkWorkflow_unchanged (a : Sequence) (workflowId : String) (now : Date) :
    UnchangedOnFailure a (linkWorkflow a workflowId now) := by
  unfold linkWorkflow
  split
  · exact .refl
  · exact .of_success (by rfl)

theorem Op.perform_unchanged_iff (now : Date) (op : Op) (a : Sequence) :
    UnchangedOnFailure a (op.perform now a) ↔ ¬op.silent a.state := by
  cases op with
  | startStep executionId scheduledAt =>
    exact iff_of_true (startStep_unchanged a executionId scheduledAt) not_false
  | completeStep executionId nextDueAt =>
    exact completeStep_unchanged_iff a executionId nextDueAt now
  | failStep executionId reason retryable =>
    exact iff_of_true (failStep_unchanged a executionId reason retryable now) not_false
  | waitForResponse deadline =>
    exact iff_of_true (waitForResponse_unchanged a deadline now) not_false
  | continueAfterResponse => exact continueAfterResponse_unchanged_iff a now
  | linkWorkflow workflowId => exact iff_of_true (linkWorkflow_unchanged a workflowId now) not_false
  | _ => exact iff_of_true (transition_unchanged a _ _ _ now) not_false

end Sequence

/-! ## Both -/

/-- **When an operation that fails leaves its aggregate unchanged.** -/
theorem unchangedOnFailure_iff (now : Date) :
    (∀ (op : MessageExecution.Op) (a : MessageExecution),
      UnchangedOnFailure a (op.perform now a) ↔ ¬op.leaks now a.state) ∧
    ∀ (op : Sequence.Op) (a : Sequence),
      UnchangedOnFailure a (op.perform now a) ↔ ¬op.silent a.state :=
  ⟨MessageExecution.Op.perform_unchanged_iff now, Sequence.Op.perform_unchanged_iff now⟩

def freshExecution : MessageExecution.Props :=
  { id := "execution-1", tenantId := "acme", workspaceId := "sales", campaignId := "campaign-1"
    sequenceId := "sequence-1", stepNumber := 1, leadId := "lead-1", contactId := "contact-1"
    recipientFingerprint := some "f1", recipientCiphertext := some "c1"
    recipientProtectionState := .protectedRecipient, channel := .email, idempotencyKey := "key-1"
    createdAt := 0, updatedAt := 0 }

/-- A draft for a fresh execution is refused and kept. -/
theorem setDraft_writes_before_failing :
    ∃ a, MessageExecution.create freshExecution = .ok a ∧
      ¬UnchangedOnFailure a ((MessageExecution.Op.setDraft "message-1"
        { body := "Hello", tone := "friendly" }).perform 1 a) := by
  refine ⟨_, rfl, fun h => ?_⟩
  have hmessage := congrArg (fun b : MessageExecution => b.state.messageId) (h (by decide))
  exact absurd hmessage (by decide)

end VegaRevenue
