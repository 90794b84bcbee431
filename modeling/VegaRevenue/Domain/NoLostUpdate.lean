import Mathlib.Algebra.Ring.Rat
import VegaRevenue.Domain.Campaign
import VegaRevenue.Domain.Conversation
import VegaRevenue.Domain.MessageExecution
import VegaRevenue.Domain.Sequence
import VegaRevenue.Lib.LostUpdate

/-!
# Lost updates of the versioned aggregates

Four repositories save by compare-and-swap on the version: campaigns, sequences, message
executions and conversations. For each, `Op` lists the operations a caller may apply between a load
and a save, and `silent` says where one of them writes a field without raising an event.

* `noLostUpdate_iff` — writers lose no update along a run iff none of them takes a silent branch on
  an unmoved copy
* `not_noLostUpdate_recordSpend` — two spends of one campaign become one
-/

namespace VegaRevenue

/-! ## Campaigns -/

namespace Campaign

inductive Op where
  | submitForApproval
  | approve (decidedBy reason : String)
  | reject (decidedBy reason : String)
  | start
  | pause (reason : String)
  | resume
  | complete
  | cancel (reason : String)
  | recordSpend (sendCount : Int) (costUsd : Rat)
  | adjustSpentCost (costUsd : Rat)

def Op.apply (now : Date) (a : Campaign) : Op → Campaign
  | submitForApproval => (Campaign.submitForApproval a now).1
  | approve decidedBy reason => (Campaign.approve a decidedBy reason now).1
  | reject decidedBy reason => (Campaign.reject a decidedBy reason now).1
  | start => (Campaign.start a now).1
  | pause reason => (Campaign.pause a reason now).1
  | resume => (Campaign.resume a now).1
  | complete => (Campaign.complete a now).1
  | cancel reason => (Campaign.cancel a reason now).1
  | recordSpend sendCount costUsd => (Campaign.recordSpend a sendCount costUsd).1
  | adjustSpentCost costUsd => Campaign.adjustSpentCost a costUsd

/-- Spending raises no event. -/
def Op.silent (s : Props) : Op → Prop
  | recordSpend sendCount costUsd =>
    s.affords sendCount costUsd = true ∧ (sendCount ≠ 0 ∨ costUsd ≠ 0)
  | adjustSpentCost costUsd => costUsd ≠ 0
  | _ => False

theorem transition_tracks (a : Campaign) (target : Status) (reason decidedBy : Option String)
    (now : Date) (silent : Prop) :
    a.Tracks (transition a target reason decidedBy now).1 silent := by
  rcases transition_eq a target reason decidedBy now with ⟨-, -, hv, hl, -⟩ | ⟨-, -, h⟩
  · exact .of_lt hl (by omega)
  · rw [h]
    exact .refl a _

theorem recordSpend_tracks (a : Campaign) (sendCount : Int) (costUsd : Rat) :
    a.Tracks (recordSpend a sendCount costUsd).1
      (Op.silent a.state (.recordSpend sendCount costUsd)) := by
  unfold recordSpend
  split
  next ha =>
    refine .write a fun hne => ⟨ha, ?_⟩
    by_contra hzero
    rw [not_or, not_not, not_not] at hzero
    exact hne (by simp [hzero])
  · exact .refl a _

theorem adjustSpentCost_tracks (a : Campaign) (costUsd : Rat) :
    a.Tracks (adjustSpentCost a costUsd) (Op.silent a.state (.adjustSpentCost costUsd)) := by
  refine .write a fun hne hzero => hne ?_
  simp [hzero]

/-- Outside its silent branches an operation that writes a field raises an event. -/
theorem Op.apply_tracks (now : Date) (op : Op) (a : Campaign) :
    a.Tracks (op.apply now a) (op.silent a.state) := by
  cases op with
  | recordSpend sendCount costUsd => exact recordSpend_tracks a sendCount costUsd
  | adjustSpentCost costUsd => exact adjustSpentCost_tracks a costUsd
  | _ => exact transition_tracks a _ _ _ now _

/-- A silent branch changes the state and leaves the version. -/
theorem Op.silent_changes (now : Date) (op : Op) (a : Campaign) (h : op.silent a.state) :
    (op.apply now a).version = a.version ∧ (op.apply now a).state ≠ a.state := by
  cases op with
  | recordSpend sendCount costUsd =>
    obtain ⟨ha, hne⟩ := h
    have heq : (Op.recordSpend sendCount costUsd).apply now a = a.write { a.state with
        sentCount := a.state.sentCount + sendCount
        spentCostUsd := a.state.spentCostUsd + costUsd } := by
      show (Campaign.recordSpend a sendCount costUsd).1 = _
      unfold Campaign.recordSpend
      rw [if_pos ha]
    rw [heq]
    refine ⟨rfl, fun hs => ?_⟩
    have hcount := congrArg Props.sentCount hs
    have hcost := congrArg Props.spentCostUsd hs
    rcases hne with hne | hne
    · exact hne (add_eq_left.mp hcount)
    · exact hne (add_eq_left.mp hcost)
  | adjustSpentCost costUsd =>
    refine ⟨rfl, fun hs => h ?_⟩
    have hcost := congrArg Props.spentCostUsd hs
    exact add_eq_left.mp hcost
  | _ => cases h

end Campaign

/-! ## Sequences -/

namespace Sequence

inductive Op where
  | submitForApproval
  | approve (decidedBy reason : String)
  | reject (decidedBy reason : String)
  | start
  | startStep (executionId : String) (scheduledAt : Date)
  | completeStep (executionId : String) (nextDueAt : Option Date)
  | failStep (executionId reason : String) (retryable : Bool)
  | pause (reason : String)
  | resume
  | waitForResponse (deadline : Date)
  | continueAfterResponse
  | linkWorkflow (workflowId : String)
  | cancel (reason : String)
deriving DecidableEq

def Op.apply (now : Date) (a : Sequence) : Op → Sequence
  | submitForApproval => (Sequence.submitForApproval a now).1
  | approve decidedBy reason => (Sequence.approve a decidedBy reason now).1
  | reject decidedBy reason => (Sequence.reject a decidedBy reason now).1
  | start => (Sequence.start a now).1
  | startStep executionId scheduledAt => (Sequence.startStep a executionId scheduledAt).1
  | completeStep executionId nextDueAt => (Sequence.completeStep a executionId nextDueAt now).1
  | failStep executionId reason retryable =>
    (Sequence.failStep a executionId reason retryable now).1
  | pause reason => (Sequence.pause a reason now).1
  | resume => (Sequence.resume a now).1
  | waitForResponse deadline => (Sequence.waitForResponse a deadline now).1
  | continueAfterResponse => (Sequence.continueAfterResponse a now).1
  | linkWorkflow workflowId => (Sequence.linkWorkflow a workflowId now).1
  | cancel reason => (Sequence.cancel a reason now).1

/-- A step past the last one is counted before the operation throws, and the response deadline is
cleared before the transition is checked. -/
def Op.silent (s : Props) : Op → Prop
  | completeStep _ _ => s.status = .running ∧ s.steps[s.currentStepIndex]? = none
  | continueAfterResponse =>
    canTransition s.status .running = false ∧ s.responseDeadlineAt ≠ none
  | _ => False

theorem transition_tracks (a : Sequence) (target : Status) (reason decidedBy : Option String)
    (now : Date) (silent : Prop) :
    a.Tracks (transition a target reason decidedBy now).1 silent := by
  rcases transition_eq a target reason decidedBy now with ⟨-, -, hv, hl, -⟩ | ⟨-, -, h⟩
  · exact .of_lt hl (by omega)
  · rw [h]
    exact .refl a _

/-- A transition after an event keeps the version ahead. -/
theorem transition_tracks_of_event {a b : Sequence} (hl : b.loadedVersion = a.loadedVersion)
    (hv : a.version < b.version) (target : Status) (reason decidedBy : Option String) (now : Date)
    (silent : Prop) : a.Tracks (transition b target reason decidedBy now).1 silent := by
  have htr := transition_tracks b target reason decidedBy now True
  exact .of_lt (htr.1.trans hl) (Nat.lt_of_lt_of_le hv htr.version_le)

/-- After a write that keeps the status, a transition it allows raises an event. -/
theorem write_transition_tracks_of_can (a : Sequence) {s : Props}
    (hs : s.status = a.state.status) {target : Status}
    (hc : canTransition a.state.status target = true) (reason decidedBy : Option String)
    (now : Date) (silent : Prop) :
    a.Tracks (transition (a.write s) target reason decidedBy now).1 silent := by
  rcases transition_eq (a.write s) target reason decidedBy now
    with ⟨-, -, hv, hl, -⟩ | ⟨hn, -, -⟩
  · exact .of_lt hl (by rw [hv]; exact Nat.lt_succ_self _)
  · rw [Versioned.Aggregate.write_state, hs, hc] at hn
    cases hn

theorem startStep_tracks (a : Sequence) (executionId : String) (scheduledAt : Date)
    (silent : Prop) : a.Tracks (startStep a executionId scheduledAt).1 silent := by
  unfold startStep
  split
  · exact .refl a _
  · split
    · exact .refl a _
    · split
      · exact .refl a _
      · exact .of_lt rfl (Nat.lt_succ_self _)

theorem completeStep_tracks (a : Sequence) (executionId : String) (nextDueAt : Option Date)
    (now : Date) : a.Tracks (completeStep a executionId nextDueAt now).1
      (Op.silent a.state (.completeStep executionId nextDueAt)) := by
  unfold completeStep
  by_cases hs : a.state.status = .running
  · rw [if_neg (not_not_intro hs)]
    dsimp only
    cases hstep : a.state.steps[a.state.currentStepIndex]? with
    | none => exact .write a fun _ => ⟨hs, hstep⟩
    | some step =>
      dsimp only
      split
      · exact .of_lt rfl (Nat.lt_succ_self _)
      · exact transition_tracks_of_event (by rfl) (by exact Nat.lt_succ_self _) _ _ _ _ _
  · rw [if_pos hs]
    exact .refl a _

theorem failStep_tracks (a : Sequence) (executionId reason : String) (retryable : Bool)
    (now : Date) (silent : Prop) : a.Tracks (failStep a executionId reason retryable now).1 silent := by
  unfold failStep
  split
  · exact .refl a _
  · split
    · exact .refl a _
    · dsimp only
      split
      · exact .of_lt rfl (Nat.lt_succ_self _)
      · exact transition_tracks_of_event (by rfl) (by exact Nat.lt_succ_self _) _ _ _ _ _

theorem waitForResponse_tracks (a : Sequence) (deadline now : Date) (silent : Prop) :
    a.Tracks (waitForResponse a deadline now).1 silent := by
  unfold waitForResponse
  by_cases hs : a.state.status = .running
  · rw [if_neg (not_not_intro hs)]
    have hc : canTransition a.state.status .waiting = true := by rw [hs]; rfl
    exact write_transition_tracks_of_can a (by rfl) hc _ _ _ _
  · rw [if_pos hs]
    exact .refl a _

theorem continueAfterResponse_tracks (a : Sequence) (now : Date) :
    a.Tracks (continueAfterResponse a now).1 (Op.silent a.state .continueAfterResponse) := by
  unfold continueAfterResponse
  cases hc : canTransition a.state.status .running with
  | true => exact write_transition_tracks_of_can a (by rfl) hc _ _ _ _
  | false =>
    refine .after_write (transition_tracks _ _ _ _ now _) fun hne _ => ⟨hc, fun hnone => hne ?_⟩
    rw [← hnone]

theorem linkWorkflow_tracks (a : Sequence) (workflowId : String) (now : Date) (silent : Prop) :
    a.Tracks (linkWorkflow a workflowId now).1 silent := by
  unfold linkWorkflow
  split
  · exact .refl a _
  · exact .of_lt rfl (Nat.lt_succ_self _)

/-- Outside its silent branches an operation that writes a field raises an event. -/
theorem Op.apply_tracks (now : Date) (op : Op) (a : Sequence) :
    a.Tracks (op.apply now a) (op.silent a.state) := by
  cases op with
  | startStep executionId scheduledAt => exact startStep_tracks a executionId scheduledAt _
  | completeStep executionId nextDueAt => exact completeStep_tracks a executionId nextDueAt now
  | failStep executionId reason retryable => exact failStep_tracks a executionId reason retryable now _
  | waitForResponse deadline => exact waitForResponse_tracks a deadline now _
  | continueAfterResponse => exact continueAfterResponse_tracks a now
  | linkWorkflow workflowId => exact linkWorkflow_tracks a workflowId now _
  | _ => exact transition_tracks a _ _ _ now _

/-- A silent branch changes the state and leaves the version. -/
theorem Op.silent_changes (now : Date) (op : Op) (a : Sequence) (h : op.silent a.state) :
    (op.apply now a).version = a.version ∧ (op.apply now a).state ≠ a.state := by
  cases op with
  | completeStep executionId nextDueAt =>
    obtain ⟨hs, hstep⟩ := h
    have heq : (Op.completeStep executionId nextDueAt).apply now a = a.write { a.state with
        currentStepIndex := a.state.currentStepIndex + 1, nextDueAt } := by
      show (Sequence.completeStep a executionId nextDueAt now).1 = _
      unfold Sequence.completeStep
      rw [if_neg (not_not_intro hs), hstep]
    rw [heq]
    refine ⟨rfl, fun hs => ?_⟩
    have hindex := congrArg Props.currentStepIndex hs
    exact absurd hindex (Nat.succ_ne_self _)
  | continueAfterResponse =>
    obtain ⟨hc, hne⟩ := h
    rcases transition_eq (a.write { a.state with responseDeadlineAt := none }) .running
        (some "Response received or timeout") none now with ⟨hcan, -⟩ | ⟨-, -, heq⟩
    · rw [show canTransition a.state.status .running = true from hcan] at hc
      cases hc
    · have heq' : Op.continueAfterResponse.apply now a =
          a.write { a.state with responseDeadlineAt := none } := heq
      rw [heq']
      exact ⟨rfl, fun hs => hne (congrArg Props.responseDeadlineAt hs).symm⟩
  | _ => cases h

end Sequence

/-! ## Message executions -/

namespace MessageExecution

inductive Op where
  | startDrafting
  | setDraft (messageId : String) (draft : MessageDraft)
  | approve (approvalId : String)
  | reject (reason : String)
  | markSending
  | markProviderAttempt (providerId : String)
  | markProviderAccepted (providerMessageId internetMessageId providerErrorCode : Option String)
  | markDeliveryPending
  | markDelivered (internetMessageId : Option String)
  | markOpened
  | markReplied
  | markBounced (reason : String)
  | markFailed (classification : RetryClassification) (reason : String)
      (providerErrorCode : Option String)
  | markDeliveryUnknown (reason : String)
  | markRequiresReconciliation (reason : String)
  | markReconciledDelivered (internetMessageId : Option String)
  | markReconciledFailed (reason : String)
  | cancel (reason : String)
  | recordRetryAfter (ms : Nat)

def Op.apply (now : Date) (a : MessageExecution) : Op → MessageExecution
  | startDrafting => (MessageExecution.startDrafting a now).1
  | setDraft messageId draft => (MessageExecution.setDraft a messageId draft now).1
  | approve approvalId => (MessageExecution.approve a approvalId now).1
  | reject reason => (MessageExecution.reject a reason now).1
  | markSending => (MessageExecution.markSending a now).1
  | markProviderAttempt providerId => (MessageExecution.markProviderAttempt a providerId now).1
  | markProviderAccepted providerMessageId internetMessageId providerErrorCode =>
    (MessageExecution.markProviderAccepted a providerMessageId internetMessageId providerErrorCode
      now).1
  | markDeliveryPending => (MessageExecution.markDeliveryPending a now).1
  | markDelivered internetMessageId => (MessageExecution.markDelivered a internetMessageId now).1
  | markOpened => (MessageExecution.markOpened a now).1
  | markReplied => (MessageExecution.markReplied a now).1
  | markBounced reason => (MessageExecution.markBounced a reason now).1
  | markFailed classification reason providerErrorCode =>
    (MessageExecution.markFailed a classification reason providerErrorCode now).1
  | markDeliveryUnknown reason => (MessageExecution.markDeliveryUnknown a reason now).1
  | markRequiresReconciliation reason =>
    (MessageExecution.markRequiresReconciliation a reason now).1
  | markReconciledDelivered internetMessageId =>
    (MessageExecution.markReconciledDelivered a internetMessageId now).1
  | markReconciledFailed reason => (MessageExecution.markReconciledFailed a reason now).1
  | cancel reason => (MessageExecution.cancel a reason now).1
  | recordRetryAfter ms => MessageExecution.recordRetryAfter a ms

/-- The status `markFailed` moves to; none where the status stays. -/
def failureTarget (status : Status) (classification : RetryClassification) : Option Status :=
  if classification ≠ .nonRetryable then
    if preSubmission status then none else some .requiresReconciliation
  else if preSubmission status then some .failedPreSubmission
  else if status = .providerAccepted ∨ status = .deliveryPending ∨ status = .delivered ∨
      status = .opened then some .deliveryFailed
  else some .failed

/-- What `markFailed` writes beside the status. -/
def failureWrites (s : Props) (classification : RetryClassification) (reason : String)
    (providerErrorCode : Option String) (now : Date) : Props :=
  let f := s.withFailure classification reason providerErrorCode now
  match failureTarget s.status classification with
  | none => { f with updatedAt := now }
  | some .deliveryFailed => { f with deliveryFailedAt := some now }
  | some _ => f

/-- A field is written and the transition after it is not allowed. -/
def refused (s written : Props) (target : Status) : Prop :=
  canTransition s.status target = false ∧ written ≠ s

/-- An attempt, a retry and a failure that keeps the status raise no event; every other branch is
one whose transition is refused after a field was written. -/
def Op.silent (now : Date) (s : Props) : Op → Prop
  | setDraft messageId draft =>
    s.status = .pending ∧ s.withDraft messageId draft ≠ s
  | markProviderAttempt _ => s.status = .sending
  | markProviderAccepted providerMessageId internetMessageId providerErrorCode =>
    refused s (s.withAcceptance providerMessageId internetMessageId providerErrorCode now)
      .providerAccepted
  | markDelivered internetMessageId => refused s (s.withDelivery internetMessageId now) .delivered
  | markBounced reason => s.withError reason ≠ s
  | markFailed classification reason providerErrorCode =>
    (failureTarget s.status classification).all (fun target => !canTransition s.status target) ∧
      failureWrites s classification reason providerErrorCode now ≠ s
  | markDeliveryUnknown reason => refused s (s.withError reason) .deliveryUnknown
  | markRequiresReconciliation reason =>
    refused s (s.withError reason) .requiresReconciliation
  | recordRetryAfter ms => s.retryAfterMs ≠ some ms
  | _ => False

/-- A write that keeps the status, then a transition. -/
theorem write_transition_tracks (a : MessageExecution) {s : Props}
    (hs : s.status = a.state.status) (target : Status) (reason : Option String) (now : Date) :
    a.Tracks (transition (a.write s) target reason now).1 (refused a.state s target) := by
  rcases transition_eq (a.write s) target reason now with ⟨-, -, hv, hl, -⟩ | ⟨hc, -, h⟩
  · exact .of_lt hl (by rw [hv]; exact Nat.lt_succ_self _)
  · rw [h]
    exact .write a fun hne => ⟨hs ▸ hc, hne⟩

theorem transition_tracks (a : MessageExecution) (target : Status) (reason : Option String)
    (now : Date) (silent : Prop) : a.Tracks (transition a target reason now).1 silent := by
  have h : a.Tracks (transition a target reason now).1 (refused a.state a.state target) :=
    write_transition_tracks a (s := a.state) rfl target reason now
  exact h.mono fun hr => absurd rfl hr.2

/-- A write that keeps a status which allows the transition. -/
theorem write_transition_tracks_of_can (a : MessageExecution) {s : Props}
    (hs : s.status = a.state.status) {target : Status}
    (hc : canTransition a.state.status target = true) (reason : Option String) (now : Date)
    (silent : Prop) : a.Tracks (transition (a.write s) target reason now).1 silent :=
  (write_transition_tracks a hs target reason now).mono fun hr => by
    rw [hr.1] at hc
    cases hc

theorem setDraft_tracks (a : MessageExecution) (messageId : String) (draft : MessageDraft)
    (now : Date) : a.Tracks (setDraft a messageId draft now).1
      (Op.silent now a.state (.setDraft messageId draft)) := by
  unfold setDraft
  split
  · exact .refl a _
  next hs =>
    refine (write_transition_tracks a (by rfl) _ _ now).mono fun hr => ⟨?_, hr.2⟩
    rcases not_and_or.mp hs with hs | hs
    · have hc := hr.1
      rw [not_not.mp hs] at hc
      cases hc
    · exact not_not.mp hs

theorem approve_tracks (a : MessageExecution) (approvalId : String) (now : Date) (silent : Prop) :
    a.Tracks (approve a approvalId now).1 silent := by
  unfold approve
  split
  · exact .refl a _
  next hs =>
    have hc : canTransition a.state.status .approved = true := by rw [not_not.mp hs]; rfl
    exact write_transition_tracks_of_can a (by rfl) hc _ now _

theorem reject_tracks (a : MessageExecution) (reason : String) (now : Date) (silent : Prop) :
    a.Tracks (reject a reason now).1 silent := by
  unfold reject
  split
  · exact .refl a _
  next hs =>
    have hc : canTransition a.state.status .failed = true := by rw [not_not.mp hs]; rfl
    exact write_transition_tracks_of_can a (by rfl) hc _ now _

theorem markProviderAttempt_tracks (a : MessageExecution) (providerId : String) (now : Date) :
    a.Tracks (markProviderAttempt a providerId now).1
      (Op.silent now a.state (.markProviderAttempt providerId)) := by
  unfold markProviderAttempt
  split
  · exact .refl a _
  next hs => exact .write a fun _ => not_not.mp hs

/-- `markFailed` by the status it moves to. -/
theorem markFailed_eq_match (a : MessageExecution) (classification : RetryClassification)
    (reason : String) (providerErrorCode : Option String) (now : Date) :
    ∃ text, markFailed a classification reason providerErrorCode now =
      match failureTarget a.state.status classification with
      | none => (a.write (failureWrites a.state classification reason providerErrorCode now), .ok)
      | some target =>
        transition (a.write (failureWrites a.state classification reason providerErrorCode now))
          target text now := by
  unfold markFailed failureWrites failureTarget
  dsimp only
  by_cases hc : classification ≠ .nonRetryable
  · rw [if_pos hc, if_pos hc]
    cases preSubmission a.state.status with
    | true => exact ⟨none, rfl⟩
    | false => exact ⟨_, rfl⟩
  · rw [if_neg hc, if_neg hc]
    cases preSubmission a.state.status with
    | true => exact ⟨_, rfl⟩
    | false =>
      by_cases hd : a.state.status = .providerAccepted ∨ a.state.status = .deliveryPending ∨
          a.state.status = .delivered ∨ a.state.status = .opened
      · rw [if_neg Bool.false_ne_true, if_pos hd, if_neg Bool.false_ne_true, if_pos hd]
        exact ⟨_, rfl⟩
      · rw [if_neg Bool.false_ne_true, if_neg hd, if_neg Bool.false_ne_true, if_neg hd]
        exact ⟨_, rfl⟩

/-- The execution `markFailed` leaves. -/
theorem markFailed_eq (a : MessageExecution) (classification : RetryClassification)
    (reason : String) (providerErrorCode : Option String) (now : Date) :
    ∃ text, (markFailed a classification reason providerErrorCode now).1 =
      match failureTarget a.state.status classification with
      | none => a.write (failureWrites a.state classification reason providerErrorCode now)
      | some target =>
        (transition (a.write (failureWrites a.state classification reason providerErrorCode now))
          target text now).1 := by
  obtain ⟨text, heq⟩ := markFailed_eq_match a classification reason providerErrorCode now
  rw [heq]
  cases failureTarget a.state.status classification <;> exact ⟨text, rfl⟩

theorem failureWrites_status (s : Props) (classification : RetryClassification)
    (reason : String) (providerErrorCode : Option String) (now : Date) :
    (failureWrites s classification reason providerErrorCode now).status = s.status := by
  unfold failureWrites
  dsimp only
  split <;> rfl

theorem markFailed_tracks (a : MessageExecution) (classification : RetryClassification)
    (reason : String) (providerErrorCode : Option String) (now : Date) :
    a.Tracks (markFailed a classification reason providerErrorCode now).1
      (Op.silent now a.state (.markFailed classification reason providerErrorCode)) := by
  obtain ⟨text, heq⟩ := markFailed_eq a classification reason providerErrorCode now
  rw [heq]
  unfold Op.silent
  cases ht : failureTarget a.state.status classification with
  | none => exact .write a fun hne => ⟨by simp [ht], hne⟩
  | some target =>
    refine (write_transition_tracks a (failureWrites_status ..) target text now).mono ?_
    intro hr
    exact ⟨by simp [ht, hr.1], hr.2⟩

theorem markBounced_tracks (a : MessageExecution) (reason : String) (now : Date) :
    a.Tracks (markBounced a reason now).1 (Op.silent now a.state (.markBounced reason)) :=
  (write_transition_tracks a (by rfl) _ _ now).mono And.right

theorem recordRetryAfter_tracks (a : MessageExecution) (ms : Nat) (now : Date) :
    a.Tracks (recordRetryAfter a ms) (Op.silent now a.state (.recordRetryAfter ms)) := by
  refine .write a fun hne heq => hne ?_
  rw [← heq]

/-- Outside its silent branches an operation that writes a field raises an event. -/
theorem Op.apply_tracks (now : Date) (op : Op) (a : MessageExecution) :
    a.Tracks (op.apply now a) (op.silent now a.state) := by
  cases op with
  | setDraft messageId draft => exact setDraft_tracks a messageId draft now
  | approve approvalId => exact approve_tracks a approvalId now _
  | reject reason => exact reject_tracks a reason now _
  | markProviderAttempt providerId => exact markProviderAttempt_tracks a providerId now
  | markBounced reason => exact markBounced_tracks a reason now
  | markFailed classification reason providerErrorCode =>
    exact markFailed_tracks a classification reason providerErrorCode now
  | markReconciledDelivered internetMessageId => exact .of_lt rfl (Nat.lt_succ_self _)
  | markReconciledFailed reason => exact .of_lt rfl (Nat.lt_succ_self _)
  | recordRetryAfter ms => exact recordRetryAfter_tracks a ms now
  | markProviderAccepted _ _ _ | markDelivered _ | markDeliveryUnknown _
    | markRequiresReconciliation _ => exact write_transition_tracks a (by rfl) _ _ now
  | _ => exact transition_tracks a _ _ now _

/-- A refused transition leaves what was written before it. -/
theorem write_transition_of_refused {a : MessageExecution} {s : Props}
    (hs : s.status = a.state.status) {target : Status} (h : refused a.state s target)
    (reason : Option String) (now : Date) :
    (transition (a.write s) target reason now).1.version = a.version ∧
      (transition (a.write s) target reason now).1.state ≠ a.state := by
  rcases transition_eq (a.write s) target reason now with ⟨hc, -⟩ | ⟨-, -, heq⟩
  · rw [Versioned.Aggregate.write_state, hs, h.1] at hc
    cases hc
  · rw [heq]
    exact ⟨rfl, h.2⟩

theorem setDraft_of_silent {a : MessageExecution} {messageId : String} {draft : MessageDraft}
    {now : Date} (h : Op.silent now a.state (.setDraft messageId draft)) :
    (setDraft a messageId draft now).1.version = a.version ∧
      (setDraft a messageId draft now).1.state ≠ a.state := by
  obtain ⟨hp, hne⟩ := h
  unfold setDraft
  rw [if_neg (by simp [hp])]
  have hc : canTransition a.state.status .pendingApproval = false := by rw [hp]; rfl
  exact write_transition_of_refused (by rfl) ⟨hc, hne⟩ _ now

theorem markProviderAttempt_of_silent {a : MessageExecution} {providerId : String} {now : Date}
    (h : a.state.status = .sending) :
    (markProviderAttempt a providerId now).1.version = a.version ∧
      (markProviderAttempt a providerId now).1.state ≠ a.state := by
  unfold markProviderAttempt
  rw [if_neg (not_not_intro h)]
  refine ⟨rfl, fun hs => ?_⟩
  have hattempts := congrArg Props.attempts hs
  exact absurd hattempts (Nat.succ_ne_self _)

theorem markFailed_of_silent {a : MessageExecution} {classification : RetryClassification}
    {reason : String} {providerErrorCode : Option String} {now : Date}
    (h : Op.silent now a.state (.markFailed classification reason providerErrorCode)) :
    (markFailed a classification reason providerErrorCode now).1.version = a.version ∧
      (markFailed a classification reason providerErrorCode now).1.state ≠ a.state := by
  obtain ⟨hc, hne⟩ := h
  obtain ⟨text, heq⟩ := markFailed_eq a classification reason providerErrorCode now
  rw [heq]
  cases ht : failureTarget a.state.status classification with
  | none => exact ⟨rfl, hne⟩
  | some target =>
    have hcan : canTransition a.state.status target = false := by simpa [ht] using hc
    exact write_transition_of_refused (failureWrites_status ..) ⟨hcan, hne⟩ text now

/-- A silent branch changes the state and leaves the version. -/
theorem Op.silent_changes (now : Date) (op : Op) (a : MessageExecution)
    (h : op.silent now a.state) :
    (op.apply now a).version = a.version ∧ (op.apply now a).state ≠ a.state := by
  cases op with
  | setDraft messageId draft => exact setDraft_of_silent h
  | markProviderAttempt providerId => exact markProviderAttempt_of_silent h
  | markBounced reason =>
    exact write_transition_of_refused (by rfl) ⟨not_canTransition_bounced _, h⟩ _ now
  | markFailed classification reason providerErrorCode => exact markFailed_of_silent h
  | recordRetryAfter ms =>
    exact ⟨rfl, fun hs => h (congrArg Props.retryAfterMs hs).symm⟩
  | markProviderAccepted _ _ _ | markDelivered _ | markDeliveryUnknown _
    | markRequiresReconciliation _ => exact write_transition_of_refused (by rfl) h _ now
  | _ => cases h

end MessageExecution

/-! ## Conversations -/

namespace Conversation

inductive Op where
  | recordReply (reply : ReplyMessage)
  | classifyIntent (classification : IntentClassification)
  | decideAction (action : NextBestAction)
  | close (disposition : Disposition) (reason : String)

def Op.apply (now : Date) (a : Conversation) : Op → Conversation
  | recordReply reply => (Conversation.recordReply a reply now).1
  | classifyIntent classification => (Conversation.classifyIntent a classification now).1
  | decideAction action => (Conversation.decideAction a action now).1
  | close disposition reason => (Conversation.close a disposition reason now).1

/-- An opt-out is recorded although the status may not move, and the reason of an escalation is
written before the transition is checked. -/
def Op.silent (s : Props) : Op → Prop
  | recordReply reply =>
    s.optedOut = false ∧ asksToOptOut reply.content = true ∧
      canTransition s.status .optedOut = false
  | decideAction action =>
    s.optedOut = false ∧ action.actionType = .escalate ∧
      canTransition s.status .escalated = false ∧ s.escalatedReason ≠ some action.reason
  | _ => False

/-- A transition, then a write that happens only where it succeeded. -/
theorem transitionTo_write_tracks (a : Conversation) (target : Status) (event : Event)
    (s : Props) (silent : Prop) :
    a.Tracks (if (transitionTo a target event).2.success then
      ((transitionTo a target event).1.write s, OpResult.ok)
      else ((transitionTo a target event).1, (transitionTo a target event).2)).1 silent := by
  rcases transitionTo_eq a target event with ⟨-, hok, hv, hl, -⟩ | ⟨-, hfail, h⟩
  · rw [hok]
    exact .of_lt hl (by simp [OpResult.success, hv])
  · rw [hfail, h]
    exact .refl a _

theorem recordReply_tracks (a : Conversation) (reply : ReplyMessage) (now : Date) :
    a.Tracks (recordReply a reply now).1 (Op.silent a.state (.recordReply reply)) := by
  unfold recordReply
  by_cases ho : a.state.optedOut = true
  · rw [if_pos ho]
    exact .refl a _
  rw [if_neg ho]
  by_cases hask : asksToOptOut reply.content = true
  · rw [if_pos hask]
    dsimp only
    rcases transitionTo_eq a .optedOut (.optOutRecorded a.state.id a.state.leadId a.state.channel)
      with ⟨-, -, hv, hl, -⟩ | ⟨hc, -, h⟩
    · exact .of_lt hl (by simp [hv])
    · rw [h]
      exact .write a fun _ => ⟨by simpa using ho, hask, hc⟩
  · rw [if_neg hask]
    exact transitionTo_write_tracks a _ _ _ _

theorem classifyIntent_tracks (a : Conversation) (classification : IntentClassification)
    (now : Date) (silent : Prop) : a.Tracks (classifyIntent a classification now).1 silent := by
  unfold classifyIntent
  split
  · exact .refl a _
  · exact transitionTo_write_tracks a _ _ _ _

theorem decideAction_tracks (a : Conversation) (action : NextBestAction) (now : Date) :
    a.Tracks (decideAction a action now).1 (Op.silent a.state (.decideAction action)) := by
  unfold decideAction
  by_cases ho : a.state.optedOut = true
  · rw [if_pos ho]
    exact .refl a _
  rw [if_neg ho]
  dsimp only
  by_cases he : action.actionType = .escalate
  · rw [if_pos he]
    rcases transitionTo_eq (a.write { a.state with escalatedReason := some action.reason })
        action.actionType.target (.followUpScheduled a.state.id action.actionType action.reason)
      with ⟨-, hok, hv, hl, -⟩ | ⟨hc, hfail, h⟩
    · rw [hok]
      exact .of_lt hl (by simp [OpResult.success, hv])
    · rw [hfail, h]
      rw [he] at hc
      refine .write a fun hne => ⟨by simpa using ho, he, hc, fun heq => hne ?_⟩
      rw [← heq]
  · rw [if_neg he]
    exact transitionTo_write_tracks a _ _ _ _

/-- Outside its silent branches an operation that writes a field raises an event. -/
theorem Op.apply_tracks (now : Date) (op : Op) (a : Conversation) :
    a.Tracks (op.apply now a) (op.silent a.state) := by
  cases op with
  | recordReply reply => exact recordReply_tracks a reply now
  | classifyIntent classification => exact classifyIntent_tracks a classification now _
  | decideAction action => exact decideAction_tracks a action now
  | close disposition reason => exact transitionTo_write_tracks a _ _ _ _

/-- A silent branch changes the state and leaves the version. -/
theorem Op.silent_changes (now : Date) (op : Op) (a : Conversation) (h : op.silent a.state) :
    (op.apply now a).version = a.version ∧ (op.apply now a).state ≠ a.state := by
  cases op with
  | recordReply reply =>
    obtain ⟨ho, hask, hc⟩ := h
    rcases transitionTo_eq a .optedOut (.optOutRecorded a.state.id a.state.leadId a.state.channel)
      with ⟨hcan, -⟩ | ⟨-, -, htr⟩
    · rw [hc] at hcan
      cases hcan
    · have heq : (Op.recordReply reply).apply now a =
          a.write ({ a.state with optedOut := true }.withReply reply now) := by
        show (Conversation.recordReply a reply now).1 = _
        unfold Conversation.recordReply
        rw [if_neg (by simp [ho]), if_pos hask]
        dsimp only
        rw [htr]
      rw [heq]
      refine ⟨rfl, fun hs => ?_⟩
      have hout := congrArg Props.optedOut hs
      rw [ho] at hout
      cases hout
  | decideAction action =>
    obtain ⟨ho, he, hc, hne⟩ := h
    rcases transitionTo_eq (a.write { a.state with escalatedReason := some action.reason })
        action.actionType.target (.followUpScheduled a.state.id action.actionType action.reason)
      with ⟨hcan, -⟩ | ⟨-, hfail, htr⟩
    · rw [he] at hcan
      rw [show canTransition a.state.status .escalated = true from hcan] at hc
      cases hc
    · have heq : (Op.decideAction action).apply now a =
          a.write { a.state with escalatedReason := some action.reason } := by
        show (Conversation.decideAction a action now).1 = _
        unfold Conversation.decideAction
        rw [if_neg (by simp [ho])]
        dsimp only
        rw [if_pos he, hfail, htr]
        rfl
      rw [heq]
      exact ⟨rfl, fun hs => hne (congrArg Props.escalatedReason hs).symm⟩
  | classifyIntent _ | close _ _ => cases h

end Conversation

/-! ## The four repositories -/

open LostUpdate Interleave

/-- The aggregates whose repositories save by compare-and-swap. -/
inductive Repository where
  | campaigns
  | sequences
  | messageExecutions
  | conversations

/-- Its operations, each with the time it runs at. -/
def Repository.model : Repository → LostUpdate.Model
  | campaigns =>
    { State := Campaign.Props, Event := Campaign.Event, Op := Campaign.Op × Date
      apply := fun op a => op.1.apply op.2 a, silent := fun op s => op.1.silent s }
  | sequences =>
    { State := Sequence.Props, Event := Sequence.Event, Op := Sequence.Op × Date
      apply := fun op a => op.1.apply op.2 a, silent := fun op s => op.1.silent s }
  | messageExecutions =>
    { State := MessageExecution.Props, Event := MessageExecution.Event
      Op := MessageExecution.Op × Date
      apply := fun op a => op.1.apply op.2 a, silent := fun op s => op.1.silent op.2 s }
  | conversations =>
    { State := Conversation.Props, Event := Conversation.Event, Op := Conversation.Op × Date
      apply := fun op a => op.1.apply op.2 a, silent := fun op s => op.1.silent s }

theorem Repository.lawful (r : Repository) : r.model.Lawful := by
  intro op a
  cases r with
  | campaigns => exact op.1.apply_tracks op.2 a
  | sequences => exact op.1.apply_tracks op.2 a
  | messageExecutions => exact op.1.apply_tracks op.2 a
  | conversations => exact op.1.apply_tracks op.2 a

theorem Repository.exact (r : Repository) : r.model.Exact := by
  intro op a h
  cases r with
  | campaigns => exact op.1.silent_changes op.2 a h
  | sequences => exact op.1.silent_changes op.2 a h
  | messageExecutions => exact op.1.silent_changes op.2 a h
  | conversations => exact op.1.silent_changes op.2 a h

/-- **Writers lose no update along a run iff none of them takes a silent branch on an unmoved
copy.** -/
theorem noLostUpdate_iff (r : Repository) (row : Versioned.Row r.model.State)
    (schedule : List (Tick (Action r.model))) :
    (∀ p, p <+: schedule → NoLostUpdate row.payload (run (step r.model) (start row) p)) ↔
      Meets (step r.model) Loud (start row) schedule :=
  noLostUpdate_iff_loud r.lawful r.exact row schedule

/-- A running campaign that has sent nothing yet. -/
def freshCampaign : Versioned.Row Campaign.Props :=
  ⟨{ id := "camp-1", tenantId := "t1", workspaceId := "ws1", leadId := "lead-1",
     contactId := "contact-1", recipientProtectionState := .legacyUnavailable, channel := .email,
     steps := [], status := .running, createdAt := 0, updatedAt := 0 }, 4⟩

/-- Two writers load the campaign, each records one send and saves. -/
def twoSpends : List (Tick (Action Repository.campaigns.model)) :=
  [⟨0, .load⟩, ⟨1, .load⟩, ⟨0, .operate (.recordSpend 1 0, 1)⟩, ⟨0, .save⟩,
    ⟨1, .operate (.recordSpend 1 0, 2)⟩, ⟨1, .save⟩]

/-- **Both saves succeed, and the second starts from the state before the first.** -/
theorem not_noLostUpdate_recordSpend :
    ¬ NoLostUpdate (M := Repository.campaigns.model) freshCampaign.payload
      (run (step Repository.campaigns.model) (start freshCampaign) twoSpends) := by
  intro h
  have hbase : (run (step Repository.campaigns.model) (start freshCampaign)
      twoSpends).world.writes.map (fun w => (Campaign.Props.sentCount w.base,
        Campaign.Props.sentCount w.saved)) = [(0, 1), (0, 1)] := by decide +kernel
  cases hw : (run (step Repository.campaigns.model) (start freshCampaign) twoSpends).world.writes with
  | nil => rw [hw] at hbase; cases hbase
  | cons w ws =>
    have hchain := h.chained
    rw [hw] at hchain hbase
    cases ws with
    | nil => simp at hbase
    | cons w' ws =>
      have hcount : Campaign.Props.sentCount w.base = Campaign.Props.sentCount w'.saved :=
        congrArg Campaign.Props.sentCount hchain.1
      simp only [List.map_cons, List.cons.injEq, Prod.mk.injEq] at hbase
      omega

end VegaRevenue
