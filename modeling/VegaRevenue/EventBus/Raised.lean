import VegaRevenue.Domain.Mission
import VegaRevenue.Domain.NoLostUpdate

/-!
# The events an operation raises

An operation of an aggregate raises an event or none, except where it moves a task of a mission to
its end or a sequence out of its last step: there it raises two, and both under the one event id it
was called with.

* `Op.apply_raises` — for each aggregate, how many events an operation raises
-/

namespace Versioned.Aggregate

variable {σ ε : Type*} {a b c : Aggregate σ ε}

/-- `b` is `a` after an operation that raises an event or none. -/
def RaisesOnce (a b : Aggregate σ ε) : Prop :=
  b.domainEvents = a.domainEvents ∨ ∃ e, b.domainEvents = a.domainEvents ++ [e]

/-- `b` is `a` after an operation that raises two events where `twice` holds, and else at most
one. -/
def Raises (a b : Aggregate σ ε) (twice : Prop) : Prop :=
  ¬twice ∧ a.RaisesOnce b ∨ twice ∧ ∃ e e', b.domainEvents = a.domainEvents ++ [e, e']

theorem RaisesOnce.refl (a : Aggregate σ ε) : a.RaisesOnce a := .inl rfl

theorem RaisesOnce.raises (h : a.RaisesOnce b) {twice : Prop} (hnot : ¬twice) :
    a.Raises b twice := .inl ⟨hnot, h⟩

/-- What was raised since `a`. -/
def raisedSince (a b : Aggregate σ ε) : List ε := b.domainEvents.drop a.domainEvents.length

theorem Raises.raisedSince {twice : Prop} (h : a.Raises b twice) :
    b.domainEvents = a.domainEvents ++ a.raisedSince b ∧
      ((a.raisedSince b).length ≤ 1 ↔ ¬twice) := by
  unfold Aggregate.raisedSince
  rcases h with ⟨hnot, heq | ⟨e, heq⟩⟩ | ⟨htwice, e, e', heq⟩
  · simp [heq, hnot]
  · simp [heq, hnot]
  · simp [heq, htwice]

end Versioned.Aggregate

namespace VegaRevenue

open Versioned

/-! ## Campaigns -/

namespace Campaign

theorem transition_raises (a : Campaign) (target : Status) (reason decidedBy : Option String)
    (now : Date) : a.RaisesOnce (transition a target reason decidedBy now).1 := by
  unfold transition
  split
  · exact .inr ⟨_, rfl⟩
  · exact .refl a

theorem Op.apply_raises (now : Date) (op : Op) (a : Campaign) :
    a.RaisesOnce (op.apply now a) := by
  cases op with
  | recordSpend sendCount costUsd =>
    show a.RaisesOnce (Campaign.recordSpend a sendCount costUsd).1
    unfold Campaign.recordSpend
    split
    · exact .inl rfl
    · exact .refl a
  | adjustSpentCost costUsd => exact .inl rfl
  | _ => exact transition_raises a _ _ _ now

theorem create_raises {props : Props} {a : Campaign} (h : create props = .ok a) :
    a.domainEvents.length = 1 := by
  unfold create at h
  split at h
  · cases h
  · split at h
    · cases h
    · split at h
      · cases h
      · cases h
        rfl

end Campaign

/-! ## Sequences -/

namespace Sequence

theorem transition_raises (a : Sequence) (target : Status) (reason decidedBy : Option String)
    (now : Date) : a.RaisesOnce (transition a target reason decidedBy now).1 := by
  unfold transition
  split
  · exact .inr ⟨_, rfl⟩
  · exact .refl a

/-- The last step completes the sequence, and a step that is not retried fails it. -/
def Op.raisesTwice (s : Props) : Op → Prop
  | completeStep _ _ => s.status = .running ∧ s.currentStepIndex + 1 = s.steps.length
  | failStep _ _ retryable =>
    s.status = .running ∧ s.currentStepIndex < s.steps.length ∧ retryable = false
  | _ => False

theorem startStep_raises (a : Sequence) (executionId : String) (scheduledAt : Date) :
    a.RaisesOnce (startStep a executionId scheduledAt).1 := by
  unfold startStep
  split
  · exact .refl a
  · split
    · exact .refl a
    · split
      · exact .refl a
      · exact .inr ⟨_, rfl⟩

/-- A step that is over, and the status that changes with it. -/
theorem transition_after_event {b : Sequence} {e : Event} {target : Status}
    (hcan : canTransition b.state.status target = true) (reason decidedBy : Option String)
    (now : Date) :
    ∃ e', (transition (b.applyEvent e) target reason decidedBy now).1.domainEvents =
      b.domainEvents ++ [e, e'] := by
  unfold transition
  rw [if_pos (by exact hcan)]
  exact ⟨_, List.append_assoc _ [e] [_]⟩

theorem completeStep_raises (a : Sequence) (executionId : String) (nextDueAt : Option Date)
    (now : Date) :
    a.Raises (completeStep a executionId nextDueAt now).1
      (Op.raisesTwice a.state (.completeStep executionId nextDueAt)) := by
  unfold completeStep
  by_cases hs : a.state.status = .running
  · rw [if_neg (not_not_intro hs)]
    dsimp only
    cases hstep : a.state.steps[a.state.currentStepIndex]? with
    | none =>
      have hlen := List.getElem?_eq_none_iff.mp hstep
      refine .inl ⟨fun htwice => ?_, .inl rfl⟩
      have hlast : a.state.currentStepIndex + 1 = a.state.steps.length := htwice.2
      omega
    | some step =>
      obtain ⟨hlt, -⟩ := List.getElem?_eq_some_iff.mp hstep
      dsimp only
      split
      next hmore =>
        refine .inl ⟨fun htwice => ?_, .inr ⟨_, rfl⟩⟩
        have hlast : a.state.currentStepIndex + 1 = a.state.steps.length := htwice.2
        omega
      next hlast =>
        have hcan : canTransition a.state.status .completed = true := by rw [hs]; rfl
        obtain ⟨e', he'⟩ := transition_after_event (b := a.write { a.state with
          currentStepIndex := a.state.currentStepIndex + 1, nextDueAt })
          (e := .stepCompleted a.state.id a.state.campaignId step.stepNumber executionId
            (a.state.steps[a.state.currentStepIndex + 1]?.map SequenceStep.stepNumber) nextDueAt)
          hcan (some "All steps completed") none now
        exact .inr ⟨⟨hs, by omega⟩, _, e', he'⟩
  · rw [if_pos hs]
    exact .inl ⟨fun htwice => hs htwice.1, .refl a⟩

theorem failStep_raises (a : Sequence) (executionId reason : String) (retryable : Bool)
    (now : Date) :
    a.Raises (failStep a executionId reason retryable now).1
      (Op.raisesTwice a.state (.failStep executionId reason retryable)) := by
  unfold failStep
  by_cases hs : a.state.status = .running
  · rw [if_neg (not_not_intro hs)]
    cases hstep : a.state.steps[a.state.currentStepIndex]? with
    | none =>
      have hlen := List.getElem?_eq_none_iff.mp hstep
      exact .inl ⟨fun htwice => absurd htwice.2.1 (Nat.not_lt.mpr hlen), .refl a⟩
    | some step =>
      obtain ⟨hlt, -⟩ := List.getElem?_eq_some_iff.mp hstep
      dsimp only
      cases retryable with
      | true => exact .inl ⟨fun htwice => Bool.noConfusion htwice.2.2, .inr ⟨_, rfl⟩⟩
      | false =>
        rw [if_neg Bool.false_ne_true]
        have hcan : canTransition a.state.status .failed = true := by rw [hs]; rfl
        obtain ⟨e', he'⟩ := transition_after_event (b := a)
          (e := .stepFailed a.state.id a.state.campaignId step.stepNumber executionId reason false)
          hcan (some reason) none now
        exact .inr ⟨⟨hs, hlt, rfl⟩, _, e', he'⟩
  · rw [if_pos hs]
    exact .inl ⟨fun htwice => hs htwice.1, .refl a⟩

theorem Op.apply_raises (now : Date) (op : Op) (a : Sequence) :
    a.Raises (op.apply now a) (op.raisesTwice a.state) := by
  cases op with
  | startStep executionId scheduledAt =>
    exact (startStep_raises a executionId scheduledAt).raises id
  | completeStep executionId nextDueAt => exact completeStep_raises a executionId nextDueAt now
  | failStep executionId reason retryable => exact failStep_raises a executionId reason retryable now
  | waitForResponse deadline =>
    refine Aggregate.RaisesOnce.raises ?_ id
    show a.RaisesOnce (Sequence.waitForResponse a deadline now).1
    unfold Sequence.waitForResponse
    split
    · exact .refl a
    · exact transition_raises (a.write _) _ _ _ now
  | continueAfterResponse =>
    exact (transition_raises (a.write { a.state with responseDeadlineAt := none }) _ _ _
      now).raises id
  | linkWorkflow workflowId =>
    refine Aggregate.RaisesOnce.raises ?_ id
    show a.RaisesOnce (Sequence.linkWorkflow a workflowId now).1
    unfold Sequence.linkWorkflow
    split
    · exact .refl a
    · exact .inr ⟨_, rfl⟩
  | _ => exact (transition_raises a _ _ _ now).raises id

theorem create_raises {props : Props} {campaignRecipientFingerprint : Option String}
    {a : Sequence} (h : create props campaignRecipientFingerprint = .ok a) :
    a.domainEvents.length = 1 := by
  unfold create at h
  split at h
  · cases h
  · split at h
    · cases h
    · split at h
      · cases h
      · split at h
        · cases h
        · cases h
          rfl

end Sequence

/-! ## Message executions -/

namespace MessageExecution

theorem transition_raises (a : MessageExecution) (target : Status) (reason : Option String)
    (now : Date) : a.RaisesOnce (transition a target reason now).1 := by
  unfold transition
  split
  · exact .inr ⟨_, rfl⟩
  · exact .refl a

theorem write_transition_raises (a : MessageExecution) (s : Props) (target : Status)
    (reason : Option String) (now : Date) :
    a.RaisesOnce (transition (a.write s) target reason now).1 :=
  transition_raises (a.write s) target reason now

theorem markFailed_raises (a : MessageExecution) (classification : RetryClassification)
    (reason : String) (providerErrorCode : Option String) (now : Date) :
    a.RaisesOnce (markFailed a classification reason providerErrorCode now).1 := by
  obtain ⟨text, heq⟩ := markFailed_eq a classification reason providerErrorCode now
  rw [heq]
  split
  · exact .inl rfl
  · exact write_transition_raises a _ _ text now

theorem Op.apply_raises (now : Date) (op : Op) (a : MessageExecution) :
    a.RaisesOnce (op.apply now a) := by
  cases op with
  | setDraft messageId draft =>
    show a.RaisesOnce (MessageExecution.setDraft a messageId draft now).1
    unfold MessageExecution.setDraft
    split
    · exact .refl a
    · exact write_transition_raises a _ _ _ now
  | approve approvalId =>
    show a.RaisesOnce (MessageExecution.approve a approvalId now).1
    unfold MessageExecution.approve
    split
    · exact .refl a
    · exact write_transition_raises a _ _ _ now
  | reject reason =>
    show a.RaisesOnce (MessageExecution.reject a reason now).1
    unfold MessageExecution.reject
    split
    · exact .refl a
    · exact write_transition_raises a _ _ _ now
  | markProviderAttempt providerId =>
    show a.RaisesOnce (MessageExecution.markProviderAttempt a providerId now).1
    unfold MessageExecution.markProviderAttempt
    split
    · exact .refl a
    · exact .inl rfl
  | markFailed classification reason providerErrorCode =>
    exact markFailed_raises a classification reason providerErrorCode now
  | markReconciledDelivered internetMessageId => exact .inr ⟨_, rfl⟩
  | markReconciledFailed reason => exact .inr ⟨_, rfl⟩
  | recordRetryAfter ms => exact .inl rfl
  | markProviderAccepted _ _ _ | markDelivered _ | markBounced _ | markDeliveryUnknown _
    | markRequiresReconciliation _ => exact write_transition_raises a _ _ _ now
  | _ => exact transition_raises a _ _ now

theorem create_raises {props : Props} {a : MessageExecution} (h : create props = .ok a) :
    a.domainEvents.length = 1 := by
  unfold create at h
  split at h
  · cases h
  · split at h
    · cases h
    · cases h
      rfl

end MessageExecution

/-! ## Conversations -/

namespace Conversation

theorem transitionTo_raises (a : Conversation) (target : Status) (event : Event) :
    a.RaisesOnce (transitionTo a target event).1 := by
  unfold transitionTo
  split
  · exact .inr ⟨_, rfl⟩
  · exact .refl a

/-- A transition, then a write that happens only where it succeeded. -/
theorem transitionTo_write_raises (a : Conversation) (target : Status) (event : Event)
    (s : Props) :
    a.RaisesOnce (if (transitionTo a target event).2.success then
      ((transitionTo a target event).1.write s, OpResult.ok)
      else ((transitionTo a target event).1, (transitionTo a target event).2)).1 := by
  split
  · exact transitionTo_raises a target event
  · exact transitionTo_raises a target event

theorem Op.apply_raises (now : Date) (op : Op) (a : Conversation) :
    a.RaisesOnce (op.apply now a) := by
  cases op with
  | recordReply reply =>
    show a.RaisesOnce (Conversation.recordReply a reply now).1
    unfold Conversation.recordReply
    split
    · exact .refl a
    · split
      · exact transitionTo_raises a _ _
      · exact transitionTo_write_raises a _ _ _
  | classifyIntent classification =>
    show a.RaisesOnce (Conversation.classifyIntent a classification now).1
    unfold Conversation.classifyIntent
    split
    · exact .refl a
    · exact transitionTo_write_raises a _ _ _
  | decideAction action =>
    show a.RaisesOnce (Conversation.decideAction a action now).1
    unfold Conversation.decideAction
    split
    · exact .refl a
    · dsimp only
      split
      · exact transitionTo_write_raises (a.write _) _ _ _
      · exact transitionTo_write_raises a _ _ _
  | close disposition reason => exact transitionTo_write_raises a _ _ _

end Conversation

/-! ## Missions -/

namespace Mission

theorem transitionTo_raises (m : Mission) (target : Status) (event : Event) (now : Date) :
    m.RaisesOnce (transitionTo m target event now).1 := by
  unfold transitionTo
  split
  · exact .inr ⟨_, rfl⟩
  · exact .refl m

/-- The task is there and may move. -/
def movable (s : Props) (id : String) (target : TaskStatus) : Prop :=
  ∃ t, findTask s.tasks id = some t ∧ canTransitionTask t.status target = true

/-- A task that times out or is cancelled. -/
def Op.raisesTwice (s : Props) : Op → Prop
  | timeoutTask id => movable s id .timedOut
  | cancelTask id _ => movable s id .cancelled
  | _ => False

theorem moveTask_raises (m : Mission) (id : String) (target : TaskStatus)
    (change : MissionTask → MissionTask) (now : Date) :
    m.RaisesOnce (moveTask m id target change [] now).1 := by
  unfold moveTask
  split
  · exact .refl m
  · split
    · exact .refl m
    · exact .inr ⟨_, rfl⟩

/-- A task that moves raises an event of its own beside the one of its status. -/
theorem moveTask_raises_two (m : Mission) (id : String) (target : TaskStatus)
    (change : MissionTask → MissionTask) (event : Event) (now : Date) :
    m.Raises (moveTask m id target change [event] now).1 (movable m.state id target) := by
  unfold moveTask
  split
  next hnone =>
    refine .inl ⟨?_, .refl m⟩
    rintro ⟨t, ht, -⟩
    rw [hnone] at ht
    cases ht
  next t ht =>
    split
    next message herror =>
      refine .inl ⟨?_, .refl m⟩
      rintro ⟨t', ht', hcan⟩
      rw [ht] at ht'
      cases ht'
      unfold MissionTask.transitionStatus at herror
      rw [if_pos hcan] at herror
      cases herror
    next t' ht' =>
      exact .inr ⟨⟨t, ht, (transitionStatus_ok ht').1⟩, _, _, List.append_assoc _ [_] [event]⟩

theorem Op.apply_raises (now : Date) (op : Op) (m : Mission) :
    m.Raises (op.apply now m).1 (op.raisesTwice m.state) := by
  cases op with
  | timeoutTask id => exact moveTask_raises_two m id .timedOut _ _ now
  | cancelTask id reason => exact moveTask_raises_two m id .cancelled _ _ now
  | planValid =>
    refine Aggregate.RaisesOnce.raises ?_ id
    show m.RaisesOnce (Mission.planValid m now).1
    unfold Mission.planValid
    split
    · exact .refl m
    · exact transitionTo_raises m _ _ now
  | replan newPlan newTasks =>
    refine Aggregate.RaisesOnce.raises ?_ id
    rcases replan_cases m newPlan newTasks now with ⟨-, heq⟩ | ⟨-, heq⟩
    · exact .inl (congrArg Aggregate.domainEvents heq)
    · exact .inr ⟨_, congrArg Aggregate.domainEvents heq⟩
  | complete outcomes =>
    refine Aggregate.RaisesOnce.raises ?_ id
    have h := transitionTo_raises m .completed (.completed m.state.id outcomes) now
    show m.RaisesOnce (Mission.complete m outcomes now).1
    unfold Mission.complete
    split
    next m' heq =>
      rw [heq] at h
      exact h
    · exact h
  | setPlan plan => exact .inl ⟨id, .inl rfl⟩
  | addTask props =>
    refine Aggregate.RaisesOnce.raises ?_ id
    rcases addTask_cases m props with ⟨-, heq⟩ | ⟨-, heq⟩
    · exact .inl (congrArg Aggregate.domainEvents heq)
    · exact .inr ⟨_, congrArg Aggregate.domainEvents heq⟩
  | startTask id =>
    refine Aggregate.RaisesOnce.raises ?_ not_false
    show m.RaisesOnce (Mission.startTask m id now).1
    unfold Mission.startTask
    split
    · exact .refl m
    · split
      · exact .refl m
      · split
        · exact .refl m
        · exact moveTask_raises m id .running _ now
  | completeTask id output =>
    exact (moveTask_raises m id .completed _ now).raises not_false
  | failTask id reason => exact (moveTask_raises m id .failed _ now).raises not_false
  | markTaskAwaitingApproval id approvalGateId =>
    exact (moveTask_raises m id .awaitingApproval _ now).raises not_false
  | _ => exact (transitionTo_raises m _ _ now).raises id

theorem create_raises {props : Props} {now : Date} {m : Mission}
    (h : create props now = .ok m) : m.domainEvents.length = 1 := by
  rw [create_ok h]
  rfl

end Mission

end VegaRevenue
