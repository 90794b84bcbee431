import VegaRevenue.Domain.NoLostUpdate

/-!
# What stays stored

Writers that save by compare-and-swap may lose updates of each other, but not every update: an end
of a campaign, sequence or conversation that is stored stays stored, and an execution whose sending
has begun never waits for a draft or an approval again.

* `milestone_stays` — whichever copies the writers hold
-/

namespace VegaRevenue

open Versioned LostUpdate Interleave

/-! ## A status that moves along a table -/

section

variable {σ ε St : Type} {status : σ → St} {can : St → St → Bool}

/-- The status stays, or moves along the table together with the version. -/
def StatusMoves (status : σ → St) (can : St → St → Bool) (a b : Aggregate σ ε) : Prop :=
  status b.state = status a.state ∨
    can (status a.state) (status b.state) = true ∧ a.version < b.version

theorem StatusMoves.refl (a : Aggregate σ ε) : StatusMoves status can a a := .inl rfl

/-- **What the table does not lead out of lasts**, where the operations move the status along it. -/
theorem lasting_of_moves {M : Model} {status : M.State → St} {P : St → Prop}
    (hmoves : ∀ (op : M.Op) (a : Aggregate M.State M.Event),
      StatusMoves status can a (M.apply op a))
    (hend : ∀ s t, P s → can s t = true → P t) : M.Lasting fun s => P (status s) := by
  constructor
  · intro op a ha
    rcases hmoves op a with hsame | ⟨hcan, -⟩
    · rw [hsame]
      exact ha
    · exact hend _ _ ha hcan
  · intro op a ha hb
    rcases hmoves op a with hsame | ⟨-, hlt⟩
    · rw [hsame] at hb
      exact absurd hb ha
    · exact hlt

end

/-! ## Campaigns -/

namespace Campaign

theorem eq_of_canTransition_end {target : Status} (h : target.transitions = []) (s t : Status)
    (hs : s = target) (hcan : canTransition s t = true) : t = target := by
  unfold canTransition at hcan
  rw [hs, h] at hcan
  simp at hcan

theorem transition_moves (a : Campaign) (target : Status) (reason decidedBy : Option String)
    (now : Date) :
    StatusMoves Props.status canTransition a (transition a target reason decidedBy now).1 := by
  rcases transition_eq a target reason decidedBy now with ⟨hcan, -, hv, -, hs⟩ | ⟨-, -, h⟩
  · exact .inr ⟨by rw [hs]; exact hcan, by omega⟩
  · rw [h]
    exact .refl a

theorem Op.apply_moves (now : Date) (op : Op) (a : Campaign) :
    StatusMoves Props.status canTransition a (op.apply now a) := by
  cases op with
  | recordSpend sendCount costUsd =>
    refine .inl ?_
    show (Campaign.recordSpend a sendCount costUsd).1.state.status = _
    unfold Campaign.recordSpend
    split <;> rfl
  | adjustSpentCost costUsd => exact .inl rfl
  | _ => exact transition_moves a _ _ _ now

end Campaign

/-! ## Sequences -/

namespace Sequence

theorem eq_of_canTransition_end {target : Status} (h : target.transitions = []) (s t : Status)
    (hs : s = target) (hcan : canTransition s t = true) : t = target := by
  unfold canTransition at hcan
  rw [hs, h] at hcan
  simp at hcan

/-- A transition from a copy that has moved its version, but not its status. -/
theorem transition_moves (a b : Sequence) (hs : b.state.status = a.state.status)
    (hv : a.version ≤ b.version) (target : Status) (reason decidedBy : Option String) (now : Date) :
    StatusMoves Props.status canTransition a (transition b target reason decidedBy now).1 := by
  rcases transition_eq b target reason decidedBy now with ⟨hcan, -, hversion, -, hstate⟩ | ⟨-, -, h⟩
  · refine .inr ⟨?_, by omega⟩
    rw [hstate, ← hs]
    exact hcan
  · rw [h]
    exact .inl hs

theorem write_transition_moves (a : Sequence) {s : Props} (hs : s.status = a.state.status)
    (target : Status) (reason decidedBy : Option String) (now : Date) :
    StatusMoves Props.status canTransition a
      (transition (a.write s) target reason decidedBy now).1 :=
  transition_moves a (a.write s) hs (Nat.le_refl _) target reason decidedBy now

theorem completeStep_moves (a : Sequence) (executionId : String) (nextDueAt : Option Date)
    (now : Date) :
    StatusMoves Props.status canTransition a (completeStep a executionId nextDueAt now).1 := by
  unfold completeStep
  split
  · exact .refl a
  · dsimp only
    split
    · exact .inl rfl
    · split
      · exact .inl rfl
      · refine transition_moves a _ ?_ ?_ _ _ _ now
        · rfl
        · exact Nat.le_succ _

theorem failStep_moves (a : Sequence) (executionId reason : String) (retryable : Bool)
    (now : Date) :
    StatusMoves Props.status canTransition a (failStep a executionId reason retryable now).1 := by
  unfold failStep
  split
  · exact .refl a
  · split
    · exact .refl a
    · dsimp only
      split
      · exact .inl rfl
      · refine transition_moves a _ ?_ ?_ _ _ _ now
        · rfl
        · exact Nat.le_succ _

theorem startStep_moves (a : Sequence) (executionId : String) (scheduledAt : Date) :
    StatusMoves Props.status canTransition a (startStep a executionId scheduledAt).1 := by
  unfold startStep
  split
  · exact .refl a
  · split
    · exact .refl a
    · split
      · exact .refl a
      · exact .inl rfl

theorem Op.apply_moves (now : Date) (op : Op) (a : Sequence) :
    StatusMoves Props.status canTransition a (op.apply now a) := by
  cases op with
  | startStep executionId scheduledAt => exact startStep_moves a executionId scheduledAt
  | completeStep executionId nextDueAt => exact completeStep_moves a executionId nextDueAt now
  | failStep executionId reason retryable => exact failStep_moves a executionId reason retryable now
  | waitForResponse deadline =>
    show StatusMoves _ _ a (Sequence.waitForResponse a deadline now).1
    unfold Sequence.waitForResponse
    split
    · exact .refl a
    · refine write_transition_moves a ?_ _ _ _ now
      rfl
  | continueAfterResponse =>
    refine write_transition_moves a ?_ _ _ _ now
    rfl
  | linkWorkflow workflowId =>
    refine .inl ?_
    show (Sequence.linkWorkflow a workflowId now).1.state.status = _
    unfold Sequence.linkWorkflow
    split <;> rfl
  | _ => exact transition_moves a _ rfl (Nat.le_refl _) _ _ _ now

end Sequence

/-! ## Conversations -/

namespace Conversation

theorem eq_of_canTransition_end {target : Status} (h : target.transitions = []) (s t : Status)
    (hs : s = target) (hcan : canTransition s t = true) : t = target := by
  unfold canTransition at hcan
  rw [hs, h] at hcan
  simp at hcan

theorem transitionTo_moves (a b : Conversation) (hs : b.state.status = a.state.status)
    (hv : a.version ≤ b.version) (target : Status) (event : Event) :
    StatusMoves Props.status canTransition a (transitionTo b target event).1 := by
  rcases transitionTo_eq b target event with ⟨hcan, -, hversion, -, hstate⟩ | ⟨-, -, h⟩
  · refine .inr ⟨?_, by omega⟩
    rw [hstate, ← hs]
    exact hcan
  · rw [h]
    exact .inl hs

/-- A write that leaves the status, after the move. -/
theorem moves_write {a b : Conversation} (h : StatusMoves Props.status canTransition a b)
    {s : Props} (hs : s.status = b.state.status) :
    StatusMoves Props.status canTransition a (b.write s) := by
  unfold StatusMoves at h ⊢
  rw [Aggregate.write_state, Aggregate.write_version, hs]
  exact h

theorem Op.apply_moves (now : Date) (op : Op) (a : Conversation) :
    StatusMoves Props.status canTransition a (op.apply now a) := by
  have hmoves := fun target event => transitionTo_moves a a rfl (Nat.le_refl _) target event
  cases op with
  | recordReply reply =>
    show StatusMoves _ _ a (Conversation.recordReply a reply now).1
    unfold Conversation.recordReply
    split
    · exact .refl a
    · split
      · exact moves_write (hmoves _ _) rfl
      · dsimp only
        split
        · exact moves_write (hmoves _ _) rfl
        · exact hmoves _ _
  | classifyIntent classification =>
    show StatusMoves _ _ a (Conversation.classifyIntent a classification now).1
    unfold Conversation.classifyIntent
    split
    · exact .refl a
    · dsimp only
      split
      · exact moves_write (hmoves _ _) rfl
      · exact hmoves _ _
  | decideAction action =>
    show StatusMoves _ _ a (Conversation.decideAction a action now).1
    unfold Conversation.decideAction
    split
    · exact .refl a
    · dsimp only
      generalize hb : (if action.actionType = .escalate then
        a.write { a.state with escalatedReason := some action.reason } else a) = b
      have hsame : b.state.status = a.state.status ∧ b.version = a.version := by
        rw [← hb]
        split <;> exact ⟨rfl, rfl⟩
      have hnext := fun target event =>
        transitionTo_moves a b hsame.1 (Nat.le_of_eq hsame.2.symm) target event
      split
      · exact moves_write (hnext _ _) rfl
      · exact hnext _ _
  | close disposition reason =>
    show StatusMoves _ _ a (Conversation.close a disposition reason now).1
    unfold Conversation.close
    dsimp only
    split
    · exact moves_write (hmoves _ _) rfl
    · exact hmoves _ _

end Conversation

/-! ## Message executions -/

namespace MessageExecution

/-- The statuses of a message that waits for its draft, its approval or its turn. -/
def Status.beforeSending : Status → Bool
  | pending | drafting | pendingApproval | approved => true
  | _ => false

/-- The moves of the table, and those of an operator's verdict, which does not look at it. -/
def moves (source target : Status) : Bool :=
  canTransition source target || target = .delivered || target = .failed

theorem not_beforeSending_of_moves (s t : Status) (hs : s.beforeSending = false)
    (hmoves : moves s t = true) : t.beforeSending = false := by
  have htable : (s.transitions.all fun t => s.beforeSending || !t.beforeSending) = true := by
    cases s <;> rfl
  simp only [moves, canTransition, Bool.or_eq_true, decide_eq_true_eq] at hmoves
  rcases hmoves with (hmem | rfl) | rfl
  · have hall := List.all_eq_true.mp htable t hmem
    rw [hs] at hall
    simpa using hall
  · rfl
  · rfl

theorem moves_of_canTransition {s t : Status} (h : canTransition s t = true) :
    moves s t = true := by
  unfold moves
  rw [h]
  rfl

theorem transition_moves (a b : MessageExecution) (hs : b.state.status = a.state.status)
    (hv : a.version ≤ b.version) (target : Status) (reason : Option String) (now : Date) :
    StatusMoves Props.status moves a (transition b target reason now).1 := by
  rcases transition_eq b target reason now with ⟨hcan, -, hversion, -, hstate⟩ | ⟨-, -, h⟩
  · refine .inr ⟨?_, by omega⟩
    rw [hstate, ← hs]
    exact moves_of_canTransition hcan
  · rw [h]
    exact .inl hs

theorem write_transition_moves (a : MessageExecution) {s : Props}
    (hs : s.status = a.state.status) (target : Status) (reason : Option String) (now : Date) :
    StatusMoves Props.status moves a (transition (a.write s) target reason now).1 :=
  transition_moves a (a.write s) hs (Nat.le_refl _) target reason now

theorem markFailed_moves (a : MessageExecution) (classification : RetryClassification)
    (reason : String) (providerErrorCode : Option String) (now : Date) :
    StatusMoves Props.status moves a
      (markFailed a classification reason providerErrorCode now).1 := by
  unfold markFailed
  dsimp only
  split
  · split
    · exact .inl rfl
    · refine write_transition_moves a ?_ _ _ now
      rfl
  · split
    · refine write_transition_moves a ?_ _ _ now
      rfl
    · split
      · refine transition_moves a _ ?_ ?_ _ _ now
        · rfl
        · exact Nat.le_refl _
      · refine write_transition_moves a ?_ _ _ now
        rfl

theorem Op.apply_moves (now : Date) (op : Op) (a : MessageExecution) :
    StatusMoves Props.status moves a (op.apply now a) := by
  cases op with
  | startDrafting | markSending | markDeliveryPending | markOpened | markReplied | cancel _ =>
    exact transition_moves a a rfl (Nat.le_refl _) _ _ now
  | markProviderAccepted _ _ _ | markDelivered _ | markBounced _ | markDeliveryUnknown _
  | markRequiresReconciliation _ =>
    refine write_transition_moves a ?_ _ _ now
    rfl
  | setDraft messageId draft =>
    show StatusMoves _ _ a (MessageExecution.setDraft a messageId draft now).1
    unfold MessageExecution.setDraft
    split
    · exact .refl a
    · refine write_transition_moves a ?_ _ _ now
      rfl
  | approve approvalId =>
    show StatusMoves _ _ a (MessageExecution.approve a approvalId now).1
    unfold MessageExecution.approve
    split
    · exact .refl a
    · refine write_transition_moves a ?_ _ _ now
      rfl
  | reject reason =>
    show StatusMoves _ _ a (MessageExecution.reject a reason now).1
    unfold MessageExecution.reject
    split
    · exact .refl a
    · refine write_transition_moves a ?_ _ _ now
      rfl
  | markProviderAttempt providerId =>
    refine .inl ?_
    show (MessageExecution.markProviderAttempt a providerId now).1.state.status = _
    unfold MessageExecution.markProviderAttempt
    split <;> rfl
  | markFailed classification reason providerErrorCode =>
    exact markFailed_moves a classification reason providerErrorCode now
  -- the verdicts move from every status
  | markReconciledDelivered internetMessageId =>
    refine .inr ⟨?_, Nat.lt_succ_self _⟩
    show moves _ Status.delivered = true
    simp [moves]
  | markReconciledFailed reason =>
    refine .inr ⟨?_, Nat.lt_succ_self _⟩
    show moves _ Status.failed = true
    simp [moves]
  | recordRetryAfter ms => exact .inl rfl

end MessageExecution

/-! ## The four repositories -/

/-- What lasts in the rows of a repository: an end of the table, and for a message that it is past
its preparation. -/
inductive Milestone : Repository → Type where
  | campaign (target : Campaign.Status) (h : target.transitions = []) : Milestone .campaigns
  | sequence (target : Sequence.Status) (h : target.transitions = []) : Milestone .sequences
  | conversation (target : Conversation.Status) (h : target.transitions = []) :
    Milestone .conversations
  | sending : Milestone .messageExecutions

def Milestone.Reached : {r : Repository} → Milestone r → r.model.State → Prop
  | _, campaign target _, s => Campaign.Props.status s = target
  | _, sequence target _, s => Sequence.Props.status s = target
  | _, conversation target _, s => Conversation.Props.status s = target
  | _, sending, s => (MessageExecution.Props.status s).beforeSending = false

theorem Milestone.lasting : {r : Repository} → (m : Milestone r) → r.model.Lasting m.Reached
  | _, campaign target h =>
    lasting_of_moves (P := (· = target)) (fun op a => op.1.apply_moves op.2 a)
      (Campaign.eq_of_canTransition_end h)
  | _, sequence target h =>
    lasting_of_moves (P := (· = target)) (fun op a => op.1.apply_moves op.2 a)
      (Sequence.eq_of_canTransition_end h)
  | _, conversation target h =>
    lasting_of_moves (P := (· = target)) (fun op a => op.1.apply_moves op.2 a)
      (Conversation.eq_of_canTransition_end h)
  | _, sending =>
    lasting_of_moves (P := fun s : MessageExecution.Status => s.beforeSending = false)
      (fun op a => MessageExecution.Op.apply_moves op.2 op.1 a)
      MessageExecution.not_beforeSending_of_moves

/-- **A milestone that is stored stays stored**, whatever the writers do with the copies they hold
and those they load. -/
theorem milestone_stays {r : Repository} (m : Milestone r) (row : Row r.model.State)
    (schedule later : List (Tick (Action r.model)))
    (h : m.Reached (run (step r.model) (start row) schedule).world.row.payload) :
    m.Reached (run (step r.model) (start row) (schedule ++ later)).world.row.payload :=
  lasting_stays r.lawful m.lasting row schedule later h

/-- Two writers hold the running campaign, and one cancels it. -/
def cancelFirst : List (Tick (Action Repository.campaigns.model)) :=
  [⟨0, .load⟩, ⟨1, .load⟩, ⟨0, .operate (.cancel "stop", 1)⟩, ⟨0, .save⟩]

/-- The other still spends on its copy and saves. -/
def spendLater : List (Tick (Action Repository.campaigns.model)) :=
  [⟨1, .operate (.recordSpend 1 0, 2)⟩, ⟨1, .save⟩]

theorem milestone_stays_cancelled :
    (Milestone.campaign .cancelled rfl).Reached (run (step Repository.campaigns.model)
      (start freshCampaign) (cancelFirst ++ spendLater)).world.row.payload :=
  milestone_stays (.campaign .cancelled rfl) freshCampaign cancelFirst spendLater
    (by show Campaign.Props.status _ = _; decide +kernel)

end VegaRevenue
