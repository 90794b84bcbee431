import VegaRevenue.Lib.Copies
import VegaRevenue.Outreach.Send

/-!
# What a call knows of the execution it sends

Every call works on a copy of the stored row. The status of a row that was answered or failed for
good stays so, and a copy that is still fresh tells the status of its row.

* `Holds` — a copy of a row, with what is known of the status while the copy is fresh
* `Knows` — what a call knows at each of the operations it waits for
* `knows_sendNext` — a step moves the rows within `MayMove` and keeps what the call knows
-/

namespace VegaRevenue.Outreach

open Versioned
open MessageExecution (Status Props Keeps)

abbrev Executions := Table RowKey Props

/-- The message was accepted, or the execution failed for good. -/
def settled (s : Status) : Bool := isPositiveTerminal s || isTerminalFailure s

theorem settled_of_positive {s : Status} (h : isPositiveTerminal s = true) : settled s = true := by
  simp [settled, h]

theorem not_positive_of_unsettled {s : Status} (h : settled s = false) :
    isPositiveTerminal s = false := by
  simp only [settled, Bool.or_eq_false_iff] at h
  exact h.1

/-- What a save may do to the stored status. -/
structure MayMove (s s' : Status) : Prop where
  positive : isPositiveTerminal s = true → isPositiveTerminal s' = true
  settled : settled s = true → settled s' = true

theorem MayMove.refl (s : Status) : MayMove s s := ⟨id, id⟩

theorem MayMove.of_unsettled {s s' : Status} (h : Outreach.settled s = false) : MayMove s s' := by
  refine ⟨fun hp => ?_, fun hs => ?_⟩
  · rw [not_positive_of_unsettled h] at hp
    cases hp
  · rw [h] at hs
    cases hs

/-- The fields no call changes. -/
structure Route where
  idempotencyKey : String
  campaignId : String
  sequenceId : String
  stepNumber : Nat
deriving DecidableEq

def route (s : Props) : Route := ⟨s.idempotencyKey, s.campaignId, s.sequenceId, s.stepNumber⟩

theorem route_of_keeps {a b : MessageExecution} (h : Keeps a b) :
    route b.state = route a.state :=
  congrArg (fun i : MessageExecution.Identity =>
    (⟨i.idempotencyKey, i.campaignId, i.sequenceId, i.stepNumber⟩ : Route)) h.identity

/-- Rows only move on. -/
def Moves (T T' : Executions) : Prop :=
  ∀ t r, T.find t = some r →
    ∃ r', T'.find t = some r' ∧ r.Evolves Props.status route MayMove r'

theorem Moves.refl (T : Executions) : Moves T T :=
  fun _ r h => ⟨r, h, Row.Evolves.refl MayMove.refl r⟩

/-- The stored row has a status with this property. -/
def StatusAt (Q : Status → Prop) (t : RowKey) (T : Executions) : Prop :=
  ∃ r, T.find t = some r ∧ Q r.payload.status

theorem StatusAt.positive {t : RowKey} {T T' : Executions} (hT : Moves T T')
    (h : StatusAt (isPositiveTerminal · = true) t T) :
    StatusAt (isPositiveTerminal · = true) t T' := by
  obtain ⟨r, hr, hp⟩ := h
  obtain ⟨r', hr', he⟩ := hT t r hr
  exact ⟨r', hr', he.moves.positive hp⟩

theorem StatusAt.settled {t : RowKey} {T T' : Executions} (hT : Moves T T')
    (h : StatusAt (settled · = true) t T) : StatusAt (Outreach.settled · = true) t T' := by
  obtain ⟨r, hr, hp⟩ := h
  obtain ⟨r', hr', he⟩ := hT t r hr
  exact ⟨r', hr', he.moves.settled hp⟩

/-! ## Copies -/

/-- `e` is a copy of the row of `t`, whose status satisfies `Q` as long as the copy is fresh. -/
structure Holds (Q : Status → Prop) (t : RowKey) (T : Executions) (e : MessageExecution) :
    Prop where
  id : e.state.id = t.id
  row : ∃ r, T.find t = some r ∧ Copy Props.status route r e ∧ (Fresh r e → Q r.payload.status)

section

variable {Q : Status → Prop} {t : RowKey} {T T' : Executions} {e e' : MessageExecution}

theorem Holds.mono {Q' : Status → Prop} (h : Holds Q t T e) (hQ : ∀ s, Q s → Q' s) :
    Holds Q' t T e := by
  obtain ⟨hid, r, hr, hc, hf⟩ := h
  exact ⟨hid, r, hr, hc, fun hfr => hQ _ (hf hfr)⟩

theorem Holds.evolve (hT : Moves T T') (h : Holds Q t T e) : Holds Q t T' e := by
  obtain ⟨hid, r, hr, hc, hf⟩ := h
  obtain ⟨r', hr', he⟩ := hT t r hr
  exact ⟨hid, r', hr', hc.evolve he, fun hfr => hfr.evolve hc he hf⟩

theorem Holds.keeps (h : Holds Q t T e) (hk : Keeps e e') : Holds Q t T e' := by
  obtain ⟨hid, r, hr, hc, hf⟩ := h
  refine ⟨(congrArg MessageExecution.Identity.id hk.identity).trans hid, r, hr,
    hc.op hk.loadedVersion hk.version_le hk.status (route_of_keeps hk), fun hfr => ?_⟩
  exact hf (hk.loadedVersion.symm.trans hfr)

/-- A load makes a fresh copy. -/
theorem holds_load {w : World} {ctx : Context} {id : String}
    (h : w.loadExecution ctx id = some e) :
    Holds (· = e.state.status) (rowKey ctx id) w.executions e ∧
      StatusAt (· = e.state.status) (rowKey ctx id) w.executions := by
  obtain ⟨r, hr, rfl⟩ := Option.map_eq_some_iff.mp h
  exact ⟨⟨rfl, r, hr, Copy.load (by rfl) (by rfl), fun _ => rfl⟩, r, hr, rfl⟩

/-- A save by a copy moves its row on, and leaves the row with the status of the copy. -/
theorem Holds.save {w w' : World} {ctx : Context} {id : String}
    (h : Holds Q (rowKey ctx id) w.executions e) (hQ : ∀ s, Q s → MayMove s e.state.status)
    (ho : w.saveExecution ctx e = .saved (w', e')) :
    Moves w.executions w'.executions ∧ e'.state = e.state ∧
      Holds (· = e.state.status) (rowKey ctx id) w'.executions e' ∧
      StatusAt Q (rowKey ctx id) w.executions ∧
      StatusAt (· = e.state.status) (rowKey ctx id) w'.executions := by
  obtain ⟨hid, r, hr, hc, hf⟩ := h
  obtain ⟨-, -, rfl, T, hT, rfl⟩ := World.saveExecution_eq_saved ho
  have hkey : rowKey ctx e.state.id = rowKey ctx id := congrArg (rowKey ctx) hid
  rw [hkey, Table.save_eq_swap hr] at hT
  obtain ⟨r', hswap, rfl⟩ := Option.map_eq_some_iff.mp hT
  obtain ⟨hevolves, hcopy, hr', hfresh⟩ := hc.swap (fun hfr => hQ _ (hf hfr)) hswap
  have hself := Table.find_replace_self r' hr
  subst hr'
  refine ⟨fun t r₀ hr₀ => ?_, rfl, ⟨hid, _, hself, hcopy, fun _ => rfl⟩, ⟨r, hr, hf hfresh⟩,
    _, hself, rfl⟩
  by_cases ht : t = rowKey ctx id
  · subst ht
    obtain rfl : r = r₀ := Option.some.inj (hr.symm.trans hr₀)
    exact ⟨_, hself, hevolves⟩
  · exact ⟨r₀, (Table.find_replace_ne _ _ ht).trans hr₀, Row.Evolves.refl MayMove.refl r₀⟩

end

/-! ## What a call knows -/

/-- The status of the copy that a failure exit saves. -/
def FailureExit.status : FailureExit → Status
  | denied _ | noProvider => .failedPreSubmission
  | retryable _ | rateLimited _ => .sending
  | providerFailed classification _ _ =>
    if classification = .nonRetryable then .failedPreSubmission else .sending

/-- A fresh copy whose row is not settled. -/
abbrev Unsettled := Holds (settled · = false)

def Knows (t : RowKey) (T : Executions) : SendPc → Prop
  | .loadSequence e | .loadCampaign e _ =>
    Holds (· = e.state.status) t T e ∧
      (isPositiveTerminal e.state.status = true → StatusAt (isPositiveTerminal · = true) t T)
  | .recoverRecipient l | .evaluate l | .selectProvider l | .saveAttempt l | .send l
  | .awaitAnswer l => l.execution.state.status = .sending ∧ Unsettled t T l.execution
  | .saveFailure l exit => l.execution.state.status = exit.status ∧ Unsettled t T l.execution
  | .markFailed l exit => Holds (fun _ => True) t T l.execution ∧
    (exit.status = .failedPreSubmission → StatusAt (settled · = true) t T)
  | .saveAccepted l _ => l.execution.state.status = .deliveryPending ∧ Unsettled t T l.execution
  | .saveCampaign l _ | .markCompleted l _ => Holds (fun _ => True) t T l.execution ∧
    StatusAt (isPositiveTerminal · = true) t T
  | .loadCampaignForAdvance _ | .saveSequence _ _ _ _ | .saveCampaignComplete _ _ =>
    StatusAt (isPositiveTerminal · = true) t T
  | .saveAmbiguous l _ => l.execution.state.status = .deliveryUnknown ∧ Unsettled t T l.execution
  | .saveAuthoritative e => Unsettled t T e
  | _ => True

/-- What a call knows stays true while the rows move on. -/
theorem Knows.evolve {t : RowKey} {T T' : Executions} (hT : Moves T T') {p : SendPc}
    (h : Knows t T p) : Knows t T' p := by
  cases p with
  | loadSequence e => exact ⟨h.1.evolve hT, fun hp => (h.2 hp).positive hT⟩
  | loadCampaign e sequence => exact ⟨h.1.evolve hT, fun hp => (h.2 hp).positive hT⟩
  | markFailed l exit => exact ⟨h.1.evolve hT, fun hs => (h.2 hs).settled hT⟩
  | saveCampaign l answer => exact ⟨h.1.evolve hT, h.2.positive hT⟩
  | markCompleted l answer => exact ⟨h.1.evolve hT, h.2.positive hT⟩
  | loadCampaignForAdvance l => exact StatusAt.positive hT h
  | saveSequence sequence campaign nextDueAt hasMoreSteps => exact StatusAt.positive hT h
  | saveCampaignComplete campaign nextDueAt => exact StatusAt.positive hT h
  | saveAuthoritative e => exact Holds.evolve hT h
  | _ => first | trivial | exact ⟨h.1, h.2.evolve hT⟩

/-! ## The operations between two steps -/

theorem startSending_ok {approvalId : String} {e e' : MessageExecution} {now : Date}
    (h : startSending approvalId e now = .ok e') :
    Keeps e e' ∧ e'.state.status = .sending := by
  unfold startSending at h
  have hfirst : Keeps e (if e.state.status = .pendingApproval then
      MessageExecution.approve e approvalId now else (e, .ok)).1 := by
    split
    · exact MessageExecution.approve_keeps e approvalId now
    · exact Keeps.refl e
  generalize (if e.state.status = .pendingApproval then
      MessageExecution.approve e approvalId now else (e, .ok)) = first at h hfirst
  obtain ⟨e₁, approved⟩ := first
  have hsecond : Keeps e₁ (if e₁.state.status = .approved then
      MessageExecution.markSending e₁ now else (e₁, .ok)).1 := by
    split
    · exact MessageExecution.markSending_keeps e₁ now
    · exact Keeps.refl e₁
  dsimp only at h
  split at h
  · cases h
  · generalize (if e₁.state.status = .approved then
        MessageExecution.markSending e₁ now else (e₁, .ok)) = second at h hsecond
    obtain ⟨e₂, sending⟩ := second
    dsimp only at h
    split at h
    · cases h
    · split at h
      · cases h
      next hs =>
        cases h
        exact ⟨hfirst.trans hsecond, not_not.mp hs⟩

theorem checkReady_inr {approvalId : String} {e : MessageExecution} {sequence : Sequence}
    {campaign : Campaign} {now : Date} {l : Sending}
    (h : checkReady approvalId e sequence campaign now = .inr l) :
    settled e.state.status = false ∧ Keeps e l.execution ∧ l.execution.state.status = .sending ∧
      l.sequence = sequence ∧ l.campaign = campaign := by
  unfold checkReady at h
  split at h
  · cases h
  next hp =>
    split at h
    · cases h
    next hf =>
      split at h
      · cases h
      next e' he =>
        split at h
        · cases h
        next step hs =>
          cases h
          obtain ⟨hk, hsending⟩ := startSending_ok he
          refine ⟨?_, hk, hsending, rfl, rfl⟩
          simp only [settled, Bool.not_eq_true] at hp hf ⊢
          rw [hp, hf]
          rfl

theorem knows_onAnswer {t : RowKey} {T : Executions} {l : Sending}
    (hs : l.execution.state.status = .sending) (h : Unsettled t T l.execution)
    (answer : ProviderSendResult) (now : Date) : Knows t T (onAnswer l answer now) := by
  have haccepted := MessageExecution.markProviderAccepted_status hs answer.providerMessageId
    answer.internetMessageId answer.providerErrorCode now
  have hkeeps := MessageExecution.markProviderAccepted_keeps l.execution answer.providerMessageId
    answer.internetMessageId answer.providerErrorCode now
  unfold onAnswer
  split
  iterate 3
    split
    · trivial
    next e _ _ he =>
      rw [he] at haccepted hkeeps
      exact ⟨MessageExecution.markDeliveryPending_status haccepted.1 now,
        h.keeps (hkeeps.trans (MessageExecution.markDeliveryPending_keeps e now))⟩
  · refine ⟨?_, h.keeps (MessageExecution.markFailed_keeps l.execution _ _ _ now)⟩
    by_cases hc : answer.retryClassification.getD .nonRetryable = .nonRetryable
    · dsimp only [FailureExit.status]
      rw [if_pos hc, hc]
      exact MessageExecution.markFailed_status_nonRetryable hs _ _ now
    · dsimp only [FailureExit.status]
      rw [if_neg hc]
      exact MessageExecution.markFailed_status_retryable hs hc _ _ now
  · exact ⟨MessageExecution.markFailed_status_retryable hs (by decide) _ _ now,
      h.keeps (MessageExecution.markFailed_keeps l.execution _ _ _ now)⟩
  · exact ⟨MessageExecution.markDeliveryUnknown_status hs _ now,
      h.keeps (MessageExecution.markDeliveryUnknown_keeps l.execution _ now)⟩

theorem advanceToDeliveryPending_keeps (e : MessageExecution)
    (providerMessageId internetMessageId : Option String) (now : Date) :
    Keeps e (advanceToDeliveryPending e providerMessageId internetMessageId now) := by
  have hsending : ∀ a : MessageExecution, Keeps a (if a.state.status = .approved then
      (MessageExecution.markSending a now).1 else a) := by
    intro a
    split
    · exact MessageExecution.markSending_keeps a now
    · exact Keeps.refl a
  have haccepted : ∀ a : MessageExecution, Keeps a (if a.state.status = .sending then
      (MessageExecution.markProviderAccepted a providerMessageId internetMessageId none now).1
      else a) := by
    intro a
    split
    · exact MessageExecution.markProviderAccepted_keeps a _ _ _ now
    · exact Keeps.refl a
  have hpending : ∀ a : MessageExecution, Keeps a (if a.state.status = .providerAccepted then
      (MessageExecution.markDeliveryPending a now).1 else a) := by
    intro a
    split
    · exact MessageExecution.markDeliveryPending_keeps a now
    · exact Keeps.refl a
  exact ((hsending e).trans (haccepted _)).trans (hpending _)

/-- A copy that is sent to reconciliation was not settled. -/
theorem knows_requireReconciliation {t : RowKey} {T : Executions} {e : MessageExecution}
    (h : Holds (· = e.state.status) t T e) (result : Option Json) (now : Date) :
    Knows t T (requireReconciliation e result now) := by
  unfold requireReconciliation
  split
  · trivial
  next hne =>
    refine Holds.keeps (h.mono fun s hs => ?_)
      (MessageExecution.markRequiresReconciliation_keeps e _ now)
    simp only [Bool.or_eq_true, not_or, Bool.not_eq_true] at hne
    rw [hs]
    simp [settled, hne.1, hne.2]

theorem knows_resolveDuplicate {t : RowKey} {T : Executions} {e : MessageExecution}
    (h : Holds (· = e.state.status) t T e) (existing : Option Idempotency.RecordView)
    (now : Date) : Knows t T (resolveDuplicate existing e now) := by
  unfold resolveDuplicate
  split
  · exact knows_requireReconciliation h none now
  · split
    · split
      next hrecover =>
        refine Holds.keeps (h.mono fun s hs => ?_) (advanceToDeliveryPending_keeps e _ _ now)
        simp only [shouldRecoverToDeliveryPending, Bool.and_eq_true, Bool.not_eq_true'] at hrecover
        rw [hs]
        simp [settled, hrecover.1.1.1, hrecover.1.1.2]
      · trivial
    · split
      · trivial
      · split
        · trivial
        · split
          next hattempted =>
            refine Holds.keeps (h.mono fun s hs => ?_)
              (MessageExecution.markDeliveryUnknown_keeps e _ now)
            rcases hattempted.1 with hstatus | hstatus <;> rw [hs, hstatus] <;> rfl
          · trivial
    · exact knows_requireReconciliation h _ now

/-! ## One step -/

/-- What a step owes: the rows move on, and the call knows what it needs next. -/
def Advances (t : RowKey) (w : World) (r : World × SendPc) : Prop :=
  Moves w.executions r.1.executions ∧ Knows t r.1.executions r.2

section

variable {call : SendCall} {i : Nat} {input : Input} {w : World} {p : SendPc}

/-- A step that touches no execution. -/
theorem Advances.same {t : RowKey} {w' : World} {p' : SendPc} (hw : w'.executions = w.executions)
    (h : Knows t w.executions p') : Advances t w (w', p') := by
  refine ⟨?_, ?_⟩
  · show Moves w.executions w'.executions
    rw [hw]
    exact Moves.refl _
  · show Knows t w'.executions p'
    rw [hw]
    exact h

/-- After a save of the execution. -/
theorem advances_afterSave_execution {e : MessageExecution} {next : MessageExecution → SendPc}
    (h : Unsettled (rowKey call.ctx call.executionId) w.executions e)
    (hnext : ∀ e' T, e'.state = e.state →
      Holds (· = e.state.status) (rowKey call.ctx call.executionId) T e' →
      StatusAt (· = e.state.status) (rowKey call.ctx call.executionId) T →
      Knows (rowKey call.ctx call.executionId) T (next e')) :
    Advances (rowKey call.ctx call.executionId) w
      (afterSave w (w.saveExecution call.ctx e) next) := by
  refine afterSave_elim (fun w' e' ho => ?_) (.same rfl trivial) fun _ => .same rfl trivial
  obtain ⟨hmoves, hstate, hholds, -, hat⟩ := h.save (fun s => MayMove.of_unsettled) ho
  exact ⟨hmoves, hnext e' w'.executions hstate hholds hat⟩

/-- After a save of another row. -/
theorem advances_afterSave {α : Type} {t : RowKey} {outcome : SaveOutcome (World × α)}
    {next : α → SendPc} (hrows : ∀ w' a, outcome = .saved (w', a) → w'.executions = w.executions)
    (hnext : ∀ a, Knows t w.executions (next a)) : Advances t w (afterSave w outcome next) := by
  refine afterSave_elim (fun w' a ho => ?_) (.same rfl trivial) fun _ => .same rfl trivial
  exact .same (hrows w' a ho) (hnext a)

theorem advances_setRecord {t : RowKey} {e : MessageExecution} {result : Json}
    {status : Idempotency.Status} {next : SendPc} (hnext : Knows t w.executions next) :
    Advances t w (setRecord w call.ctx i e result status input.now next) := by
  rcases setRecord_cases w call.ctx i e result status input.now next with
    ⟨-, r, -, h⟩ | ⟨-, h⟩ <;> rw [h]
  · exact .same rfl hnext
  · exact .same rfl trivial

theorem Advances.afterAudit {t : RowKey} {r : World × SendPc} (audit : Option String)
    (h : Advances t w r) : Advances t w (afterAudit audit r) := by
  unfold Outreach.afterAudit
  cases audit with
  | none => exact h
  | some message => exact ⟨h.1, trivial⟩

/-- **A step moves the rows on and keeps what the call knows.** -/
theorem knows_sendNext (cfg : Config)
    (h : Knows (rowKey call.ctx call.executionId) w.executions p) :
    Advances (rowKey call.ctx call.executionId) w (sendNext cfg call i input w p) := by
  cases p with
  | loadExecution =>
    simp only [sendNext]
    split
    · exact .same rfl trivial
    next e he =>
      obtain ⟨hholds, r, hr, hat⟩ := holds_load he
      exact .same rfl ⟨hholds, fun hp => ⟨r, hr, by rw [hat]; exact hp⟩⟩
  | loadSequence e =>
    simp only [sendNext]
    split
    · exact .same rfl trivial
    · exact .same rfl h
  | loadCampaign e sequence =>
    simp only [sendNext]
    split
    · exact .same rfl trivial
    · split
      · exact .same rfl trivial
      next l hl =>
        obtain ⟨hu, hk, hs, -, -⟩ := checkReady_inr hl
        exact .same rfl ⟨hs, (h.1.mono fun s hs => by rw [hs]; exact hu).keeps hk⟩
  | recoverRecipient l =>
    simp only [sendNext]
    split
    · exact .same rfl h
    · exact .same rfl trivial
  | evaluate l =>
    obtain ⟨hs, hu⟩ := h
    simp only [sendNext]
    split
    · exact .same rfl trivial
    next decision hd =>
      refine Advances.afterAudit input.audit ?_
      cases decision with
      | allow => exact .same rfl ⟨hs, hu⟩
      | deny code reason =>
        unfold onDecision
        dsimp only
        split
        · exact .same rfl trivial
        · exact .same rfl ⟨MessageExecution.markFailed_status_nonRetryable hs _ _ _,
            hu.keeps (MessageExecution.markFailed_keeps l.execution _ _ _ _)⟩
      | retryable code reason retryAfterMs =>
        exact .same rfl ⟨MessageExecution.markFailed_status_retryable hs (by decide) _ _ _,
          hu.keeps (MessageExecution.markFailed_keeps l.execution _ _ _ _)⟩
  | selectProvider l =>
    obtain ⟨hs, hu⟩ := h
    simp only [sendNext]
    split
    · exact .same rfl ⟨MessageExecution.markFailed_status_nonRetryable hs _ _ _,
        hu.keeps (MessageExecution.markFailed_keeps l.execution _ _ _ _)⟩
    next providerId _ =>
      have hstatus := (MessageExecution.markProviderAttempt_status hs providerId input.now.ms).1
      have hkeeps := MessageExecution.markProviderAttempt_keeps l.execution providerId input.now.ms
      split
      · exact .same rfl trivial
      next e _ _ he =>
        rw [he] at hstatus hkeeps
        exact .same rfl ⟨hstatus, hu.keeps hkeeps⟩
  | saveFailure l exit =>
    obtain ⟨hs, hu⟩ := h
    simp only [sendNext]
    refine advances_afterSave_execution hu fun e' T he hholds hat => ?_
    refine ⟨hholds.mono fun _ _ => trivial, fun hexit => ?_⟩
    obtain ⟨r, hr, hrs⟩ := hat
    exact ⟨r, hr, by rw [hrs, hs, hexit]; rfl⟩
  | markFailed l exit => exact advances_setRecord trivial
  | saveAttempt l =>
    obtain ⟨hs, hu⟩ := h
    simp only [sendNext]
    refine advances_afterSave_execution hu fun e' T he hholds hat => ?_
    exact ⟨by rw [← hs, ← he], hholds.mono fun s hst => by rw [hst, hs]; rfl⟩
  | send l => exact .same rfl h
  | awaitAnswer l =>
    obtain ⟨hs, hu⟩ := h
    simp only [sendNext]
    refine .same rfl ?_
    apply knows_onAnswer
    · exact hs
    · exact hu
  | saveAccepted l answer =>
    obtain ⟨hs, hu⟩ := h
    simp only [sendNext]
    refine advances_afterSave_execution hu fun e' T he hholds hat => ?_
    obtain ⟨r, hr, hrs⟩ := hat
    exact ⟨hholds.mono fun _ _ => trivial, r, hr, by rw [hrs, hs]; rfl⟩
  | saveCampaign l answer =>
    exact advances_afterSave (fun _ _ ho => (World.saveCampaign_rest ho).1) fun _ => h
  | markCompleted l answer => exact advances_setRecord h.2
  | loadCampaignForAdvance l =>
    simp only [sendNext]
    rcases advance_cases cfg l (w.loadCampaign call.ctx l.sequence.state.campaignId)
      input.now.ms with ⟨ended, hr⟩ | ⟨nextDueAt, hasMoreSteps, -, hr⟩ <;> rw [hr]
    · exact .same rfl trivial
    · exact .same rfl h
  | saveSequence sequence campaign nextDueAt hasMoreSteps =>
    simp only [sendNext]
    refine advances_afterSave (fun _ _ ho => (World.saveSequence_rest ho).1) fun s' => ?_
    split
    · exact h
    · trivial
  | saveCampaignComplete campaign nextDueAt =>
    exact advances_afterSave (fun _ _ ho => (World.saveCampaign_rest ho).1) fun _ => trivial
  | saveAmbiguous l reason =>
    exact advances_afterSave_execution h.2 fun e' T he hholds hat => trivial
  | loadAuthoritative =>
    simp only [sendNext]
    split <;> exact .same rfl trivial
  | getRecord idempotencyKey =>
    simp only [sendNext]
    split <;> exact .same rfl trivial
  | reload record =>
    simp only [sendNext]
    split
    · exact .same rfl trivial
    next e he => exact .same rfl (knows_resolveDuplicate (holds_load he).1 record input.now.ms)
  | saveAuthoritative e =>
    simp only [sendNext]
    split
    next w' e' ho =>
      obtain ⟨hmoves, -⟩ := Holds.save h (fun s => MayMove.of_unsettled) ho
      exact ⟨hmoves, trivial⟩
    · exact .same rfl trivial
    · exact .same rfl trivial
  | reloadNewer e => exact .same rfl trivial
  | done ended => exact .same rfl trivial

end

/-- What a call knows at the start of a step it still knows after it. -/
theorem knows_sendStep (cfg : Config) (calls : Nat → SendCall) (i : Nat) (input : Input)
    {w : World} {p : SendPc}
    (h : Knows (rowKey (calls i).ctx (calls i).executionId) w.executions p) :
    Advances (rowKey (calls i).ctx (calls i).executionId) w
      (sendStep cfg calls i input w p) := by
  cases hf : input.fault with
  | none =>
    rw [sendStep_eq_sendNext cfg calls i w p hf]
    exact knows_sendNext cfg h
  | some message =>
    obtain ⟨ended, h, -⟩ := sendStep_fault cfg calls i w p hf
    rw [h]
    exact .same rfl trivial

end VegaRevenue.Outreach
