import VegaRevenue.Outreach.System

/-!
# What `executeApprovedSend` reports

COMPLETED should mean that the stored execution was accepted; FAILED and RETRYABLE that it was not,
and that no send of the call was.

* `sendMisreports` — the steps that answer otherwise
* `reports_sendStep` — one step of a call answers truly iff it is none of them
* `reportsTruly_iff` — the same for every run
* `not_reportsTruly_paused` — a call whose sequence was paused reports an accepted send as FAILED
-/

namespace VegaRevenue.Outreach

open Interleave
open MessageExecution (Status Props)

/-- The stored execution exists and was accepted. -/
def positiveAt (t : RowKey) (T : Executions) : Bool :=
  (T.find t).any fun r => isPositiveTerminal r.payload.status

/-- Call `i` got an answer that accepts its message. -/
def acceptedBy (i : Nat) (log : List Observed) : Bool :=
  log.any fun
    | .answered j _ _ status => j = i && status.isAccepted
    | _ => false

def SendResult.isCompleted : SendResult → Bool
  | completed _ => true
  | _ => false

/-- The result says of the stored execution and the send of the call what is the case. -/
def SendResult.TrueOf (result : SendResult) (accepted positive : Bool) : Prop :=
  if result.isCompleted then positive = true else accepted = false ∧ positive = false

/-- What a call of `executeApprovedSend` returns by this step is true of the stored execution. -/
def ReportsTruly (cfg : Outreach.Config) (c : Interleave.Config World SystemPc)
    (a : Tick Input) : Prop :=
  ∀ call p result, c.pc a.call = .send call p → (∀ ended, p ≠ .done ended) →
    (c.step (systemStep cfg) a).pc a.call = .send call (.done (.returned result)) →
    result.TrueOf (acceptedBy a.call (c.step (systemStep cfg) a).world.log)
      (positiveAt (rowKey call.ctx call.executionId)
        (c.step (systemStep cfg) a).world.executions)

/-! ## The steps that misreport -/

/-- The copy passes the checks before the gate, unless it was accepted. -/
def sendable (e : MessageExecution) (sequence : Sequence) : Bool :=
  (e.state.status = .pendingApproval || e.state.status = .approved ||
      e.state.status = .sending) &&
    sequence.state.steps.any fun step => step.stepNumber = e.state.stepNumber

/-- A duplicate that is answered without a save. -/
def answeredAtOnce (record : Option Idempotency.RecordView) (e : MessageExecution) (now : Date) :
    Bool :=
  match record with
  | none => settled e.state.status
  | some record =>
    match record.status with
    | .completed => !shouldRecoverToDeliveryPending e.state.status
    | .pending =>
      isPositiveTerminal e.state.status || !record.expiresAt.any (· ≤ now) ||
        !((e.state.status = .sending || e.state.status = .approved) &&
          (e.state.attempts > 0 || e.state.providerId ≠ none))
    | .failed => settled e.state.status

/-- The step of call `i` reports what is not the case. -/
def sendMisreports (i : Nat) (input : Input) (w : World) (call : SendCall) (p : SendPc) : Bool :=
  let stored := positiveAt (rowKey call.ctx call.executionId) w.executions
  match p with
  -- gives up although the stored execution was accepted in the meantime
  | .loadSequence e =>
    input.fault.isNone && stored && (w.loadSequence call.ctx e.state.sequenceId).isNone
  | .loadCampaign e sequence =>
    input.fault.isNone && stored && ((w.loadCampaign call.ctx e.state.campaignId).isNone ||
      !(isPositiveTerminal e.state.status || sendable e sequence))
  | .recoverRecipient l =>
    stored && !(input.fault.isNone && recoverable l.execution.state && input.recovered)
  | .markFailed l _ =>
    input.fault.isNone && stored && (Idempotency.Postgres.setRow? {}
      (sendKey call.ctx l.execution.state.idempotencyKey) failedResult
      { status := some .failed } input.now).isSome
  -- the sequence of an accepted send is not RUNNING
  | .loadCampaignForAdvance l => input.fault.isNone && l.sequence.state.status ≠ .running
  -- the save of an accepted send lost its race, and the duplicate is not recovered
  | .reload record =>
    input.fault.isNone && acceptedBy i w.log && !stored &&
      (w.loadExecution call.ctx call.executionId).all (answeredAtOnce record · input.now.ms)
  | .saveAuthoritative e =>
    input.fault.isNone && acceptedBy i w.log && !isPositiveTerminal e.state.status &&
      (w.saveExecution call.ctx e).isSaved
  -- the copy that lost the race disagrees with the newer row, or with the send of the call
  | .reloadNewer e =>
    input.fault.isNone &&
      if isPositiveTerminal e.state.status then !stored else stored || acceptedBy i w.log
  | _ => false

/-- The step misreports. -/
def misreports (c : Interleave.Config World SystemPc) (a : Tick Input) : Bool :=
  match c.pc a.call with
  | .send call p => sendMisreports a.call a.input c.world call p
  | _ => false

/-! ## The answers of a call -/

theorem isCompleted_resultFromExecution (e : MessageExecution) :
    (resultFromExecution e).isCompleted = isPositiveTerminal e.state.status := by
  unfold resultFromExecution
  split
  next h => exact h.symm
  next h =>
    rw [Bool.not_eq_true] at h
    rw [h]
    split
    · rfl
    · split <;> rfl

/-- What the checks before the gate need to let an execution pass. -/
theorem startSending_cases (approvalId : String) (e : MessageExecution) (now : Date) :
    (∃ e', startSending approvalId e now = .ok e' ∧ e'.state.stepNumber = e.state.stepNumber ∧
      (e.state.status = .pendingApproval ∨ e.state.status = .approved ∨
        e.state.status = .sending)) ∨
    (∃ message, startSending approvalId e now = .error message) ∧
      e.state.status ≠ .pendingApproval ∧ e.state.status ≠ .approved ∧
        e.state.status ≠ .sending := by
  have hnumber : ∀ e', startSending approvalId e now = .ok e' →
      e'.state.stepNumber = e.state.stepNumber := fun e' h =>
    congrArg MessageExecution.Identity.stepNumber (startSending_ok h).1.identity
  by_cases hp : e.state.status = .pendingApproval
  · obtain ⟨happroved, hok⟩ := MessageExecution.approve_status hp approvalId now
    have hsending := MessageExecution.markSending_status happroved now
    obtain ⟨e', he'⟩ : ∃ e', startSending approvalId e now = .ok e' := by
      simp [startSending, hp, hok, happroved, hsending]
    exact .inl ⟨e', he', hnumber e' he', .inl hp⟩
  · by_cases ha : e.state.status = .approved
    · have hsending := MessageExecution.markSending_status ha now
      obtain ⟨e', he'⟩ : ∃ e', startSending approvalId e now = .ok e' := by
        simp [startSending, ha, hsending]
      exact .inl ⟨e', he', hnumber e' he', .inr (.inl ha)⟩
    · by_cases hs : e.state.status = .sending
      · obtain ⟨e', he'⟩ : ∃ e', startSending approvalId e now = .ok e' := by
          simp [startSending, hs]
        exact .inl ⟨e', he', hnumber e' he', .inr (.inr hs)⟩
      · exact .inr ⟨⟨_, by simp [startSending, hp, ha, hs]; rfl⟩, hp, ha, hs⟩

/-- What the checks before the gate answer. -/
theorem checkReady_cases (approvalId : String) (e : MessageExecution) (sequence : Sequence)
    (campaign : Campaign) (now : Date) :
    (isPositiveTerminal e.state.status = true ∧
      checkReady approvalId e sequence campaign now = .inl (.completed none)) ∨
    (isPositiveTerminal e.state.status = false ∧ sendable e sequence = false ∧
      ∃ reason, checkReady approvalId e sequence campaign now = .inl (.failed reason)) ∨
    (sendable e sequence = true ∧ ∃ l, checkReady approvalId e sequence campaign now = .inr l) := by
  unfold checkReady
  by_cases hp : isPositiveTerminal e.state.status = true
  · exact .inl ⟨hp, by rw [if_pos hp]⟩
  · rw [if_neg hp]
    right
    rw [Bool.not_eq_true] at hp
    by_cases hf : isTerminalFailure e.state.status = true
    · refine .inl ⟨hp, ?_, _, by rw [if_pos hf]⟩
      unfold sendable
      cases hs : e.state.status <;> rw [hs] at hf <;> first | rfl | cases hf
    · rw [if_neg hf]
      rcases startSending_cases approvalId e now with
        ⟨e', he', hnumber, hstatus⟩ | ⟨⟨message, hm⟩, hpending, happroved, hsending⟩
      · have hready : sendable e sequence =
            sequence.state.steps.any fun step => step.stepNumber = e.state.stepNumber := by
          unfold sendable
          rcases hstatus with hs | hs | hs <;> rw [hs] <;> rfl
        rw [he']
        dsimp only
        split
        next hnone =>
          refine .inl ⟨hp, ?_, _, rfl⟩
          rw [List.find?_eq_none] at hnone
          rw [hready, List.any_eq_false]
          intro step hstep
          rw [← hnumber]
          exact hnone step hstep
        next step hstep =>
          refine .inr ⟨?_, _, rfl⟩
          rw [hready, List.any_eq_true]
          refine ⟨step, List.mem_of_find?_eq_some hstep, ?_⟩
          rw [← hnumber]
          have hfound := List.find?_some hstep
          exact hfound
      · refine .inl ⟨hp, ?_, _, by rw [hm]⟩
        simp [sendable, hpending, happroved, hsending]

theorem requireReconciliation_cases (e : MessageExecution) (result : Option Json) (now : Date) :
    (settled e.state.status = true ∧
      requireReconciliation e result now = .done (.returned (resultFromExecution e))) ∨
    (settled e.state.status = false ∧
      ∃ e', requireReconciliation e result now = .saveAuthoritative e') := by
  unfold requireReconciliation settled
  rw [Bool.or_comm]
  split
  next h => exact .inl ⟨h, rfl⟩
  next h => exact .inr ⟨Bool.eq_false_iff.mpr h, _, rfl⟩

/-- A duplicate is answered by the status of the execution, at once or after a save. -/
theorem resolveDuplicate_answers (record : Option Idempotency.RecordView) (e : MessageExecution)
    (now : Date) :
    (answeredAtOnce record e now = true ∧
      ∃ result, resolveDuplicate record e now = .done (.returned result) ∧
        result.isCompleted = isPositiveTerminal e.state.status) ∨
    (answeredAtOnce record e now = false ∧
      ∃ e', resolveDuplicate record e now = .saveAuthoritative e') := by
  have hresult := isCompleted_resultFromExecution e
  unfold resolveDuplicate answeredAtOnce
  cases record with
  | none =>
    rcases requireReconciliation_cases e none now with ⟨hs, h⟩ | ⟨hs, h⟩
    · exact .inl ⟨hs, _, h, hresult⟩
    · exact .inr ⟨hs, h⟩
  | some record =>
    dsimp only
    cases record.status with
    | completed =>
      dsimp only
      split
      next h => exact .inr ⟨by rw [h]; rfl, _, rfl⟩
      next h => exact .inl ⟨by rw [Bool.eq_false_iff.mpr h]; rfl, _, rfl, hresult⟩
    | pending =>
      dsimp only
      split
      next hp => exact .inl ⟨by rw [hp]; rfl, _, rfl, hresult⟩
      next hp =>
        rw [Bool.not_eq_true] at hp
        rw [hp, Bool.false_or]
        split
        next hexpired => exact .inl ⟨by rw [hexpired]; rfl, _, rfl, rfl⟩
        next hexpired =>
          rw [Bool.eq_false_iff.mpr hexpired, Bool.false_or]
          split
          next hattempted =>
            refine .inr ⟨?_, _, rfl⟩
            simpa only [Bool.not_eq_false', Bool.and_eq_true, Bool.or_eq_true, decide_eq_true_eq]
              using hattempted
          next hattempted =>
            refine .inl ⟨?_, _, rfl, hresult.trans hp⟩
            rw [Bool.not_eq_true', Bool.eq_false_iff]
            simpa only [ne_eq, Bool.and_eq_true, Bool.or_eq_true, decide_eq_true_eq]
              using hattempted
    | failed =>
      rcases requireReconciliation_cases e record.result now with ⟨hs, h⟩ | ⟨hs, h⟩
      · exact .inl ⟨hs, _, h, hresult⟩
      · exact .inr ⟨hs, h⟩

/-- Advancing is refused exactly where the copy of the sequence is not RUNNING. -/
theorem advance_answers (cfg : Outreach.Config) (l : Sending) (campaign : Option Campaign)
    (now : Date) :
    (l.sequence.state.status ≠ .running ∧
      ∃ reason, advance cfg l campaign now = fails reason) ∨
    (l.sequence.state.status = .running ∧
      ∀ result, advance cfg l campaign now ≠ .done (.returned result)) := by
  unfold advance
  dsimp only
  generalize hnext : (l.sequence.state.steps[l.sequence.state.currentStepIndex + 1]?.map fun step =>
    cfg.computeNextDueAt now step.delayMs) = nextDueAt
  rcases Sequence.completeStep_cases l.sequence l.execution.state.id nextDueAt now with
    ⟨hr, message, h⟩ | ⟨hr, -, h⟩ | ⟨hr, -, h, -⟩
  · rw [h]
    exact .inl ⟨hr, message, rfl⟩
  · refine .inr ⟨hr, fun result => ?_⟩
    rw [← Prod.eta (Sequence.completeStep l.sequence l.execution.state.id nextDueAt now), h]
    simp
  · refine .inr ⟨hr, fun result => ?_⟩
    rw [← Prod.eta (Sequence.completeStep l.sequence l.execution.state.id nextDueAt now), h]
    simp

/-! ## Whose send was accepted -/

/-- The call has no answer that accepts its message yet, and never had one. -/
def SendPc.unaccepted : SendPc → Bool
  | loadExecution | loadSequence _ | loadCampaign _ _ | recoverRecipient _ | evaluate _
  | selectProvider _ | saveFailure _ _ | markFailed _ _ | saveAttempt _ | send _ | awaitAnswer _
  | saveAmbiguous _ _ => true
  | _ => false

theorem acceptedBy_of_not_accepted (j i : Nat) (t campaign : RowKey) {status : ProviderStatus}
    (log : List Observed) (h : j ≠ i ∨ status.isAccepted = false) :
    acceptedBy j (.answered i t campaign status :: log) = acceptedBy j log := by
  show (decide (i = j) && status.isAccepted || acceptedBy j log) = acceptedBy j log
  rcases h with h | h
  · rw [decide_eq_false (Ne.symm h)]
    rfl
  · rw [h, Bool.and_false, Bool.false_or]

/-- What a step of call `i` does to the accepted sends. -/
structure AcceptEffect (i : Nat) (w : World) (p : SendPc) (r : World × SendPc) : Prop where
  others : ∀ j, j ≠ i → acceptedBy j r.1.log = acceptedBy j w.log
  own : r.2.unaccepted = true → p.unaccepted = true ∧ acceptedBy i r.1.log = acceptedBy i w.log

section

variable {i : Nat} {w w' : World} {p p' : SendPc}

theorem AcceptEffect.silent (hlog : ∀ j, acceptedBy j w'.log = acceptedBy j w.log)
    (hun : p'.unaccepted = true → p.unaccepted = true) : AcceptEffect i w p (w', p') :=
  ⟨fun j _ => hlog j, fun h => ⟨hun h, hlog i⟩⟩

/-- A step that observes nothing. -/
theorem AcceptEffect.quiet (hlog : w'.log = w.log)
    (hun : p'.unaccepted = true → p.unaccepted = true) : AcceptEffect i w p (w', p') :=
  .silent (fun j => by rw [hlog]) hun

theorem AcceptEffect.answer {t campaign : RowKey} {status : ProviderStatus}
    (hp : p.unaccepted = true) (h : p'.unaccepted = true → status.isAccepted = false) :
    AcceptEffect i w p (w.observe (.answered i t campaign status), p') where
  others j hj := acceptedBy_of_not_accepted j i t campaign w.log (.inl hj)
  own hun := ⟨hp, acceptedBy_of_not_accepted i i t campaign w.log (.inr (h hun))⟩

/-- After a save that leaves the log alone. -/
theorem accepts_afterSave {α : Type} {outcome : SaveOutcome (World × α)} {next : α → SendPc}
    (hlog : ∀ w' a, outcome = .saved (w', a) → w'.log = w.log)
    (hun : ∀ a, (next a).unaccepted = true → p.unaccepted = true) :
    AcceptEffect i w p (afterSave w outcome next) := by
  refine afterSave_elim (fun w' a ho => ?_) (.quiet rfl nofun) fun _ => .quiet rfl nofun
  exact .quiet (hlog w' a ho) (hun a)

theorem accepts_setRecord {ctx : Context} {e : MessageExecution} {result : Json}
    {status : Idempotency.Status} {now : Idempotency.Clock} {next : SendPc}
    (hun : next.unaccepted = true → p.unaccepted = true) :
    AcceptEffect i w p (setRecord w ctx i e result status now next) := by
  rcases setRecord_cases w ctx i e result status now next with ⟨-, r, -, h⟩ | ⟨-, h⟩ <;> rw [h]
  · exact .silent (fun j => rfl) hun
  · exact .quiet rfl nofun

/-- A call that is told its message was accepted goes on as accepted. -/
theorem not_accepted_of_onAnswer {l : Sending} {answer : ProviderSendResult} {now : Date}
    (h : (onAnswer l answer now).unaccepted = true) : answer.status.isAccepted = false := by
  unfold onAnswer at h
  split at h
  iterate 3
    split at h <;> cases h
  next hs => rw [hs]; rfl
  next hs => rw [hs]; rfl
  next hs => rw [hs]; rfl

/-- **What a step does to the accepted sends.** -/
theorem sendNext_accepts (cfg : Outreach.Config) (call : SendCall) (input : Input) :
    AcceptEffect i w p (sendNext cfg call i input w p) := by
  cases p with
  | loadExecution =>
    simp only [sendNext]
    split <;> exact .quiet rfl fun _ => rfl
  | loadSequence e =>
    simp only [sendNext]
    split <;> exact .quiet rfl fun _ => rfl
  | loadCampaign e sequence =>
    simp only [sendNext]
    split
    · exact .quiet rfl fun _ => rfl
    · split <;> exact .quiet rfl fun _ => rfl
  | recoverRecipient l =>
    simp only [sendNext]
    split <;> exact .quiet rfl fun _ => rfl
  | evaluate l =>
    obtain ⟨w', p', h, -, -, hlog | hlog, -⟩ := sendNext_evaluate cfg call i input w l <;> rw [h]
    · exact .quiet hlog fun _ => rfl
    · exact .silent (fun j => by rw [hlog]; rfl) fun _ => rfl
  | selectProvider l =>
    simp only [sendNext]
    split
    · exact .quiet rfl fun _ => rfl
    · split <;> exact .quiet rfl fun _ => rfl
  | saveFailure l exit =>
    exact accepts_afterSave (fun _ _ ho => (World.saveExecution_rest ho).2) fun _ _ => rfl
  | markFailed l exit => exact accepts_setRecord fun _ => rfl
  | saveAttempt l =>
    exact accepts_afterSave (fun _ _ ho => (World.saveExecution_rest ho).2) fun _ _ => rfl
  | send l => exact .silent (fun j => rfl) fun _ => rfl
  | awaitAnswer l =>
    simp only [sendNext]
    refine .answer rfl ?_
    exact not_accepted_of_onAnswer
  | saveAccepted l answer =>
    refine accepts_afterSave (fun _ _ ho => (World.saveExecution_rest ho).2) fun e' hun => ?_
    cases hun
  | saveCampaign l answer =>
    refine accepts_afterSave (fun _ _ ho => (World.saveCampaign_rest ho).2.2) fun c' hun => ?_
    cases hun
  | markCompleted l answer =>
    refine accepts_setRecord fun hun => ?_
    cases hun
  | loadCampaignForAdvance l =>
    simp only [sendNext]
    rcases advance_cases cfg l (w.loadCampaign call.ctx l.sequence.state.campaignId)
      input.now.ms with ⟨ended, h⟩ | ⟨nextDueAt, hasMoreSteps, -, h⟩ <;> rw [h] <;>
      exact .quiet rfl (by rintro ⟨⟩)
  | saveSequence sequence campaign nextDueAt hasMoreSteps =>
    refine accepts_afterSave (fun _ _ ho => (World.saveSequence_rest ho).2.2) fun s' hun => ?_
    split at hun <;> cases hun
  | saveCampaignComplete campaign nextDueAt =>
    refine accepts_afterSave (fun _ _ ho => (World.saveCampaign_rest ho).2.2) fun c' hun => ?_
    cases hun
  | saveAmbiguous l reason =>
    exact accepts_afterSave (fun _ _ ho => (World.saveExecution_rest ho).2) fun _ _ => rfl
  | loadAuthoritative =>
    simp only [sendNext]
    split <;> exact .quiet rfl (by rintro ⟨⟩)
  | getRecord key =>
    simp only [sendNext]
    split <;> exact .quiet rfl (by rintro ⟨⟩)
  | reload record =>
    simp only [sendNext]
    split
    · exact .quiet rfl (by rintro ⟨⟩)
    next e he =>
      rcases resolveDuplicate_cases record e input.now.ms with ⟨result, h⟩ | ⟨e', h⟩ <;> rw [h] <;>
        exact .quiet rfl (by rintro ⟨⟩)
  | saveAuthoritative e =>
    simp only [sendNext]
    split
    next w' e' ho =>
      obtain ⟨-, -, -, T, -, rfl⟩ := World.saveExecution_eq_saved ho
      exact .quiet rfl (by rintro ⟨⟩)
    · exact .quiet rfl (by rintro ⟨⟩)
    · exact .quiet rfl (by rintro ⟨⟩)
  | reloadNewer e => exact .quiet rfl (by rintro ⟨⟩)
  | done ended => exact .quiet rfl (by rintro ⟨⟩)

theorem sendStep_accepts (cfg : Outreach.Config) (call : SendCall) (input : Input) :
    AcceptEffect i w p (sendStep cfg (fun _ => call) i input w p) := by
  cases hf : input.fault with
  | none =>
    rw [sendStep_eq_sendNext cfg _ i w p hf]
    exact sendNext_accepts cfg call input
  | some message =>
    obtain ⟨ended, h, -⟩ := sendStep_fault cfg (fun _ => call) i w p hf
    rw [h]
    exact .quiet rfl nofun

end

/-! ## One step -/

/-- What call `i` returns, if it ends here, is true. -/
def ReportsOn (i : Nat) (call : SendCall) (r : World × SendPc) : Prop :=
  ∀ result, r.2 = .done (.returned result) →
    result.TrueOf (acceptedBy i r.1.log)
      (positiveAt (rowKey call.ctx call.executionId) r.1.executions)

/-- The call has loaded its execution. -/
def SendPc.loaded : SendPc → Bool
  | loadExecution | done _ => false
  | _ => true

theorem positiveAt_of_statusAt {t : RowKey} {T : Executions} {s : Status}
    (h : StatusAt (· = s) t T) : positiveAt t T = isPositiveTerminal s := by
  obtain ⟨r, hr, rfl⟩ := h
  unfold positiveAt
  rw [hr]
  rfl

theorem positiveAt_of_positive {t : RowKey} {T : Executions}
    (h : StatusAt (isPositiveTerminal · = true) t T) : positiveAt t T = true := by
  obtain ⟨r, hr, hp⟩ := h
  unfold positiveAt
  rw [hr]
  exact hp

theorem trueOf_failure {result : SendResult} {accepted positive : Bool}
    (hr : result.isCompleted = false) (ha : accepted = false) :
    result.TrueOf accepted positive ↔ positive = false := by
  unfold SendResult.TrueOf
  rw [hr, ha]
  simp

theorem trueOf_completed {result : SendResult} {accepted positive : Bool}
    (hr : result.isCompleted = true) : result.TrueOf accepted positive ↔ positive = true := by
  unfold SendResult.TrueOf
  rw [hr]
  simp

theorem FailureExit.not_completed (exit : FailureExit) : exit.result.isCompleted = false := by
  cases exit with
  | providerFailed classification reason retryAfterMs =>
    simp only [FailureExit.result]
    split <;> rfl
  | _ => rfl

section

variable {i : Nat} {call : SendCall} {input : Input} {w w' : World} {p : SendPc}

theorem ReportsOn.silent {p' : SendPc} (h : ∀ result, p' ≠ .done (.returned result)) :
    ReportsOn i call (w', p') := fun result hr => absurd hr (h result)

theorem reportsOn_returned {result : SendResult} :
    ReportsOn i call (w', .done (.returned result)) ↔
      result.TrueOf (acceptedBy i w'.log)
        (positiveAt (rowKey call.ctx call.executionId) w'.executions) := by
  constructor
  · intro h
    exact h result rfl
  · rintro h _ ⟨⟩
    exact h

/-- After a save that leads to another operation. -/
theorem ReportsOn.afterSave {α : Type} {outcome : SaveOutcome (World × α)} {next : α → SendPc}
    (h : ∀ a result, next a ≠ .done (.returned result)) :
    ReportsOn i call (afterSave w outcome next) :=
  afterSave_elim (fun _ a _ => .silent (h a)) (.silent nofun) fun _ => .silent nofun

/-- An answer that gives up before any send. -/
theorem reportsOn_fails {reason : String} (ha : acceptedBy i w.log = false) :
    ReportsOn i call (w, fails reason) ↔
      positiveAt (rowKey call.ctx call.executionId) w.executions = false := by
  unfold fails
  rw [reportsOn_returned]
  exact trueOf_failure rfl ha

/-- An answer of the provider is recorded before the call returns. -/
theorem onAnswer_goes_on {l : Sending} (hs : l.execution.state.status = .sending)
    (answer : ProviderSendResult) (now : Date) (result : SendResult) :
    onAnswer l answer now ≠ .done (.returned result) := by
  have haccepted := (MessageExecution.markProviderAccepted_status hs answer.providerMessageId
    answer.internetMessageId answer.providerErrorCode now).2
  unfold onAnswer
  split
  iterate 3
    split
    next message he =>
      rw [he] at haccepted
      cases haccepted
    · nofun
  · nofun
  · nofun
  · nofun

/-- **A step of a call answers truly iff it is none of those that misreport.** -/
theorem reports_sendNext (cfg : Outreach.Config) (hf : input.fault = none)
    (hk : Knows (rowKey call.ctx call.executionId) w.executions p)
    (hrow : p.loaded = true → ∃ r, w.executions.find (rowKey call.ctx call.executionId) = some r)
    (hun : p.unaccepted = true → acceptedBy i w.log = false)
    (hd : ∀ ended, p ≠ .done ended) :
    sendMisreports i input w call p = false ↔ ReportsOn i call (sendNext cfg call i input w p) := by
  cases p with
  | loadExecution =>
    refine iff_of_true rfl ?_
    simp only [sendNext]
    split
    next hnone =>
      rw [reportsOn_fails (hun rfl)]
      unfold positiveAt
      rw [Option.map_eq_none_iff.mp hnone]
      rfl
    · exact .silent (by rintro _ ⟨⟩)
  | loadSequence e =>
    simp only [sendNext, sendMisreports, hf]
    cases w.loadSequence call.ctx e.state.sequenceId with
    | none =>
      rw [reportsOn_fails (hun rfl)]
      simp
    | some sequence => exact iff_of_true (by simp) (.silent (by rintro _ ⟨⟩))
  | loadCampaign e sequence =>
    simp only [sendNext, sendMisreports, hf]
    cases w.loadCampaign call.ctx e.state.campaignId with
    | none =>
      rw [reportsOn_fails (hun rfl)]
      simp
    | some campaign =>
      dsimp only
      rcases checkReady_cases call.approvalId e sequence campaign input.now.ms with
        ⟨hp, h⟩ | ⟨hp, hready, reason, h⟩ | ⟨hready, l, h⟩ <;> rw [h]
      · refine iff_of_true (by simp [hp]) ?_
        rw [reportsOn_returned, trueOf_completed rfl]
        exact positiveAt_of_positive (hk.2 hp)
      · rw [reportsOn_returned, trueOf_failure rfl (hun rfl), hp, hready]
        simp
      · exact iff_of_true (by simp [hready]) (.silent (by rintro _ ⟨⟩))
  | recoverRecipient l =>
    simp only [sendNext, sendMisreports, hf]
    cases hr : recoverable l.execution.state && input.recovered with
    | true =>
      rw [if_pos rfl]
      rw [Bool.and_eq_true] at hr
      exact iff_of_true (by simp [hr]) (.silent (by rintro _ ⟨⟩))
    | false =>
      rw [if_neg (by simp), reportsOn_fails (hun rfl), Option.isNone_none, Bool.true_and, hr]
      simp
  | evaluate l =>
    refine iff_of_true rfl ?_
    obtain ⟨w', p', h, -, -, -, ⟨_, rfl⟩ | ⟨_, rfl⟩ | ⟨_, _, rfl, -⟩ | ⟨_, rfl, -⟩⟩ :=
      sendNext_evaluate cfg call i input w l <;> rw [h] <;> exact .silent (by rintro _ ⟨⟩)
  | selectProvider l =>
    refine iff_of_true rfl ?_
    simp only [sendNext]
    split
    · exact .silent (by rintro _ ⟨⟩)
    · split <;> exact .silent (by rintro _ ⟨⟩)
  | saveFailure l exit => exact iff_of_true rfl (.afterSave fun _ _ h => by cases h)
  | markFailed l exit =>
    have ha := hun rfl
    simp only [sendNext, sendMisreports, hf]
    rcases setRecord_cases w call.ctx i l.execution failedResult .failed input.now
      (.done (.returned exit.result)) with ⟨hsome, r, -, h⟩ | ⟨hnone, h⟩ <;> rw [h]
    · rw [reportsOn_returned, hsome]
      refine Iff.trans ?_ (trueOf_failure exit.not_completed ha).symm
      simp
    · exact iff_of_true (by simp [hnone]) (.silent (by rintro _ ⟨⟩))
  | saveAttempt l => exact iff_of_true rfl (.afterSave fun _ _ h => by cases h)
  | send l => exact iff_of_true rfl (.silent (by rintro _ ⟨⟩))
  | awaitAnswer l =>
    refine iff_of_true rfl ?_
    simp only [sendNext]
    refine .silent fun result => ?_
    apply onAnswer_goes_on
    exact hk.1
  | saveAccepted l answer => exact iff_of_true rfl (.afterSave fun _ _ h => by cases h)
  | saveCampaign l answer => exact iff_of_true rfl (.afterSave fun _ _ h => by cases h)
  | markCompleted l answer =>
    refine iff_of_true rfl ?_
    simp only [sendNext]
    rcases setRecord_cases w call.ctx i l.execution (completedResult answer) .completed input.now
      (.loadCampaignForAdvance l) with ⟨-, r, -, h⟩ | ⟨-, h⟩ <;> rw [h] <;> exact .silent (by rintro _ ⟨⟩)
  | loadCampaignForAdvance l =>
    have hp := positiveAt_of_positive hk
    simp only [sendNext, sendMisreports, hf]
    rcases advance_answers cfg l (w.loadCampaign call.ctx l.sequence.state.campaignId)
      input.now.ms with ⟨hr, reason, h⟩ | ⟨hr, h⟩
    · rw [h]
      refine iff_of_false (by simp [hr]) fun htrue => ?_
      have hfalse := htrue _ rfl
      unfold SendResult.TrueOf at hfalse
      simp [SendResult.isCompleted, hp] at hfalse
    · exact iff_of_true (by simp [hr]) (.silent h)
  | saveSequence sequence campaign nextDueAt hasMoreSteps =>
    refine iff_of_true rfl ?_
    have hp := positiveAt_of_positive hk
    refine afterSave_elim (fun w' s' ho => ?_) (.silent (by rintro _ ⟨⟩)) fun _ => .silent (by rintro _ ⟨⟩)
    obtain ⟨-, T, -, rfl⟩ := World.saveSequence_eq_saved ho
    split
    · exact .silent (by rintro _ ⟨⟩)
    · exact reportsOn_returned.mpr ((trueOf_completed rfl).mpr hp)
  | saveCampaignComplete campaign nextDueAt =>
    refine iff_of_true rfl ?_
    have hp := positiveAt_of_positive hk
    refine afterSave_elim (fun w' c' ho => ?_) (.silent (by rintro _ ⟨⟩)) fun _ => .silent (by rintro _ ⟨⟩)
    obtain ⟨-, T, -, rfl⟩ := World.saveCampaign_eq_saved ho
    exact reportsOn_returned.mpr ((trueOf_completed rfl).mpr hp)
  | saveAmbiguous l reason =>
    refine iff_of_true rfl ?_
    have ha := hun rfl
    obtain ⟨hs, hu⟩ := hk
    refine afterSave_elim (fun w' e' ho => ?_) (.silent (by rintro _ ⟨⟩)) fun _ => .silent (by rintro _ ⟨⟩)
    obtain ⟨-, -, -, -, hat⟩ := hu.save (fun s => MayMove.of_unsettled) ho
    obtain ⟨-, -, -, T, -, rfl⟩ := World.saveExecution_eq_saved ho
    rw [reportsOn_fails (by exact ha), positiveAt_of_statusAt hat, hs]
    rfl
  | loadAuthoritative =>
    refine iff_of_true rfl ?_
    obtain ⟨r, hr⟩ := hrow rfl
    simp only [sendNext, World.loadExecution, hr, Option.map_some]
    exact .silent (by rintro _ ⟨⟩)
  | getRecord key =>
    refine iff_of_true rfl ?_
    simp only [sendNext]
    split <;> exact .silent (by rintro _ ⟨⟩)
  | reload record =>
    obtain ⟨r, hr⟩ := hrow rfl
    obtain ⟨e, he⟩ : ∃ e, w.loadExecution call.ctx call.executionId = some e := by
      unfold World.loadExecution
      rw [hr]
      exact ⟨_, rfl⟩
    have hstored := positiveAt_of_statusAt (holds_load he).2
    simp only [sendNext, sendMisreports, hf, he, hstored]
    rcases resolveDuplicate_answers record e input.now.ms with
      ⟨honce, result, h, hresult⟩ | ⟨hlater, e', h⟩ <;> rw [h]
    · rw [reportsOn_returned, hstored]
      unfold SendResult.TrueOf
      rw [hresult]
      cases isPositiveTerminal e.state.status <;> simp [honce]
    · exact iff_of_true (by simp [hlater]) (.silent (by rintro _ ⟨⟩))
  | saveAuthoritative e =>
    simp only [sendNext, sendMisreports, hf]
    split
    next w' e' ho =>
      obtain ⟨-, hstate, -, -, hat⟩ := Holds.save hk (fun s => MayMove.of_unsettled) ho
      have hlog : w'.log = w.log := by
        obtain ⟨-, -, -, T, -, rfl⟩ := World.saveExecution_eq_saved ho
        rfl
      have hresult := isCompleted_resultFromExecution e'
      rw [hstate] at hresult
      rw [reportsOn_returned, positiveAt_of_statusAt hat, hlog]
      unfold SendResult.TrueOf
      rw [hresult]
      cases isPositiveTerminal e.state.status <;> simp [SaveOutcome.isSaved, ho]
    next ho => exact iff_of_true (by simp [SaveOutcome.isSaved, ho]) (.silent (by rintro _ ⟨⟩))
    next message ho => exact iff_of_true (by simp [SaveOutcome.isSaved, ho]) (.silent (by rintro _ ⟨⟩))
  | reloadNewer e =>
    simp only [sendNext, sendMisreports, hf]
    rw [reportsOn_returned]
    unfold SendResult.TrueOf
    rw [isCompleted_resultFromExecution]
    cases isPositiveTerminal e.state.status <;> simp [and_comm]
  | done ended => exact absurd rfl (hd ended)

theorem reports_sendStep (cfg : Outreach.Config)
    (hk : Knows (rowKey call.ctx call.executionId) w.executions p)
    (hrow : p.loaded = true → ∃ r, w.executions.find (rowKey call.ctx call.executionId) = some r)
    (hun : p.unaccepted = true → acceptedBy i w.log = false)
    (hd : ∀ ended, p ≠ .done ended) :
    sendMisreports i input w call p = false ↔
      ReportsOn i call (sendStep cfg (fun _ => call) i input w p) := by
  cases hf : input.fault with
  | none =>
    rw [sendStep_eq_sendNext cfg _ i w p hf]
    exact reports_sendNext cfg hf hk hrow hun hd
  | some message =>
    cases p with
    | recoverRecipient l =>
      simp only [sendStep, sendMisreports, hf]
      rw [reportsOn_fails (hun rfl)]
      simp
    | done ended => exact absurd rfl (hd ended)
    | _ =>
      simp only [sendStep, sendMisreports, hf]
      exact iff_of_true (by simp) (.silent (by rintro _ ⟨⟩))

/-- A call past its first load has found its execution. -/
theorem sendStep_loaded (cfg : Outreach.Config)
    (h : (sendStep cfg (fun _ => call) i input w p).2.loaded = true) :
    p.loaded = true ∨ ∃ r, w.executions.find (rowKey call.ctx call.executionId) = some r := by
  cases hf : input.fault with
  | some message =>
    obtain ⟨ended, hr, -⟩ := sendStep_fault cfg (fun _ => call) i w p hf
    rw [hr] at h
    cases h
  | none =>
    rw [sendStep_eq_sendNext cfg _ i w p hf] at h
    cases p with
    | loadExecution =>
      simp only [sendNext] at h
      split at h
      · cases h
      next e he =>
        obtain ⟨r, hr, -⟩ := Option.map_eq_some_iff.mp he
        exact .inr ⟨r, hr⟩
    | done ended => cases h
    | _ => exact .inl rfl

end

/-! ## Every run -/

/-- What a call of `executeApprovedSend` knows of its row and of its own send. -/
def SendKnown (i : Nat) (w : World) : SystemPc → Prop
  | .send call p =>
    (p.loaded = true → ∃ r, w.executions.find (rowKey call.ctx call.executionId) = some r) ∧
      (p.unaccepted = true → acceptedBy i w.log = false)
  | _ => True

structure ReportInv (c : Interleave.Config World SystemPc) : Prop where
  knows : Each (fun _ w p => SystemKnows w.executions p) c
  sends : Each SendKnown c

theorem SendKnown.evolve {i : Nat} {w w' : World} {p : SystemPc}
    (hT : Moves w.executions w'.executions) (hlog : acceptedBy i w'.log = acceptedBy i w.log)
    (h : SendKnown i w p) : SendKnown i w' p := by
  cases p with
  | send call p =>
    refine ⟨fun hl => ?_, fun hun => hlog.trans (h.2 hun)⟩
    obtain ⟨r, hr⟩ := h.1 hl
    obtain ⟨r', hr', -⟩ := hT _ r hr
    exact ⟨r', hr'⟩
  | _ => trivial

/-- No call but the one that moves gets an answer. -/
theorem systemStep_accepts (cfg : Outreach.Config) (i : Nat) (input : Input) (w : World)
    (p : SystemPc) {j : Nat} (hj : j ≠ i) :
    acceptedBy j (systemStep cfg i input w p).1.log = acceptedBy j w.log := by
  cases p with
  | prepare call p =>
    rcases prepareStep_cases call i input w p with ⟨hw, -⟩ | ⟨e, e', -, -, ho, -⟩
    · simp only [systemStep, hw]
    · obtain ⟨-, -, -, T, -, hw⟩ := World.saveExecution_eq_saved ho
      simp only [systemStep, hw]
  | send call p => exact (sendStep_accepts cfg call input).others j hj
  | response call p =>
    cases hf : input.fault with
    | some message => cases p <;> simp only [systemStep, hf]
    | none =>
      cases p with
      | load => simp only [systemStep, responseNext, hf]; split <;> rfl
      | save e =>
        simp only [systemStep, responseNext, hf]
        split
        next w' e' ho =>
          obtain ⟨-, -, -, T, -, rfl⟩ := World.saveExecution_eq_saved ho
          rfl
        · rfl
        · rfl
      | done threw => simp only [systemStep]
  | reconcile call p =>
    cases hf : input.fault with
    | some message => cases p <;> simp only [systemStep, hf]
    | none =>
      cases p with
      | load =>
        simp only [systemStep, reconcileNext, hf]
        split
        · rfl
        · split <;> rfl
      | save e =>
        simp only [systemStep, reconcileNext, hf]
        split
        next w' e' ho =>
          obtain ⟨-, -, -, T, -, rfl⟩ := World.saveExecution_eq_saved ho
          rfl
        · rfl
        · rfl
      | set e => simp only [systemStep, reconcileNext, hf]; split <;> rfl
      | audit => simp only [systemStep, reconcileNext, hf]; split <;> rfl
      | done ended => simp only [systemStep]
  | operate call p =>
    cases hf : input.fault with
    | some message => simp only [systemStep, hf]
    | none =>
      cases p with
      | load => simp only [systemStep, operatorNext, hf]; split <;> rfl
      | save s =>
        simp only [systemStep, operatorNext, hf]
        split
        next w' s' ho =>
          obtain ⟨-, T, -, rfl⟩ := World.saveSequence_eq_saved ho
          rfl
        · rfl
      | done => simp only [systemStep, operatorNext, hf]

theorem reportInv_start (w : World) (calls : Nat → SystemCall) :
    ReportInv (startCalls { w with log := [] } calls) := by
  refine ⟨systemKnows_start _ calls, fun i => ?_⟩
  show SendKnown i _ (calls i).start
  cases calls i with
  | send call => exact ⟨nofun, fun _ => rfl⟩
  | _ => trivial

theorem reportInv_step (cfg : Outreach.Config) {c : Interleave.Config World SystemPc}
    {a : Tick Input} (h : ReportInv c) : ReportInv (c.step (systemStep cfg) a) := by
  obtain ⟨hmoves, -⟩ := Moves.system a.call a.input cfg (h.knows a.call)
  refine ⟨systemKnows_step cfg h.knows, h.sends.step ?_ fun i p hi hp => ?_⟩
  · have hsend := h.sends a.call
    revert hsend hmoves
    rw [Config.step_world]
    cases c.pc a.call with
    | send call p =>
      intro hmoves hsend
      refine ⟨fun hl => ?_, fun hun => ?_⟩
      · obtain ⟨r, hr⟩ : ∃ r, c.world.executions.find (rowKey call.ctx call.executionId) = some r := by
          rcases sendStep_loaded cfg hl with hloaded | hrow
          · exact hsend.1 hloaded
          · exact hrow
        obtain ⟨r', hr', -⟩ := hmoves _ r hr
        exact ⟨r', hr'⟩
      · obtain ⟨hold, hlog⟩ := (sendStep_accepts cfg call a.input).own hun
        exact hlog.trans (hsend.2 hold)
    | response call p =>
      intro _ _
      cases p <;> cases hf : a.input.fault <;> simp only [systemStep, hf] <;> trivial
    | reconcile call p =>
      intro _ _
      cases p <;> cases hf : a.input.fault <;> simp only [systemStep, hf] <;> trivial
    | operate call p =>
      intro _ _
      cases hf : a.input.fault <;> simp only [systemStep, hf] <;> trivial
    | prepare call p => intro _ _; trivial
  · exact hp.evolve hmoves (systemStep_accepts cfg a.call a.input c.world (c.pc a.call) hi)

/-- A step answers truly iff it does not misreport. -/
theorem reportsTruly_step (cfg : Outreach.Config) {c : Interleave.Config World SystemPc}
    {a : Tick Input} (h : ReportInv c) :
    ReportsTruly cfg c a ↔ misreports c a = false := by
  have hknows := h.knows a.call
  have hsend := h.sends a.call
  unfold ReportsTruly misreports
  rw [Config.step_world, Config.step_pc_self]
  revert hknows hsend
  cases c.pc a.call with
  | send call p =>
    intro hknows hsend
    by_cases hd : ∃ ended, p = .done ended
    · obtain ⟨ended, rfl⟩ := hd
      refine iff_of_true (fun call' p result hp hne _ => ?_) rfl
      obtain ⟨-, rfl⟩ := SystemPc.send.inj hp
      exact absurd rfl (hne ended)
    · have hne : ∀ ended, p ≠ .done ended := fun ended hp => hd ⟨ended, hp⟩
      rw [reports_sendStep cfg hknows hsend.1 hsend.2 hne]
      constructor
      · intro htrue result hr
        exact htrue call p result rfl hne (congrArg (SystemPc.send call) hr)
      · rintro htrue call' p' result ⟨⟩ - hr
        exact htrue result (SystemPc.send.inj hr).2
  | _ =>
    intro _ _
    refine iff_of_true (fun call p result hp => ?_) rfl
    cases hp

/-- **What the calls report is true of the stored executions iff no step misreports.** -/
theorem reportsTruly_iff (cfg : Outreach.Config) (calls : Nat → SystemCall) (w : World)
    (s : List (Tick Input)) :
    Meets (systemStep cfg) (ReportsTruly cfg) (startCalls { w with log := [] } calls) s ↔
      Meets (systemStep cfg) (fun c a => misreports c a = false)
        (startCalls { w with log := [] } calls) s := by
  have hiff : ∀ c a, ReportInv c → (ReportsTruly cfg c a ↔ misreports c a = false) :=
    fun c a h => reportsTruly_step cfg h
  have hstep : ∀ c a, ReportInv c → misreports c a = false →
      ReportInv (c.step (systemStep cfg) a) := fun c a h _ => reportInv_step cfg h
  exact meets_iff_of_invariant hiff hstep (reportInv_start w calls)

/-- An approved execution of a sequence that was paused. -/
def pausedWorld : World :=
  .ofRows [sampleExecution "execution" "sequence" 0 .approved]
    [sampleSequence "sequence" 1 .paused] [sampleCampaign 1 {}]

theorem not_reportsTruly_paused :
    ¬ ∀ (cfg : Outreach.Config) (calls : Nat → SystemCall) (w : World) (s : List (Tick Input)),
      Meets (systemStep cfg) (ReportsTruly cfg) (startCalls { w with log := [] } calls) s := by
  intro h
  -- the provider accepts, and the step of the sequence is refused
  have hrun := h {} (fun _ => .send sampleSendCall) pausedWorld
    (List.replicate 12 (allowed 0) ++ [allowed 0])
  have hlast := (meets_append.mp hrun).2.1
  have hinv := run_invariant (fun c a hc => reportInv_step {} hc)
    (reportInv_start pausedWorld fun _ => .send sampleSendCall) (s := List.replicate 12 (allowed 0))
  have hmisreports := (reportsTruly_step {} hinv).mp hlast
  revert hmisreports
  decide +kernel

end VegaRevenue.Outreach
