import VegaRevenue.Domain.MessageHistory
import VegaRevenue.Outreach.Progress

/-!
# The copies that are saved

Every call that writes the rows of executions, with `expireApprovalWait` among them, and the copy
that each works on from its load to its save.

* `writerStep` — one step of any of them
* `writerStep_executions` — a step touches the rows of executions by the save it waits for, or not
  at all
* `sendNext_follows` — the copy after a step comes from the copy before it by operations
-/

namespace VegaRevenue.Outreach

open Interleave
open Versioned
open MessageExecution (Status Props Keeps Path Accepted Goes)

/-! ## `expireApprovalWait` -/

structure ExpireCall where
  ctx : Context
  executionId : String
  reason : String
deriving DecidableEq

inductive ExpireEnded where
  | expired
  | skipped (reason : String)
  | threw (message : String)
deriving DecidableEq

/-- The operation a call waits for. -/
inductive ExpirePc where
  | load
  | save (execution : MessageExecution)
  | done (ended : ExpireEnded)

def expireNext (call : ExpireCall) (input : Input) (w : World) : ExpirePc → World × ExpirePc
  | .load =>
    match w.loadExecution call.ctx call.executionId with
    | none => (w, .done (.skipped ("Execution " ++ call.executionId ++ " not found")))
    | some e =>
      if e.state.status ≠ .pendingApproval then
        (w, .done (.skipped ("Execution status is " ++ e.state.status.name ++
          ", not PENDING_APPROVAL")))
      else
        match MessageExecution.markFailed e .nonRetryable call.reason none input.now.ms with
        | (_, .fail message) => (w, .done (.skipped message))
        | (e, _) => (w, .save e)
  | .save e =>
    match w.saveExecution call.ctx e with
    | .saved (w', _) => (w', .done .expired)
    | .conflict => (w, .done (.threw staleExecution))
    | .threw message => (w, .done (.threw message))
  | .done ended => (w, .done ended)

/-! ## All calls -/

inductive WriterPc where
  | system (p : SystemPc)
  | expire (call : ExpireCall) (p : ExpirePc)

def writerStep (cfg : Config) : Interleave.Stepper World WriterPc Input
  | i, input, w, .system p => let r := systemStep cfg i input w p; (r.1, .system r.2)
  | _, input, w, .expire call p =>
    match p, input.fault with
    | .done ended, _ => (w, .expire call (.done ended))
    | _, some message => (w, .expire call (.done (.threw message)))
    | p, none => let r := expireNext call input w p; (r.1, .expire call r.2)

inductive WriterCall where
  | system (call : SystemCall)
  | expire (call : ExpireCall)

def WriterCall.start : WriterCall → WriterPc
  | system call => .system call.start
  | expire call => .expire call .load

/-- Every call before its first step; no execution was prepared yet. -/
def startWriters (w : World) (calls : Nat → WriterCall) : Interleave.Config World WriterPc :=
  ⟨{ w with executions := [] }, fun i => (calls i).start⟩

/-! ## What a step saves -/

/-- The execution that the next step saves. -/
def SendPc.saving : SendPc → Option MessageExecution
  | saveFailure l _ | saveAttempt l | saveAccepted l _ | saveAmbiguous l _ => some l.execution
  | saveAuthoritative e => some e
  | _ => none

def SystemPc.saving : SystemPc → Option (Context × MessageExecution)
  | prepare call p => p.saving.map (call.ctx, ·)
  | send call p => p.saving.map (call.ctx, ·)
  | response call (.save e) => some (call.ctx, e)
  | reconcile call (.save e) => some (call.ctx, e)
  | _ => none

def WriterPc.saving : WriterPc → Option (Context × MessageExecution)
  | system p => p.saving
  | expire call (.save e) => some (call.ctx, e)
  | _ => none

/-- The rows of executions after a save, if it succeeds. -/
def World.executionsAfter (w : World) (ctx : Context) (e : MessageExecution) : Executions :=
  match w.saveExecution ctx e with
  | .saved (w', _) => w'.executions
  | _ => w.executions

/-- The rows of executions after the save that is waited for. -/
def World.executionsAfterSaving (w : World) (saving : Option (Context × MessageExecution)) :
    Executions :=
  match saving with
  | some (ctx, e) => w.executionsAfter ctx e
  | none => w.executions

section

variable (cfg : Config) (i : Nat) {input : Input} {w : World}

theorem afterSave_executions (ctx : Context) (e : MessageExecution)
    (next : MessageExecution → SendPc) :
    (afterSave w (w.saveExecution ctx e) next).1.executions = w.executionsAfter ctx e := by
  unfold World.executionsAfter
  cases w.saveExecution ctx e <;> rfl

theorem afterSave_executions_same {α : Type} {outcome : SaveOutcome (World × α)}
    {next : α → SendPc} (h : ∀ w' a, outcome = .saved (w', a) → w'.executions = w.executions) :
    (afterSave w outcome next).1.executions = w.executions := by
  cases outcome with
  | saved r => exact h r.1 r.2 rfl
  | _ => rfl

theorem setRecord_executions (ctx : Context) (e : MessageExecution) (result : Json)
    (status : Idempotency.Status) (next : SendPc) :
    (setRecord w ctx i e result status input.now next).1.executions = w.executions := by
  rcases setRecord_cases w ctx i e result status input.now next with ⟨-, r, -, h⟩ | ⟨-, h⟩ <;> rw [h]

theorem sendNext_executions (call : SendCall) (p : SendPc) :
    (sendNext cfg call i input w p).1.executions =
      w.executionsAfterSaving (p.saving.map (call.ctx, ·)) := by
  cases p with
  | evaluate l =>
    obtain ⟨w', p', h, hexecutions, -⟩ := sendNext_evaluate cfg call i input w l
    rw [h]
    exact hexecutions
  | saveFailure l exit => exact afterSave_executions call.ctx l.execution _
  | saveAttempt l => exact afterSave_executions call.ctx l.execution _
  | saveAccepted l answer => exact afterSave_executions call.ctx l.execution _
  | saveAmbiguous l reason => exact afterSave_executions call.ctx l.execution _
  | saveAuthoritative e =>
    simp only [sendNext, SendPc.saving, World.executionsAfterSaving, World.executionsAfter,
      Option.map_some]
    cases w.saveExecution call.ctx e <;> rfl
  | markFailed l exit => exact setRecord_executions i call.ctx _ _ _ _
  | markCompleted l answer => exact setRecord_executions i call.ctx _ _ _ _
  | saveCampaign l answer =>
    exact afterSave_executions_same fun _ _ ho => (World.saveCampaign_rest ho).1
  | saveSequence sequence campaign nextDueAt hasMoreSteps =>
    exact afterSave_executions_same fun _ _ ho => (World.saveSequence_rest ho).1
  | saveCampaignComplete campaign nextDueAt =>
    exact afterSave_executions_same fun _ _ ho => (World.saveCampaign_rest ho).1
  | send l => rfl
  | awaitAnswer l => rfl
  | loadCampaign e sequence =>
    simp only [sendNext]
    split
    · rfl
    · split <;> rfl
  | selectProvider l =>
    simp only [sendNext]
    split
    · rfl
    · split <;> rfl
  | _ =>
    simp only [sendNext]
    first | rfl | (split <;> rfl)

theorem prepareNext_executions (call : PrepareCall) (p : PreparePc) (hf : input.fault = none) :
    (prepareNext call input w p).1.executions =
      w.executionsAfterSaving (p.saving.map (call.ctx, ·)) := by
  rcases prepareNext_cases hf p with ⟨hw, -, hsaving⟩ | ⟨e, e', hp, -, ho, -⟩
  · rw [hw]
    cases hs : p.saving with
    | none => rfl
    | some e =>
      have hsaved : (w.saveExecution call.ctx e).isSaved = false := by
        rcases hsaving e hs with hthrew | hsaved
        · rw [hf] at hthrew
          cases hthrew
        · exact hsaved
      simp only [World.executionsAfterSaving, World.executionsAfter, Option.map_some]
      cases ho : w.saveExecution call.ctx e with
      | saved r =>
        rw [ho] at hsaved
        cases hsaved
      | _ => rfl
  · rw [hp]
    simp only [World.executionsAfterSaving, World.executionsAfter, Option.map_some, ho]

/-- **A step touches the rows of executions by the save it waits for, or not at all.** -/
theorem writerStep_executions (hf : input.fault = none) (p : WriterPc) :
    (writerStep cfg i input w p).1.executions = w.executionsAfterSaving p.saving := by
  cases p with
  | system p =>
    cases p with
    | prepare call p =>
      simp only [writerStep, systemStep, prepareStep_eq_prepareNext i w p hf]
      exact prepareNext_executions call p hf
    | send call p =>
      simp only [writerStep, systemStep, sendStep_eq_sendNext cfg (fun _ => call) i w p hf]
      exact sendNext_executions cfg i call p
    | response call p =>
      cases p with
      | load =>
        simp only [writerStep, systemStep, hf, responseNext]
        split <;> rfl
      | save e =>
        simp only [writerStep, systemStep, hf, responseNext, WriterPc.saving, SystemPc.saving,
          World.executionsAfterSaving, World.executionsAfter]
        cases w.saveExecution call.ctx e <;> rfl
      | done threw => simp only [writerStep, systemStep]; rfl
    | reconcile call p =>
      cases p with
      | load =>
        simp only [writerStep, systemStep, hf, reconcileNext]
        split
        · rfl
        · split <;> rfl
      | save e =>
        simp only [writerStep, systemStep, hf, reconcileNext, WriterPc.saving, SystemPc.saving,
          World.executionsAfterSaving, World.executionsAfter]
        cases w.saveExecution call.ctx e <;> rfl
      | set e =>
        simp only [writerStep, systemStep, hf, reconcileNext]
        split <;> rfl
      | audit =>
        simp only [writerStep, systemStep, hf, reconcileNext]
        split <;> rfl
      | done ended => simp only [writerStep, systemStep]; rfl
    | operate call p =>
      simp only [writerStep, systemStep, hf]
      exact operatorNext_executions input call p
  | expire call p =>
    cases p with
    | load =>
      simp only [writerStep, hf, expireNext]
      split
      · rfl
      · split
        · rfl
        · split <;> rfl
    | save e =>
      simp only [writerStep, hf, expireNext, WriterPc.saving, World.executionsAfterSaving,
        World.executionsAfter]
      cases w.saveExecution call.ctx e <;> rfl
    | done ended => simp only [writerStep]; rfl

/-- A step under a fault touches no row. -/
theorem writerStep_executions_fault {message : String} (hf : input.fault = some message)
    (p : WriterPc) : (writerStep cfg i input w p).1.executions = w.executions := by
  cases p with
  | system p =>
    cases p with
    | prepare call p =>
      simp only [writerStep, systemStep]
      rcases prepareStep_fault i w p hf with hr | ⟨ended, -, hr⟩ <;> rw [hr]
    | send call p =>
      simp only [writerStep, systemStep]
      obtain ⟨ended, hr, -⟩ := sendStep_fault cfg (fun _ => call) i w p hf
      rw [hr]
    | response call p => cases p <;> simp only [writerStep, systemStep, hf]
    | reconcile call p => cases p <;> simp only [writerStep, systemStep, hf]
    | operate call p => simp only [writerStep, systemStep, hf]
  | expire call p => cases p <;> simp only [writerStep, hf]

end

/-! ## The copy of a send -/

/-- The copy that a call may still save. -/
def SendPc.copy : SendPc → Option MessageExecution
  | loadSequence e | loadCampaign e _ | saveAuthoritative e => some e
  | recoverRecipient l | evaluate l | selectProvider l | saveFailure l _ | saveAttempt l | send l
  | awaitAnswer l | saveAccepted l _ | saveAmbiguous l _ => some l.execution
  | _ => none

theorem copy_of_saving {p : SendPc} {e : MessageExecution} (h : p.saving = some e) :
    p.copy = some e := by
  cases p <;> first | exact h | cases h

/-- The attempts that the copy of a call has counted since its load or its last save. -/
def SendPc.counts : SendPc → Nat
  | saveAttempt _ => 1
  | _ => 0

theorem counts_of_not_saving {p : SendPc} (h : p.saving = none) : p.counts = 0 := by
  cases p <;> first | rfl | cases h

/-- The copy after a step comes from a load or from the one before it, or was saved. -/
def Follows (call : SendCall) (w : World) (p : SendPc) (r : World × SendPc) : Prop :=
  ∀ e' ∈ r.2.copy,
    (p.saving = none ∧
      ∃ e, (e ∈ p.copy ∨ w.loadExecution call.ctx call.executionId = some e) ∧
        Goes r.2.counts e e') ∨
      (r.2.counts = 0 ∧ ∃ e ∈ p.saving, w.saveExecution call.ctx e = .saved (r.1, e'))

theorem startSending_goes {approvalId : String} {e e' : MessageExecution} {now : Date}
    (h : startSending approvalId e now = .ok e') : Goes 0 e e' := by
  unfold startSending at h
  have hfirst : Goes 0 e (if e.state.status = .pendingApproval then
      MessageExecution.approve e approvalId now else (e, .ok)).1 := by
    split
    · exact MessageExecution.approve_goes e now approvalId
    · exact .refl e
  generalize (if e.state.status = .pendingApproval then
      MessageExecution.approve e approvalId now else (e, .ok)) = first at h hfirst
  obtain ⟨e₁, approved⟩ := first
  have hsecond : Goes 0 e₁ (if e₁.state.status = .approved then
      MessageExecution.markSending e₁ now else (e₁, .ok)).1 := by
    split
    · exact MessageExecution.markSending_goes e₁ now
    · exact .refl e₁
  dsimp only at h
  split at h
  · cases h
  · generalize (if e₁.state.status = .approved then
        MessageExecution.markSending e₁ now else (e₁, .ok)) = second at h hsecond
    obtain ⟨e₂, sending⟩ := second
    dsimp only at h
    split at h
    · cases h
    · split at h
      · cases h
      · cases h
        exact hfirst.trans hsecond

theorem checkReady_goes {approvalId : String} {e : MessageExecution} {sequence : Sequence}
    {campaign : Campaign} {now : Date} {l : Sending}
    (h : checkReady approvalId e sequence campaign now = .inr l) : Goes 0 e l.execution := by
  unfold checkReady at h
  split at h
  · cases h
  · split at h
    · cases h
    · split at h
      · cases h
      next e' he =>
        split at h
        · cases h
        · cases h
          exact startSending_goes he

theorem advanceToDeliveryPending_goes (e : MessageExecution)
    (providerMessageId internetMessageId : Option String) (now : Date) :
    Goes 0 e (advanceToDeliveryPending e providerMessageId internetMessageId now) := by
  have hsending : ∀ a : MessageExecution, Goes 0 a (if a.state.status = .approved then
      (MessageExecution.markSending a now).1 else a) := by
    intro a
    split
    · exact MessageExecution.markSending_goes a now
    · exact .refl a
  have haccepted : ∀ a : MessageExecution, Goes 0 a (if a.state.status = .sending then
      (MessageExecution.markProviderAccepted a providerMessageId internetMessageId none now).1
      else a) := by
    intro a
    split
    next h => exact MessageExecution.markProviderAccepted_goes now h _ _ _
    · exact .refl a
  have hpending : ∀ a : MessageExecution, Goes 0 a (if a.state.status = .providerAccepted then
      (MessageExecution.markDeliveryPending a now).1 else a) := by
    intro a
    split
    · exact MessageExecution.markDeliveryPending_goes a now
    · exact .refl a
  exact ((hsending e).trans (haccepted _)).trans (hpending _)

/-- The copy that a duplicate saves comes from the one that was reloaded. -/
theorem resolveDuplicate_goes {existing : Option Idempotency.RecordView} {e e' : MessageExecution}
    {now : Date} (h : e' ∈ (resolveDuplicate existing e now).copy) : Goes 0 e e' := by
  have hreconciliation : ∀ result : Option Json,
      e' ∈ (requireReconciliation e result now).copy → Goes 0 e e' := by
    intro result hcopy
    unfold requireReconciliation at hcopy
    split at hcopy
    · cases hcopy
    · cases hcopy
      exact MessageExecution.markRequiresReconciliation_goes e _ now
  unfold resolveDuplicate at h
  split at h
  · exact hreconciliation none h
  · split at h
    · split at h
      · cases h
        exact advanceToDeliveryPending_goes e _ _ now
      · cases h
    · split at h
      · cases h
      · split at h
        · cases h
        · split at h
          · cases h
            exact MessageExecution.markDeliveryUnknown_goes e _ now
          · cases h
    · exact hreconciliation _ h

theorem resolveDuplicate_counts (existing : Option Idempotency.RecordView) (e : MessageExecution)
    (now : Date) : (resolveDuplicate existing e now).counts = 0 := by
  rcases resolveDuplicate_cases existing e now with ⟨result, h⟩ | ⟨e', h⟩ <;> rw [h] <;> rfl

theorem onAnswer_counts (l : Sending) (answer : ProviderSendResult) (now : Date) :
    (onAnswer l answer now).counts = 0 := by
  unfold onAnswer fails
  cases answer.status with
  | failed | rateLimited | ambiguous => rfl
  | _ => dsimp only; split <;> rfl

/-- The copy after an answer of the provider comes from the one that was sent. -/
theorem onAnswer_goes {l : Sending} (hs : l.execution.state.status = .sending)
    {answer : ProviderSendResult} {now : Date} {e' : MessageExecution}
    (h : e' ∈ (onAnswer l answer now).copy) : Goes 0 l.execution e' := by
  have haccepted := MessageExecution.markProviderAccepted_goes now hs answer.providerMessageId
    answer.internetMessageId answer.providerErrorCode
  unfold onAnswer at h
  split at h
  iterate 3
    split at h
    · cases h
    next e _ _ he =>
      rw [he] at haccepted
      cases h
      exact haccepted.trans (MessageExecution.markDeliveryPending_goes e now)
  · cases h
    exact MessageExecution.markFailed_goes l.execution _ now _ _
  · cases h
    exact MessageExecution.markFailed_goes l.execution _ now _ _
  · cases h
    exact MessageExecution.markDeliveryUnknown_goes l.execution _ now

section

variable {call : SendCall} {i : Nat} {input : Input} {w : World} {p : SendPc}

/-- A step that leaves nothing to save. -/
theorem Follows.of_none {r : World × SendPc} (h : r.2.copy = none) : Follows call w p r := by
  intro e' he
  rw [h] at he
  cases he

/-- A step that goes on with the copy. -/
theorem Follows.of_goes {r : World × SendPc} {e : MessageExecution} (hp : p.copy = some e)
    (hs : p.saving = none) (h : ∀ e' ∈ r.2.copy, Goes r.2.counts e e') : Follows call w p r :=
  fun e' he => .inl ⟨hs, e, .inl hp, h e' he⟩

theorem Follows.of_load {r : World × SendPc} {e : MessageExecution}
    (hload : w.loadExecution call.ctx call.executionId = some e)
    (hs : p.saving = none) (h : ∀ e' ∈ r.2.copy, Goes r.2.counts e e') : Follows call w p r :=
  fun e' he => .inl ⟨hs, e, .inr hload, h e' he⟩

theorem Follows.same {r : World × SendPc} (h : r.2.copy = p.copy) (hs : p.saving = none)
    (hc : r.2.counts = 0) : Follows call w p r := by
  intro e' he
  refine .inl ⟨hs, e', .inl (h ▸ he), ?_⟩
  rw [hc]
  exact .refl e'

/-- After a save that is followed by no other save of the copy. -/
theorem follows_afterSave {α : Type} {outcome : SaveOutcome (World × α)} {next : α → SendPc}
    (h : ∀ a, (next a).copy = none) : Follows call w p (afterSave w outcome next) :=
  afterSave_elim (fun _ a _ => .of_none (h a)) (.of_none rfl) fun _ => .of_none rfl

theorem follows_setRecord {e : MessageExecution} {result : Json} {status : Idempotency.Status}
    {next : SendPc} (h : next.copy = none) :
    Follows call w p (setRecord w call.ctx i e result status input.now next) := by
  rcases setRecord_cases w call.ctx i e result status input.now next with
    ⟨-, r, -, hr⟩ | ⟨-, hr⟩ <;> rw [hr]
  · exact .of_none h
  · exact .of_none rfl

theorem Follows.afterAudit {r : World × SendPc} (audit : Option String) (h : Follows call w p r) :
    Follows call w p (afterAudit audit r) := by
  cases audit with
  | none => exact h
  | some message => exact .of_none rfl

/-- **The copy after a step comes from the copy before it by operations.** -/
theorem sendNext_follows (cfg : Config)
    (hs : ∀ l, p = .selectProvider l ∨ p = .awaitAnswer l → l.execution.state.status = .sending) :
    Follows call w p (sendNext cfg call i input w p) := by
  cases p with
  | loadExecution =>
    simp only [sendNext]
    split
    · exact .of_none rfl
    next e he =>
      refine .of_load he rfl fun e' he' => ?_
      cases he'
      exact .refl e
  | loadSequence e =>
    simp only [sendNext]
    split
    · exact .of_none rfl
    · exact .same rfl rfl rfl
  | loadCampaign e sequence =>
    simp only [sendNext]
    split
    · exact .of_none rfl
    · split
      · exact .of_none rfl
      next l hl =>
        refine .of_goes rfl rfl fun e' he' => ?_
        cases he'
        exact checkReady_goes hl
  | recoverRecipient l =>
    simp only [sendNext]
    split
    · exact .same rfl rfl rfl
    · exact .of_none rfl
  | evaluate l =>
    simp only [sendNext]
    split
    · exact .of_none rfl
    next decision hd =>
      refine Follows.afterAudit input.audit ?_
      cases decision with
      | allow => exact .same rfl rfl rfl
      | deny code reason =>
        unfold onDecision
        dsimp only
        split
        · exact .of_none rfl
        · refine .of_goes rfl rfl fun e' he' => ?_
          cases he'
          exact MessageExecution.markFailed_goes l.execution _ _ _ _
      | retryable code reason retryAfterMs =>
        refine .of_goes rfl rfl fun e' he' => ?_
        cases he'
        exact MessageExecution.markFailed_goes l.execution _ _ _ _
  | selectProvider l =>
    simp only [sendNext]
    split
    · refine .of_goes rfl rfl fun e' he' => ?_
      cases he'
      exact MessageExecution.markFailed_goes l.execution _ _ _ _
    next providerId _ =>
      have hattempt := MessageExecution.markProviderAttempt_goes input.now.ms (hs l (.inl rfl))
        providerId
      split
      · exact .of_none rfl
      next e _ _ he =>
        rw [he] at hattempt
        refine .of_goes rfl rfl fun e' he' => ?_
        cases he'
        exact hattempt
  | saveAttempt l =>
    simp only [sendNext]
    refine afterSave_elim (fun w' e' ho => ?_) (.of_none rfl) fun _ => .of_none rfl
    intro e'' he''
    cases he''
    exact .inr ⟨rfl, l.execution, rfl, ho⟩
  | send l => exact .same rfl rfl rfl
  | awaitAnswer l =>
    simp only [sendNext]
    refine .of_goes rfl rfl fun e' he' => ?_
    -- the campaign has changed, the execution has not
    have hsending : ∀ campaign : Campaign,
        (Sending.mk l.execution l.sequence campaign l.step).execution.state.status = .sending :=
      fun _ => hs l (.inr rfl)
    have hgoes := onAnswer_goes (hsending _) he'
    rw [onAnswer_counts]
    exact hgoes
  | saveFailure l exit => exact follows_afterSave fun _ => rfl
  | saveAccepted l answer => exact follows_afterSave fun _ => rfl
  | saveAmbiguous l reason => exact follows_afterSave fun _ => rfl
  | saveCampaign l answer => exact follows_afterSave fun _ => rfl
  | saveCampaignComplete campaign nextDueAt => exact follows_afterSave fun _ => rfl
  | saveSequence sequence campaign nextDueAt hasMoreSteps =>
    refine follows_afterSave fun _ => ?_
    split <;> rfl
  | markFailed l exit => exact follows_setRecord rfl
  | markCompleted l answer => exact follows_setRecord rfl
  | loadCampaignForAdvance l =>
    simp only [sendNext]
    rcases advance_cases cfg l (w.loadCampaign call.ctx l.sequence.state.campaignId)
      input.now.ms with ⟨ended, hr⟩ | ⟨nextDueAt, hasMoreSteps, -, hr⟩ <;> rw [hr] <;>
      exact .of_none rfl
  | loadAuthoritative =>
    simp only [sendNext]
    split <;> exact .of_none rfl
  | getRecord idempotencyKey =>
    simp only [sendNext]
    split <;> exact .of_none rfl
  | reload record =>
    simp only [sendNext]
    split
    · exact .of_none rfl
    next e he =>
      refine .of_load he rfl fun e' he' => ?_
      rw [resolveDuplicate_counts]
      exact resolveDuplicate_goes he'
  | saveAuthoritative e =>
    simp only [sendNext]
    split <;> exact .of_none rfl
  | reloadNewer e => exact .of_none rfl
  | done ended => exact .of_none rfl

end

/-! ## Copies in hand -/

/-- A copy that a call may still save, with the row it is of and the attempts it has counted since
its load or its last save. -/
structure Held where
  key : RowKey
  copy : MessageExecution
  counts : Nat

def SystemPc.held : SystemPc → Option Held
  | send call p => p.copy.map fun e => ⟨rowKey call.ctx call.executionId, e, p.counts⟩
  | response call (.save e) => some ⟨rowKey call.ctx call.executionId, e, 0⟩
  | reconcile call (.save e) => some ⟨rowKey call.ctx call.executionId, e, 0⟩
  | _ => none

def WriterPc.held : WriterPc → Option Held
  | system p => p.held
  | expire call (.save e) => some ⟨rowKey call.ctx call.executionId, e, 0⟩
  | _ => none

end VegaRevenue.Outreach
