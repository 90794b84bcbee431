import VegaRevenue.Outreach.Send

/-!
# `prepareDraft`

One call as the sequence of its awaited operations, in the manner of `executeApprovedSend`: it looks
for an execution with the key of the current step, and drafts a new one where there is none.

* `prepareNext` — one step without a fault
* `knows_prepareNext` — what a call knows of the execution it drafts
* `prepareNext_cases` — a step stores nothing or one new execution
* `answersTruly_iff` — what the calls on a sequence answer is true of the stored rows iff no
  execution without a draft is saved
* `not_answersTruly_rejected` — the row of a failed personalization is reported as awaiting approval
-/

namespace VegaRevenue.Outreach

open Interleave
open MessageExecution (Props)

structure PrepareCall where
  ctx : Context
  sequenceId : String
deriving DecidableEq

inductive PrepareDraftResult where
  | awaitingApproval (executionId actionType : String)
  | failed (reason : String)
deriving DecidableEq

inductive PrepareEnded where
  | returned (result : PrepareDraftResult)
  | threw (message : String)
deriving DecidableEq

/-- The operation a call waits for. -/
inductive PreparePc where
  | loadSequence
  | loadCampaign (sequence : Sequence)
  | findExisting (sequence : Sequence) (campaign : Campaign) (step : SequenceStep) (key : String)
  | personalize (execution : MessageExecution) (step : SequenceStep)
  | saveRejected (execution : MessageExecution) (reason : String)
  | savePrepared (execution : MessageExecution) (step : SequenceStep)
  | done (ended : PrepareEnded)

def actionTypeForChannel : OutreachChannel → String
  | .email => "OUTREACH_EMAIL_SEND"
  | .linkedin => "OUTREACH_LINKEDIN_SEND"
  | .calendar => "OUTREACH_CALENDAR_CREATE"

def OutreachChannel.name : OutreachChannel → String
  | .email => "email"
  | .linkedin => "linkedin"
  | .calendar => "calendar"

/-- `makeSendIdempotencyKey`; it throws without a fingerprint. -/
def makeSendIdempotencyKey (ctx : Context) (campaign : Campaign) (sequence : Sequence)
    (step : SequenceStep) : Option String :=
  if blank sequence.state.recipientFingerprint then none
  else some ("outreach:v2:" ++ ctx.tenantId ++ ":" ++ campaign.state.id ++ ":" ++
    sequence.state.id ++ ":" ++ toString step.stepNumber ++ ":" ++
    sequence.state.recipientFingerprint.getD "" ++ ":" ++ OutreachChannel.name step.channel)

/-- The properties a new execution is created with. -/
def draftProps (ctx : Context) (id : String) (campaign : Campaign) (sequence : Sequence)
    (step : SequenceStep) (key : String) (now : Date) : Props where
  id := id
  tenantId := ctx.tenantId
  workspaceId := sequence.state.workspaceId
  campaignId := campaign.state.id
  sequenceId := sequence.state.id
  stepNumber := step.stepNumber
  leadId := sequence.state.leadId
  contactId := sequence.state.contactId
  recipientFingerprint := sequence.state.recipientFingerprint
  recipientCiphertext := sequence.state.recipientCiphertext
  recipientProtectionState := sequence.state.recipientProtectionState
  channel := step.channel
  idempotencyKey := key
  createdAt := now
  updatedAt := now

def PreparePc.failed (reason : String) : PreparePc := .done (.returned (.failed reason))

/-- A save of a new execution ends the call. -/
def afterInsert (w : World) (outcome : SaveOutcome (World × MessageExecution))
    (result : PrepareDraftResult) : World × PreparePc :=
  match outcome with
  | .saved (w', _) => (w', .done (.returned result))
  | .conflict => (w, .done (.threw "Execution exists"))
  | .threw message => (w, .done (.threw message))

/-- One step of a call without a fault. -/
def prepareNext (call : PrepareCall) (input : Input) (w : World) : PreparePc → World × PreparePc
  | .loadSequence =>
    match w.loadSequence call.ctx call.sequenceId with
    | none => (w, .failed "Sequence not found")
    | some sequence => (w, .loadCampaign sequence)
  | .loadCampaign sequence =>
    match w.loadCampaign call.ctx sequence.state.campaignId with
    | none => (w, .failed "Campaign not found")
    | some campaign =>
      match sequence.state.steps[sequence.state.currentStepIndex]? with
      | none => (w, .failed "No current step")
      | some step =>
        match makeSendIdempotencyKey call.ctx campaign sequence step with
        | none => (w, .done (.threw "Protected recipient fingerprint is required for idempotency"))
        | some key => (w, .findExisting sequence campaign step key)
  | .findExisting sequence campaign step key =>
    match w.findByIdempotencyKey call.ctx key with
    | some existing =>
      (w, .done (.returned
        (.awaitingApproval existing.state.id (actionTypeForChannel step.channel))))
    | none =>
      match MessageExecution.create (draftProps call.ctx input.executionId campaign sequence step key
          input.now.ms) with
      | .error message => (w, .done (.threw message))
      | .ok e => (w, .personalize (MessageExecution.startDrafting e input.now.ms).1 step)
  | .personalize e step =>
    match input.personalization with
    | .error message =>
      -- a DRAFTING execution cannot be rejected, and the refusal is not looked at
      (w, .saveRejected (MessageExecution.reject e ("Personalization failed: " ++ message)
        input.now.ms).1 message)
    | .ok (messageId, draft) =>
      match MessageExecution.setDraft e messageId draft input.now.ms with
      | (_, .fail message) => (w, .failed message)
      | (e, _) => (w, .savePrepared e step)
  | .saveRejected e reason => afterInsert w (w.saveExecution call.ctx e) (.failed reason)
  | .savePrepared e step =>
    afterInsert w (w.saveExecution call.ctx e)
      (.awaitingApproval e.state.id (actionTypeForChannel step.channel))
  | .done ended => (w, .done ended)

/-- One step of a call; it rethrows every fault. -/
def prepareStep (calls : Nat → PrepareCall) : Stepper World PreparePc Input
  | i, input, w, pc =>
    match pc, input.fault with
    | .done ended, _ => (w, .done ended)
    | _, some message => (w, .done (.threw message))
    | pc, none => prepareNext (calls i) input w pc

def startPrepares (w : World) : Interleave.Config World PreparePc := ⟨w, fun _ => .loadSequence⟩

/-! ## What a call knows

`S` is what a call knows of the copy of the sequence it has loaded, and `L` what it knows once it
has loaded the campaign, too. -/

/-- A new execution for the current step of a copy of the sequence. -/
def MadeFrom (ctx : Context) (L : Sequence → Campaign → Prop) (step : SequenceStep)
    (e : MessageExecution) : Prop :=
  ∃ sequence campaign, L sequence campaign ∧
    sequence.state.steps[sequence.state.currentStepIndex]? = some step ∧
    makeSendIdempotencyKey ctx campaign sequence step = some e.state.idempotencyKey ∧
    e.state.sequenceId = sequence.state.id ∧ e.state.stepNumber = step.stepNumber ∧
    e.loadedVersion = none

/-- What a call knows at the operation it waits for. -/
def PrepareKnows (ctx : Context) (S : Sequence → Prop) (L : Sequence → Campaign → Prop) :
    PreparePc → Prop
  | .loadCampaign sequence => S sequence
  | .findExisting sequence campaign step key =>
    L sequence campaign ∧
      sequence.state.steps[sequence.state.currentStepIndex]? = some step ∧
      makeSendIdempotencyKey ctx campaign sequence step = some key
  | .personalize e step => MadeFrom ctx L step e ∧ e.state.status = .drafting
  | .saveRejected e _ => (∃ step, MadeFrom ctx L step e) ∧ e.state.status = .drafting
  | .savePrepared e step => MadeFrom ctx L step e ∧ e.state.status = .pendingApproval
  | _ => True

/-- The execution a call saves next. -/
def PreparePc.saving : PreparePc → Option MessageExecution
  | .saveRejected e _ | .savePrepared e _ => some e
  | _ => none

/-- The execution a call has answered to await approval. -/
def PreparePc.answered : PreparePc → Option String
  | .done (.returned (.awaitingApproval id _)) => some id
  | _ => none

section

variable {call : PrepareCall} {input : Input} {w : World} {p : PreparePc} {e : MessageExecution}
  {S S' : Sequence → Prop} {L L' : Sequence → Campaign → Prop} {step : SequenceStep}

theorem MadeFrom.loadedVersion {ctx : Context} (h : MadeFrom ctx L step e) :
    e.loadedVersion = none := by
  obtain ⟨sequence, campaign, -, -, -, -, -, hl⟩ := h
  exact hl

theorem MadeFrom.mono {ctx : Context} (hL : ∀ s c, L s c → L' s c) (h : MadeFrom ctx L step e) :
    MadeFrom ctx L' step e := by
  obtain ⟨sequence, campaign, hl, hrest⟩ := h
  exact ⟨sequence, campaign, hL sequence campaign hl, hrest⟩

/-- A new execution under operations that keep its identity. -/
theorem MadeFrom.keeps {ctx : Context} {e' : MessageExecution} (h : MadeFrom ctx L step e)
    (hk : MessageExecution.Keeps e e') : MadeFrom ctx L step e' := by
  obtain ⟨sequence, campaign, hL, hstep, hkey, hseq, hnumber, hl⟩ := h
  have hi := hk.identity
  simp only [Props.identity, MessageExecution.Identity.mk.injEq] at hi
  obtain ⟨-, -, -, -, hseq', hnumber', hkey'⟩ := hi
  exact ⟨sequence, campaign, hL, hstep, by rw [hkey']; exact hkey, hseq'.trans hseq,
    hnumber'.trans hnumber, hk.loadedVersion.trans hl⟩

theorem PrepareKnows.mono {ctx : Context} (hS : ∀ s, S s → S' s) (hL : ∀ s c, L s c → L' s c)
    (h : PrepareKnows ctx S L p) : PrepareKnows ctx S' L' p := by
  cases p with
  | loadCampaign sequence => exact hS sequence h
  | findExisting sequence campaign step key => exact ⟨hL sequence campaign h.1, h.2⟩
  | saveRejected e reason =>
    obtain ⟨⟨step, hm⟩, hstatus⟩ := h
    exact ⟨⟨step, hm.mono hL⟩, hstatus⟩
  | personalize e step => exact ⟨h.1.mono hL, h.2⟩
  | savePrepared e step => exact ⟨h.1.mono hL, h.2⟩
  | _ => trivial

/-- The execution a new draft starts with. -/
theorem create_startDrafting {props : Props} (h : MessageExecution.create props = .ok e)
    (now : Date) :
    (MessageExecution.startDrafting e now).1.loadedVersion = none ∧
      (MessageExecution.startDrafting e now).1.state.identity = props.identity ∧
      (MessageExecution.startDrafting e now).1.state.status = .drafting := by
  unfold MessageExecution.create at h
  split at h
  · cases h
  · split at h
    · cases h
    · cases h
      exact ⟨rfl, rfl, rfl⟩

/-- A DRAFTING execution is not rejected. -/
theorem reject_drafting (h : e.state.status = .drafting) (reason : String) (now : Date) :
    (MessageExecution.reject e reason now).1 = e := by
  unfold MessageExecution.reject
  rw [if_pos (by rw [h]; decide)]

theorem setDraft_drafting (h : e.state.status = .drafting) (messageId : String)
    (draft : MessageDraft) (now : Date) :
    (MessageExecution.setDraft e messageId draft now).2 = .ok ∧
      (MessageExecution.setDraft e messageId draft now).1.state.status = .pendingApproval ∧
      MessageExecution.Keeps e (MessageExecution.setDraft e messageId draft now).1 := by
  unfold MessageExecution.setDraft
  rw [if_neg (by simp [h])]
  have hcan : MessageExecution.canTransition e.state.status .pendingApproval = true := by
    rw [h]
    rfl
  obtain ⟨hstatus, hok⟩ := MessageExecution.write_transition_status e
    (s := e.state.withDraft messageId draft) rfl hcan (some "Draft created and awaiting approval") now
  exact ⟨hok, hstatus, MessageExecution.write_transition_keeps e (by rfl) (by rfl) _ _ now⟩

theorem prepareStep_eq_prepareNext (i : Nat) (w : World) (p : PreparePc)
    (hf : input.fault = none) :
    prepareStep (fun _ => call) i input w p = prepareNext call input w p := by
  cases p <;> simp [prepareStep, prepareNext, hf]

/-- A fault ends a call and stores nothing. -/
theorem prepareStep_fault (i : Nat) (w : World) (p : PreparePc) {message : String}
    (hf : input.fault = some message) :
    prepareStep (fun _ => call) i input w p = (w, .done (.threw message)) ∨
      ∃ ended, p = .done ended ∧ prepareStep (fun _ => call) i input w p = (w, p) := by
  cases p with
  | done ended => exact .inr ⟨ended, rfl, by simp only [prepareStep]⟩
  | _ => exact .inl (by simp only [prepareStep, hf])

theorem afterInsert_cases (w : World) (outcome : SaveOutcome (World × MessageExecution))
    (result : PrepareDraftResult) :
    (∃ w' e', outcome = .saved (w', e') ∧
        afterInsert w outcome result = (w', .done (.returned result))) ∨
      outcome.isSaved = false ∧
        ∃ message, afterInsert w outcome result = (w, .done (.threw message)) := by
  cases outcome with
  | saved r => exact .inl ⟨r.1, r.2, rfl, rfl⟩
  | conflict => exact .inr ⟨rfl, _, rfl⟩
  | threw message => exact .inr ⟨rfl, _, rfl⟩

theorem knows_afterInsert {ctx : Context} (w : World)
    (outcome : SaveOutcome (World × MessageExecution)) (result : PrepareDraftResult) :
    PrepareKnows ctx S L (afterInsert w outcome result).2 := by
  rcases afterInsert_cases w outcome result with ⟨w', e', -, hr⟩ | ⟨-, message, hr⟩ <;>
    rw [hr] <;> trivial

/-- **What a call knows after a step.** -/
theorem knows_prepareNext (hS : ∀ s, w.loadSequence call.ctx call.sequenceId = some s → S s)
    (hL : ∀ s c, S s → w.loadCampaign call.ctx s.state.campaignId = some c → L s c)
    (h : PrepareKnows call.ctx S L p) : PrepareKnows call.ctx S L (prepareNext call input w p).2 := by
  cases p with
  | loadSequence =>
    simp only [prepareNext]
    split
    · trivial
    next sequence hs => exact hS sequence hs
  | loadCampaign sequence =>
    simp only [prepareNext]
    split
    · trivial
    next campaign hc =>
      split
      · trivial
      next step hstep =>
        split
        · trivial
        next key hkey => exact ⟨hL sequence campaign h hc, hstep, hkey⟩
  | findExisting sequence campaign step key =>
    obtain ⟨hl, hstep, hkey⟩ := h
    simp only [prepareNext]
    split
    · trivial
    · split
      · trivial
      next e he =>
        obtain ⟨hloaded, hi, hstatus⟩ := create_startDrafting he input.now.ms
        simp only [Props.identity, draftProps, MessageExecution.Identity.mk.injEq] at hi
        obtain ⟨-, -, -, -, hseq, hnumber, hkey'⟩ := hi
        exact ⟨⟨sequence, campaign, hl, hstep, by rw [hkey']; exact hkey, hseq, hnumber, hloaded⟩,
          hstatus⟩
  | personalize e step =>
    obtain ⟨hm, hstatus⟩ := h
    simp only [prepareNext]
    split
    · rw [reject_drafting hstatus]
      exact ⟨⟨step, hm⟩, hstatus⟩
    next messageId draft _ =>
      obtain ⟨-, hpending, hk⟩ := setDraft_drafting hstatus messageId draft input.now.ms
      split
      · trivial
      next e' _ _ he =>
        rw [he] at hpending hk
        exact ⟨hm.keeps hk, hpending⟩
  | saveRejected e reason => exact knows_afterInsert w _ _
  | savePrepared e step => exact knows_afterInsert w _ _
  | done ended => trivial

theorem knows_prepareStep (i : Nat)
    (hS : ∀ s, w.loadSequence call.ctx call.sequenceId = some s → S s)
    (hL : ∀ s c, S s → w.loadCampaign call.ctx s.state.campaignId = some c → L s c)
    (h : PrepareKnows call.ctx S L p) :
    PrepareKnows call.ctx S L (prepareStep (fun _ => call) i input w p).2 := by
  cases hf : input.fault with
  | none =>
    rw [prepareStep_eq_prepareNext i w p hf]
    exact knows_prepareNext hS hL h
  | some message =>
    rcases prepareStep_fault i w p hf with hr | ⟨ended, -, hr⟩ <;> rw [hr]
    · trivial
    · exact h

/-! ## What a step stores -/

/-- A step that stores nothing, and answers AWAITING_APPROVAL only for an execution it found. -/
def StoresNothing (call : PrepareCall) (input : Input) (w : World) (p : PreparePc)
    (r : World × PreparePc) : Prop :=
  r.1 = w ∧
    (∀ id, p.answered = none → r.2.answered = some id →
      ∃ sequence campaign step key existing, p = .findExisting sequence campaign step key ∧
        w.findByIdempotencyKey call.ctx key = some existing ∧ existing.state.id = id) ∧
    ∀ e, p.saving = some e →
      input.fault.isSome = true ∨ (w.saveExecution call.ctx e).isSaved = false

/-- A step that stores a new execution. -/
def Stores (call : PrepareCall) (input : Input) (w : World) (p : PreparePc)
    (r : World × PreparePc) : Prop :=
  ∃ e e', p.saving = some e ∧ input.fault = none ∧
    w.saveExecution call.ctx e = .saved (r.1, e') ∧
    ((∃ reason, p = .saveRejected e reason ∧ r.2 = .failed reason) ∨
      ∃ step, p = .savePrepared e step ∧
        r.2 = .done (.returned (.awaitingApproval e.state.id (actionTypeForChannel step.channel))))

/-- A step that waits for no save and does not answer AWAITING_APPROVAL. -/
theorem StoresNothing.of_quiet {p' : PreparePc} (hp : p.saving = none)
    (ha : p.answered = none → p'.answered = none) : StoresNothing call input w p (w, p') := by
  refine ⟨rfl, fun id hnone hid => ?_, fun e he => ?_⟩
  · rw [ha hnone] at hid
    cases hid
  · rw [hp] at he
    cases he

/-- A save that fails stores nothing and answers nothing. -/
theorem storesNothing_of_not_saved {message : String} (hp : p.saving = some e)
    (hs : input.fault.isSome = true ∨ (w.saveExecution call.ctx e).isSaved = false) :
    StoresNothing call input w p (w, .done (.threw message)) := by
  refine ⟨rfl, fun id _ hid => ?_, fun e' he => ?_⟩
  · cases hid
  · obtain rfl : e = e' := Option.some.inj (hp.symm.trans he)
    exact hs

/-- **A step stores nothing or one new execution.** -/
theorem prepareNext_cases (hf : input.fault = none) (p : PreparePc) :
    StoresNothing call input w p (prepareNext call input w p) ∨
      Stores call input w p (prepareNext call input w p) := by
  cases p with
  | loadSequence =>
    simp only [prepareNext]
    split <;> exact .inl (.of_quiet rfl fun _ => rfl)
  | loadCampaign sequence =>
    simp only [prepareNext]
    split
    · exact .inl (.of_quiet rfl fun _ => rfl)
    · split
      · exact .inl (.of_quiet rfl fun _ => rfl)
      · split <;> exact .inl (.of_quiet rfl fun _ => rfl)
  | findExisting sequence campaign step key =>
    simp only [prepareNext]
    split
    next existing hexisting =>
      refine .inl ⟨rfl, fun id _ hid => ?_, fun e he => by cases he⟩
      exact ⟨sequence, campaign, step, key, existing, rfl, hexisting, Option.some.inj hid⟩
    · split <;> exact .inl (.of_quiet rfl fun _ => rfl)
  | personalize e step =>
    simp only [prepareNext]
    split
    · exact .inl (.of_quiet rfl fun _ => rfl)
    · split <;> exact .inl (.of_quiet rfl fun _ => rfl)
  | saveRejected e reason =>
    simp only [prepareNext]
    rcases afterInsert_cases w (w.saveExecution call.ctx e) (.failed reason) with
      ⟨w', e', ho, hr⟩ | ⟨hs, message, hr⟩ <;> rw [hr]
    · exact .inr ⟨e, e', rfl, hf, ho, .inl ⟨reason, rfl, rfl⟩⟩
    · exact .inl (storesNothing_of_not_saved rfl (.inr hs))
  | savePrepared e step =>
    simp only [prepareNext]
    rcases afterInsert_cases w (w.saveExecution call.ctx e)
      (.awaitingApproval e.state.id (actionTypeForChannel step.channel)) with
      ⟨w', e', ho, hr⟩ | ⟨hs, message, hr⟩ <;> rw [hr]
    · exact .inr ⟨e, e', rfl, hf, ho, .inr ⟨step, rfl, rfl⟩⟩
    · exact .inl (storesNothing_of_not_saved rfl (.inr hs))
  | done ended => exact .inl (.of_quiet rfl id)

theorem prepareStep_cases (call : PrepareCall) (i : Nat) (input : Input) (w : World)
    (p : PreparePc) :
    StoresNothing call input w p (prepareStep (fun _ => call) i input w p) ∨
      Stores call input w p (prepareStep (fun _ => call) i input w p) := by
  cases hf : input.fault with
  | none =>
    rw [prepareStep_eq_prepareNext i w p hf]
    exact prepareNext_cases hf p
  | some message =>
    have hthrew : input.fault.isSome = true := by rw [hf]; rfl
    rcases prepareStep_fault i w p hf with hr | ⟨ended, hp, hr⟩ <;> rw [hr]
    · refine .inl ⟨rfl, fun id _ hid => ?_, fun e _ => .inl hthrew⟩
      cases hid
    · rw [hp]
      exact .inl (.of_quiet rfl id)

end

/-! ## What the answers should mean -/

/-- PENDING_APPROVAL or a status reached from it. -/
def ReachedFromApproval (s : MessageExecution.Status) : Prop :=
  Relation.ReflTransGen (fun a b => MessageExecution.canTransition a b = true) .pendingApproval s

/-- The stored execution has a draft with a body, belongs to the sequence and its current step, and
awaits approval or is past it. -/
def PreparedAt (w : World) (call : PrepareCall) (id : String) : Prop :=
  ∃ sequence step r, w.loadSequence call.ctx call.sequenceId = some sequence ∧
    sequence.state.steps[sequence.state.currentStepIndex]? = some step ∧
    w.executions.find (rowKey call.ctx id) = some r ∧
    r.payload.draft.any (fun draft => draft.body ≠ "") = true ∧
    r.payload.sequenceId = call.sequenceId ∧ r.payload.stepNumber = step.stepNumber ∧
    ReachedFromApproval r.payload.status

/-- An execution the step stored failed for good, or the next call drafts anew. -/
def Redraftable (w w' : World) (ctx : Context) (e : MessageExecution) : Prop :=
  w.executions.find (rowKey ctx e.state.id) = none →
    ∀ r, w'.executions.find (rowKey ctx e.state.id) = some r →
      isTerminalFailure r.payload.status = true ∨
        w'.findByIdempotencyKey ctx e.state.idempotencyKey = none

/-- What the move from one counter to the next answers is true of the stored rows. -/
structure TrueAnswer (call : PrepareCall) (w w' : World) (p p' : PreparePc) : Prop where
  answered : ∀ id, p.answered = none → p'.answered = some id → PreparedAt w' call id
  rejected : ∀ e reason, p = .saveRejected e reason → Redraftable w w' call.ctx e

/-- What the call answers by this step is true of the stored rows. -/
def AnswersTruly (call : PrepareCall) (c : Interleave.Config World PreparePc) (a : Tick Input) :
    Prop :=
  TrueAnswer call c.world (c.step (prepareStep fun _ => call) a).world (c.pc a.call)
    ((c.step (prepareStep fun _ => call) a).pc a.call)

/-- The execution has a draft with a body. -/
def hasDraft (e : MessageExecution) : Bool := e.state.draft.any fun draft => draft.body ≠ ""

/-- The step saves no execution without a draft that has a body: none whose personalization failed,
and none with an empty draft. -/
def savesDrafted (call : PrepareCall) (c : Interleave.Config World PreparePc) (a : Tick Input) :
    Bool :=
  match c.pc a.call with
  | .saveRejected e _ => a.input.fault.isSome || !(c.world.saveExecution call.ctx e).isSaved
  | .savePrepared e _ =>
    a.input.fault.isSome || !(c.world.saveExecution call.ctx e).isSaved || hasDraft e
  | _ => true

/-! ## The current step -/

/-- The sequence of the call and its campaign as they are stored. -/
def Loaded (w : World) (call : PrepareCall) (sequence : Sequence) (campaign : Campaign) : Prop :=
  w.loadSequence call.ctx call.sequenceId = some sequence ∧
    w.loadCampaign call.ctx sequence.state.campaignId = some campaign

/-- The execution of the current step, if any, is prepared: what is stored under its key belongs to
the step and has a draft. -/
def RowsPrepared (call : PrepareCall) (w : World) : Prop :=
  ∀ sequence campaign step key, Loaded w call sequence campaign →
    sequence.state.steps[sequence.state.currentStepIndex]? = some step →
    makeSendIdempotencyKey call.ctx campaign sequence step = some key →
    ∀ e, w.findByIdempotencyKey call.ctx key = some e → PreparedAt w call e.state.id

/-- What a call knows while no call moves the sequence or the campaign. -/
abbrev KnowsStored (call : PrepareCall) (w : World) : PreparePc → Prop :=
  PrepareKnows call.ctx (fun s => w.loadSequence call.ctx call.sequenceId = some s) (Loaded w call)

/-- A new execution for the current step. -/
abbrev DraftFor (call : PrepareCall) (w : World) : SequenceStep → MessageExecution → Prop :=
  MadeFrom call.ctx (Loaded w call)

section

variable {call : PrepareCall} {w w' : World} {step : SequenceStep} {e : MessageExecution}

/-! ## Inserting the execution of the current step -/

/-- A save of a new execution appends its row. -/
theorem saveExecution_insert {e' : MessageExecution} {ctx : Context} (hl : e.loadedVersion = none)
    (ho : w.saveExecution ctx e = .saved (w', e')) :
    w.executions.find (rowKey ctx e.state.id) = none ∧
      w' = { w with
        executions := w.executions ++ [(rowKey ctx e.state.id, ⟨e.state, e.version⟩)] } := by
  obtain ⟨-, -, -, T, hT, rfl⟩ := World.saveExecution_eq_saved ho
  rcases Versioned.Table.save_eq_some_iff.mp hT with ⟨-, hnone, rfl⟩ | ⟨v, r, hv, -⟩
  · exact ⟨hnone, rfl⟩
  · rw [hl] at hv
    cases hv

/-- What is found by a key after a row was appended. -/
theorem findByIdempotencyKey_append (w : World) (ctx : Context) (id key : String)
    (r : Versioned.Row Props) :
    World.findByIdempotencyKey
        { w with executions := w.executions ++ [(rowKey ctx id, r)] } ctx key =
      (w.findByIdempotencyKey ctx key).or
        (if r.payload.idempotencyKey = key then
          some (.reconstitute { r.payload with
            id, tenantId := ctx.tenantId, workspaceId := ctx.workspaceId } r.version)
        else none) := by
  unfold World.findByIdempotencyKey
  dsimp only
  rw [List.find?_append]
  cases List.find? _ w.executions with
  | some p => rfl
  | none => by_cases hk : r.payload.idempotencyKey = key <;> simp [rowKey, hk]

/-- A prepared row stays when another row is appended. -/
theorem PreparedAt.append {id : String} (h : PreparedAt w call id) (t : RowKey)
    (r : Versioned.Row Props) :
    PreparedAt { w with executions := w.executions ++ [(t, r)] } call id := by
  obtain ⟨sequence, step, r₀, hs, hstep, hr, hrest⟩ := h
  refine ⟨sequence, step, r₀, hs, hstep, ?_, hrest⟩
  rw [Versioned.Table.find_append_single, hr]
  rfl

/-- The row of a new execution is prepared iff it has a draft. -/
theorem preparedAt_insert (hd : DraftFor call w step e)
    (hstatus : e.state.status = .pendingApproval)
    (hnone : w.executions.find (rowKey call.ctx e.state.id) = none) :
    PreparedAt { w with executions :=
        w.executions ++ [(rowKey call.ctx e.state.id, ⟨e.state, e.version⟩)] } call e.state.id ↔
      hasDraft e = true := by
  have hfind : Versioned.Table.find
      (w.executions ++ [(rowKey call.ctx e.state.id, ⟨e.state, e.version⟩)])
      (rowKey call.ctx e.state.id) = some ⟨e.state, e.version⟩ := by
    rw [Versioned.Table.find_append_single, hnone]
    simp
  constructor
  · rintro ⟨sequence, step, r, -, -, hr, hbody, -⟩
    obtain rfl : _ = r := Option.some.inj (hfind.symm.trans hr)
    exact hbody
  · intro hbody
    obtain ⟨sequence, campaign, ⟨hs, -⟩, hstep, -, hseq, hnumber, -⟩ := hd
    -- the id column of the loaded sequence is the id it was loaded by
    have hid : sequence.state.id = call.sequenceId := by
      obtain ⟨r, -, rfl⟩ := Option.map_eq_some_iff.mp hs
      rfl
    exact ⟨sequence, step, _, hs, hstep, hfind, hbody, hseq.trans hid, hnumber, hstatus ▸ .refl⟩

/-- Inserting an execution with a draft keeps the rows prepared. -/
theorem RowsPrepared.insert (h : RowsPrepared call w) (hd : DraftFor call w step e)
    (hstatus : e.state.status = .pendingApproval) (hbody : hasDraft e = true)
    (hnone : w.executions.find (rowKey call.ctx e.state.id) = none) :
    RowsPrepared call { w with executions :=
      w.executions ++ [(rowKey call.ctx e.state.id, ⟨e.state, e.version⟩)] } := by
  intro sequence campaign step' key hloaded hstep hkey e' hfound
  rw [findByIdempotencyKey_append] at hfound
  cases hold : w.findByIdempotencyKey call.ctx key with
  | some e₀ =>
    rw [hold] at hfound
    obtain rfl : e₀ = e' := Option.some.inj hfound
    exact (h sequence campaign step' key hloaded hstep hkey e₀ hold).append _ _
  | none =>
    rw [hold, Option.none_or] at hfound
    split at hfound
    · obtain rfl := Option.some.inj hfound
      exact (preparedAt_insert hd hstatus hnone).mpr hbody
    · cases hfound

/-- The next call finds the row of an execution whose personalization failed. -/
theorem not_redraftable_insert (ctx : Context) (hstatus : e.state.status = .drafting)
    (hnone : w.executions.find (rowKey ctx e.state.id) = none) :
    ¬ Redraftable w { w with executions :=
      w.executions ++ [(rowKey ctx e.state.id, ⟨e.state, e.version⟩)] } ctx e := by
  intro h
  have hrow : Versioned.Table.find
      (w.executions ++ [(rowKey ctx e.state.id, ⟨e.state, e.version⟩)])
      (rowKey ctx e.state.id) = some ⟨e.state, e.version⟩ := by
    rw [Versioned.Table.find_append_single, hnone]
    simp
  rcases h hnone _ hrow with hterminal | hmissing
  · rw [hstatus] at hterminal
    cases hterminal
  · rw [findByIdempotencyKey_append, if_pos rfl, Option.or_eq_none_iff] at hmissing
    cases hmissing.2

end

/-! ## Every run -/

/-- The execution of the current step is prepared, and every call knows what it does. -/
structure PrepareInv (call : PrepareCall) (c : Interleave.Config World PreparePc) : Prop where
  rows : RowsPrepared call c.world
  knows : Each (fun _ w p => KnowsStored call w p) c

section

variable {call : PrepareCall} {c : Interleave.Config World PreparePc} {a : Tick Input}

/-- Where the rows are prepared, a step answers truly iff it saves no execution without a draft. -/
theorem answersTruly_step (h : PrepareInv call c) :
    AnswersTruly call c a ↔ savesDrafted call c a = true := by
  have hk : KnowsStored call c.world (c.pc a.call) := h.knows a.call
  unfold AnswersTruly savesDrafted
  rw [Config.step_world, Config.step_pc_self]
  rcases prepareStep_cases call a.call a.input c.world (c.pc a.call) with
    ⟨hw, hfound, hsaved⟩ | ⟨e, e', -, hf, ho, hp⟩
  · refine iff_of_true ⟨fun id hnone hid => ?_, fun e reason _ hnone r hr => ?_⟩ ?_
    · obtain ⟨sequence, campaign, step, key, existing, hpc, hexisting, rfl⟩ := hfound id hnone hid
      rw [hpc] at hk
      obtain ⟨hl, hstep, hkey⟩ := hk
      rw [hw]
      exact h.rows sequence campaign step key hl hstep hkey existing hexisting
    · rw [hw, hnone] at hr
      cases hr
    · cases hpc : c.pc a.call with
      | saveRejected e reason => simpa [hpc] using hsaved e (by rw [hpc]; rfl)
      | savePrepared e step =>
        simp only [Bool.or_eq_true, Bool.not_eq_true']
        exact .inl (hsaved e (by rw [hpc]; rfl))
      | _ => rfl
  · rcases hp with ⟨reason, hp, hr⟩ | ⟨step, hp, hr⟩
    · rw [hp] at hk
      obtain ⟨⟨step, hd⟩, hstatus⟩ := hk
      obtain ⟨hnone, hw⟩ := saveExecution_insert hd.loadedVersion ho
      rw [hr, hw]
      simp only [hp, hf, ho, SaveOutcome.isSaved]
      refine iff_of_false (fun ht => ?_) (by decide)
      exact not_redraftable_insert call.ctx hstatus hnone (ht.rejected e reason rfl)
    · rw [hp] at hk
      obtain ⟨hd, hstatus⟩ := hk
      obtain ⟨hnone, hw⟩ := saveExecution_insert hd.loadedVersion ho
      rw [hr, hw]
      simp only [hp, hf, ho, SaveOutcome.isSaved, Option.isSome_none, Bool.not_true, Bool.false_or]
      rw [← preparedAt_insert hd hstatus hnone]
      constructor
      · intro ht
        exact ht.answered e.state.id rfl rfl
      · intro hprepared
        refine ⟨fun id _ hid => ?_, fun e₀ reason h => by cases h⟩
        obtain rfl : e.state.id = id := Option.some.inj hid
        exact hprepared

theorem prepareInv_step (h : PrepareInv call c) (hd : savesDrafted call c a = true) :
    PrepareInv call (c.step (prepareStep fun _ => call) a) := by
  have hk : KnowsStored call c.world (c.pc a.call) := h.knows a.call
  have hnext : KnowsStored call c.world
      (prepareStep (fun _ => call) a.call a.input c.world (c.pc a.call)).2 :=
    knows_prepareStep a.call (fun _ hs => hs) (fun _ _ hs hc => ⟨hs, hc⟩) hk
  rcases prepareStep_cases call a.call a.input c.world (c.pc a.call) with
    ⟨hw, -, -⟩ | ⟨e, e', -, hf, ho, hp⟩
  · refine ⟨?_, h.knows.step ?_ fun i p _ hi => ?_⟩
    · rw [Config.step_world, hw]
      exact h.rows
    · rw [Config.step_world, hw]
      exact hnext
    · rw [Config.step_world, hw]
      exact hi
  · rcases hp with ⟨reason, hp, -⟩ | ⟨step, hp, hr⟩
    · -- the step would have saved an execution whose personalization failed
      simp [savesDrafted, hp, hf, ho, SaveOutcome.isSaved] at hd
    · rw [hp] at hk
      obtain ⟨hdraft, hstatus⟩ := hk
      obtain ⟨hnone, hw⟩ := saveExecution_insert hdraft.loadedVersion ho
      have hbody : hasDraft e = true := by
        simpa [savesDrafted, hp, hf, ho, SaveOutcome.isSaved] using hd
      refine ⟨?_, h.knows.step ?_ fun i p _ hi => ?_⟩
      · rw [Config.step_world, hw]
        exact h.rows.insert hdraft hstatus hbody hnone
      · rw [hr]
        trivial
      · rw [Config.step_world, hw]
        exact hi

end

/-- **What the calls on the current step answer is true of the stored rows iff none of them saves
an execution without a draft.** -/
theorem answersTruly_iff (call : PrepareCall) (w : World) (s : List (Tick Input))
    (hrows : RowsPrepared call w) :
    Meets (prepareStep fun _ => call) (AnswersTruly call) (startPrepares w) s ↔
      Meets (prepareStep fun _ => call) (fun c a => savesDrafted call c a = true)
        (startPrepares w) s :=
  meets_iff_of_invariant (fun _ _ => answersTruly_step) (fun _ _ => prepareInv_step)
    ⟨hrows, fun _ => trivial⟩

def samplePrepareCall : PrepareCall := ⟨sampleContext, "sequence"⟩

/-- A sequence of one step that was not drafted yet. -/
def undraftedWorld : World :=
  .ofRows [] [sampleSequence "sequence" 1 .running] [sampleCampaign 1 {}]

def personalizes (i : Nat) : Tick Input :=
  ⟨i, { now := .epoch, executionId := "execution",
        personalization := .ok ("message", { body := "Hello", tone := "plain" }) }⟩

def failsToPersonalize (i : Nat) : Tick Input :=
  ⟨i, { now := .epoch, executionId := "execution",
        personalization := .error "no model" }⟩

/-- Call 0 saves a draft, and call 1 reports it. -/
def preparedSchedule : List (Tick Input) :=
  List.replicate 5 (personalizes 0) ++ List.replicate 3 (personalizes 1)

theorem answersTruly_prepared :
    Meets (prepareStep fun _ => samplePrepareCall) (AnswersTruly samplePrepareCall)
      (startPrepares undraftedWorld) preparedSchedule :=
  (answersTruly_iff samplePrepareCall undraftedWorld preparedSchedule
    fun _ _ _ _ _ _ _ _ h => by cases h).mpr (by decide +kernel)

/-- Call 0 saves a row without a draft, and call 1 is about to look for it. -/
def rejectedSchedule : List (Tick Input) :=
  List.replicate 5 (failsToPersonalize 0) ++ List.replicate 2 (personalizes 1)

/-- The row the answer of call 1 names has a draft. -/
def reportedHasDraft (c : Interleave.Config World PreparePc) : Bool :=
  match (c.pc 1).answered with
  | none => true
  | some id =>
    (c.world.executions.find (rowKey sampleContext id)).any fun r =>
      r.payload.draft.any fun draft => draft.body ≠ ""

theorem not_answersTruly_rejected :
    ¬ ∀ (call : PrepareCall) (w : World) (s : List (Tick Input)), RowsPrepared call w →
      Meets (prepareStep fun _ => call) (AnswersTruly call) (startPrepares w) s := by
  intro h
  have hrun := h samplePrepareCall undraftedWorld (rejectedSchedule ++ [personalizes 1])
    fun _ _ _ _ _ _ _ _ h => by cases h
  have hlast : AnswersTruly samplePrepareCall _ (personalizes 1) := (meets_append.mp hrun).2.1
  have hreported : reportedHasDraft (run (prepareStep fun _ => samplePrepareCall)
      (startPrepares undraftedWorld) (rejectedSchedule ++ [personalizes 1])) = true := by
    unfold reportedHasDraft
    rw [run_concat]
    split
    · rfl
    next id hid =>
      have hnone : ((run (prepareStep fun _ => samplePrepareCall) (startPrepares undraftedWorld)
          rejectedSchedule).pc 1).answered = none := by decide +kernel
      obtain ⟨sequence, step, r, -, -, hr, hbody, -⟩ := hlast.answered id hnone hid
      rw [show rowKey sampleContext id = rowKey samplePrepareCall.ctx id from rfl, hr]
      exact hbody
  revert hreported
  decide +kernel

end VegaRevenue.Outreach
