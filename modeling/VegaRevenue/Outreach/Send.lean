import VegaRevenue.Lib.Interleave
import VegaRevenue.Outreach.SafetyGate

/-!
# `executeApprovedSend`

One call as the sequence of its awaited operations. `SendPc` names the operation a call waits for,
with the local variables it has by then; `sendStep` runs the operation and the code after it up to
the next one. A fault makes the awaited operation throw.
-/

namespace VegaRevenue.Outreach

open Idempotency (Clock Triple)

structure SendCall where
  ctx : Context
  executionId : String
  approvalId : String
deriving DecidableEq

/-- The dependencies of the service that only compute. -/
structure Config where
  rateLimitConfig : Option RateLimitConfig := none
  channelCostEstimate : OutreachChannel → Rat := fun _ => 0
  computeNextDueAt : Date → Nat → Date := fun now delayMs => now + delayMs

/-- What the environment gives one step: the time, a fault, and the answer of the port the call
waits for. -/
structure Input where
  now : Clock
  fault : Option String := none
  /-- The recipient was recovered and its fingerprint verified. -/
  recovered : Bool := true
  gate : GateAnswers := {}
  /-- The error of the audit log that records the decision of the gate. -/
  audit : Option String := none
  /-- The provider selected for the channel. -/
  provider : Option String := some "provider"
  answer : ProviderSendResult := { status := .accepted }
  /-- The random id of a new execution. -/
  executionId : String := ""
  /-- The message id and the draft the personalization answers with, or its error. -/
  personalization : Except String (String × MessageDraft) := .error ""

/-- `ExecuteSendResult`; the execution it names is the one of the call. -/
inductive SendResult where
  | completed (nextDueAt : Option Date)
  | retryable (retryAfterMs : Option Nat)
  | failed (reason : String)
deriving DecidableEq

inductive Ended where
  | returned (result : SendResult)
  | threw (message : String)
deriving DecidableEq

/-! ## Statuses -/

def isPositiveTerminal (s : MessageExecution.Status) : Bool :=
  s ∈ [.providerAccepted, .deliveryPending, .delivered, .opened, .replied]

def isTerminalFailure (s : MessageExecution.Status) : Bool :=
  s ∈ [.failedPreSubmission, .deliveryFailed, .deliveryUnknown, .requiresReconciliation, .failed,
    .cancelled, .bounced]

def shouldRecoverToDeliveryPending (s : MessageExecution.Status) : Bool :=
  !isPositiveTerminal s && !isTerminalFailure s && s ≠ .deliveryUnknown &&
    s ≠ .requiresReconciliation

/-! ## The local variables of a call -/

structure Sending where
  execution : MessageExecution
  sequence : Sequence
  campaign : Campaign
  step : SequenceStep

/-- The exits that save a failed execution and then release the idempotency key. -/
inductive FailureExit where
  | denied (reason : String)
  | retryable (retryAfterMs : Nat)
  | noProvider
  | providerFailed (classification : RetryClassification) (reason : String)
      (retryAfterMs : Option Nat)
  | rateLimited (retryAfterMs : Nat)
deriving DecidableEq

def FailureExit.result : FailureExit → SendResult
  | denied reason => .failed reason
  | retryable retryAfterMs => .retryable (some retryAfterMs)
  | noProvider => .failed "No provider available"
  | providerFailed classification reason retryAfterMs =>
    if classification ≠ .nonRetryable then .retryable retryAfterMs else .failed reason
  | rateLimited retryAfterMs => .retryable (some retryAfterMs)

/-- The operation a call waits for. -/
inductive SendPc where
  | loadExecution
  | loadSequence (execution : MessageExecution)
  | loadCampaign (execution : MessageExecution) (sequence : Sequence)
  | recoverRecipient (l : Sending)
  | evaluate (l : Sending)
  | selectProvider (l : Sending)
  | saveFailure (l : Sending) (exit : FailureExit)
  | markFailed (l : Sending) (exit : FailureExit)
  | saveAttempt (l : Sending)
  | send (l : Sending)
  | awaitAnswer (l : Sending)
  | saveAccepted (l : Sending) (answer : ProviderSendResult)
  | saveCampaign (l : Sending) (answer : ProviderSendResult)
  | markCompleted (l : Sending) (answer : ProviderSendResult)
  | loadCampaignForAdvance (l : Sending)
  | saveSequence (sequence : Sequence) (campaign : Option Campaign) (nextDueAt : Option Date)
      (hasMoreSteps : Bool)
  | saveCampaignComplete (campaign : Campaign) (nextDueAt : Option Date)
  | saveAmbiguous (l : Sending) (reason : String)
  | loadAuthoritative
  | getRecord (idempotencyKey : String)
  | reload (record : Option Idempotency.RecordView)
  | saveAuthoritative (execution : MessageExecution)
  | reloadNewer (execution : MessageExecution)
  | done (ended : Ended)

def fails (reason : String) : SendPc := .done (.returned (.failed reason))

/-! ## Before the gate -/

/-- Approves and moves to SENDING where the status calls for it; the error
of a refused transition otherwise. -/
def startSending (approvalId : String) (e : MessageExecution) (now : Date) :
    Except String MessageExecution :=
  let (e, approved) := if e.state.status = .pendingApproval then
    MessageExecution.approve e approvalId now else (e, .ok)
  match approved with
  | .fail message => .error message
  | _ =>
    let (e, sending) := if e.state.status = .approved then
      MessageExecution.markSending e now else (e, .ok)
    match sending with
    | .fail message => .error message
    | _ =>
      if e.state.status ≠ .sending then
        .error ("Execution not ready to send: " ++ e.state.status.name)
      else .ok e

/-- The checks between the loads and the gate: the answer the call ends with, or what it sends. -/
def checkReady (approvalId : String) (e : MessageExecution) (sequence : Sequence)
    (campaign : Campaign) (now : Date) : SendResult ⊕ Sending :=
  if isPositiveTerminal e.state.status then .inl (.completed none)
  else if isTerminalFailure e.state.status then
    .inl (.failed (e.state.lastError.getD ("Execution is " ++ e.state.status.name)))
  else
    match startSending approvalId e now with
    | .error message => .inl (.failed message)
    | .ok e =>
      match sequence.state.steps.find? (fun s => s.stepNumber = e.state.stepNumber) with
      | none => .inl (.failed "Step not found")
      | some step => .inr ⟨e, sequence, campaign, step⟩

/-- `/^[A-Za-z0-9_-]{1,64}$/`. -/
def keyVersion (text : List Char) : Bool :=
  1 ≤ text.length && text.length ≤ 64 &&
    text.all fun c => c.isAlpha || c.isDigit || c = '_' || c = '-'

/-- What `recoverAndVerifyRecipient` checks before it asks for the address. -/
def recoverable (s : MessageExecution.Props) : Bool :=
  s.recipientProtectionState = .protectedRecipient && !blank s.recipientCiphertext &&
    s.recipientFingerprint.any fun fingerprint =>
      match fingerprint.toList.splitOn '.' with
      | [scheme, version, _] => scheme = ['h', '1'] && keyVersion version
      | _ => false

/-! ## After the provider -/

/-- Records the answer of the provider on the local copies. -/
def onAnswer (l : Sending) (answer : ProviderSendResult) (now : Date) : SendPc :=
  match answer.status with
  | .providerAccepted | .accepted | .delivered =>
    match MessageExecution.markProviderAccepted l.execution answer.providerMessageId
        answer.internetMessageId answer.providerErrorCode now with
    | (_, .fail message) => fails message
    | (e, _) =>
      .saveAccepted { l with execution := (MessageExecution.markDeliveryPending e now).1 } answer
  | .failed =>
    let classification := answer.retryClassification.getD .nonRetryable
    .saveFailure
      { l with execution := (MessageExecution.markFailed l.execution classification
          (answer.providerErrorMessage.getD "Provider reported failure") answer.providerErrorCode
          now).1 }
      (.providerFailed classification (answer.providerErrorMessage.getD "Provider failure")
        answer.retryAfterMs)
  | .rateLimited =>
    .saveFailure
      { l with execution := (MessageExecution.markFailed l.execution .rateLimited "Rate limited"
          answer.providerErrorCode now).1 }
      (.rateLimited (answer.retryAfterMs.getD 60000))
  | .ambiguous =>
    .saveAmbiguous
      { l with execution := (MessageExecution.markDeliveryUnknown l.execution
          (answer.providerErrorMessage.getD "Provider submission outcome is ambiguous") now).1 }
      (answer.providerErrorMessage.getD
        "Provider submission outcome is ambiguous; reconciliation required")

/-- `advanceSequence` up to the save of the sequence. -/
def advance (cfg : Config) (l : Sending) (campaign : Option Campaign) (now : Date) : SendPc :=
  let next := l.sequence.state.steps[l.sequence.state.currentStepIndex + 1]?
  let nextDueAt := next.map fun step => cfg.computeNextDueAt now step.delayMs
  match Sequence.completeStep l.sequence l.execution.state.id nextDueAt now with
  | (_, .fail message) => fails message
  | (_, .threw message) => .done (.threw message)
  | (sequence, .ok) => .saveSequence sequence campaign nextDueAt next.isSome

/-! ## Duplicate sends -/

/-- A member of a stored result that is a string. -/
def textMember (name : String) (result : Option Json) : Option String :=
  match result.bind (Json.member? name) with
  | some (.str text) => some text
  | _ => none

def advanceToDeliveryPending (e : MessageExecution)
    (providerMessageId internetMessageId : Option String) (now : Date) : MessageExecution :=
  let e := if e.state.status = .approved then (MessageExecution.markSending e now).1 else e
  let e := if e.state.status = .sending then
    (MessageExecution.markProviderAccepted e providerMessageId internetMessageId none now).1 else e
  if e.state.status = .providerAccepted then (MessageExecution.markDeliveryPending e now).1 else e

def unknownOutcome : String :=
  "Delivery outcome unknown after prior attempt; reconciliation required"

def resultFromExecution (e : MessageExecution) : SendResult :=
  if isPositiveTerminal e.state.status then .completed none
  else if e.state.status = .sending ∨ e.state.status = .approved then
    .failed (e.state.lastError.getD unknownOutcome)
  else if e.state.status = .requiresReconciliation then
    .failed "Reconciliation required before retry"
  else .failed (e.state.lastError.getD ("Execution is " ++ e.state.status.name))

/-- A duplicate that the record does not settle: the execution is sent to reconciliation unless its
status already says how it ended. -/
def requireReconciliation (e : MessageExecution) (result : Option Json) (now : Date) : SendPc :=
  if isTerminalFailure e.state.status || isPositiveTerminal e.state.status then
    .done (.returned (resultFromExecution e))
  else
    .saveAuthoritative (MessageExecution.markRequiresReconciliation e
      ((textMember "reason" result).getD
        "Idempotency record exists but does not prove the submission was not sent") now).1

/-- `handleDuplicateSendIdempotency` once the record and the execution are read. A FAILED record
with `submitted === false` and every other one that is neither COMPLETED nor PENDING are treated
alike. -/
def resolveDuplicate (existing : Option Idempotency.RecordView) (reloaded : MessageExecution)
    (now : Date) : SendPc :=
  match existing with
  | none => requireReconciliation reloaded none now
  | some record =>
    match record.status with
    | .completed =>
      if shouldRecoverToDeliveryPending reloaded.state.status then
        .saveAuthoritative (advanceToDeliveryPending reloaded
          (textMember "providerMessageId" record.result)
          (textMember "internetMessageId" record.result) now)
      else .done (.returned (resultFromExecution reloaded))
    | .pending =>
      if isPositiveTerminal reloaded.state.status then
        .done (.returned (resultFromExecution reloaded))
      else if !record.expiresAt.any (· ≤ now) then fails unknownOutcome
      else if (reloaded.state.status = .sending ∨ reloaded.state.status = .approved) ∧
          (reloaded.state.attempts > 0 ∨ reloaded.state.providerId ≠ none) then
        .saveAuthoritative (MessageExecution.markDeliveryUnknown reloaded
          ("Prior submission attempt reached the provider before the idempotency claim expired; " ++
            "outcome unknown") now).1
      else .done (.returned (resultFromExecution reloaded))
    | .failed => requireReconciliation reloaded record.result now

/-! ## The steps -/

/-- `{ submitted: false, reason: undefined }`. -/
def failedResult : Json := .obj [("submitted", .bool false)]

/-- `{ submitted: true, providerMessageId, internetMessageId }`; `undefined` members are dropped. -/
def completedResult (answer : ProviderSendResult) : Json :=
  .obj ([("submitted", .bool true)] ++
    (answer.providerMessageId.map fun id => ("providerMessageId", .str id)).toList ++
    (answer.internetMessageId.map fun id => ("internetMessageId", .str id)).toList)

/-- The thrown text of a statement Postgres rejects. -/
def rejectedStatement : String := "invalid input"

/-- A save that goes on with the saved copy, reads the authoritative state on a conflict, and
rethrows everything else. -/
def afterSave {α : Type} (w : World) (outcome : SaveOutcome (World × α)) (next : α → SendPc) :
    World × SendPc :=
  match outcome with
  | .saved (w', a) => (w', next a)
  | .conflict => (w, .loadAuthoritative)
  | .threw message => (w, .done (.threw message))

/-- Writes the idempotency record of the execution. -/
def setRecord (w : World) (ctx : Context) (i : Nat) (e : MessageExecution) (result : Json)
    (status : Idempotency.Status) (now : Clock) (next : SendPc) : World × SendPc :=
  let key := sendKey ctx e.state.idempotencyKey
  match Idempotency.Postgres.set {} w.idempotency key result { status := some status } now with
  | (store, .stored) =>
    ({ w with idempotency := store }.observe (.wrote i key status), next)
  | _ => (w, .done (.threw rejectedStatement))

/-- The decision of the gate: a duplicate is resolved from the stored state, a denial and a rate
limit are saved on the execution. -/
def onDecision (call : SendCall) (i : Nat) (w : World) (l : Sending) (now : Date) :
    SafetyDecision → World × SendPc
  | .allow =>
    (w.observe (.claimed i (sendKey call.ctx l.execution.state.idempotencyKey)), .selectProvider l)
  | .deny code reason =>
    if code = .duplicateSend then (w, .getRecord l.execution.state.idempotencyKey)
    else
      (w, .saveFailure
        { l with execution := (MessageExecution.markFailed l.execution .nonRetryable
            ("Safety gate denied: " ++ reason) (some code.name) now).1 } (.denied reason))
  | .retryable _ reason retryAfterMs =>
    (w, .saveFailure
      { l with execution := (MessageExecution.markFailed l.execution .rateLimited reason none
          now).1 } (.retryable retryAfterMs))

/-- The gate records its decision before it answers. -/
def afterAudit (audit : Option String) (r : World × SendPc) : World × SendPc :=
  match audit with
  | none => r
  | some message => (r.1, .done (.threw message))

/-- One step of a call without a fault. -/
def sendNext (cfg : Config) (call : SendCall) (i : Nat) (input : Input) (w : World) :
    SendPc → World × SendPc
  | .loadExecution =>
    match w.loadExecution call.ctx call.executionId with
    | none => (w, fails "Execution not found")
    | some e => (w, .loadSequence e)
  | .loadSequence e =>
    match w.loadSequence call.ctx e.state.sequenceId with
    | none => (w, fails "Sequence not found")
    | some sequence => (w, .loadCampaign e sequence)
  | .loadCampaign e sequence =>
    match w.loadCampaign call.ctx e.state.campaignId with
    | none => (w, fails "Campaign not found")
    | some campaign =>
      match checkReady call.approvalId e sequence campaign input.now.ms with
      | .inl result => (w, .done (.returned result))
      | .inr l => (w, .recoverRecipient l)
  | .recoverRecipient l =>
    if recoverable l.execution.state && input.recovered then (w, .evaluate l)
    else (w, fails "Protected recipient recovery failed")
  | .evaluate l =>
    let out := evaluate cfg.rateLimitConfig w.idempotency
      ⟨call.ctx, l.campaign, l.execution, cfg.channelCostEstimate l.step.channel⟩ input.gate
      input.now
    match out.2.2 with
    | none => (w, .done (.threw rejectedStatement))
    | some decision =>
      afterAudit input.audit (onDecision call i { w with idempotency := out.1 }
        { l with campaign := out.2.1 } input.now.ms decision)
  | .selectProvider l =>
    match input.provider with
    | none =>
      (w, .saveFailure
        { l with execution := (MessageExecution.markFailed l.execution .nonRetryable
            "No provider available for channel" (some "NO_PROVIDER") input.now.ms).1 } .noProvider)
    | some providerId =>
      match MessageExecution.markProviderAttempt l.execution providerId input.now.ms with
      | (_, .threw message) => (w, .done (.threw message))
      | (e, _) => (w, .saveAttempt { l with execution := e })
  | .saveFailure l exit =>
    afterSave w (w.saveExecution call.ctx l.execution) fun e =>
      .markFailed { l with execution := e } exit
  | .markFailed l exit =>
    setRecord w call.ctx i l.execution failedResult .failed input.now (.done (.returned exit.result))
  | .saveAttempt l =>
    afterSave w (w.saveExecution call.ctx l.execution) fun e => .send { l with execution := e }
  | .send l =>
    (w.observe (.submitted i (rowKey call.ctx l.execution.state.id)), .awaitAnswer l)
  | .awaitAnswer l =>
    let campaign := Campaign.adjustSpentCost l.campaign
      (input.answer.costUsd - cfg.channelCostEstimate l.step.channel)
    (w.observe (.answered i (rowKey call.ctx l.execution.state.id)
        (rowKey call.ctx campaign.state.id) input.answer.status),
      onAnswer { l with campaign } input.answer input.now.ms)
  | .saveAccepted l answer =>
    afterSave w (w.saveExecution call.ctx l.execution) fun e =>
      .saveCampaign { l with execution := e } answer
  | .saveCampaign l answer =>
    afterSave w (w.saveCampaign call.ctx l.campaign) fun campaign =>
      .markCompleted { l with campaign } answer
  | .markCompleted l answer =>
    setRecord w call.ctx i l.execution (completedResult answer) .completed input.now
      (.loadCampaignForAdvance l)
  | .loadCampaignForAdvance l =>
    (w, advance cfg l (w.loadCampaign call.ctx l.sequence.state.campaignId) input.now.ms)
  | .saveSequence sequence campaign nextDueAt hasMoreSteps =>
    afterSave w (w.saveSequence call.ctx sequence) fun _ =>
      match hasMoreSteps, campaign with
      | false, some campaign =>
        .saveCampaignComplete (Campaign.complete campaign input.now.ms).1 nextDueAt
      | _, _ => .done (.returned (.completed nextDueAt))
  | .saveCampaignComplete campaign nextDueAt =>
    afterSave w (w.saveCampaign call.ctx campaign) fun _ =>
      .done (.returned (.completed nextDueAt))
  | .saveAmbiguous l reason =>
    -- the idempotency record stays PENDING
    afterSave w (w.saveExecution call.ctx l.execution) fun _ => fails reason
  | .loadAuthoritative =>
    match w.loadExecution call.ctx call.executionId with
    | none => (w, fails "Execution not found after concurrency conflict")
    | some e => (w, .getRecord e.state.idempotencyKey)
  | .getRecord idempotencyKey =>
    match Idempotency.Postgres.get w.idempotency (sendKey call.ctx idempotencyKey) with
    | .record found => (w, .reload found)
    | _ => (w, .done (.threw rejectedStatement))
  | .reload record =>
    match w.loadExecution call.ctx call.executionId with
    | none => (w, fails "Execution not found after duplicate send")
    | some e => (w, resolveDuplicate record e input.now.ms)
  | .saveAuthoritative e =>
    match w.saveExecution call.ctx e with
    | .saved (w', e') => (w', .done (.returned (resultFromExecution e')))
    | .conflict => (w, .reloadNewer e)
    | .threw message => (w, .done (.threw message))
  | .reloadNewer e =>
    -- the newer row is read, and the answer still given from the copy that lost the race
    (w, .done (.returned (resultFromExecution e)))
  | .done ended => (w, .done ended)

/-- One step of a call. Recovering the recipient turns a fault into an answer; every other awaited
operation rethrows it. -/
def sendStep (cfg : Config) (calls : Nat → SendCall) :
    Interleave.Stepper World SendPc Input
  | i, input, w, pc =>
    match pc, input.fault with
    | .done ended, _ => (w, .done ended)
    | .recoverRecipient _, some _ => (w, fails "Protected recipient recovery failed")
    | _, some message => (w, .done (.threw message))
    | pc, none => sendNext cfg (calls i) i input w pc

/-! ## What a step does -/

theorem afterSave_cases {α : Type} (w : World) (outcome : SaveOutcome (World × α))
    (next : α → SendPc) :
    (∃ w' a, outcome = .saved (w', a) ∧ afterSave w outcome next = (w', next a)) ∨
    (outcome = .conflict ∧ afterSave w outcome next = (w, .loadAuthoritative)) ∨
    ∃ message, outcome = .threw message ∧
      afterSave w outcome next = (w, .done (.threw message)) := by
  cases outcome with
  | saved x => exact .inl ⟨x.1, x.2, rfl, rfl⟩
  | conflict => exact .inr (.inl ⟨rfl, rfl⟩)
  | threw message => exact .inr (.inr ⟨message, rfl, rfl⟩)

/-- What holds of the three ways a save ends holds after it. -/
theorem afterSave_elim {α : Type} {w : World} {outcome : SaveOutcome (World × α)}
    {next : α → SendPc} {P : World × SendPc → Prop}
    (hsaved : ∀ w' a, outcome = .saved (w', a) → P (w', next a)) (hconflict : P (w, .loadAuthoritative))
    (hthrew : ∀ message, P (w, .done (.threw message))) : P (afterSave w outcome next) := by
  rcases afterSave_cases w outcome next with ⟨w', a, ho, h⟩ | ⟨-, h⟩ | ⟨message, -, h⟩ <;> rw [h]
  · exact hsaved w' a ho
  · exact hconflict
  · exact hthrew message

/-- The record is written, or the statement is rejected and nothing changes. -/
theorem setRecord_cases (w : World) (ctx : Context) (i : Nat) (e : MessageExecution)
    (result : Json) (status : Idempotency.Status) (now : Clock) (next : SendPc) :
    ((Idempotency.Postgres.setRow? {} (sendKey ctx e.state.idempotencyKey) result
        { status := some status } now).isSome ∧
      ∃ r : Idempotency.Postgres.Record, r.status = status ∧
        setRecord w ctx i e result status now next =
          ({ w with
              idempotency := Function.update w.idempotency
                (sendKey ctx e.state.idempotencyKey) (some r)
              log := .wrote i (sendKey ctx e.state.idempotencyKey) status :: w.log }, next)) ∨
    ((Idempotency.Postgres.setRow? {} (sendKey ctx e.state.idempotencyKey) result
        { status := some status } now).isSome = false ∧
      setRecord w ctx i e result status now next = (w, .done (.threw rejectedStatement))) := by
  unfold setRecord
  dsimp only
  rcases Idempotency.Postgres.set_cases {} w.idempotency (sendKey ctx e.state.idempotencyKey)
      result { status := some status } now with
    ⟨hstored, hsome, r, hr, -, hstore⟩ | ⟨hthrew, hnone, -⟩
  · left
    rw [← Prod.eta (Idempotency.Postgres.set {} w.idempotency _ result _ now), hstored]
    exact ⟨hsome, r, hr, by rw [hstore]; rfl⟩
  · right
    rw [← Prod.eta (Idempotency.Postgres.set {} w.idempotency _ result _ now), hthrew]
    exact ⟨by rw [hnone]; rfl, rfl⟩

/-- The decision of the gate touches no row, and leads to one of four operations. -/
theorem sendNext_evaluate (cfg : Config) (call : SendCall) (i : Nat) (input : Input) (w : World)
    (l : Sending) :
    ∃ w' p', sendNext cfg call i input w (.evaluate l) = (w', p') ∧
      w'.executions = w.executions ∧ w'.sequences = w.sequences ∧
      (w'.log = w.log ∨
        w'.log = .claimed i (sendKey call.ctx l.execution.state.idempotencyKey) :: w.log) ∧
      ((∃ message, p' = .done (.threw message)) ∨
        (∃ key, p' = .getRecord key) ∨
        (∃ l' exit, p' = .saveFailure l' exit ∧ l'.sequence = l.sequence) ∨
        ∃ l', p' = .selectProvider l' ∧ l'.sequence = l.sequence ∧ l'.execution = l.execution) := by
  simp only [sendNext]
  split
  · exact ⟨w, _, rfl, rfl, rfl, .inl rfl, .inl ⟨_, rfl⟩⟩
  next decision _ =>
    unfold afterAudit
    cases input.audit with
    | some message =>
      cases decision with
      | allow => exact ⟨_, _, rfl, rfl, rfl, .inr rfl, .inl ⟨_, rfl⟩⟩
      | deny code reason =>
        unfold onDecision
        dsimp only
        split <;> exact ⟨_, _, rfl, rfl, rfl, .inl rfl, .inl ⟨_, rfl⟩⟩
      | retryable code reason retryAfterMs => exact ⟨_, _, rfl, rfl, rfl, .inl rfl, .inl ⟨_, rfl⟩⟩
    | none =>
      cases decision with
      | allow =>
        exact ⟨_, _, rfl, rfl, rfl, .inr rfl, .inr (.inr (.inr ⟨_, rfl, rfl, rfl⟩))⟩
      | deny code reason =>
        unfold onDecision
        dsimp only
        split
        · exact ⟨_, _, rfl, rfl, rfl, .inl rfl, .inr (.inl ⟨_, rfl⟩)⟩
        · exact ⟨_, _, rfl, rfl, rfl, .inl rfl, .inr (.inr (.inl ⟨_, _, rfl, rfl⟩))⟩
      | retryable code reason retryAfterMs =>
        exact ⟨_, _, rfl, rfl, rfl, .inl rfl, .inr (.inr (.inl ⟨_, _, rfl, rfl⟩))⟩

/-- A duplicate is answered at once, or the execution is saved first. -/
theorem resolveDuplicate_cases (existing : Option Idempotency.RecordView) (e : MessageExecution)
    (now : Date) :
    (∃ result, resolveDuplicate existing e now = .done (.returned result)) ∨
    ∃ e', resolveDuplicate existing e now = .saveAuthoritative e' := by
  unfold resolveDuplicate requireReconciliation fails
  split
  · split
    · exact .inl ⟨_, rfl⟩
    · exact .inr ⟨_, rfl⟩
  · split
    · split
      · exact .inr ⟨_, rfl⟩
      · exact .inl ⟨_, rfl⟩
    · split
      · exact .inl ⟨_, rfl⟩
      · split
        · exact .inl ⟨_, rfl⟩
        · split
          · exact .inr ⟨_, rfl⟩
          · exact .inl ⟨_, rfl⟩
    · split
      · exact .inl ⟨_, rfl⟩
      · exact .inr ⟨_, rfl⟩

/-- The step of the sequence is refused, or the sequence goes on to its save. -/
theorem advance_cases (cfg : Config) (l : Sending) (campaign : Option Campaign) (now : Date) :
    (∃ ended, advance cfg l campaign now = .done ended) ∨
    ∃ nextDueAt hasMoreSteps, (Sequence.completeStep l.sequence l.execution.state.id nextDueAt
        now).2 = .ok ∧
      advance cfg l campaign now = .saveSequence (Sequence.completeStep l.sequence
        l.execution.state.id nextDueAt now).1 campaign nextDueAt hasMoreSteps := by
  unfold advance fails
  dsimp only
  split
  · exact .inl ⟨_, rfl⟩
  · exact .inl ⟨_, rfl⟩
  next sequence hs => exact .inr ⟨_, _, by rw [hs], by rw [hs]⟩

/-- A step under a fault touches nothing and ends the call. -/
theorem sendStep_fault (cfg : Config) (calls : Nat → SendCall) (i : Nat) {input : Input}
    (w : World) (p : SendPc) {message : String} (hf : input.fault = some message) :
    ∃ ended, sendStep cfg calls i input w p = (w, .done ended) ∧
      (p = .done ended ∨
        (∃ l, p = .recoverRecipient l ∧
          ended = .returned (.failed "Protected recipient recovery failed")) ∨
        ended = .threw message) := by
  cases p with
  | done ended => exact ⟨ended, by simp only [sendStep], .inl rfl⟩
  | recoverRecipient l =>
    exact ⟨_, by simp only [sendStep, hf, fails], .inr (.inl ⟨l, rfl, rfl⟩)⟩
  | _ => exact ⟨_, by simp only [sendStep, hf], .inr (.inr rfl)⟩

theorem sendStep_eq_sendNext (cfg : Config) (calls : Nat → SendCall) (i : Nat) {input : Input}
    (w : World) (p : SendPc) (hf : input.fault = none) :
    sendStep cfg calls i input w p = sendNext cfg (calls i) i input w p := by
  cases p <;> simp only [sendStep, hf, sendNext]

/-- Every call before its first step. -/
def startSends (w : World) : Interleave.Config World SendPc := ⟨w, fun _ => .loadExecution⟩

/-- A step of call `i` where nothing fails and the provider accepts. -/
def allowed (i : Nat) : Interleave.Tick Input := ⟨i, { now := .epoch }⟩

def sampleSendCall : SendCall := ⟨sampleContext, "execution", "approval"⟩

end VegaRevenue.Outreach
