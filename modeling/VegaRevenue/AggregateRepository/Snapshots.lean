import VegaRevenue.AggregateRepository.Postgres
import VegaRevenue.Domain.NoLostUpdate

/-!
# The snapshots of the four aggregates

For each aggregate, what its repository writes of it (`snap`, and the columns beside it) and what
`restore` makes of a row: the fields of the snapshot, overridden by the columns.
-/

namespace VegaRevenue

open AggregateRepository
open Json (read_bind readOptional_bind)

/-! ## Value objects -/

namespace Codec

def channelText : OutreachChannel → String
  | .email => "email"
  | .linkedin => "linkedin"
  | .calendar => "calendar"

def channel : Codec OutreachChannel :=
  .names [.email, .linkedin, .calendar] channelText (by intro a; cases a <;> rfl)

def retryClassificationText : RetryClassification → String
  | .retryable => "RETRYABLE"
  | .nonRetryable => "NON_RETRYABLE"
  | .rateLimited => "RATE_LIMITED"

def retryClassification : Codec RetryClassification :=
  .names [.retryable, .nonRetryable, .rateLimited] retryClassificationText
    (by intro a; cases a <;> rfl)

def stepFields (s : SequenceStep) : List (String × Option Json) :=
  [("stepNumber", some (nat.encode s.stepNumber)),
    ("channel", some (channel.encode s.channel)),
    ("delayMs", some (nat.encode s.delayMs)),
    ("requiresApproval", some (bool.encode s.requiresApproval)),
    ("templateRef", s.templateRef.map string.encode),
    ("objective", s.objective.map string.encode)]

def step : Codec SequenceStep where
  encode s := .object (stepFields s)
  decode v := do
    pure {
      stepNumber := ← v.read nat "stepNumber"
      channel := ← v.read channel "channel"
      delayMs := ← v.read nat "delayMs"
      requiresApproval := ← v.read bool "requiresApproval"
      templateRef := ← v.readOptional string "templateRef"
      objective := ← v.readOptional string "objective" }
  decode_encode := by
    intro s
    have hn : ((stepFields s).map Prod.fst).Nodup := by
      simp only [stepFields, List.map_cons, List.map_nil]
      decide
    exact read_bind hn rfl <| read_bind hn rfl <| read_bind hn rfl <| read_bind hn rfl <|
      readOptional_bind hn rfl <| readOptional_bind hn rfl rfl

def claimFields (s : DraftClaim) : List (String × Option Json) :=
  [("text", some (string.encode s.text)),
    ("evidenceId", some (string.encode s.evidenceId)),
    ("confidence", some (rat.encode s.confidence))]

def draftClaim : Codec DraftClaim where
  encode s := .object (claimFields s)
  decode v := do
    pure {
      text := ← v.read string "text"
      evidenceId := ← v.read string "evidenceId"
      confidence := ← v.read rat "confidence" }
  decode_encode := by
    intro s
    have hn : ((claimFields s).map Prod.fst).Nodup := by
      simp only [claimFields, List.map_cons, List.map_nil]
      decide
    exact read_bind hn rfl <| read_bind hn rfl <| read_bind hn rfl rfl

def draftFields (s : MessageDraft) : List (String × Option Json) :=
  [("subject", s.subject.map string.encode),
    ("body", some (string.encode s.body)),
    ("cta", s.cta.map string.encode),
    ("tone", some (string.encode s.tone)),
    ("claims", some (draftClaim.list.encode s.claims)),
    ("evidenceReferences", some (string.list.encode s.evidenceReferences)),
    ("unsupportedClaimsRemoved", some (string.list.encode s.unsupportedClaimsRemoved))]

def messageDraft : Codec MessageDraft where
  encode s := .object (draftFields s)
  decode v := do
    pure {
      subject := ← v.readOptional string "subject"
      body := ← v.read string "body"
      cta := ← v.readOptional string "cta"
      tone := ← v.read string "tone"
      claims := ← v.read draftClaim.list "claims"
      evidenceReferences := ← v.read string.list "evidenceReferences"
      unsupportedClaimsRemoved := ← v.read string.list "unsupportedClaimsRemoved" }
  decode_encode := by
    intro s
    have hn : ((draftFields s).map Prod.fst).Nodup := by
      simp only [draftFields, List.map_cons, List.map_nil]
      decide
    exact readOptional_bind hn rfl <| read_bind hn rfl <| readOptional_bind hn rfl <|
      read_bind hn rfl <| read_bind hn rfl <| read_bind hn rfl <| read_bind hn rfl rfl

def budgetFields (s : Campaign.Budget) : List (String × Option Json) :=
  [("maxSendCount", s.maxSendCount.map int.encode),
    ("maxCostUsd", s.maxCostUsd.map rat.encode)]

def budget : Codec Campaign.Budget where
  encode s := .object (budgetFields s)
  decode v := do
    pure {
      maxSendCount := ← v.readOptional int "maxSendCount"
      maxCostUsd := ← v.readOptional rat "maxCostUsd" }
  decode_encode := by
    intro s
    have hn : ((budgetFields s).map Prod.fst).Nodup := by
      simp only [budgetFields, List.map_cons, List.map_nil]
      decide
    exact readOptional_bind hn rfl <| readOptional_bind hn rfl rfl

def campaignStatus : Codec Campaign.Status :=
  .names [.draft, .pendingApproval, .approved, .running, .paused, .completed, .cancelled]
    Campaign.Status.name (by intro a; cases a <;> rfl)

def sequenceStatus : Codec Sequence.Status :=
  .names [.draft, .pendingApproval, .approved, .running, .waiting, .paused, .completed, .cancelled,
    .failed] Sequence.Status.name (by intro a; cases a <;> rfl)

def executionStatus : Codec MessageExecution.Status :=
  .names [.pending, .drafting, .pendingApproval, .approved, .sending, .providerAccepted,
    .deliveryPending, .delivered, .opened, .replied, .bounced, .failedPreSubmission,
    .deliveryFailed, .deliveryUnknown, .requiresReconciliation, .failed, .cancelled]
    MessageExecution.Status.name (by intro a; cases a <;> rfl)

def conversationStatus : Codec Conversation.Status :=
  .names [.pending, .awaitingReply, .classified, .followUpScheduled, .escalated, .disqualified,
    .optedOut, .closed, .failed] Conversation.Status.name (by intro a; cases a <;> rfl)

def intentText : Conversation.ReplyIntent → String
  | .positive => "POSITIVE"
  | .negative => "NEGATIVE"
  | .question => "QUESTION"
  | .optOut => "OPT_OUT"
  | .meetingRequest => "MEETING_REQUEST"
  | .uncertain => "UNCERTAIN"

def replyIntent : Codec Conversation.ReplyIntent :=
  .names [.positive, .negative, .question, .optOut, .meetingRequest, .uncertain] intentText
    (by intro a; cases a <;> rfl)

def actionText : Conversation.NextActionType → String
  | .followUp => "FOLLOW_UP"
  | .escalate => "ESCALATE"
  | .disqualify => "DISQUALIFY"
  | .scheduleMeetingDeferred => "SCHEDULE_MEETING_DEFERRED"
  | .close => "CLOSE"

def nextAction : Codec Conversation.NextActionType :=
  .names [.followUp, .escalate, .disqualify, .scheduleMeetingDeferred, .close] actionText
    (by intro a; cases a <;> rfl)

/-- `reply`. -/
def replyFields (s : Conversation.ReplyMessage) : List (String × Option Json) :=
  [("id", some (string.encode s.id)),
    ("providerMessageId", some (string.encode s.providerMessageId)),
    ("channel", some (string.encode s.channel)),
    ("content", some (string.encode s.content)),
    ("receivedAt", some (date.encode s.receivedAt)),
    ("messageIdHeader", s.messageIdHeader.map string.encode),
    ("sender", s.sender.map string.encode),
    ("recipientAddress", s.recipientAddress.map string.encode),
    ("subject", s.subject.map string.encode),
    ("htmlBody", s.htmlBody.map string.encode),
    ("inReplyTo", s.inReplyTo.map string.encode),
    ("references", s.references.map string.list.encode)]

/-- Written by `reply` and read by `message`. -/
def replyMessage : Codec Conversation.ReplyMessage where
  encode s := .object (replyFields s)
  decode v := do
    pure {
      id := ← v.read string "id"
      providerMessageId := ← v.read string "providerMessageId"
      channel := ← v.read string "channel"
      content := ← v.read string "content"
      receivedAt := ← v.read date "receivedAt"
      messageIdHeader := ← v.readOptional string "messageIdHeader"
      sender := ← v.readOptional string "sender"
      recipientAddress := ← v.readOptional string "recipientAddress"
      subject := ← v.readOptional string "subject"
      htmlBody := ← v.readOptional string "htmlBody"
      inReplyTo := ← v.readOptional string "inReplyTo"
      references := ← v.readOptional string.list "references" }
  decode_encode := by
    intro s
    have hn : ((replyFields s).map Prod.fst).Nodup := by
      simp only [replyFields, List.map_cons, List.map_nil]
      decide
    exact read_bind hn rfl <| read_bind hn rfl <| read_bind hn rfl <| read_bind hn rfl <|
      read_bind hn rfl <| readOptional_bind hn rfl <| readOptional_bind hn rfl <|
      readOptional_bind hn rfl <| readOptional_bind hn rfl <| readOptional_bind hn rfl <|
      readOptional_bind hn rfl <| readOptional_bind hn rfl rfl

end Codec

open Codec

/-! ## Campaigns -/

namespace Campaign

structure OwnedColumns where
  leadId : String
  contactId : String
  recipientFingerprint : Option String
  recipientProtectionState : RecipientProtectionState
deriving DecidableEq

abbrev CampaignRow := Row OwnedColumns Unit

def snapshotFields (e : Props) : List (String × Option Json) :=
  [("id", some (string.encode e.id)),
    ("tenantId", some (string.encode e.tenantId)),
    ("workspaceId", some (string.encode e.workspaceId)),
    ("missionId", e.missionId.map string.encode),
    ("leadId", some (string.encode e.leadId)),
    ("contactId", some (string.encode e.contactId)),
    ("channel", some (channel.encode e.channel)),
    ("steps", some (step.list.encode e.steps)),
    ("budget", some (budget.encode e.budget)),
    ("status", some (campaignStatus.encode e.status)),
    ("sentCount", some (int.encode e.sentCount)),
    ("spentCostUsd", some (rat.encode e.spentCostUsd)),
    ("createdAt", some (date.encode e.createdAt)),
    ("updatedAt", some (date.encode e.updatedAt))]

def restore (r : CampaignRow) : Option Props := do
  let s := r.payload
  pure {
    id := r.key.id
    tenantId := r.key.tenantId
    workspaceId := r.key.workspaceId
    missionId := ← s.readOptional string "missionId"
    leadId := r.owned.leadId
    contactId := r.owned.contactId
    recipientFingerprint := r.owned.recipientFingerprint
    recipientProtectionState := r.owned.recipientProtectionState
    channel := ← s.read channel "channel"
    steps := ← s.read step.list "steps"
    budget := ← s.read budget "budget"
    status := ← s.read campaignStatus "status"
    sentCount := ← s.read int "sentCount"
    spentCostUsd := ← s.read rat "spentCostUsd"
    createdAt := ← s.read date "createdAt"
    updatedAt := ← s.read date "updatedAt" }

def mapping : Mapping Props OwnedColumns Unit where
  key e := ⟨e.tenantId, e.workspaceId, e.id⟩
  owned e := ⟨e.leadId, e.contactId, e.recipientFingerprint, e.recipientProtectionState⟩
  index _ := ()
  snap e := .object (snapshotFields e)
  unique _ := none
  restore := restore
  inWorkspace e workspaceId := { e with workspaceId }
  restore_snap := by
    intro e workspaceId version
    have hn : ((snapshotFields e).map Prod.fst).Nodup := by
      simp only [snapshotFields, List.map_cons, List.map_nil]
      decide
    exact readOptional_bind hn rfl <| read_bind hn rfl <| read_bind hn rfl <| read_bind hn rfl <|
      read_bind hn rfl <| read_bind hn rfl <| read_bind hn rfl <| read_bind hn rfl <|
      read_bind hn rfl rfl
  key_inWorkspace _ _ := rfl
  owned_inWorkspace _ _ := rfl
  index_inWorkspace _ _ := rfl

end Campaign

/-! ## Sequences -/

namespace Sequence

structure OwnedColumns where
  campaignId : String
  leadId : String
  contactId : String
  recipientFingerprint : Option String
  recipientCiphertext : Option String
  recipientProtectionState : RecipientProtectionState
deriving DecidableEq

abbrev SequenceRow := Row OwnedColumns Unit

def snapFields (e : Props) : List (String × Option Json) :=
  [("id", some (string.encode e.id)),
    ("tenantId", some (string.encode e.tenantId)),
    ("workspaceId", some (string.encode e.workspaceId)),
    ("campaignId", some (string.encode e.campaignId)),
    ("leadId", some (string.encode e.leadId)),
    ("contactId", some (string.encode e.contactId)),
    ("steps", some (step.list.encode e.steps)),
    ("status", some (sequenceStatus.encode e.status)),
    ("currentStepIndex", some (nat.encode e.currentStepIndex)),
    ("nextDueAt", e.nextDueAt.map date.encode),
    ("responseDeadlineAt", e.responseDeadlineAt.map date.encode),
    ("workflowId", e.workflowId.map string.encode),
    ("workflowStartedAt", e.workflowStartedAt.map date.encode),
    ("createdAt", some (date.encode e.createdAt)),
    ("updatedAt", some (date.encode e.updatedAt))]

def restore (r : SequenceRow) : Option Props := do
  let s := r.payload
  pure {
    id := r.key.id
    tenantId := r.key.tenantId
    workspaceId := r.key.workspaceId
    campaignId := r.owned.campaignId
    leadId := r.owned.leadId
    contactId := r.owned.contactId
    recipientFingerprint := r.owned.recipientFingerprint
    recipientCiphertext := r.owned.recipientCiphertext
    recipientProtectionState := r.owned.recipientProtectionState
    steps := ← s.read step.list "steps"
    status := ← s.read sequenceStatus "status"
    currentStepIndex := ← s.read nat "currentStepIndex"
    nextDueAt := ← s.readOptional date "nextDueAt"
    responseDeadlineAt := ← s.readOptional date "responseDeadlineAt"
    workflowId := ← s.readOptional string "workflowId"
    workflowStartedAt := ← s.readOptional date "workflowStartedAt"
    createdAt := ← s.read date "createdAt"
    updatedAt := ← s.read date "updatedAt" }

def mapping : Mapping Props OwnedColumns Unit where
  key e := ⟨e.tenantId, e.workspaceId, e.id⟩
  owned e := ⟨e.campaignId, e.leadId, e.contactId, e.recipientFingerprint, e.recipientCiphertext,
    e.recipientProtectionState⟩
  index _ := ()
  snap e := .object (snapFields e)
  unique _ := none
  restore := restore
  inWorkspace e workspaceId := { e with workspaceId }
  restore_snap := by
    intro e workspaceId version
    have hn : ((snapFields e).map Prod.fst).Nodup := by
      simp only [snapFields, List.map_cons, List.map_nil]
      decide
    exact read_bind hn rfl <| read_bind hn rfl <| read_bind hn rfl <| readOptional_bind hn rfl <|
      readOptional_bind hn rfl <| readOptional_bind hn rfl <| readOptional_bind hn rfl <|
      read_bind hn rfl <| read_bind hn rfl rfl
  key_inWorkspace _ _ := rfl
  owned_inWorkspace _ _ := rfl
  index_inWorkspace _ _ := rfl

end Sequence

/-! ## Message executions -/

namespace MessageExecution

structure OwnedColumns where
  campaignId : String
  sequenceId : String
  leadId : String
  contactId : String
  recipientFingerprint : Option String
  recipientCiphertext : Option String
  recipientProtectionState : RecipientProtectionState
  idempotencyKey : String
deriving DecidableEq

structure IndexColumns where
  status : Status
  providerMessageId : Option String
deriving DecidableEq

abbrev ExecutionRow := Row OwnedColumns IndexColumns

def snapFields (e : Props) : List (String × Option Json) :=
  [("id", some (string.encode e.id)),
    ("tenantId", some (string.encode e.tenantId)),
    ("workspaceId", some (string.encode e.workspaceId)),
    ("campaignId", some (string.encode e.campaignId)),
    ("sequenceId", some (string.encode e.sequenceId)),
    ("stepNumber", some (nat.encode e.stepNumber)),
    ("leadId", some (string.encode e.leadId)),
    ("contactId", some (string.encode e.contactId)),
    ("channel", some (channel.encode e.channel)),
    ("idempotencyKey", some (string.encode e.idempotencyKey)),
    ("messageId", e.messageId.map string.encode),
    ("draft", e.draft.map messageDraft.encode),
    ("status", some (executionStatus.encode e.status)),
    ("approvalId", e.approvalId.map string.encode),
    ("providerId", e.providerId.map string.encode),
    ("providerMessageId", e.providerMessageId.map string.encode),
    ("internetMessageId", e.internetMessageId.map string.encode),
    ("attempts", some (nat.encode e.attempts)),
    ("lastError", e.lastError.map string.encode),
    ("retryClassification", e.retryClassification.map retryClassification.encode),
    ("retryAfterMs", e.retryAfterMs.map nat.encode),
    ("providerErrorCode", e.providerErrorCode.map string.encode),
    ("providerAcceptedAt", e.providerAcceptedAt.map date.encode),
    ("deliveredAt", e.deliveredAt.map date.encode),
    ("deliveryFailedAt", e.deliveryFailedAt.map date.encode),
    ("failedAt", e.failedAt.map date.encode),
    ("createdAt", some (date.encode e.createdAt)),
    ("updatedAt", some (date.encode e.updatedAt))]

/-- The key is read from the snapshot and not from its column. -/
def restore (r : ExecutionRow) : Option Props := do
  let s := r.payload
  pure {
    id := r.key.id
    tenantId := r.key.tenantId
    workspaceId := r.key.workspaceId
    campaignId := r.owned.campaignId
    sequenceId := r.owned.sequenceId
    stepNumber := ← s.read nat "stepNumber"
    leadId := r.owned.leadId
    contactId := r.owned.contactId
    recipientFingerprint := r.owned.recipientFingerprint
    recipientCiphertext := r.owned.recipientCiphertext
    recipientProtectionState := r.owned.recipientProtectionState
    channel := ← s.read channel "channel"
    idempotencyKey := ← s.read string "idempotencyKey"
    messageId := ← s.readOptional string "messageId"
    draft := ← s.readOptional messageDraft "draft"
    status := ← s.read executionStatus "status"
    approvalId := ← s.readOptional string "approvalId"
    providerId := ← s.readOptional string "providerId"
    providerMessageId := ← s.readOptional string "providerMessageId"
    internetMessageId := ← s.readOptional string "internetMessageId"
    attempts := ← s.read nat "attempts"
    lastError := ← s.readOptional string "lastError"
    retryClassification := ← s.readOptional retryClassification "retryClassification"
    retryAfterMs := ← s.readOptional nat "retryAfterMs"
    providerErrorCode := ← s.readOptional string "providerErrorCode"
    providerAcceptedAt := ← s.readOptional date "providerAcceptedAt"
    deliveredAt := ← s.readOptional date "deliveredAt"
    deliveryFailedAt := ← s.readOptional date "deliveryFailedAt"
    failedAt := ← s.readOptional date "failedAt"
    createdAt := ← s.read date "createdAt"
    updatedAt := ← s.read date "updatedAt" }

def mapping : Mapping Props OwnedColumns IndexColumns where
  key e := ⟨e.tenantId, e.workspaceId, e.id⟩
  owned e := ⟨e.campaignId, e.sequenceId, e.leadId, e.contactId, e.recipientFingerprint,
    e.recipientCiphertext, e.recipientProtectionState, e.idempotencyKey⟩
  index e := ⟨e.status, e.providerMessageId⟩
  snap e := .object (snapFields e)
  unique columns := some columns.idempotencyKey
  restore := restore
  inWorkspace e workspaceId := { e with workspaceId }
  restore_snap := by
    intro e workspaceId version
    have hn : ((snapFields e).map Prod.fst).Nodup := by
      simp only [snapFields, List.map_cons, List.map_nil]
      decide
    exact read_bind hn rfl <| read_bind hn rfl <| read_bind hn rfl <| readOptional_bind hn rfl <|
      readOptional_bind hn rfl <| read_bind hn rfl <| readOptional_bind hn rfl <|
      readOptional_bind hn rfl <| readOptional_bind hn rfl <| readOptional_bind hn rfl <|
      read_bind hn rfl <| readOptional_bind hn rfl <| readOptional_bind hn rfl <|
      readOptional_bind hn rfl <| readOptional_bind hn rfl <| readOptional_bind hn rfl <|
      readOptional_bind hn rfl <| readOptional_bind hn rfl <| readOptional_bind hn rfl <|
      read_bind hn rfl <| read_bind hn rfl rfl
  key_inWorkspace _ _ := rfl
  owned_inWorkspace _ _ := rfl
  index_inWorkspace _ _ := rfl

/-! ### Queries -/

def findByStatus (rows : List ExecutionRow) (ctx : Context) (statuses : List Status) :
    List MessageExecution :=
  mapping.select rows ctx fun r => statuses.contains r.index.status

def findByRecipientFingerprint (rows : List ExecutionRow) (ctx : Context) (fingerprint : String) :
    List MessageExecution :=
  mapping.select rows ctx fun r => r.owned.recipientFingerprint = some fingerprint

def findByIdempotencyKey (rows : List ExecutionRow) (ctx : Context) (key : String) :
    Option MessageExecution :=
  (mapping.select rows ctx fun r => r.owned.idempotencyKey = key).head?

/-- Over all workspaces of the tenant; none unless exactly one row has the id. -/
def findByProviderMessageId (rows : List ExecutionRow) (tenantId messageId : String) :
    Option MessageExecution :=
  match rows.filter fun r => r.key.tenantId = tenantId &&
      r.index.providerMessageId = some messageId with
  | [r] => mapping.reconstitute r
  | _ => none

end MessageExecution

/-! ## Conversations -/

namespace Conversation

structure OwnedColumns where
  leadId : String
  executionId : Option String
deriving DecidableEq

abbrev ConversationRow := Row OwnedColumns Unit

def snapFields (e : Props) : List (String × Option Json) :=
  [("id", some (string.encode e.id)),
    ("tenantId", some (string.encode e.tenantId)),
    ("workspaceId", some (string.encode e.workspaceId)),
    ("leadId", some (string.encode e.leadId)),
    ("channel", some (string.encode e.channel)),
    ("recipientAddress", e.recipientAddress.map string.encode),
    ("campaignId", e.campaignId.map string.encode),
    ("sequenceId", e.sequenceId.map string.encode),
    ("executionId", e.executionId.map string.encode),
    ("status", some (conversationStatus.encode e.status)),
    ("messages", some (replyMessage.list.encode e.messages)),
    ("latestIntent", e.latestIntent.map replyIntent.encode),
    ("latestConfidence", e.latestConfidence.map rat.encode),
    ("nextAction", e.nextAction.map nextAction.encode),
    ("escalatedReason", e.escalatedReason.map string.encode),
    ("optedOut", some (bool.encode e.optedOut)),
    ("createdAt", some (date.encode e.createdAt)),
    ("updatedAt", some (date.encode e.updatedAt))]

def restore (r : ConversationRow) : Option Props := do
  let s := r.payload
  pure {
    id := r.key.id
    tenantId := r.key.tenantId
    workspaceId := r.key.workspaceId
    leadId := r.owned.leadId
    channel := ← s.read string "channel"
    recipientAddress := ← s.readOptional string "recipientAddress"
    campaignId := ← s.readOptional string "campaignId"
    sequenceId := ← s.readOptional string "sequenceId"
    executionId := r.owned.executionId
    status := ← s.read conversationStatus "status"
    messages := ← s.read replyMessage.list "messages"
    latestIntent := ← s.readOptional replyIntent "latestIntent"
    latestConfidence := ← s.readOptional rat "latestConfidence"
    nextAction := ← s.readOptional nextAction "nextAction"
    escalatedReason := ← s.readOptional string "escalatedReason"
    optedOut := ← s.read bool "optedOut"
    createdAt := ← s.read date "createdAt"
    updatedAt := ← s.read date "updatedAt" }

def mapping : Mapping Props OwnedColumns Unit where
  key e := ⟨e.tenantId, e.workspaceId, e.id⟩
  owned e := ⟨e.leadId, e.executionId⟩
  index _ := ()
  snap e := .object (snapFields e)
  unique _ := none
  restore := restore
  inWorkspace e workspaceId := { e with workspaceId }
  restore_snap := by
    intro e workspaceId version
    have hn : ((snapFields e).map Prod.fst).Nodup := by
      simp only [snapFields, List.map_cons, List.map_nil]
      decide
    exact read_bind hn rfl <| readOptional_bind hn rfl <| readOptional_bind hn rfl <|
      readOptional_bind hn rfl <| read_bind hn rfl <| read_bind hn rfl <|
      readOptional_bind hn rfl <| readOptional_bind hn rfl <| readOptional_bind hn rfl <|
      readOptional_bind hn rfl <| read_bind hn rfl <| read_bind hn rfl <| read_bind hn rfl rfl
  key_inWorkspace _ _ := rfl
  owned_inWorkspace _ _ := rfl
  index_inWorkspace _ _ := rfl

end Conversation

end VegaRevenue
