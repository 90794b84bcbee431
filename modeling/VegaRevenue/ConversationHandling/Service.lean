import VegaRevenue.ConversationHandling.Stores
import VegaRevenue.Domain.NoLostUpdate

/-!
# Handling a reply

`ConversationHandlingService` with the policy and the classifier it is wired with. A call that
throws leaves behind what it wrote before.

* `handleReply_eq_ok` — a handled reply is stored with its conversation, and nothing else changes
* `classifyAndAct_suppressions` — acting on a reply leaves the suppressions alone
-/

namespace VegaRevenue.ConversationHandling

open Versioned
open Conversation (ReplyIngressEvent ReplyMessage ReplyIntent IntentClassification NextActionType
  NextBestAction)

/-! ## Inputs -/

/-- What a call takes from outside: the ids it generates, the row its query meets first, the
answers of the classifier by content and channel, the error each statement meets, and the clock. -/
structure ReplyInput where
  conversationId : String
  replyMessageId : String
  pick : Nat := 0
  classify : (content channel : String) → Except String IntentClassification
  refuses : Statement → Option String := fun _ => none
  now : Date

/-- Runs a statement, unless it is refused. -/
def ReplyInput.run {α : Type} (input : ReplyInput) (statement : Statement)
    (k : Except String α) : Except String α :=
  match input.refuses statement with
  | some message => .error message
  | none => k

theorem ReplyInput.run_eq_ok {α : Type} {input : ReplyInput} {statement : Statement}
    {k : Except String α} {a : α} :
    input.run statement k = .ok a ↔ input.refuses statement = none ∧ k = .ok a := by
  unfold ReplyInput.run
  cases input.refuses statement <;> simp

/-! ## The classifier and the policy -/

/-- `DeterministicIntentClassifier.classify`. -/
def deterministicClassify (content _channel : String) : Except String IntentClassification :=
  let mentions := fun words : List String => words.any (Conversation.includesLower · content)
  .ok <|
    if mentions ["unsubscribe", "opt out", "stop"] then
      ⟨.optOut, 99 / 100, "Explicit opt-out language detected"⟩
    else if mentions ["meeting", "book a time", "calendar"] then
      ⟨.meetingRequest, 92 / 100, "Meeting scheduling language detected"⟩
    else if mentions ["not interested", "no thanks", "wrong", "remove"] then
      ⟨.negative, 90 / 100, "Negative/disqualifying language detected"⟩
    else if mentions ["interested", "yes", "tell me more", "pricing"] then
      ⟨.positive, 88 / 100, "Positive engagement language detected"⟩
    else if mentions ["?", "how", "what", "question"] then
      ⟨.question, 82 / 100, "Question language detected"⟩
    else ⟨.uncertain, 55 / 100, "Unable to classify deterministically"⟩

/-- What the policy answers. -/
structure Decision extends NextBestAction where
  requiresApproval : Bool
  suggestedFollowUp : Option String := none
deriving DecidableEq

/-- `InMemoryNextBestActionPolicy.decide`. -/
def decide (conversation : Conversation) (autonomyLevel : Rat) : Decision :=
  let intent := conversation.state.latestIntent
  let confidence := conversation.state.latestConfidence.getD 0
  if intent = some .optOut then ⟨⟨.close, "Prospect opted out"⟩, false, none⟩
  else if confidence < 6 / 10 then
    ⟨⟨.escalate, "Low confidence reply classification"⟩, true, none⟩
  else if autonomyLevel < 2 then
    ⟨⟨.escalate, "Autonomy level requires human review"⟩, true, none⟩
  else
    match intent with
    | some .meetingRequest =>
      ⟨⟨.scheduleMeetingDeferred,
        "Prospect requested a meeting; scheduling is deferred to a later phase"⟩, true, none⟩
    | some .positive =>
      ⟨⟨.followUp, "Positive reply; continue nurture sequence"⟩, false,
        some "Send a follow-up with more details"⟩
    | some .negative => ⟨⟨.disqualify, "Negative reply"⟩, false, none⟩
    | some .question =>
      ⟨⟨.followUp, "Answer the question and continue"⟩, false,
        some "Draft an answer to the question"⟩
    | _ =>
      if confidence < 85 / 100 then
        ⟨⟨.escalate, "Intent confidence below autonomous threshold"⟩, true, none⟩
      else ⟨⟨.escalate, "Unhandled intent"⟩, true, none⟩

/-! ## Taking a reply in -/

structure HandleReplyResult where
  conversationId : String
  status : Conversation.Status
  isOptOut : Bool
deriving DecidableEq

def freshConversation (ctx : Context) (event : ReplyIngressEvent) (input : ReplyInput) :
    Conversation :=
  Conversation.create {
    id := input.conversationId
    tenantId := ctx.tenantId
    workspaceId := ctx.workspaceId
    leadId := event.leadId
    channel := event.channel
    campaignId := event.campaignId
    sequenceId := event.sequenceId
    executionId := event.executionId
    createdAt := input.now
    updatedAt := input.now }

/-- The conversation of the lead on the channel, or a fresh one. -/
def conversationFor (s : Stores) (ctx : Context) (event : ReplyIngressEvent) (input : ReplyInput) :
    Conversation :=
  (s.conversations.findByLeadAndChannel input.pick ctx event.leadId event.channel).getD
    (freshConversation ctx event input)

/-- The message that is stored. The sender is not part of it; an empty subject is not scrubbed. -/
def replyMessage (scrub : String → String) (event : ReplyIngressEvent) (input : ReplyInput) :
    ReplyMessage where
  id := input.replyMessageId
  providerMessageId := event.providerMessageId
  channel := event.channel
  content := scrub event.content
  receivedAt := event.receivedAt
  messageIdHeader := event.messageIdHeader
  subject := event.subject.map fun subject => if subject = "" then subject else scrub subject
  htmlBody := event.htmlBody
  inReplyTo := event.inReplyTo
  references := event.references

/-- The conversation with the reply, where the conversation takes it. -/
def withReply (scrub : String → String) (s : Stores) (ctx : Context) (event : ReplyIngressEvent)
    (input : ReplyInput) : Conversation :=
  (Conversation.recordReply (conversationFor s ctx event input) (replyMessage scrub event input)
    input.now).1

/-- What `recordReply` answers is not looked at. -/
def handleReply (scrub : String → String) (s : Stores) (ctx : Context) (event : ReplyIngressEvent)
    (input : ReplyInput) : Except String (Stores × HandleReplyResult) :=
  input.run .findConversation <|
    let conversation := withReply scrub s ctx event input
    input.run .saveReply <|
      (s.conversations.save ctx conversation).map fun conversations =>
        ({ s with conversations },
          ⟨conversation.state.id, conversation.state.status, conversation.state.optedOut⟩)

/-! ## Acting on it -/

structure ClassifyAndActResult where
  conversationId : String
  status : Conversation.Status
  actionType : Option NextActionType := none
  requiresApproval : Bool
  reason : String
  leadStatusChanged : Bool
deriving DecidableEq

/-- The conversation takes no more decisions. -/
def isTerminal (a : Conversation) : Bool :=
  a.state.optedOut || a.state.status = .disqualified || a.state.status = .closed

/-- Throws what an operation of the conversation failed with. -/
def orThrow (what : String) (r : Conversation × OpResult) : Except String Conversation :=
  match r.2 with
  | .ok => .ok r.1
  | .fail message | .threw message => .error (what ++ message)

/-- The content the classifier is asked about. -/
def latestContent (a : Conversation) : String :=
  (a.state.messages.getLast?.map ReplyMessage.content).getD ""

/-- Only a conversation without an intent is classified. -/
def classifyLatest (a : Conversation) (input : ReplyInput) : Except String Conversation :=
  match a.state.latestIntent with
  | some _ => .ok a
  | none => do
    let classification ← input.classify (latestContent a) a.state.channel
    orThrow "Classify intent failed: " (Conversation.classifyIntent a classification input.now)

/-- A lead that is missing or refuses the outcome is left as it is. -/
def updateLeadStatus (s : Stores) (ctx : Context) (input : ReplyInput) (leadId : String)
    (outcome : Lead.ConversationOutcome) (reason : String) : Except String (Stores × Bool) :=
  input.run .loadLead <|
    match s.leads.load ctx leadId with
    | none => .ok (s, false)
    | some lead =>
      let (recorded, result) := Lead.recordConversationOutcome lead outcome reason input.now
      if result.success then
        input.run .saveLead <|
          (s.leads.save ctx recorded).map fun leads => ({ s with leads }, true)
      else .ok (s, false)

/-- What a decided action does to the lead and the conversation. -/
def applyOutcome (s : Stores) (ctx : Context) (input : ReplyInput) (a : Conversation)
    (action : Decision) : Except String (Stores × Conversation × Bool) :=
  if action.actionType = .disqualify ∨ a.state.optedOut then
    (updateLeadStatus s ctx input a.state.leadId .notQualified action.reason).map fun (s, changed) =>
      (s, if a.state.status ≠ .optedOut then
        (Conversation.close a .disqualified action.reason input.now).1 else a, changed)
  else if (action.actionType = .scheduleMeetingDeferred ∨ action.actionType = .followUp) ∧
      (a.state.latestIntent = some .positive ∨ a.state.latestIntent = some .meetingRequest) then
    (updateLeadStatus s ctx input a.state.leadId .qualified "Positive conversation outcome").map
      fun (s, changed) => (s, a, changed)
  else .ok (s, a, false)

/-- The intent and the action that are decided on a copy of the conversation. -/
def decideOn (a : Conversation) (autonomyLevel : Rat) (input : ReplyInput) :
    Except String (Conversation × Decision) := do
  let classified ← classifyLatest a input
  let action := decide classified autonomyLevel
  let decided ← orThrow "Decide action failed: "
    (Conversation.decideAction classified action.toNextBestAction input.now)
  return (decided, action)

/-- The lead is saved before the conversation is. -/
def classifyAndAct (s : Stores) (ctx : Context) (a : Conversation) (autonomyLevel : Rat)
    (input : ReplyInput) : Stores × Except String ClassifyAndActResult :=
  if isTerminal a then
    (s, .ok {
      conversationId := a.state.id, status := a.state.status, requiresApproval := false
      reason := "Conversation already terminal", leadStatusChanged := false })
  else
    match decideOn a autonomyLevel input with
    | .error message => (s, .error message)
    | .ok (decided, action) =>
      match applyOutcome s ctx input decided action with
      | .error message => (s, .error message)
      | .ok (s, a, leadStatusChanged) =>
        match input.run .saveConversation (s.conversations.save ctx a) with
        | .error message => (s, .error message)
        | .ok conversations => ({ s with conversations }, .ok {
            conversationId := a.state.id, status := a.state.status
            actionType := some action.actionType, requiresApproval := action.requiresApproval
            reason := action.reason, leadStatusChanged })

/-! ## What the steps do -/

section

variable {scrub : String → String} {s : Stores} {ctx : Context} {event : ReplyIngressEvent}
  {input : ReplyInput}

theorem recordReply_loadedVersion (a : Conversation) (reply : ReplyMessage) (now : Date) :
    (Conversation.recordReply a reply now).1.loadedVersion = a.loadedVersion :=
  (Conversation.recordReply_tracks a reply now).1

/-- A reply leaves the identity of its conversation alone. -/
theorem Of.recordReply {id : String} {a : Conversation} (h : Conversations.Of ctx id a)
    (reply : ReplyMessage) (now : Date) :
    Conversations.Of ctx id (Conversation.recordReply a reply now).1 := by
  have hmove : ∀ target event,
      Conversations.Of ctx id (Conversation.transitionTo a target event).1 := by
    intro target event
    rcases Conversation.transitionTo_eq a target event with ⟨-, -, -, -, hs⟩ | ⟨-, -, heq⟩
    · exact ⟨by rw [hs]; exact h.id, by rw [hs]; exact h.tenantId, by rw [hs]; exact h.workspaceId⟩
    · rw [heq]
      exact h
  unfold Conversation.recordReply
  split
  · exact h
  · split
    · exact ⟨(hmove _ _).id, (hmove _ _).tenantId, (hmove _ _).workspaceId⟩
    · dsimp only
      split
      · exact ⟨(hmove _ _).id, (hmove _ _).tenantId, (hmove _ _).workspaceId⟩
      · exact hmove _ _

/-- A conversation has opted out after a reply iff it had before, or the reply asks for it. -/
theorem recordReply_optedOut (a : Conversation) (reply : ReplyMessage) (now : Date) :
    (Conversation.recordReply a reply now).1.state.optedOut =
      (a.state.optedOut || Conversation.asksToOptOut reply.content) := by
  have hmove : ∀ target event,
      (Conversation.transitionTo a target event).1.state.optedOut = a.state.optedOut := by
    intro target event
    rcases Conversation.transitionTo_eq a target event with ⟨-, -, -, -, hs⟩ | ⟨-, -, heq⟩
    · rw [hs]
    · rw [heq]
  unfold Conversation.recordReply
  cases ho : a.state.optedOut with
  | true => simp [ho]
  | false =>
    cases hask : Conversation.asksToOptOut reply.content with
    | true => simp [Conversation.Props.withReply]
    | false =>
      simp only [Bool.false_eq_true, if_false, Bool.false_or]
      split
      · exact (hmove _ _).trans ho
      · exact (hmove _ _).trans ho

theorem conversationFor_of_found {a : Conversation}
    (h : s.conversations.findByLeadAndChannel input.pick ctx event.leadId event.channel =
      some a) : conversationFor s ctx event input = a := by
  unfold conversationFor
  rw [h, Option.getD_some]

theorem conversationFor_of_missing
    (h : s.conversations.findByLeadAndChannel input.pick ctx event.leadId event.channel = none) :
    conversationFor s ctx event input = freshConversation ctx event input := by
  unfold conversationFor
  rw [h, Option.getD_none]

theorem of_withReply (scrub : String → String) {id : String} {a : Conversation}
    (h : conversationFor s ctx event input = a) (hof : Conversations.Of ctx id a) :
    Conversations.Of ctx id (withReply scrub s ctx event input) ∧
      (withReply scrub s ctx event input).loadedVersion = a.loadedVersion := by
  unfold withReply
  rw [h]
  exact ⟨Of.recordReply hof _ _, recordReply_loadedVersion a _ _⟩

/-- A reply that was handled is stored with its conversation, and nothing else changes. -/
theorem handleReply_eq_ok {out : Stores × HandleReplyResult} :
    handleReply scrub s ctx event input = .ok out ↔
      input.refuses .findConversation = none ∧ input.refuses .saveReply = none ∧
        ∃ conversations, s.conversations.save ctx (withReply scrub s ctx event input) =
            .ok conversations ∧
          out = ({ s with conversations },
            ⟨(withReply scrub s ctx event input).state.id,
              (withReply scrub s ctx event input).state.status,
              (withReply scrub s ctx event input).state.optedOut⟩) := by
  unfold handleReply
  rw [ReplyInput.run_eq_ok, ReplyInput.run_eq_ok]
  cases s.conversations.save ctx (withReply scrub s ctx event input) with
  | error message => simp [Except.map]
  | ok conversations => simp [Except.map, eq_comm]

/-- Updating a lead writes leads only. -/
theorem updateLeadStatus_leads {leadId : String} {outcome : Lead.ConversationOutcome}
    {reason : String} {out : Stores × Bool}
    (h : updateLeadStatus s ctx input leadId outcome reason = .ok out) :
    ∃ leads, out.1 = { s with leads } := by
  unfold updateLeadStatus at h
  obtain ⟨-, h⟩ := ReplyInput.run_eq_ok.mp h
  split at h
  · cases h
    exact ⟨_, rfl⟩
  · dsimp only at h
    split at h
    · obtain ⟨-, h⟩ := ReplyInput.run_eq_ok.mp h
      cases hsave : s.leads.save ctx _ with
      | error message =>
        rw [hsave] at h
        cases h
      | ok leads =>
        rw [hsave] at h
        cases h
        exact ⟨leads, rfl⟩
    · cases h
      exact ⟨_, rfl⟩

/-- An outcome writes leads only, and at most closes the conversation. -/
theorem applyOutcome_leads {a : Conversation} {action : Decision}
    {out : Stores × Conversation × Bool} (h : applyOutcome s ctx input a action = .ok out) :
    (∃ leads, out.1 = { s with leads }) ∧
      (out.2.1 = a ∨ out.2.1 = (Conversation.close a .disqualified action.reason input.now).1) := by
  unfold applyOutcome at h
  split at h
  · cases hu : updateLeadStatus s ctx input a.state.leadId .notQualified action.reason with
    | error message =>
      rw [hu] at h
      cases h
    | ok moved =>
      rw [hu] at h
      cases h
      refine ⟨updateLeadStatus_leads hu, ?_⟩
      dsimp only
      split
      · exact .inr rfl
      · exact .inl rfl
  · split at h
    · cases hu : updateLeadStatus s ctx input a.state.leadId .qualified
          "Positive conversation outcome" with
      | error message =>
        rw [hu] at h
        cases h
      | ok moved =>
        rw [hu] at h
        cases h
        exact ⟨updateLeadStatus_leads hu, .inl rfl⟩
    · cases h
      exact ⟨⟨_, rfl⟩, .inl rfl⟩

/-- **Acting on a reply leaves the suppressions alone.** -/
theorem classifyAndAct_suppressions (s : Stores) (ctx : Context) (a : Conversation)
    (autonomyLevel : Rat) (input : ReplyInput) :
    (classifyAndAct s ctx a autonomyLevel input).1.suppressions = s.suppressions := by
  unfold classifyAndAct
  split
  · rfl
  · split
    · rfl
    · split
      · rfl
      next hout =>
        obtain ⟨⟨leads, hs⟩, -⟩ := applyOutcome_leads hout
        dsimp only at hs
        split
        · rw [hs]
        · rw [hs]

end

end VegaRevenue.ConversationHandling
