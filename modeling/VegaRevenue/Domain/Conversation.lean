import VegaRevenue.Lib.Versioned
import VegaRevenue.Shared.Result

/-!
# The conversation aggregate

The replies of one lead on one channel, and what was made of them.
-/

namespace VegaRevenue.Conversation

inductive Status where
  | pending
  | awaitingReply
  | classified
  | followUpScheduled
  | escalated
  | disqualified
  | optedOut
  | closed
  | failed
deriving DecidableEq

def Status.name : Status → String
  | pending => "PENDING"
  | awaitingReply => "AWAITING_REPLY"
  | classified => "CLASSIFIED"
  | followUpScheduled => "FOLLOW_UP_SCHEDULED"
  | escalated => "ESCALATED"
  | disqualified => "DISQUALIFIED"
  | optedOut => "OPTED_OUT"
  | closed => "CLOSED"
  | failed => "FAILED"

/-- `CONVERSATION_STATE_TRANSITIONS`. -/
def Status.transitions : Status → List Status
  | pending => [awaitingReply, classified, optedOut, failed]
  | awaitingReply => [classified, optedOut, failed]
  | classified => [classified, followUpScheduled, escalated, disqualified, optedOut, closed]
  | followUpScheduled => [awaitingReply, escalated, closed, failed]
  | escalated => [closed, failed]
  | disqualified => []
  | optedOut => []
  | closed => []
  | failed => []

def canTransition (source target : Status) : Bool := target ∈ source.transitions

inductive ReplyIntent where
  | positive
  | negative
  | question
  | optOut
  | meetingRequest
  | uncertain
deriving DecidableEq

structure IntentClassification where
  intent : ReplyIntent
  confidence : Rat
  reason : String
deriving DecidableEq

inductive NextActionType where
  | followUp
  | escalate
  | disqualify
  | scheduleMeetingDeferred
  | close
deriving DecidableEq

structure NextBestAction where
  actionType : NextActionType
  reason : String
deriving DecidableEq

inductive Disposition where
  | qualified
  | disqualified
  | optedOut
  | noAction
deriving DecidableEq

structure ReplyMessage where
  id : String
  providerMessageId : String
  channel : String
  content : String
  receivedAt : Date
  messageIdHeader : Option String := none
  sender : Option String := none
  recipientAddress : Option String := none
  subject : Option String := none
  htmlBody : Option String := none
  inReplyTo : Option String := none
  references : Option (List String) := none
deriving DecidableEq

/-- What an inbound channel makes of a reply. -/
structure ReplyIngressEvent where
  tenantId : String
  workspaceId : String
  leadId : String
  channel : String
  providerMessageId : String
  content : String
  receivedAt : Date
  campaignId : Option String := none
  sequenceId : Option String := none
  executionId : Option String := none
  messageIdHeader : Option String := none
  sender : Option String := none
  recipientAddress : Option String := none
  subject : Option String := none
  htmlBody : Option String := none
  inReplyTo : Option String := none
  references : Option (List String) := none
deriving DecidableEq

structure Props where
  id : String
  tenantId : String
  workspaceId : String
  leadId : String
  channel : String
  recipientAddress : Option String := none
  campaignId : Option String := none
  sequenceId : Option String := none
  executionId : Option String := none
  status : Status := .pending
  messages : List ReplyMessage := []
  latestIntent : Option ReplyIntent := none
  latestConfidence : Option Rat := none
  nextAction : Option NextActionType := none
  escalatedReason : Option String := none
  optedOut : Bool := false
  createdAt : Date
  updatedAt : Date
deriving DecidableEq

/-- The payloads of the events. -/
inductive Event where
  | conversationStarted (conversationId leadId channel : String) (executionId : Option String)
  | replyReceived (conversationId replyMessageId providerMessageId channel snippet : String)
  | optOutRecorded (conversationId leadId channel : String)
  | intentClassified (conversationId : String) (intent : ReplyIntent) (confidence : Rat)
      (reason : String)
  | followUpScheduled (conversationId : String) (actionType : NextActionType) (reason : String)
  | conversationClosed (conversationId : String) (disposition : Disposition) (reason : String)
deriving DecidableEq

end Conversation

abbrev Conversation := Versioned.Aggregate Conversation.Props Conversation.Event

namespace Conversation

def create (props : Props) : Conversation :=
  (Versioned.Aggregate.init props).applyEvent
    (.conversationStarted props.id props.leadId props.channel props.executionId)

/-- `text.toLowerCase().includes(needle)` for a `needle` of lower-case ASCII letters. -/
def includesLower (needle text : String) : Bool :=
  (text.toList.map Char.toLower).tails.any needle.toList.isPrefixOf

/-- The reply asks to be left alone. -/
def asksToOptOut (content : String) : Bool :=
  includesLower "unsubscribe" content || includesLower "opt out" content

/-- `text.slice(0, n)`, counted in UTF-16 units; a surrogate pair the cut splits is left out. -/
def sliceUnits : Nat → List Char → List Char
  | _, [] => []
  | n, c :: cs =>
    let units := if c.val < 0x10000 then 1 else 2
    if units ≤ n then c :: sliceUnits (n - units) cs else []

def transitionTo (a : Conversation) (target : Status) (event : Event) : Conversation × OpResult :=
  if canTransition a.state.status target then
    ((a.write { a.state with status := target }).applyEvent event, .ok)
  else
    (a, .fail ("Cannot transition conversation from " ++ a.state.status.name ++ " to " ++
      target.name))

/-- Appends the reply and dates the conversation. -/
def Props.withReply (s : Props) (reply : ReplyMessage) (now : Date) : Props :=
  { s with messages := s.messages ++ [reply], updatedAt := now }

def recordReply (a : Conversation) (reply : ReplyMessage) (now : Date) :
    Conversation × OpResult :=
  if a.state.optedOut then
    (a, .fail "Cannot record reply: conversation has opted out")
  else if asksToOptOut reply.content then
    -- whether the status could move is not looked at
    let b := (transitionTo a .optedOut
      (.optOutRecorded a.state.id a.state.leadId a.state.channel)).1
    (b.write ({ b.state with optedOut := true }.withReply reply now), .ok)
  else
    let (b, result) := transitionTo a .classified
      (.replyReceived a.state.id reply.id reply.providerMessageId reply.channel
        (String.ofList (sliceUnits 200 reply.content.toList)))
    if result.success then (b.write (b.state.withReply reply now), .ok) else (b, result)

def classifyIntent (a : Conversation) (classification : IntentClassification) (now : Date) :
    Conversation × OpResult :=
  if a.state.status = .optedOut ∨ a.state.status = .disqualified then
    (a, .fail ("Cannot classify intent: conversation is " ++ a.state.status.name))
  else
    let (b, result) := transitionTo a .classified
      (.intentClassified a.state.id classification.intent classification.confidence
        classification.reason)
    if result.success then
      (b.write { b.state with
        latestIntent := some classification.intent
        latestConfidence := some classification.confidence
        updatedAt := now }, .ok)
    else (b, result)

/-- The status an action leads to. -/
def NextActionType.target : NextActionType → Status
  | followUp => .followUpScheduled
  | escalate => .escalated
  | disqualify => .disqualified
  | close => .closed
  | scheduleMeetingDeferred => .followUpScheduled

def decideAction (a : Conversation) (action : NextBestAction) (now : Date) :
    Conversation × OpResult :=
  if a.state.optedOut then
    (a, .fail "Cannot decide action: conversation has opted out")
  else
    -- the reason is written before the transition is checked
    let b := if action.actionType = .escalate then
      a.write { a.state with escalatedReason := some action.reason } else a
    let (c, result) := transitionTo b action.actionType.target
      (.followUpScheduled a.state.id action.actionType action.reason)
    if result.success then
      (c.write { c.state with nextAction := some action.actionType, updatedAt := now }, .ok)
    else (c, result)

def close (a : Conversation) (disposition : Disposition) (reason : String) (now : Date) :
    Conversation × OpResult :=
  let (b, result) := transitionTo a .closed
    (.conversationClosed a.state.id disposition reason)
  if result.success then (b.write { b.state with updatedAt := now }, .ok) else (b, result)

/-! ## What an operation does -/

/-- A transition either moves the status and the version, or changes nothing and fails. -/
theorem transitionTo_eq (a : Conversation) (target : Status) (event : Event) :
    (canTransition a.state.status target = true ∧
      (transitionTo a target event).2 = .ok ∧
      (transitionTo a target event).1.version = a.version + 1 ∧
      (transitionTo a target event).1.loadedVersion = a.loadedVersion ∧
      (transitionTo a target event).1.state = { a.state with status := target }) ∨
    (canTransition a.state.status target = false ∧
      (transitionTo a target event).2.success = false ∧
      (transitionTo a target event).1 = a) := by
  unfold transitionTo
  cases canTransition a.state.status target with
  | true => left; exact ⟨rfl, rfl, rfl, rfl, rfl⟩
  | false => right; exact ⟨rfl, rfl, rfl⟩

example : asksToOptOut "Please UNSUBSCRIBE me" = true := by decide

end VegaRevenue.Conversation
