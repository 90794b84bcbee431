import VegaRevenue.Domain.Conversation
import VegaRevenue.Shared.Text

/-!
# Graph messages and their canonical form

`GraphMessageNormalizer`: a message of the mailbox as Graph returns it, and the reply it is read
as. Attachments are never fetched.

* `normalize_id` — the provider message id of a normalized reply is the id of the message
-/

namespace VegaRevenue.GraphInbound

open Conversation (ReplyIngressEvent)

inductive ContentType where
  | text
  | html
deriving DecidableEq

structure MessageBody where
  contentType : Option ContentType := none
  content : Option String := none
deriving DecidableEq

structure GraphMessagePayload where
  id : String
  internetMessageId : Option String := none
  subject : Option String := none
  /-- `from.emailAddress.address`. -/
  fromAddress : Option String := none
  /-- `emailAddress.address` of each of the `toRecipients`. -/
  toAddresses : List (Option String) := []
  body : Option MessageBody := none
  bodyPreview : Option String := none
  receivedDateTime : Option String := none
  hasAttachments : Option Bool := none
  /-- Names and values. -/
  internetMessageHeaders : List (String × String) := []
deriving DecidableEq

/-- A `ReplyIngressEvent` without what the correlation finds. -/
structure GraphNormalizedReply where
  channel : String
  providerMessageId : String
  content : String
  receivedAt : Date
  messageIdHeader : Option String
  sender : Option String
  recipientAddress : Option String
  subject : Option String
  htmlBody : Option String
  inReplyTo : Option String
  references : Option (List String)
  hadAttachments : Bool
deriving DecidableEq

inductive NormalizationOutcome where
  | normalized (event : GraphNormalizedReply)
  | oversized (reason : String)
  | malformed (reason : String)
deriving DecidableEq

/-- The normalizer, with the library that sanitizes HTML and the parser of dates; none is an
invalid date. -/
structure GraphMessageNormalizer where
  maxBodyLength : Nat := 200000
  sanitizeInboundHtml : String → String
  parseDate : String → Option Date

def findHeader (message : GraphMessagePayload) (name : String) : Option String :=
  (message.internetMessageHeaders.find? fun h => h.1.toLower = name.toLower).map Prod.snd

def parseReferences (headerValue : Option String) : Option (List String) :=
  headerValue.bind fun value => if words value = [] then none else some (words value)

/-- `s.replace(/<[^>]*>/g, ' ')`; `open?` is the tag that is being read, backwards. -/
def stripTags (open? : Option (List Char)) : List Char → List Char
  | [] => (open?.getD []).reverse
  | c :: cs =>
    match open? with
    | some tag => if c = '>' then ' ' :: stripTags none cs else stripTags (some (c :: tag)) cs
    | none => if c = '<' then stripTags (some [c]) cs else c :: stripTags none cs

/-- The text of sanitized HTML. -/
def plainText (html : String) : String :=
  trim (String.ofList (collapseSpaces false (stripTags none html.toList)))

/-- The date a message was received; `now` where it tells none. -/
def GraphMessageNormalizer.receivedAt (normalizer : GraphMessageNormalizer)
    (message : GraphMessagePayload) (now : Date) : Option Date :=
  if blank message.receivedDateTime then some now
  else message.receivedDateTime.bind normalizer.parseDate

def GraphMessageNormalizer.normalize (normalizer : GraphMessageNormalizer)
    (message : GraphMessagePayload) (now : Date) : NormalizationOutcome :=
  if message.id = "" then .malformed "Message is missing an id"
  else
    let rawBody := (message.body.bind MessageBody.content).getD (message.bodyPreview.getD "")
    if normalizer.maxBodyLength < utf16Length rawBody then
      .oversized s!"Message body exceeds {normalizer.maxBodyLength} characters"
    else
      let isHtml := message.body.bind MessageBody.contentType = some .html
      let htmlBody := if isHtml then some (normalizer.sanitizeInboundHtml rawBody) else none
      match normalizer.receivedAt message now with
      | none => .malformed "Invalid receivedDateTime"
      | some receivedAt =>
        .normalized {
          channel := "email"
          providerMessageId := message.id
          content := if isHtml then plainText (htmlBody.getD "") else rawBody
          receivedAt
          messageIdHeader := message.internetMessageId.or (findHeader message "Message-ID")
          sender := message.fromAddress
          recipientAddress := message.toAddresses.head?.join
          subject := message.subject
          htmlBody
          inReplyTo := findHeader message "In-Reply-To"
          references := parseReferences (findHeader message "References")
          hadAttachments := message.hasAttachments.getD false }

/-- What the correlation adds to a reply. -/
structure CorrelatedIdentity where
  tenantId : String
  workspaceId : String
  leadId : String
  campaignId : Option String
  sequenceId : Option String
  executionId : Option String
deriving DecidableEq

def toCanonicalReplyIngressEvent (normalized : GraphNormalizedReply)
    (correlation : CorrelatedIdentity) : ReplyIngressEvent where
  tenantId := correlation.tenantId
  workspaceId := correlation.workspaceId
  leadId := correlation.leadId
  channel := normalized.channel
  providerMessageId := normalized.providerMessageId
  content := normalized.content
  receivedAt := normalized.receivedAt
  campaignId := correlation.campaignId
  sequenceId := correlation.sequenceId
  executionId := correlation.executionId
  messageIdHeader := normalized.messageIdHeader
  sender := normalized.sender
  recipientAddress := normalized.recipientAddress
  subject := normalized.subject
  htmlBody := normalized.htmlBody
  inReplyTo := normalized.inReplyTo
  references := normalized.references

/-- **The provider message id of a normalized reply is the id of the message.** -/
theorem normalize_id {normalizer : GraphMessageNormalizer} {message : GraphMessagePayload}
    {now : Date} {event : GraphNormalizedReply}
    (h : normalizer.normalize message now = .normalized event) :
    event.providerMessageId = message.id := by
  unfold GraphMessageNormalizer.normalize at h
  split at h
  · cases h
  · dsimp only at h
    split at h
    · cases h
    · split at h
      · cases h
      · cases h
        rfl

example : plainText "<p>Please  <b>stop</b> < now" = "Please stop < now" := by decide

end VegaRevenue.GraphInbound
