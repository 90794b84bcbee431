import VegaRevenue.Domain.MessageExecution
import VegaRevenue.GraphInbound.Message
import VegaRevenue.Idempotency.Postgres

/-!
# Taking a notified message in

`GraphInboundIngressService.ingest` for one change notification: it claims the key of the message
under the subscription before it fetches the message, and never touches the record again. What the
ports answer is an input of the call.

* `claim_won`, `claim_not_won` — a claim occupies a free key, or it changes nothing
* `produce_processed` — a processed event carries the message that was claimed
-/

namespace VegaRevenue.GraphInbound

open Conversation (ReplyIngressEvent)
open Idempotency (Triple Clock)
open Idempotency.Postgres (Record Store)

/-! ## Records and ports -/

structure GraphChangeNotification where
  subscriptionId : String
  clientState : Option String := none
  changeType : String
  /-- As in `Users/{mailboxId}/Messages/{messageId}`. -/
  resource : String
  /-- `resourceData.id`. -/
  resourceDataId : Option String := none
  /-- The bytes of its JSON text. -/
  size : Nat := 0
deriving DecidableEq

structure TenantEmailConfig where
  tenantId : String
  fromAddress : String
  webhookSecretReference : Option String := none
deriving DecidableEq

inductive GraphSubscriptionScope where
  | workspaceBound
  | legacyUnbound
deriving DecidableEq

structure GraphSubscriptionRecord where
  tenantId : String
  workspaceId : Option String
  subscriptionScope : GraphSubscriptionScope
  subscriptionId : String
  resource : String
deriving DecidableEq

/-- What `GraphReplyCorrelator` answers. -/
inductive CorrelationOutcome where
  | correlated (execution : Option MessageExecution) (leadId workspaceId : String)
  | notCorrelated (reason : String)
  | ambiguous (reason : String)
deriving DecidableEq

/-- The correlator, for one call: by tenant, subscription and reply. -/
abbrev Correlate := String → GraphSubscriptionRecord → GraphNormalizedReply →
  Except String CorrelationOutcome

def inboundScope : String := "outreach:inbound-email"

def inboundKey (tenantId source messageId : String) : Triple :=
  ⟨tenantId, inboundScope, source ++ ":" ++ messageId⟩

/-- The canonical event of a correlated reply. -/
def correlatedEvent (normalized : GraphNormalizedReply) (tenantId leadId workspaceId : String)
    (execution : Option MessageExecution) : ReplyIngressEvent :=
  toCanonicalReplyIngressEvent normalized {
    tenantId, workspaceId, leadId
    campaignId := execution.map (·.state.campaignId)
    sequenceId := execution.map (·.state.sequenceId)
    executionId := execution.map (·.state.id) }

/-- How a call ends: it returns, or throws with the message of the error. -/
inductive Ended (α : Type) where
  | returned (result : α)
  | threw (message : String)
deriving DecidableEq

/-- How a claim goes: it is won or not, or its statement fails. -/
inductive Claimed where
  | won
  | lost
  | failed (message : String)
deriving DecidableEq

/-- The claim of a key, unless a fault meets its statement. -/
def claim (store : Store) (key : Triple) (fault : Option String) (now : Clock) : Store × Claimed :=
  match fault with
  | some message => (store, .failed message)
  | none =>
    match Idempotency.Postgres.claim store key now with
    | (store, .claimed true) => (store, .won)
    | (store, .claimed false) => (store, .lost)
    | (store, _) => (store, .failed "the database rejects the statement")

/-! ## One notification -/

inductive IngressOutcome where
  | processed (event : ReplyIngressEvent)
  | duplicate
  | rejected (reasonCode reason : String)
  | notCorrelated (reason : String)
  | ambiguous (reason : String)
deriving DecidableEq

structure IngressConfig where
  normalizer : GraphMessageNormalizer
  maxNotificationBytes : Nat := 262144
  /-- Throws on a malformed escape. -/
  decodeURIComponent : String → Except String String

/-- What the ports answer one notification. Graph returns a message under its own id. -/
structure IngressPorts where
  findByMailboxAddress : String → Except String (Option TenantEmailConfig)
  findBySubscriptionId : (tenantId subscriptionId : String) →
    Except String (Option GraphSubscriptionRecord)
  getSecret : String → Except String String
  claimFault : Option String := none
  getMessage : (mailbox messageId : String) → Except String (Option GraphMessagePayload)
  getMessage_id : ∀ mailbox messageId message,
    getMessage mailbox messageId = .ok (some message) → message.id = messageId
  correlate : Correlate
  now : Clock

/-- `Users/{mailbox}/Messages/`, without regard to case, at the start of a text. -/
def mailboxAt (cs : List Char) : Option String :=
  let mailbox := (cs.drop 6).takeWhile (· ≠ '/')
  if (cs.take 6).map Char.toLower = "users/".toList ∧ mailbox ≠ [] ∧
      (((cs.drop 6).dropWhile (· ≠ '/')).take 10).map Char.toLower = "/messages/".toList then
    some (String.ofList mailbox)
  else none

def extractMailbox (cfg : IngressConfig) (resource : String) : Except String (Option String) :=
  match resource.toList.tails.findSome? mailboxAt with
  | none => .ok none
  | some mailbox => (cfg.decodeURIComponent mailbox).map some

/-- Why a notification is rejected. -/
structure Rejection where
  reasonCode : String
  reason : String
deriving DecidableEq

def validateShape (cfg : IngressConfig) (n : GraphChangeNotification) : Option Rejection :=
  if cfg.maxNotificationBytes < n.size then
    some ⟨"OVERSIZED", s!"Notification exceeds {cfg.maxNotificationBytes} bytes"⟩
  else if n.subscriptionId = "" then some ⟨"MALFORMED", "Missing subscriptionId"⟩
  else if n.resource = "" then some ⟨"MALFORMED", "Missing resource"⟩
  else if n.changeType = "" then some ⟨"MALFORMED", "Missing changeType"⟩
  else none

/-- `validateClientState`; the secret is read before the state is looked at. -/
def validateClientState (ports : IngressPorts) (n : GraphChangeNotification)
    (webhookSecretReference : Option String) : Except String (Option Rejection) :=
  if blank webhookSecretReference then
    .ok (some ⟨"INVALID_CLIENT_STATE", "Tenant has no webhook secret configured"⟩)
  else
    (ports.getSecret (webhookSecretReference.getD "")).map fun expected =>
      if blank n.clientState ∨ n.clientState ≠ some expected then
        some ⟨"INVALID_CLIENT_STATE", "clientState does not match the registered secret"⟩
      else none

/-- The notification whose message may be claimed. -/
structure Admitted where
  tenantId : String
  subscription : GraphSubscriptionRecord
  messageId : String

/-- Goes on unless a port throws. -/
def Ended.ofPort {α : Type} (r : Except String α) : Except (Ended Rejection) α :=
  r.mapError .threw

/-- Goes on unless there is a rejection. -/
def Ended.unless (rejection : Option Rejection) : Except (Ended Rejection) Unit :=
  match rejection with
  | some rejection => .error (.returned rejection)
  | none => .ok ()

/-- Goes on with what was found. -/
def Ended.orReject {α : Type} (found : Option α) (reasonCode reason : String) :
    Except (Ended Rejection) α :=
  match found with
  | some a => .ok a
  | none => .error (.returned ⟨reasonCode, reason⟩)

/-- The subscription covers the resource. -/
def covers (subscription : GraphSubscriptionRecord) (resource : String) : Bool :=
  resource = subscription.resource ||
    (subscription.resource ++ "/").toList.isPrefixOf resource.toList

/-- Everything before the claim. -/
def admitted (cfg : IngressConfig) (ports : IngressPorts) (n : GraphChangeNotification) :
    Except (Ended Rejection) Admitted := do
  Ended.unless (validateShape cfg n)
  let mailbox ← Ended.orReject (← Ended.ofPort (extractMailbox cfg n.resource)) "TENANT_NOT_FOUND"
    ("Could not extract a mailbox from resource \"" ++ n.resource ++ "\"")
  let config ← Ended.orReject (← Ended.ofPort (ports.findByMailboxAddress mailbox))
    "TENANT_NOT_FOUND" ("No tenant is registered for mailbox \"" ++ mailbox ++ "\"")
  let subscription ← Ended.orReject
    (← Ended.ofPort (ports.findBySubscriptionId config.tenantId n.subscriptionId))
    "TENANT_SUBSCRIPTION_MISMATCH" "Subscription is not registered for this tenant"
  Ended.unless (if covers subscription n.resource then none else some
    ⟨"SUBSCRIPTION_RESOURCE_MISMATCH",
      "Subscription resource does not cover the notification resource"⟩)
  Ended.unless (← Ended.ofPort (validateClientState ports n config.webhookSecretReference))
  let messageId ← Ended.orReject (n.resourceDataId.filter (· ≠ "")) "MALFORMED"
    "Notification is missing resourceData.id"
  return ⟨config.tenantId, subscription, messageId⟩

/-- A call that is over before its claim. -/
def Ended.rejected : Ended Rejection → Ended IngressOutcome
  | .returned rejection => .returned (.rejected rejection.reasonCode rejection.reason)
  | .threw message => .threw message

/-- Everything after a claim that is won. -/
def produce (cfg : IngressConfig) (ports : IngressPorts) (n : GraphChangeNotification)
    (a : Admitted) : Ended IngressOutcome :=
  match extractMailbox cfg n.resource with
  | .error message => .threw message
  | .ok none => .returned (.rejected "MALFORMED" "Could not extract mailbox from resource")
  | .ok (some mailbox) =>
    match ports.getMessage mailbox a.messageId with
    | .error message => .threw message
    | .ok none => .returned (.rejected "MESSAGE_NOT_FOUND"
        s!"Graph message {a.messageId} could not be fetched")
    | .ok (some rawMessage) =>
      match cfg.normalizer.normalize rawMessage ports.now.ms with
      | .oversized reason => .returned (.rejected "OVERSIZED" reason)
      | .malformed reason => .returned (.rejected "MALFORMED" reason)
      | .normalized event =>
        match ports.correlate a.tenantId a.subscription event with
        | .error message => .threw message
        | .ok (.notCorrelated reason) => .returned (.notCorrelated reason)
        | .ok (.ambiguous reason) => .returned (.ambiguous reason)
        | .ok (.correlated execution leadId workspaceId) =>
          .returned (.processed (correlatedEvent event a.tenantId leadId workspaceId execution))

def Admitted.key (a : Admitted) (n : GraphChangeNotification) : Triple :=
  inboundKey a.tenantId n.subscriptionId a.messageId

def ingest (cfg : IngressConfig) (ports : IngressPorts) (n : GraphChangeNotification)
    (store : Store) : Store × Ended IngressOutcome :=
  match admitted cfg ports n with
  | .error ended => (store, ended.rejected)
  | .ok a =>
    match claim store (a.key n) ports.claimFault ports.now with
    | (store, .won) => (store, produce cfg ports n a)
    | (store, .lost) => (store, .returned .duplicate)
    | (store, .failed message) => (store, .threw message)

/-! ## What a claim and a processed event tell -/

/-- **A claim that is won occupies a free key.** -/
theorem claim_won {store store' : Store} {key : Triple} {fault : Option String} {now : Clock}
    (h : claim store key fault now = (store', .won)) :
    fault = none ∧ ClaimRegister.wins Record.reclaimable store key = true ∧
      ∃ r, r.status = .pending ∧ store' = Function.update store key (some r) := by
  unfold claim at h
  cases fault with
  | some message => cases h
  | none =>
    dsimp only at h
    have hcases := Idempotency.Postgres.claim_cases store key now
    split at h
    next hc =>
      cases h
      rw [hc] at hcases
      rcases hcases with ⟨-, hwins, hr⟩ | ⟨hlost, -⟩
      · exact ⟨rfl, hwins, hr⟩
      · exact absurd rfl hlost
    · cases h
    · cases h

/-- Every other claim changes nothing. -/
theorem claim_not_won {store store' : Store} {key : Triple} {fault : Option String} {now : Clock}
    {claimed : Claimed} (h : claim store key fault now = (store', claimed))
    (hne : claimed ≠ .won) : store' = store := by
  unfold claim at h
  cases fault with
  | some message =>
    cases h
    rfl
  | none =>
    dsimp only at h
    rcases Idempotency.Postgres.claim_cases store key now with ⟨hwon, -⟩ | ⟨-, hs⟩
    · cases hc : Idempotency.Postgres.claim store key now with
      | mk s answer =>
        rw [hc] at h hwon
        obtain rfl : answer = .claimed true := hwon
        cases h
        exact absurd rfl hne
    · split at h <;> cases h
      · exact absurd rfl hne
      next hc =>
        rw [hc] at hs
        exact hs
      next hc =>
        rw [hc] at hs
        exact hs

/-- **A processed event carries the message that was claimed.** -/
theorem produce_processed {cfg : IngressConfig} {ports : IngressPorts}
    {n : GraphChangeNotification} {a : Admitted} {event : ReplyIngressEvent}
    (h : produce cfg ports n a = .returned (.processed event)) :
    event.tenantId = a.tenantId ∧ event.providerMessageId = a.messageId := by
  unfold produce at h
  split at h
  · cases h
  · cases h
  · split at h
    · cases h
    · cases h
    next hmessage =>
      split at h
      · cases h
      · cases h
      next hevent =>
        split at h
        · cases h
        · cases h
        · cases h
        · cases h
          exact ⟨rfl, (normalize_id hevent).trans (ports.getMessage_id _ _ _ hmessage)⟩

end VegaRevenue.GraphInbound
