import VegaRevenue.GraphInbound.Ingress

/-!
# Polling for what the notifications missed

`GraphReconciliationPoller.pollMailbox`: every message received since the checkpoint of the mailbox
is claimed under a key of the polls, and then read and correlated. An error anywhere in the loop
ends the poll, and its result is lost.

* `collect_cases` — what a message whose key was won adds to the result
-/

namespace VegaRevenue.GraphInbound

open Conversation (ReplyIngressEvent)
open Idempotency (Triple Clock)
open Idempotency.Postgres (Store)

structure PollerConfig where
  normalizer : GraphMessageNormalizer
  initialLookbackMs : Int := 3600000
  /-- `mailbox.toLowerCase()`. -/
  toLowerCase : String → String

/-- What the ports answer one poll; the claim and the correlation of a message by its place in
the list. -/
structure PollPorts where
  startedAt : Clock
  getFault : Option String := none
  listChangedMessages : (mailbox : String) → (since : Date) →
    Except String (List GraphMessagePayload)
  claimFault : Nat → Option String := fun _ => none
  correlate : Nat → Correlate
  now : Nat → Clock
  setFault : Option String := none

abbrev Checkpoints := String → Option Date

structure ReconciliationResult where
  processed : List ReplyIngressEvent
  skippedDuplicates : Nat
  notCorrelated : Nat
  ambiguous : Nat
deriving DecidableEq

/-- What the loop has gathered. -/
structure Gathered where
  processed : List ReplyIngressEvent := []
  skippedDuplicates : Nat := 0
  notCorrelated : Nat := 0
  ambiguous : Nat := 0
  latestReceivedAt : Date
deriving DecidableEq

def reconciliationSubscription (tenantConfig : TenantEmailConfig) : GraphSubscriptionRecord where
  tenantId := tenantConfig.tenantId
  workspaceId := none
  subscriptionScope := .legacyUnbound
  subscriptionId := "reconciliation:" ++ tenantConfig.fromAddress
  resource := "/users/" ++ tenantConfig.fromAddress ++ "/messages"

def pollKey (tenantConfig : TenantEmailConfig) (message : GraphMessagePayload) : Triple :=
  inboundKey tenantConfig.tenantId "poll" message.id

/-- The later of the date and the one the message tells. -/
def laterReceived (normalizer : GraphMessageNormalizer) (latest : Date)
    (message : GraphMessagePayload) : Date :=
  if blank message.receivedDateTime then latest
  else max latest ((message.receivedDateTime.bind normalizer.parseDate).getD latest)

/-- What a message whose key was won adds. -/
def collect (cfg : PollerConfig) (ports : PollPorts) (tenantConfig : TenantEmailConfig) (i : Nat)
    (message : GraphMessagePayload) (g : Gathered) : Except String Gathered :=
  match cfg.normalizer.normalize message (ports.now i).ms with
  | .normalized event =>
    match ports.correlate i tenantConfig.tenantId (reconciliationSubscription tenantConfig) event with
    | .error message => .error message
    | .ok (.notCorrelated _) => .ok { g with notCorrelated := g.notCorrelated + 1 }
    | .ok (.ambiguous _) => .ok { g with ambiguous := g.ambiguous + 1 }
    | .ok (.correlated execution leadId workspaceId) =>
      .ok { g with
        processed := g.processed ++
          [correlatedEvent event tenantConfig.tenantId leadId workspaceId execution]
        latestReceivedAt := laterReceived cfg.normalizer g.latestReceivedAt message }
  | _ => .ok g

/-- The messages the poll sees, and the date it starts from. -/
def listed (cfg : PollerConfig) (ports : PollPorts) (tenantConfig : TenantEmailConfig)
    (checkpoints : Checkpoints) : Except String (List GraphMessagePayload × Date) :=
  match ports.getFault with
  | some message => .error message
  | none =>
    let since := (checkpoints (cfg.toLowerCase tenantConfig.fromAddress)).getD
      (ports.startedAt.ms - cfg.initialLookbackMs)
    (ports.listChangedMessages tenantConfig.fromAddress since).map fun messages => (messages, since)

/-- The loop over the messages from place `i` on. -/
def pollMessages (cfg : PollerConfig) (ports : PollPorts) (tenantConfig : TenantEmailConfig) :
    Nat → List GraphMessagePayload → Store → Gathered → Store × Except String Gathered
  | _, [], store, g => (store, .ok g)
  | i, message :: messages, store, g =>
    match claim store (pollKey tenantConfig message) (ports.claimFault i) (ports.now i) with
    | (store, .failed error) => (store, .error error)
    | (store, .lost) =>
      pollMessages cfg ports tenantConfig (i + 1) messages store
        { g with skippedDuplicates := g.skippedDuplicates + 1 }
    | (store, .won) =>
      match collect cfg ports tenantConfig i message g with
      | .error error => (store, .error error)
      | .ok g => pollMessages cfg ports tenantConfig (i + 1) messages store g

def Gathered.result (g : Gathered) : ReconciliationResult :=
  ⟨g.processed, g.skippedDuplicates, g.notCorrelated, g.ambiguous⟩

/-- The checkpoint is moved last; where that fails, the result is lost. -/
def finishPoll (cfg : PollerConfig) (ports : PollPorts) (tenantConfig : TenantEmailConfig)
    (checkpoints : Checkpoints) (g : Gathered) : Checkpoints × Ended ReconciliationResult :=
  match ports.setFault with
  | some message => (checkpoints, .threw message)
  | none =>
    (Function.update checkpoints (cfg.toLowerCase tenantConfig.fromAddress)
      (some g.latestReceivedAt), .returned g.result)

def pollMailbox (cfg : PollerConfig) (ports : PollPorts) (tenantConfig : TenantEmailConfig)
    (store : Store) (checkpoints : Checkpoints) :
    Store × Checkpoints × Ended ReconciliationResult :=
  match listed cfg ports tenantConfig checkpoints with
  | .error message => (store, checkpoints, .threw message)
  | .ok (messages, since) =>
    match pollMessages cfg ports tenantConfig 0 messages store { latestReceivedAt := since } with
    | (store, .error message) => (store, checkpoints, .threw message)
    | (store, .ok g) => (store, finishPoll cfg ports tenantConfig checkpoints g)

/-- **What a message whose key was won adds to the result.** -/
theorem collect_cases {cfg : PollerConfig} {ports : PollPorts} {tenantConfig : TenantEmailConfig}
    {i : Nat} {message : GraphMessagePayload} {g g' : Gathered}
    (h : collect cfg ports tenantConfig i message g = .ok g') :
    g'.processed = g.processed ∨
      ∃ event, g'.processed = g.processed ++ [event] ∧ event.tenantId = tenantConfig.tenantId ∧
        event.providerMessageId = message.id := by
  unfold collect at h
  split at h
  next hevent =>
    split at h
    · cases h
    · cases h
      exact .inl rfl
    · cases h
      exact .inl rfl
    · cases h
      exact .inr ⟨_, rfl, rfl, normalize_id hevent⟩
  · cases h
    exact .inl rfl

end VegaRevenue.GraphInbound
