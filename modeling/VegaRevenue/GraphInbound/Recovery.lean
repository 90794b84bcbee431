import VegaRevenue.GraphInbound.AtMostOnce
import VegaRevenue.Lib.Lease
import VegaRevenue.Lib.Machine

/-!
# Messages that are claimed and never yielded

Notifications and polls one after another. A call that wins the key of a message keeps it for good,
also where it then fails to yield the message, and every later delivery of it is a duplicate.

* `noReplyLost_of_fulfilled` — where every call yields what it claims, no message is lost
* `not_noReplyLost_unfetched` — a message that was not there at its first delivery stays lost
-/

namespace VegaRevenue.GraphInbound

open Conversation (ReplyIngressEvent)
open Idempotency (Triple Clock)
open Idempotency.Postgres (Record Store sendable)

/-! ## Calls one after another -/

inductive Answer where
  | ingested (ended : Ended IngressOutcome)
  | polled (ended : Ended ReconciliationResult)

/-- The events of the result of a call. -/
def Answer.events : Answer → List ReplyIngressEvent
  | ingested (.returned (.processed event)) => [event]
  | polled (.returned result) => result.processed
  | _ => []

/-- The result carries the message. -/
def Answer.Yields (answer : Answer) (tenantId messageId : String) : Prop :=
  ∃ event ∈ answer.events, event.tenantId = tenantId ∧ event.providerMessageId = messageId

instance (answer : Answer) (tenantId messageId : String) :
    Decidable (answer.Yields tenantId messageId) := List.decidableBEx _ _

def perform (d : Deployment) (w : World) : Call → World × Answer
  | .notification n ports =>
    let out := ingest d.ingress ports n w.store
    ({ w with store := out.1 }, .ingested out.2)
  | .poll tenantConfig ports =>
    let out := pollMailbox d.poller ports tenantConfig w.store w.checkpoints
    (⟨out.1, out.2.1⟩, .polled out.2.2)

/-! ## What can go wrong with a message -/

def free (store : Store) (key : Triple) : Bool := ClaimRegister.wins Record.reclaimable store key

/-- The statement of a claim goes through: the key can be sent, and its record can be read. -/
def Served (store : Store) (key : Triple) : Prop :=
  sendable key = true ∧
    ∀ r, store key = some r → ¬(r.status = .failed ∧ r.submitted = .invalid)

/-- The message of a notification is fetched, normalized and correlated. -/
def Produces (cfg : IngressConfig) (ports : IngressPorts) (n : GraphChangeNotification)
    (a : Admitted) : Prop :=
  ∃ mailbox message event execution leadId workspaceId,
    extractMailbox cfg n.resource = .ok (some mailbox) ∧
    ports.getMessage mailbox a.messageId = .ok (some message) ∧
    cfg.normalizer.normalize message ports.now.ms = .normalized event ∧
    ports.correlate a.tenantId a.subscription event = .ok (.correlated execution leadId workspaceId)

/-- The message at place `i` of a poll is normalized and correlated. -/
def Correlates (cfg : PollerConfig) (ports : PollPorts) (tenantConfig : TenantEmailConfig)
    (i : Nat) (message : GraphMessagePayload) : Prop :=
  ∃ event execution leadId workspaceId,
    cfg.normalizer.normalize message (ports.now i).ms = .normalized event ∧
    ports.correlate i tenantConfig.tenantId (reconciliationSubscription tenantConfig) event =
      .ok (.correlated execution leadId workspaceId)

/-- The call is about the message, and nothing fails for it: a notification that is admitted and
whose message is fetched, normalized and correlated, or a poll that lists it and correlates it. -/
def Covers (d : Deployment) (w : World) (tenantId messageId : String) : Call → Prop
  | .notification n ports =>
    ∃ a, admitted d.ingress ports n = .ok a ∧ a.tenantId = tenantId ∧ a.messageId = messageId ∧
      ports.claimFault = none ∧ Served w.store (a.key n) ∧ Produces d.ingress ports n a
  | .poll tenantConfig ports =>
    tenantConfig.tenantId = tenantId ∧
      ∃ messages since i message, listed d.poller ports tenantConfig w.checkpoints =
          .ok (messages, since) ∧ messages[i]? = some message ∧ message.id = messageId ∧
        ports.claimFault i = none ∧ Served w.store (pollKey tenantConfig message) ∧
        Correlates d.poller ports tenantConfig i message

/-- Every call that covers a message yields it, unless an earlier call did. -/
def NoReplyLost (d : Deployment) (w : World) (calls : List Call) : Prop :=
  ∀ before call after, calls = before ++ call :: after → ∀ tenantId messageId,
    Covers d (Machine.final (perform d) w before) tenantId messageId call →
    (perform d (Machine.final (perform d) w before) call).2.Yields tenantId messageId ∨
      ∃ answer ∈ Machine.outputs (perform d) w before, answer.Yields tenantId messageId

/-! ## Calls that yield what they claim -/

/-- The loop goes through, and every message whose key was free before the poll is correlated at
its first place; `seen` are the ids at the places before. -/
def Gathers (cfg : PollerConfig) (ports : PollPorts) (tenantConfig : TenantEmailConfig)
    (store : Store) : Nat → List String → List GraphMessagePayload → Prop
  | _, _, [] => True
  | i, seen, message :: messages =>
    ports.claimFault i = none ∧ Served store (pollKey tenantConfig message) ∧
      (message.id ∉ seen → free store (pollKey tenantConfig message) = true →
        Correlates cfg ports tenantConfig i message) ∧
      Gathers cfg ports tenantConfig store (i + 1) (message.id :: seen) messages

/-- The call yields every message that it claims, and the ids it meets hold no colon. -/
def Fulfils (d : Deployment) (w : World) : Call → Prop
  | .notification n ports =>
    ∀ a, admitted d.ingress ports n = .ok a → ':' ∉ a.messageId.toList ∧
      (ports.claimFault = none → sendable (a.key n) = true → free w.store (a.key n) = true →
        Produces d.ingress ports n a)
  | .poll tenantConfig ports =>
    ∀ messages since, listed d.poller ports tenantConfig w.checkpoints = .ok (messages, since) →
      (∀ message ∈ messages, ':' ∉ message.id.toList) ∧
        ((∀ message ∈ messages, free w.store (pollKey tenantConfig message) = false) ∨
          ports.setFault = none ∧ Gathers d.poller ports tenantConfig w.store 0 [] messages)

/-! ## Keys -/

/-- What follows the last colon of a text. -/
theorem afterColon {a b : String} (h : ':' ∉ b.toList) :
    (a ++ ":" ++ b).toList.reverse.takeWhile (· ≠ ':') = b.toList.reverse := by
  have hall : ∀ c ∈ b.toList.reverse, decide (c ≠ ':') = true := by
    intro c hc
    rw [decide_eq_true_iff]
    rintro rfl
    exact h (List.mem_reverse.mp hc)
  rw [String.toList_append, String.toList_append, List.reverse_append, List.reverse_append,
    List.takeWhile_append_of_pos hall]
  simp

/-- The messages of one key are the same where their ids hold no colon. -/
theorem eq_of_inboundKey_eq {tenantId tenantId' source source' messageId messageId' : String}
    (h : inboundKey tenantId source messageId = inboundKey tenantId' source' messageId')
    (hm : ':' ∉ messageId.toList) (hm' : ':' ∉ messageId'.toList) :
    tenantId = tenantId' ∧ messageId = messageId' := by
  unfold inboundKey at h
  rw [Triple.mk.injEq] at h
  obtain ⟨htenant, -, hkey⟩ := h
  have hrev : messageId.toList.reverse = messageId'.toList.reverse := by
    rw [← afterColon (a := source) hm, hkey, afterColon hm']
  exact ⟨htenant, String.toList_inj.mp (List.reverse_injective hrev)⟩

/-! ## Claims -/

/-- A claim whose statement goes through is won exactly on a free key. -/
theorem claim_served {store : Store} {key : Triple} (now : Clock) (h : Served store key) :
    (free store key = true ∧ ∃ r, r.status = .pending ∧
      claim store key none now = (Function.update store key (some r), .won)) ∨
    (free store key = false ∧ claim store key none now = (store, .lost)) := by
  obtain ⟨row, hrow⟩ := Idempotency.Postgres.claimRow?_of_sendable now h.1
  unfold claim
  dsimp only
  rw [Idempotency.Postgres.claim_eq hrow]
  cases hw : ClaimRegister.wins Record.reclaimable store key with
  | true =>
    left
    exact ⟨hw, row (store key), (Idempotency.Postgres.claimRow?_pending hrow _).1, rfl⟩
  | false =>
    right
    refine ⟨hw, ?_⟩
    rw [if_neg nofun, if_neg]
    rintro ⟨r, hr, hbad⟩
    exact h.2 r hr hbad

theorem free_update {store : Store} {key : Triple} {r : Record} (hr : r.status = .pending)
    (k : Triple) :
    free (Function.update store key (some r)) k = (decide (k ≠ key) && free store k) := by
  unfold free
  by_cases hk : k = key
  · rw [hk, Lease.wins_update_self]
    simp [Record.reclaimable, hr]
  · rw [Lease.wins_update_ne _ _ hk]
    simp [hk]

theorem Served.update {store : Store} {key k : Triple} {r : Record} (hr : r.status = .pending)
    (h : Served store k) : Served (Function.update store key (some r)) k := by
  refine ⟨h.1, fun r' hr' => ?_⟩
  by_cases hk : k = key
  · rw [hk, Function.update_self] at hr'
    cases hr'
    simp [hr]
  · rw [Function.update_of_ne hk] at hr'
    exact h.2 r' hr'

/-- The parameters of a claim that was won could be sent. -/
theorem sendable_of_claim_won {store store' : Store} {key : Triple} {fault : Option String}
    {now : Clock} (h : claim store key fault now = (store', .won)) : sendable key = true := by
  unfold claim at h
  cases fault with
  | some message => cases h
  | none =>
    cases hrow : Idempotency.Postgres.claimRow? key now with
    | some row => exact Idempotency.Postgres.sendable_of_claimRow? hrow
    | none =>
      have hthrew : Idempotency.Postgres.claim store key now = (store, .threw) := by
        unfold Idempotency.Postgres.claim
        rw [hrow]
      simp [hthrew] at h

/-! ## What is produced and gathered -/

/-- A message that is fetched, normalized and correlated is processed. -/
theorem Produces.processed {cfg : IngressConfig} {ports : IngressPorts}
    {n : GraphChangeNotification} {a : Admitted} (h : Produces cfg ports n a) :
    ∃ event, produce cfg ports n a = .returned (.processed event) := by
  obtain ⟨mailbox, message, event, execution, leadId, workspaceId, hmailbox, hmessage, hevent,
    hcorrelated⟩ := h
  refine ⟨correlatedEvent event a.tenantId leadId workspaceId execution, ?_⟩
  unfold produce
  simp only [hmailbox, hmessage, hevent, hcorrelated]

/-- A message that is normalized and correlated is collected. -/
theorem Correlates.collected {cfg : PollerConfig} {ports : PollPorts}
    {tenantConfig : TenantEmailConfig} {i : Nat} {message : GraphMessagePayload}
    (h : Correlates cfg ports tenantConfig i message) (g : Gathered) :
    ∃ g' event, collect cfg ports tenantConfig i message g = .ok g' ∧
      g'.processed = g.processed ++ [event] ∧ event.tenantId = tenantConfig.tenantId ∧
      event.providerMessageId = message.id := by
  obtain ⟨event, execution, leadId, workspaceId, hevent, hcorrelated⟩ := h
  unfold collect
  simp only [hevent, hcorrelated]
  exact ⟨_, correlatedEvent event tenantConfig.tenantId leadId workspaceId execution, rfl, rfl, rfl,
    normalize_id hevent⟩

/-- Two messages of one mailbox with one key are the same. -/
theorem id_eq_of_pollKey_eq {tenantConfig : TenantEmailConfig}
    {message message' : GraphMessagePayload}
    (h : pollKey tenantConfig message = pollKey tenantConfig message') :
    message.id = message'.id := by
  unfold pollKey inboundKey at h
  rw [Triple.mk.injEq] at h
  have hlist := congrArg String.toList h.2.2
  rw [String.toList_append, String.toList_append (s := "poll" ++ ":") (t := message'.id)] at hlist
  exact String.toList_inj.mp (List.append_cancel_left hlist)

/-! ## The loop of a poll -/

section Loop

variable {cfg : PollerConfig} {ports : PollPorts} {tenantConfig : TenantEmailConfig}
  {store₀ store store' : Store} {seen : List String} {message : GraphMessagePayload}

/-- The store after the messages `seen` of a poll that began on `store₀`. -/
structure Looked (tenantConfig : TenantEmailConfig) (store₀ : Store) (seen : List String)
    (store : Store) : Prop where
  unseen : ∀ message : GraphMessagePayload, message.id ∉ seen →
    free store (pollKey tenantConfig message) = free store₀ (pollKey tenantConfig message)
  taken : ∀ message : GraphMessagePayload, message.id ∈ seen →
    free store (pollKey tenantConfig message) = false
  served : ∀ k, Served store₀ k → Served store k

theorem Looked.start (tenantConfig : TenantEmailConfig) (store₀ : Store) :
    Looked tenantConfig store₀ [] store₀ where
  unseen _ _ := rfl
  taken _ h := nomatch h
  served _ h := h

/-- A message whose key is occupied changes nothing. -/
theorem Looked.lost (h : Looked tenantConfig store₀ seen store)
    (hfree : free store (pollKey tenantConfig message) = false) :
    Looked tenantConfig store₀ (message.id :: seen) store where
  unseen message' hm := h.unseen message' fun hseen => hm (List.mem_cons_of_mem _ hseen)
  taken message' hm := by
    rcases List.mem_cons.mp hm with hid | hseen
    · unfold pollKey
      rw [hid]
      exact hfree
    · exact h.taken message' hseen
  served := h.served

/-- A message whose key is won occupies it. -/
theorem Looked.won (h : Looked tenantConfig store₀ seen store) {r : Record}
    (hr : r.status = .pending) :
    Looked tenantConfig store₀ (message.id :: seen)
      (Function.update store (pollKey tenantConfig message) (some r)) where
  unseen message' hm := by
    have hne : pollKey tenantConfig message' ≠ pollKey tenantConfig message := by
      intro hkey
      rw [id_eq_of_pollKey_eq hkey] at hm
      exact hm List.mem_cons_self
    rw [free_update hr, h.unseen message' fun hseen => hm (List.mem_cons_of_mem _ hseen)]
    simp [hne]
  taken message' hm := by
    rw [free_update hr]
    rcases List.mem_cons.mp hm with hid | hseen
    · have hkey : pollKey tenantConfig message' = pollKey tenantConfig message := by
        unfold pollKey
        rw [hid]
      simp [hkey]
    · simp [h.taken message' hseen]
  served k hk := (h.served k hk).update hr

/-- What a loop over `messages` does to the keys and to what was gathered: every key that it
occupies is the key of an event that it adds. -/
structure Adds (tenantConfig : TenantEmailConfig) (messages : List GraphMessagePayload)
    (store store' : Store) (g g' : Gathered) : Prop where
  kept : ∀ event ∈ g.processed, event ∈ g'.processed
  occupied : ∀ k, free store k = false → free store' k = false
  listed : ∀ message ∈ messages, free store' (pollKey tenantConfig message) = false
  given : ∀ k, free store' k = false → free store k = false ∨
    ∃ event ∈ g'.processed, ∃ message ∈ messages, k = pollKey tenantConfig message ∧
      event.tenantId = tenantConfig.tenantId ∧ event.providerMessageId = message.id

/-- A message whose key is occupied before the rest of the loop. -/
theorem Adds.cons_lost {messages : List GraphMessagePayload} {g g₁ g' : Gathered}
    (h : Adds tenantConfig messages store store' g₁ g') (hg : g₁.processed = g.processed)
    (hfree : free store (pollKey tenantConfig message) = false) :
    Adds tenantConfig (message :: messages) store store' g g' where
  kept event he := h.kept event (by rw [hg]; exact he)
  occupied := h.occupied
  listed message' hm := by
    rcases List.mem_cons.mp hm with rfl | hm
    · exact h.occupied _ hfree
    · exact h.listed message' hm
  given k hk := by
    rcases h.given k hk with hbefore | ⟨event, he, message', hm, hrest⟩
    · exact .inl hbefore
    · exact .inr ⟨event, he, message', List.mem_cons_of_mem _ hm, hrest⟩

/-- A message whose key is won and that is collected before the rest of the loop. -/
theorem Adds.cons_won {messages : List GraphMessagePayload} {g g₁ g' : Gathered}
    {event : ReplyIngressEvent} {r : Record} (hr : r.status = .pending)
    (h : Adds tenantConfig messages
      (Function.update store (pollKey tenantConfig message) (some r)) store' g₁ g')
    (hg : g₁.processed = g.processed ++ [event]) (htenant : event.tenantId = tenantConfig.tenantId)
    (hid : event.providerMessageId = message.id) :
    Adds tenantConfig (message :: messages) store store' g g' where
  kept event' he := h.kept event' (by rw [hg]; exact List.mem_append_left _ he)
  occupied k hk := h.occupied k (by rw [free_update hr, hk, Bool.and_false])
  listed message' hm := by
    rcases List.mem_cons.mp hm with rfl | hm
    · exact h.occupied _ (by rw [free_update hr]; simp)
    · exact h.listed message' hm
  given k hk := by
    rcases h.given k hk with hbefore | ⟨event', he, message', hm, hrest⟩
    · rw [free_update hr] at hbefore
      by_cases hkey : k = pollKey tenantConfig message
      · have hadded : event ∈ g'.processed :=
          h.kept event (by rw [hg]; exact List.mem_append_right _ (List.mem_singleton_self _))
        exact .inr ⟨event, hadded, message, List.mem_cons_self, hkey, htenant, hid⟩
      · left
        simpa [hkey] using hbefore
    · exact .inr ⟨event', he, message', List.mem_cons_of_mem _ hm, hrest⟩

/-- **A loop that gathers goes through, and gives what it occupies.** -/
theorem pollMessages_gathers (messages : List GraphMessagePayload) :
    ∀ {i : Nat} {seen : List String} {store : Store} (g : Gathered),
      Looked tenantConfig store₀ seen store →
      Gathers cfg ports tenantConfig store₀ i seen messages →
      ∃ store' g', pollMessages cfg ports tenantConfig i messages store g = (store', .ok g') ∧
        Adds tenantConfig messages store store' g g' := by
  induction messages with
  | nil =>
    intro i seen store g _ _
    refine ⟨store, g, by rw [pollMessages], ?_⟩
    have hlisted : ∀ message ∈ [], free store (pollKey tenantConfig message) = false := by
      intro message hm
      exact absurd hm List.not_mem_nil
    exact ⟨fun _ he => he, fun _ hk => hk, hlisted, fun _ hk => .inl hk⟩
  | cons message messages ih =>
    intro i seen store g hlooked hgathers
    obtain ⟨hfault, hserved, hcorrelates, hrest⟩ := hgathers
    rw [pollMessages, hfault]
    rcases claim_served (ports.now i) (hlooked.served _ hserved) with
      ⟨hfree, r, hr, hclaim⟩ | ⟨hfree, hclaim⟩
    · -- a key that is free now was free before the poll, and its message was not seen
      have hseen : message.id ∉ seen := by
        intro hseen
        rw [hlooked.taken message hseen] at hfree
        cases hfree
      have hbefore := hlooked.unseen message hseen
      obtain ⟨g₁, event, hcollect, hg, htenant, hid⟩ :=
        (hcorrelates hseen (hbefore.symm.trans hfree)).collected g
      obtain ⟨store', g', hloop, hadds⟩ := ih g₁ (hlooked.won hr) hrest
      refine ⟨store', g', ?_, hadds.cons_won hr hg htenant hid⟩
      simp only [hclaim, hcollect]
      exact hloop
    · obtain ⟨store', g', hloop, hadds⟩ :=
        ih { g with skippedDuplicates := g.skippedDuplicates + 1 } (hlooked.lost hfree) hrest
      refine ⟨store', g', ?_, hadds.cons_lost rfl hfree⟩
      simp only [hclaim]
      exact hloop

/-- A loop over messages whose keys are all occupied changes nothing. -/
theorem pollMessages_occupied (messages : List GraphMessagePayload) :
    ∀ (i : Nat) (g : Gathered),
      (∀ message ∈ messages, free store (pollKey tenantConfig message) = false) →
      (pollMessages cfg ports tenantConfig i messages store g).1 = store := by
  induction messages with
  | nil => exact fun _ _ _ => rfl
  | cons message messages ih =>
    intro i g hall
    rw [pollMessages]
    cases hc : claim store (pollKey tenantConfig message) (ports.claimFault i) (ports.now i) with
    | mk s claimed =>
      cases claimed with
      | won =>
        have hwins := (claim_won hc).2.1
        rw [show ClaimRegister.wins Record.reclaimable store (pollKey tenantConfig message) = false
          from hall message List.mem_cons_self] at hwins
        cases hwins
      | lost =>
        obtain rfl := claim_not_won hc (by rintro ⟨⟩)
        exact ih _ _ fun message' hm => hall message' (List.mem_cons_of_mem _ hm)
      | failed error => exact claim_not_won hc (by rintro ⟨⟩)

end Loop

/-! ## A call that fulfils its claims -/

/-- The key is one of a message that the answer carries. -/
def Answer.Gives (answer : Answer) (key : Triple) : Prop :=
  ∃ tenantId source messageId, key = inboundKey tenantId source messageId ∧
    ':' ∉ messageId.toList ∧ answer.Yields tenantId messageId

variable {d : Deployment} {w : World}

/-- A notification gives what it occupies. -/
theorem notification_gives {n : GraphChangeNotification} {ports : IngressPorts}
    (h : Fulfils d w (.notification n ports)) {k : Triple}
    (hk : free (perform d w (.notification n ports)).1.store k = false) :
    free w.store k = false ∨ (perform d w (.notification n ports)).2.Gives k := by
  simp only [perform, ingest] at hk ⊢
  cases ha : admitted d.ingress ports n with
  | error ended =>
    rw [ha] at hk
    exact .inl hk
  | ok a =>
    simp only [ha] at hk ⊢
    obtain ⟨hcolon, hproduces⟩ := h a ha
    cases hc : claim w.store (a.key n) ports.claimFault ports.now with
    | mk store claimed =>
      simp only [hc] at hk ⊢
      cases claimed with
      | won =>
        obtain ⟨hfault, hfree, r, hr, rfl⟩ := claim_won hc
        rw [free_update hr] at hk
        by_cases hkey : k = a.key n
        · right
          obtain ⟨event, hevent⟩ :=
            (hproduces hfault (sendable_of_claim_won hc) hfree).processed
          obtain ⟨htenant, hid⟩ := produce_processed hevent
          refine ⟨a.tenantId, n.subscriptionId, a.messageId, hkey, hcolon, event, ?_, htenant, hid⟩
          rw [hevent]
          exact List.mem_singleton_self event
        · left
          simpa [hkey] using hk
      | lost =>
        rw [claim_not_won hc (by rintro ⟨⟩)] at hk
        exact .inl hk
      | failed message =>
        rw [claim_not_won hc (by rintro ⟨⟩)] at hk
        exact .inl hk

/-- A poll that goes through returns what it has gathered. -/
theorem perform_poll {tenantConfig : TenantEmailConfig} {ports : PollPorts}
    {messages : List GraphMessagePayload} {since : Date} {store : Store} {g : Gathered}
    (hlisted : listed d.poller ports tenantConfig w.checkpoints = .ok (messages, since))
    (hloop : pollMessages d.poller ports tenantConfig 0 messages w.store
      { latestReceivedAt := since } = (store, .ok g)) (hset : ports.setFault = none) :
    (perform d w (.poll tenantConfig ports)).1.store = store ∧
      (perform d w (.poll tenantConfig ports)).2 = .polled (.returned g.result) := by
  simp only [perform, pollMailbox, hlisted, hloop, finishPoll, hset, and_self]

/-- A poll that lists occupied messages only leaves the store as it is. -/
theorem perform_poll_occupied {tenantConfig : TenantEmailConfig} {ports : PollPorts}
    {messages : List GraphMessagePayload} {since : Date}
    (hlisted : listed d.poller ports tenantConfig w.checkpoints = .ok (messages, since))
    (hall : ∀ message ∈ messages, free w.store (pollKey tenantConfig message) = false) :
    (perform d w (.poll tenantConfig ports)).1.store = w.store := by
  have hsame : (pollMessages d.poller ports tenantConfig 0 messages w.store
      { latestReceivedAt := since }).1 = w.store := pollMessages_occupied messages 0 _ hall
  simp only [perform, pollMailbox, hlisted]
  cases hloop : pollMessages d.poller ports tenantConfig 0 messages w.store
      { latestReceivedAt := since } with
  | mk store outcome =>
    rw [hloop] at hsame
    cases outcome <;> exact hsame

/-- A poll gives what it occupies. -/
theorem poll_gives {tenantConfig : TenantEmailConfig} {ports : PollPorts}
    (h : Fulfils d w (.poll tenantConfig ports)) {k : Triple}
    (hk : free (perform d w (.poll tenantConfig ports)).1.store k = false) :
    free w.store k = false ∨ (perform d w (.poll tenantConfig ports)).2.Gives k := by
  cases hl : listed d.poller ports tenantConfig w.checkpoints with
  | error message =>
    simp only [perform, pollMailbox, hl] at hk
    exact .inl hk
  | ok seen =>
    obtain ⟨messages, since⟩ := seen
    obtain ⟨hcolon, hall | ⟨hset, hgathers⟩⟩ := h messages since hl
    · rw [perform_poll_occupied hl hall] at hk
      exact .inl hk
    · obtain ⟨store, g, hloop, hadds⟩ :=
        pollMessages_gathers messages { latestReceivedAt := since } (Looked.start _ _) hgathers
      obtain ⟨hstore, hanswer⟩ := perform_poll hl hloop hset
      rw [hstore] at hk
      rw [hanswer]
      rcases hadds.given k hk with hbefore | ⟨event, he, message, hm, hkey, htenant, hid⟩
      · exact .inl hbefore
      · right
        exact ⟨tenantConfig.tenantId, "poll", message.id, hkey, hcolon message hm, event, he,
          htenant, hid⟩

/-- **A call that fulfils its claims gives what it occupies.** -/
theorem perform_gives {call : Call} (h : Fulfils d w call) {k : Triple}
    (hk : free (perform d w call).1.store k = false) :
    free w.store k = false ∨ (perform d w call).2.Gives k := by
  cases call with
  | notification n ports => exact notification_gives h hk
  | poll tenantConfig ports => exact poll_gives h hk

/-- A message that a call covers has an occupied key after it. -/
theorem occupied_of_covers {call : Call} {tenantId messageId : String}
    (hcovers : Covers d w tenantId messageId call) (h : Fulfils d w call) :
    ':' ∉ messageId.toList ∧ ∃ source,
      free (perform d w call).1.store (inboundKey tenantId source messageId) = false := by
  cases call with
  | notification n ports =>
    obtain ⟨a, ha, rfl, rfl, hfault, hserved, -⟩ := hcovers
    refine ⟨(h a ha).1, n.subscriptionId, ?_⟩
    simp only [perform, ingest, ha, hfault]
    rcases claim_served ports.now hserved with ⟨-, r, hr, hclaim⟩ | ⟨hfree, hclaim⟩
    · simp only [hclaim]
      rw [free_update hr]
      simp [Admitted.key]
    · simp only [hclaim]
      exact hfree
  | poll tenantConfig ports =>
    obtain ⟨rfl, messages, since, i, message, hl, hi, rfl, -⟩ := hcovers
    have hm : message ∈ messages := List.mem_of_getElem? hi
    obtain ⟨hcolon, hall | ⟨hset, hgathers⟩⟩ := h messages since hl
    · refine ⟨hcolon message hm, "poll", ?_⟩
      rw [perform_poll_occupied hl hall]
      exact hall message hm
    · obtain ⟨store, g, hloop, hadds⟩ :=
        pollMessages_gathers messages { latestReceivedAt := since } (Looked.start _ _) hgathers
      refine ⟨hcolon message hm, "poll", ?_⟩
      rw [(perform_poll hl hloop hset).1]
      exact hadds.listed message hm

/-- **No message is lost in a run whose calls all fulfil their claims**, from a store without
records of messages. -/
theorem noReplyLost_of_fulfilled (d : Deployment) (w : World) (calls : List Call)
    (hfree : ∀ k, k.scope = inboundScope → free w.store k = true)
    (h : Machine.Meets (perform d) (Fulfils d) w calls) : NoReplyLost d w calls := by
  intro before call after heq tenantId messageId hcovers
  have hall := (Machine.meets_iff_forall calls).mp h
  have hprefix : Machine.Meets (perform d) (Fulfils d) w (before ++ [call]) := by
    refine (Machine.meets_iff_forall _).mpr fun pre i post hpre => hall pre i (post ++ after) ?_
    rw [heq, ← List.singleton_append, ← List.append_assoc, hpre, List.append_assoc,
      List.cons_append]
  obtain ⟨hcolon, source, hoccupied⟩ :=
    occupied_of_covers hcovers (hall before call after heq)
  have hhas : free (Machine.final (perform d) w (before ++ [call])).store
      (inboundKey tenantId source messageId) = false := by
    rw [Machine.final_concat]
    exact hoccupied
  rcases Machine.accounted (fun w k => free w.store k = false) Answer.Gives
      (fun w call k hf hk => perform_gives hf hk) _ hprefix hhas with
    hbefore | ⟨answer, hanswer, tenantId', source', messageId', hkey, hcolon', hyields⟩
  · rw [hfree _ rfl] at hbefore
    cases hbefore
  · obtain ⟨rfl, rfl⟩ := eq_of_inboundKey_eq hkey hcolon hcolon'
    rw [Machine.outputs_concat] at hanswer
    rcases List.mem_append.mp hanswer with hearlier | hnow
    · exact .inr ⟨answer, hearlier, hyields⟩
    · rw [List.mem_singleton.mp hnow] at hyields
      exact .inl hyields

/-! ### A message that is not there at first -/

def emptyWorld : World := ⟨fun _ => none, fun _ => none⟩

/-- The message that the notices name. -/
def interested : GraphMessagePayload := { id := "m", bodyPreview := some "Sounds good" }

/-- A delivery of the notice while the mailbox has these messages. -/
def deliver (messages : List GraphMessagePayload) : Call :=
  .notification (noticeOf "s1") (salesPorts messages)

/-- A poll that lists these messages. -/
def pollSales (messages : List GraphMessagePayload) : Call :=
  .poll ⟨"t", "sales@acme.com", some "webhook"⟩ {
    startedAt := .epoch
    listChangedMessages := fun _ _ => .ok messages
    correlate := fun _ _ _ _ => .ok (.correlated none "l" "w")
    now := fun _ => .epoch }

/-- The notice is admitted, whatever the mailbox has. -/
theorem admitted_noticeOf (messages : List GraphMessagePayload) :
    admitted plainDeployment.ingress (salesPorts messages) (noticeOf "s1") =
      .ok ⟨"t", ⟨"t", some "w", .workspaceBound, "s1", "Users/sales@acme.com/Messages"⟩, "m"⟩ := rfl

/-- A delivery produces the message once the mailbox has it. -/
theorem produces_interested {a : Admitted} (h : a.messageId = "m") :
    Produces plainDeployment.ingress (salesPorts [interested]) (noticeOf "s1") a := by
  refine ⟨"sales@acme.com", interested, _, none, "l", "w", rfl, ?_, rfl, rfl⟩
  rw [h]
  rfl

theorem fulfils_deliver (w : World) : Fulfils plainDeployment w (deliver [interested]) := by
  intro a ha
  rw [admitted_noticeOf] at ha
  cases ha
  exact ⟨by decide, fun _ _ _ => produces_interested rfl⟩

theorem fulfils_pollSales : Fulfils plainDeployment emptyWorld (pollSales [interested]) := by
  intro messages since hl
  cases hl
  refine ⟨by decide, .inr ⟨rfl, rfl, ⟨by decide, nofun⟩, fun _ _ => ?_, trivial⟩⟩
  exact ⟨_, none, "l", "w", rfl, rfl⟩

/-- A poll and two deliveries of one message. -/
theorem noReplyLost_sales : NoReplyLost plainDeployment emptyWorld
    [pollSales [interested], deliver [interested], deliver [interested]] :=
  noReplyLost_of_fulfilled plainDeployment emptyWorld _ (fun _ _ => rfl)
    ⟨fulfils_pollSales, fulfils_deliver _, fulfils_deliver _, trivial⟩

/-- **A message that is not there at its first delivery is lost**: the second delivery, for which
nothing fails, meets the claim of the first. -/
theorem not_noReplyLost_unfetched :
    ¬NoReplyLost plainDeployment emptyWorld [deliver [], deliver [interested]] := by
  intro h
  have hpending : ((perform plainDeployment emptyWorld (deliver [])).1.store
      (inboundKey "t" "s1" "m")).map Record.status = some .pending := by decide +kernel
  have hcovers : Covers plainDeployment
      (Machine.final (perform plainDeployment) emptyWorld [deliver []]) "t" "m"
      (deliver [interested]) := by
    refine ⟨_, admitted_noticeOf [interested], rfl, rfl, rfl, ⟨by decide, ?_⟩,
      produces_interested rfl⟩
    rintro r hr ⟨hfailed, -⟩
    have hstatus : some r.status = some .pending := by
      rw [← hpending]
      exact congrArg (Option.map Record.status) hr.symm
    rw [hfailed] at hstatus
    cases hstatus
  rcases h [deliver []] (deliver [interested]) [] rfl "t" "m" hcovers with hyields | hyields
  · exact absurd hyields (by decide +kernel)
  · exact absurd hyields (by decide +kernel)

end VegaRevenue.GraphInbound
