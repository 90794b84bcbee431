import VegaRevenue.GraphInbound.Calls

/-!
# One result for each message and source

A source is a subscription, or the polls taken together. Every source has its own key for a
message, so no interleaving turns a message into two results of one source, while two sources can
both turn it into one.

* `oncePerSource` — in any run, two results of one source never carry the same message
* `not_oncePerMessage_twoSubscriptions` — two subscriptions each process a message
-/

namespace VegaRevenue.GraphInbound

open Interleave
open Conversation (ReplyIngressEvent)
open Idempotency.Postgres (Store)

inductive Source where
  | subscription (subscriptionId : String)
  | polls
deriving DecidableEq

/-- The events of the result of a call, with where they come from. -/
def results (calls : Nat → Call) (i : Nat) (pc : Pc) : List (Source × ReplyIngressEvent) :=
  match calls i, pc with
  | .notification n _, .ingested (.returned (.processed event)) =>
    [(.subscription n.subscriptionId, event)]
  | .poll _ _, .polled (.returned result) => result.processed.map fun event => (.polls, event)
  | _, _ => []

/-- No two results of the run agree in what `key` tells of them. -/
structure Once {κ : Type} (key : Source × ReplyIngressEvent → κ) (calls : Nat → Call)
    (c : Interleave.Config World Pc) : Prop where
  within : ∀ i, ((results calls i (c.pc i)).map key).Nodup
  across : ∀ i j x y, x ∈ results calls i (c.pc i) → y ∈ results calls j (c.pc j) →
    key x = key y → i = j

/-- The message a result carries. -/
def messageOf (x : Source × ReplyIngressEvent) : String × String :=
  (x.2.tenantId, x.2.providerMessageId)

/-- The message a result carries, and the source it comes from. -/
def sourceAndMessage (x : Source × ReplyIngressEvent) : Source × String × String :=
  (x.1, messageOf x)

/-- The configuration before any call has started. -/
def start (store : Store) (checkpoints : Checkpoints) : Interleave.Config World Pc :=
  ⟨⟨store, checkpoints⟩, fun _ => .start⟩

/-- The key under which a source claims a message. -/
def claimedKey : Source × String × String → Idempotency.Triple
  | (.subscription subscriptionId, tenantId, messageId) =>
    inboundKey tenantId subscriptionId messageId
  | (.polls, tenantId, messageId) => inboundKey tenantId "poll" messageId

/-- The keys of the results of a call are among those it holds. -/
theorem held_of_results (calls : Nat → Call) (i : Nat) (pc : Pc) :
    results calls i pc = [] ∨
      held calls i pc = ((results calls i pc).map sourceAndMessage).map claimedKey := by
  unfold results held
  cases calls i with
  | notification n ports =>
    cases pc with
    | ingested ended =>
      cases ended with
      | threw message => exact .inl rfl
      | returned outcome =>
        cases outcome with
        | processed event => exact .inr rfl
        | _ => exact .inl rfl
    | _ => exact .inl rfl
  | poll tenantConfig ports =>
    cases pc with
    | polled ended =>
      cases ended with
      | threw message => exact .inl rfl
      | returned result =>
        right
        show pollKeys result.processed = _
        rw [List.map_map, List.map_map]
        rfl
    | _ => exact .inl rfl

/-- **Two results of one source never carry the same message**, in any interleaving of any
notifications and polls. -/
theorem oncePerSource (d : Deployment) (calls : Nat → Call) (store : Store)
    (checkpoints : Checkpoints) (s : List (Tick Unit)) :
    Once sourceAndMessage calls (run (step d calls) (start store checkpoints) s) := by
  have hempty : ∀ i, held calls i ((start store checkpoints).pc i) = [] := by
    intro i
    unfold held
    cases calls i <;> rfl
  have hapart := Holdings.apart_run (step_move d calls) s hempty
  have hmem : ∀ i x, x ∈ results calls i ((run (step d calls) (start store checkpoints) s).pc i) →
      claimedKey (sourceAndMessage x) ∈
        held calls i ((run (step d calls) (start store checkpoints) s).pc i) := by
    intro i x hx
    rcases held_of_results calls i
      ((run (step d calls) (start store checkpoints) s).pc i) with hnone | hheld
    · rw [hnone] at hx
      cases hx
    · rw [hheld]
      exact List.mem_map_of_mem (List.mem_map_of_mem hx)
  constructor
  · intro i
    rcases held_of_results calls i
      ((run (step d calls) (start store checkpoints) s).pc i) with hnone | hheld
    · rw [hnone]
      exact List.nodup_nil
    · have hn := hapart.nodup i
      rw [hheld] at hn
      exact hn.of_map
  · intro i j x y hx hy heq
    exact hapart.apart i j _ (hmem i x hx) (by rw [heq]; exact hmem j y hy)

/-! ### A message of two subscriptions -/

/-- Ports of a tenant with one mailbox, whose messages all belong to one lead. -/
def salesPorts (messages : List GraphMessagePayload) : IngressPorts where
  findByMailboxAddress _ := .ok (some ⟨"t", "sales@acme.com", some "webhook"⟩)
  findBySubscriptionId tenantId subscriptionId :=
    .ok (some
      ⟨tenantId, some "w", .workspaceBound, subscriptionId, "Users/sales@acme.com/Messages"⟩)
  getSecret _ := .ok "secret"
  getMessage _ messageId := .ok (messages.find? (·.id = messageId))
  getMessage_id mailbox messageId message h := by
    have hfound := List.find?_some (Except.ok.inj h)
    exact of_decide_eq_true hfound
  correlate _ _ _ := .ok (.correlated none "l" "w")
  now := .epoch

def plainNormalizer : GraphMessageNormalizer where
  sanitizeInboundHtml := id
  parseDate _ := some 0

def plainDeployment : Deployment where
  ingress := { normalizer := plainNormalizer, decodeURIComponent := .ok }
  poller := { normalizer := plainNormalizer, toLowerCase := String.toLower }

def noticeOf (subscriptionId : String) : GraphChangeNotification where
  subscriptionId := subscriptionId
  clientState := some "secret"
  changeType := "created"
  resource := "Users/sales@acme.com/Messages/m"
  resourceDataId := some "m"

/-- One notification of the message for each of two subscriptions. -/
def twoSubscriptions (i : Nat) : Call :=
  .notification (noticeOf (if i = 0 then "s1" else "s2"))
    (salesPorts [{ id := "m", bodyPreview := some "Sounds good" }])

/-- **Each of the two subscriptions processes the message.** -/
theorem not_oncePerMessage_twoSubscriptions :
    ¬Once messageOf twoSubscriptions
      (run (step plainDeployment twoSubscriptions) (start (fun _ => none) fun _ => none)
        (List.replicate 3 ⟨0, ()⟩ ++ List.replicate 3 ⟨1, ()⟩)) := by
  intro h
  have hall : ∀ i ∈ [0, 1], ((results twoSubscriptions i
      ((run (step plainDeployment twoSubscriptions) (start (fun _ => none) fun _ => none)
        (List.replicate 3 ⟨0, ()⟩ ++ List.replicate 3 ⟨1, ()⟩)).pc i)).map messageOf) =
      [("t", "m")] := by decide +kernel
  obtain ⟨x, hx, hmx⟩ := List.mem_map.mp (by rw [hall 0 (by simp)]; exact List.mem_singleton_self _)
  obtain ⟨y, hy, hmy⟩ := List.mem_map.mp (by rw [hall 1 (by simp)]; exact List.mem_singleton_self _)
  exact absurd (h.across 0 1 x y hx hy (hmx.trans hmy.symm)) (by decide)

end VegaRevenue.GraphInbound
