import Mathlib.Data.List.Nodup
import VegaRevenue.AggregateRepository.Snapshots
import VegaRevenue.Lib.Machine
import VegaRevenue.Outreach.World
import VegaRevenue.Shared.Casing

/-!
# Sending through Graph

`sendMail` answers without an id. The provider looks for the copy in Sent Items, by the subject, the
recipient and the last minute, and takes the id of what it finds for the id of what it sent.

* `outputs_accepted` — calls with keys of their own that Graph accepts answer what they look up
* `identifies_iff` — the ids are right iff no other message stands before a call's own
-/

namespace VegaRevenue.Outreach.GraphEmail

open MessageExecution (ExecutionRow findByProviderMessageId mapping)

/-! ## Graph -/

/-- A copy in Sent Items; the address of a recipient may be missing. -/
structure SentMessage where
  id : String
  internetMessageId : String
  subject : String
  toRecipients : List (Option String)
  sentDateTime : Date
deriving DecidableEq

/-- The options of `getSentMessage`. -/
structure SentQuery where
  subject : String
  recipientAddress : String
  sentAfter : Date

/-- What Graph answers to `$filter=sentDateTime ge … and subject eq …&$top=10` where Sent Items,
newest first, are `items`. -/
def SentQuery.page (q : SentQuery) (items : List SentMessage) : List SentMessage :=
  (items.filter fun m => q.sentAfter ≤ m.sentDateTime && m.subject = q.subject).take 10

/-- A response of `sendMail`, with the message that its body holds. -/
structure Response where
  status : Nat
  errorMessage : Option String := none

/-- What `sendMail` throws. -/
inductive SendError where
  | timeout (message : String)
  | network (message : String)
  | unknown (message : Option String)

structure ErrorClassification where
  classification : RetryClassification
  errorCode : String
  errorMessage : String

def classifyGraphError (response : Response) : ErrorClassification :=
  let text (default : String) := response.errorMessage.getD default
  let status := response.status
  if status = 429 then
    ⟨.rateLimited, "GRAPH_RATE_LIMITED", text "Microsoft Graph rate limit exceeded"⟩
  else if status = 401 then
    ⟨.nonRetryable, "GRAPH_UNAUTHORIZED", text "Microsoft Graph rejected the access token (401)"⟩
  else if status = 403 then
    ⟨.nonRetryable, "GRAPH_FORBIDDEN",
      text "Microsoft Graph denied permission for this operation (403)"⟩
  else if 500 ≤ status ∧ status < 600 then
    ⟨.retryable, "GRAPH_SERVER_ERROR", text s!"Microsoft Graph server error ({status})"⟩
  else if 400 ≤ status ∧ status < 500 then
    ⟨.nonRetryable, "GRAPH_CLIENT_ERROR", text s!"Microsoft Graph rejected the request ({status})"⟩
  else
    ⟨.nonRetryable, "GRAPH_UNEXPECTED_RESPONSE",
      s!"Unexpected Microsoft Graph response status ({status})"⟩

/-! ## The provider -/

/-- `ProviderSendRequest`. -/
structure SendRequest where
  idempotencyKey : String
  subject : Option String := none
  recipientAddress : String

/-- One call, with what the environment gives it. -/
structure Call where
  request : SendRequest
  liveEnabled : Bool := true
  /-- The error of the token provider. -/
  token : Except (Option String) Unit := .ok ()
  response : Except SendError Response
  /-- `Date.now()` after the response. -/
  now : Date
  /-- Sent Items at the lookup, newest first, or its failure. -/
  sentItems : Except String (List SentMessage)
  /-- The message that Graph made of the request. -/
  message : SentMessage

/-- What is kept of an accepted send. -/
structure Ids where
  providerMessageId : Option String
  internetMessageId : Option String

/-- By idempotency key. -/
abbrev Accepted := List (String × Ids)

section

variable (u : Casing)

/-- `r.emailAddress?.address?.toLowerCase() === normalizedRecipient`. -/
def toRecipient (recipientAddress : String) (m : SentMessage) : Bool :=
  m.toRecipients.any fun r => r.any fun address =>
    u.toLowerCase address = u.toLowerCase recipientAddress

def getSentMessage (q : SentQuery) (items : List SentMessage) : Option SentMessage :=
  (q.page items).find? (toRecipient u q.recipientAddress)

def Call.query (call : Call) : SentQuery where
  subject := call.request.subject.getD ""
  recipientAddress := call.request.recipientAddress
  sentAfter := call.now - 60000

/-- The id that the lookup finds; a failed lookup finds none. -/
def Call.lookup (call : Call) : Option String :=
  match call.sentItems with
  | .error _ => none
  | .ok items =>
    ((getSentMessage u call.query items).map (·.internetMessageId)).filter (· ≠ "")

def acceptedResult (ids : Ids) : ProviderSendResult where
  providerMessageId := ids.providerMessageId
  internetMessageId := ids.internetMessageId
  status := .providerAccepted

def failedResult (code message : String) : ProviderSendResult where
  status := .failed
  retryClassification := some .nonRetryable
  providerErrorCode := some code
  providerErrorMessage := some message

def ambiguousResult (code message : String) : ProviderSendResult where
  status := .ambiguous
  providerErrorCode := some code
  providerErrorMessage := some message

/-- What is made of a response that is no success. -/
def refused (response : Response) : ProviderSendResult :=
  let classified := classifyGraphError response
  if classified.classification = .nonRetryable ∧ response.status ≠ 429 then
    failedResult classified.errorCode classified.errorMessage
  else
    ambiguousResult (if classified.classification = .rateLimited then "GRAPH_RATE_LIMITED_AMBIGUOUS"
      else "GRAPH_SERVER_ERROR_AMBIGUOUS") classified.errorMessage

def thrown : SendError → ProviderSendResult
  | .timeout message => ambiguousResult "GRAPH_TIMEOUT_AMBIGUOUS" message
  | .network message => ambiguousResult "GRAPH_NETWORK_ERROR_AMBIGUOUS" message
  | .unknown message => ambiguousResult "GRAPH_UNKNOWN_ERROR_AMBIGUOUS"
      (message.getD "Unknown Microsoft Graph send failure")

def send : Machine.Step Accepted Call ProviderSendResult := fun accepted call =>
  match accepted.lookup call.request.idempotencyKey with
  | some ids => (accepted, acceptedResult ids)
  | none =>
    if call.liveEnabled = false then
      (accepted, failedResult "LIVE_EMAIL_DISABLED"
        "Live email sending is disabled (OUTREACH_LIVE_EMAIL_ENABLED is not 'true')")
    else
      match call.token with
      | .error message => (accepted, failedResult "GRAPH_TOKEN_ACQUISITION_FAILED"
          (message.getD "Microsoft Graph token acquisition failed"))
      | .ok () =>
        match call.response with
        | .error e => (accepted, thrown e)
        | .ok response =>
          if 200 ≤ response.status ∧ response.status < 300 then
            let ids : Ids := ⟨call.lookup u, call.lookup u⟩
            ((call.request.idempotencyKey, ids) :: accepted, acceptedResult ids)
          else (accepted, refused response)

/-! ## The law -/

/-- Graph accepts the message. -/
def Call.accepts (call : Call) : Prop :=
  call.liveEnabled = true ∧ call.token = .ok () ∧
    ∃ response, call.response = .ok response ∧ 200 ≤ response.status ∧ response.status < 300

/-- Calls from a mailbox that `before` was sent from, and what Graph does with them. -/
structure Sends (before : List SentMessage) (calls : List Call) : Prop where
  keys : (calls.map (·.request.idempotencyKey)).Nodup
  accepts : ∀ call ∈ calls, call.accepts
  /-- Every message has an id of its own. -/
  ids : ((before ++ calls.map (·.message)).map (·.internetMessageId)).Nodup
  named : ∀ m ∈ before ++ calls.map (·.message), m.internetMessageId ≠ ""
  recipients : ∀ call ∈ calls, toRecipient u call.request.recipientAddress call.message = true
  /-- Sent Items hold what was sent. -/
  listed : ∀ call ∈ calls, ∀ items, call.sentItems = .ok items →
    ∀ m ∈ items, m ∈ before ++ calls.map (·.message)

/-- An execution and the call that sends it. -/
structure Sending where
  execution : MessageExecution.Props
  version : Nat
  call : Call

/-- The row of an execution whose send was answered. -/
def Sending.row (s : Sending) (answer : ProviderSendResult) : ExecutionRow :=
  mapping.row (s.execution.withAcceptance answer.providerMessageId answer.internetMessageId none
    s.call.now) s.execution.workspaceId s.version

/-- The answers to the sends of one provider. -/
def answers (sendings : List Sending) : List ProviderSendResult :=
  Machine.outputs (send u) [] (sendings.map (·.call))

/-- The rows of the executions once all are answered, beside other rows. -/
def rows (others : List ExecutionRow) (sendings : List Sending) : List ExecutionRow :=
  List.zipWith Sending.row sendings (answers u sendings) ++ others

/-- The executions are of one tenant, and no other row holds an id of their messages. -/
structure Apart (others : List ExecutionRow) (tenantId : String) (sendings : List Sending) :
    Prop where
  tenant : ∀ s ∈ sendings, s.execution.tenantId = tenantId
  others : ∀ r ∈ others, r.key.tenantId = tenantId → ∀ s ∈ sendings,
    r.index.providerMessageId ≠ some s.call.message.internetMessageId

/-- An id identifies one send. -/
structure Identifies (others : List ExecutionRow) (tenantId : String) (sendings : List Sending) :
    Prop where
  /-- What a call returns is the id of what it sent. -/
  own : ∀ p ∈ sendings.zip (answers u sendings), ∀ id ∈ p.2.providerMessageId,
    id = p.1.call.message.internetMessageId
  /-- No two results carry the same id. -/
  distinct : ((answers u sendings).filterMap (·.providerMessageId)).Nodup
  /-- The id of a message finds the execution that sent it, where its call returned one. -/
  found : ∀ p ∈ sendings.zip (answers u sendings),
    findByProviderMessageId (rows u others sendings) tenantId p.1.call.message.internetMessageId =
      if p.2.providerMessageId.isSome then mapping.reconstitute (p.1.row p.2) else none

/-- Among the ten newest messages with the subject of the last minute, as they are listed at the
lookup, none to the recipient stands before the call's own. -/
def Call.Unrivalled (call : Call) : Prop :=
  ∀ items, call.sentItems = .ok items → ∀ before rival after,
    call.query.page items = before ++ rival :: after →
    toRecipient u call.request.recipientAddress rival = true →
    rival = call.message ∨ call.message ∈ before

/-! ## The answers -/

variable {u}

/-- **Calls with keys of their own that Graph accepts answer what they look up.** -/
theorem outputs_accepted {calls : List Call} (hkeys : (calls.map (·.request.idempotencyKey)).Nodup)
    (haccepts : ∀ call ∈ calls, call.accepts) {accepted : Accepted}
    (hnew : ∀ call ∈ calls, accepted.lookup call.request.idempotencyKey = none) :
    Machine.outputs (send u) accepted calls =
      calls.map fun call => acceptedResult ⟨call.lookup u, call.lookup u⟩ := by
  induction calls generalizing accepted with
  | nil => rfl
  | cons call calls ih =>
    rw [List.map_cons, List.nodup_cons] at hkeys
    obtain ⟨hcall, hrest⟩ := List.forall_mem_cons.mp haccepts
    obtain ⟨hnone, hnew⟩ := List.forall_mem_cons.mp hnew
    obtain ⟨hlive, htoken, response, hresponse, hstatus⟩ := hcall
    have hsend : send u accepted call =
        ((call.request.idempotencyKey, ⟨call.lookup u, call.lookup u⟩) :: accepted,
          acceptedResult ⟨call.lookup u, call.lookup u⟩) := by
      unfold send
      rw [hnone, hlive, htoken, hresponse]
      exact if_pos hstatus
    rw [Machine.outputs, hsend, List.map_cons, ih hkeys.2 hrest]
    intro other hother
    have hne : other.request.idempotencyKey ≠ call.request.idempotencyKey := fun h =>
      hkeys.1 (List.mem_map.mpr ⟨other, hother, h⟩)
    rw [List.lookup_cons, beq_false_of_ne hne]
    exact hnew other hother

/-- What is found first is the call's own message iff no rival stands before it. -/
theorem find?_own_iff {p : SentMessage → Bool} {own : SentMessage} (hown : p own = true)
    (page : List SentMessage) :
    (∀ m ∈ page.find? p, m = own) ↔ ∀ before rival after, page = before ++ rival :: after →
      p rival = true → rival = own ∨ own ∈ before := by
  constructor
  · rintro h before rival after rfl hrival
    rw [List.find?_append] at h
    cases hbefore : before.find? p with
    | some m =>
      rw [hbefore] at h
      exact .inr (h m rfl ▸ List.mem_of_find?_eq_some hbefore)
    | none =>
      rw [hbefore, List.find?_cons_of_pos hrival] at h
      exact .inl (h rival rfl)
  · intro h m hm
    obtain ⟨hp, before, after, heq, hall⟩ := List.find?_eq_some_iff_append.mp hm
    rcases h before m after heq hp with rfl | hmem
    · rfl
    · have hno := hall own hmem
      rw [hown] at hno
      cases hno

/-- **A lookup finds no id but the call's own iff no rival stands before it.** -/
theorem lookup_own_iff {before : List SentMessage} {calls : List Call} (h : Sends u before calls)
    {call : Call} (hcall : call ∈ calls) :
    (∀ id ∈ call.lookup u, id = call.message.internetMessageId) ↔ call.Unrivalled u := by
  unfold Call.lookup Call.Unrivalled
  cases hitems : call.sentItems with
  | error e =>
    constructor
    · intro _ items hok
      cases hok
    · intro _ id hid
      cases hid
  | ok items =>
    have hpage : ∀ m ∈ call.query.page items, m ∈ before ++ calls.map (·.message) := fun m hm =>
      h.listed call hcall items hitems m (List.mem_of_mem_filter (List.mem_of_mem_take hm))
    have hown : call.message ∈ before ++ calls.map (·.message) :=
      List.mem_append_right _ (List.mem_map_of_mem hcall)
    have hids : (∀ id ∈ ((getSentMessage u call.query items).map (·.internetMessageId)).filter (· ≠ ""),
        id = call.message.internetMessageId) ↔ ∀ m ∈ getSentMessage u call.query items, m = call.message := by
      cases hfound : getSentMessage u call.query items with
      | none =>
        constructor
        · intro _ m hm
          cases hm
        · intro _ id hid
          cases hid
      | some m =>
        have hm : m ∈ before ++ calls.map (·.message) :=
          hpage m (List.mem_of_find?_eq_some hfound)
        have hname : ((some m).map (·.internetMessageId)).filter (· ≠ "") =
            some m.internetMessageId := by
          rw [Option.map_some, Option.filter_some, decide_eq_true (h.named m hm)]
          rfl
        rw [hname]
        constructor
        · rintro hid m' ⟨⟩
          exact List.inj_on_of_nodup_map h.ids hm hown (hid _ rfl)
        · rintro hm id ⟨⟩
          rw [hm m rfl]
    dsimp only
    rw [hids]
    refine (find?_own_iff (h.recipients call hcall) (call.query.page items)).trans ?_
    exact ⟨fun hr items' hok => by cases hok; exact hr, fun hr => hr items rfl⟩

/-! ## The rows -/

/-- The answer to a send that is accepted. -/
def Sending.answer (u : Casing) (s : Sending) : ProviderSendResult :=
  acceptedResult ⟨s.call.lookup u, s.call.lookup u⟩

theorem answers_eq {before : List SentMessage} {sendings : List Sending}
    (h : Sends u before (sendings.map (·.call))) :
    answers u sendings = sendings.map (·.answer u) := by
  have houtputs : answers u sendings = (sendings.map (·.call)).map fun call =>
      acceptedResult ⟨call.lookup u, call.lookup u⟩ :=
    outputs_accepted h.keys h.accepts fun _ _ => rfl
  rw [houtputs, List.map_map]
  rfl

theorem zip_answers {before : List SentMessage} {sendings : List Sending}
    (h : Sends u before (sendings.map (·.call))) :
    sendings.zip (answers u sendings) = sendings.map fun s => (s, s.answer u) := by
  rw [answers_eq h, List.map_prod_left_eq_zip]

theorem rows_eq {before : List SentMessage} {sendings : List Sending}
    (h : Sends u before (sendings.map (·.call))) (others : List ExecutionRow) :
    rows u others sendings = (sendings.map fun s => s.row (s.answer u)) ++ others := by
  rw [rows, answers_eq h, List.zipWith_map_right, List.zipWith_self]

theorem nodup_own {before : List SentMessage} {sendings : List Sending}
    (h : Sends u before (sendings.map (·.call))) :
    (sendings.map fun s => s.call.message.internetMessageId).Nodup := by
  have hids := h.ids
  rw [List.map_append, List.map_map, List.map_map] at hids
  exact (List.nodup_append.mp hids).2.1

/-- What each of some elements has, if it has anything, is its own. -/
theorem sublist_own {α β : Type} {f : α → Option β} {own : α → β} {l : List α}
    (h : ∀ a ∈ l, ∀ b ∈ f a, b = own a) : (l.filterMap f).Sublist (l.map own) := by
  induction l with
  | nil => exact .slnil
  | cons a l ih =>
    obtain ⟨ha, hl⟩ := List.forall_mem_cons.mp h
    rw [List.map_cons]
    cases hf : f a with
    | none =>
      rw [List.filterMap_cons_none hf]
      exact (ih hl).cons _
    | some b =>
      rw [List.filterMap_cons_some hf, ha b hf]
      exact (ih hl).cons_cons _

/-- One element has what is the own of another: that other one, or none. -/
theorem filter_own {α β : Type} [DecidableEq β] {f : α → Option β} {own : α → β} {l : List α}
    (hown : (l.map own).Nodup) (h : ∀ a ∈ l, ∀ b ∈ f a, b = own a) {a : α} (ha : a ∈ l) :
    l.filter (fun a' => f a' = some (own a)) = if (f a).isSome then [a] else [] := by
  induction l with
  | nil => cases ha
  | cons a' l ih =>
    rw [List.map_cons, List.nodup_cons] at hown
    obtain ⟨ha', hl⟩ := List.forall_mem_cons.mp h
    rcases List.mem_cons.mp ha with rfl | hmem
    · have hrest : l.filter (fun a' => f a' = some (own a)) = [] := by
        rw [List.filter_eq_nil_iff]
        intro b hb hf
        have heq := hl b hb _ (of_decide_eq_true hf)
        exact hown.1 (heq ▸ List.mem_map_of_mem hb)
      rw [List.filter_cons, hrest]
      cases hf : f a with
      | none => rfl
      | some b =>
        rw [ha' b hf, if_pos (decide_eq_true rfl)]
        rfl
    · have hne : ¬f a' = some (own a) := fun hf =>
        hown.1 (ha' _ hf ▸ List.mem_map_of_mem hmem)
      rw [List.filter_cons_of_neg (by simpa using hne)]
      exact ih hown.2 hl hmem

/-- The rows that hold the id of a message. -/
theorem filter_rows {before : List SentMessage} {sendings : List Sending}
    (h : Sends u before (sendings.map (·.call))) {others : List ExecutionRow} {tenantId : String}
    (hapart : Apart others tenantId sendings)
    (hall : ∀ s ∈ sendings, ∀ id ∈ s.call.lookup u, id = s.call.message.internetMessageId)
    {s : Sending} (hs : s ∈ sendings) :
    (rows u others sendings).filter (fun r => r.key.tenantId = tenantId &&
        r.index.providerMessageId = some s.call.message.internetMessageId) =
      if (s.call.lookup u).isSome then [s.row (s.answer u)] else [] := by
  have hothers : others.filter (fun r => r.key.tenantId = tenantId &&
      r.index.providerMessageId = some s.call.message.internetMessageId) = [] := by
    rw [List.filter_eq_nil_iff]
    intro r hr hboth
    rw [Bool.and_eq_true, decide_eq_true_iff, decide_eq_true_iff] at hboth
    exact hapart.others r hr hboth.1 s hs hboth.2
  have hsame : sendings.filter ((fun r : ExecutionRow => decide (r.key.tenantId = tenantId) &&
        decide (r.index.providerMessageId = some s.call.message.internetMessageId)) ∘
          fun s => s.row (s.answer u)) =
      sendings.filter fun s' => s'.call.lookup u = some s.call.message.internetMessageId := by
    refine List.filter_congr fun s' hs' => ?_
    have htenant : (s'.row (s'.answer u)).key.tenantId = tenantId := hapart.tenant s' hs'
    have hid : (s'.row (s'.answer u)).index.providerMessageId = s'.call.lookup u := rfl
    rw [Function.comp_apply, htenant, hid, decide_eq_true rfl, Bool.true_and]
  rw [rows_eq h, List.filter_append, hothers, List.append_nil, List.filter_map, hsame,
    filter_own (nodup_own h) hall hs]
  split <;> rfl

/-- **The ids identify the sends iff no message to the same recipient with the same subject stands
before a call's own.** -/
theorem identifies_iff {before : List SentMessage} {sendings : List Sending}
    (h : Sends u before (sendings.map (·.call))) {others : List ExecutionRow} {tenantId : String}
    (hapart : Apart others tenantId sendings) :
    Identifies u others tenantId sendings ↔ ∀ s ∈ sendings, s.call.Unrivalled u := by
  have hown : (∀ s ∈ sendings, ∀ id ∈ s.call.lookup u, id = s.call.message.internetMessageId) ↔
      ∀ s ∈ sendings, s.call.Unrivalled u :=
    forall₂_congr fun s hs => lookup_own_iff h (List.mem_map_of_mem hs)
  rw [← hown]
  constructor
  · intro hidentifies s hs
    refine hidentifies.own (s, s.answer u) ?_
    rw [zip_answers h]
    exact List.mem_map_of_mem hs
  · intro hall
    refine ⟨?_, ?_, ?_⟩
    · intro p hp
      rw [zip_answers h] at hp
      obtain ⟨s, hs, rfl⟩ := List.mem_map.mp hp
      exact hall s hs
    · rw [answers_eq h, List.filterMap_map]
      exact (nodup_own h).sublist (sublist_own hall)
    · intro p hp
      rw [zip_answers h] at hp
      obtain ⟨s, hs, rfl⟩ := List.mem_map.mp hp
      unfold findByProviderMessageId
      rw [filter_rows h hapart hall hs]
      show _ = if (s.call.lookup u).isSome then _ else _
      by_cases hsome : (s.call.lookup u).isSome = true
      · rw [if_pos hsome, if_pos hsome]
      · rw [if_neg hsome, if_neg hsome]

end

/-! ## Two sends of one subject -/

/-- A message to one person. -/
def sampleMessage (n : Nat) : SentMessage :=
  ⟨s!"m{n}", s!"<m{n}>", "Hello", [some "ann@acme.test"], 10000 * n⟩

/-- A send of that subject, where Sent Items hold the first message only. -/
def sampleSending (n : Nat) : Sending where
  execution := sampleExecution s!"e{n}" "s1" n .providerAccepted
  version := 1
  call :=
    { request := ⟨s!"k{n}", some "Hello", "ann@acme.test"⟩
      response := .ok ⟨202, none⟩
      now := 10000 * n + 500
      sentItems := .ok [sampleMessage 1]
      message := sampleMessage n }

theorem sends_sample :
    Sends asciiCasing [] ([sampleSending 1, sampleSending 2].map (·.call)) where
  keys := by decide
  accepts := by
    intro call hcall
    rw [List.map_cons, List.map_cons, List.map_nil, List.mem_pair] at hcall
    rcases hcall with rfl | rfl
    · exact ⟨rfl, rfl, ⟨202, none⟩, rfl, by decide, by decide⟩
    · exact ⟨rfl, rfl, ⟨202, none⟩, rfl, by decide, by decide⟩
  ids := by decide
  named := by decide
  recipients := by
    intro call hcall
    rw [List.map_cons, List.map_cons, List.map_nil, List.mem_pair] at hcall
    rcases hcall with rfl | rfl
    · decide +kernel
    · decide +kernel
  listed := by
    intro call hcall items hitems m hm
    rw [List.map_cons, List.map_cons, List.map_nil, List.mem_pair] at hcall
    have hfirst : items = [sampleMessage 1] := by
      rcases hcall with rfl | rfl
      · exact (Except.ok.inj hitems).symm
      · exact (Except.ok.inj hitems).symm
    rw [hfirst, List.mem_singleton] at hm
    rw [hm]
    exact List.mem_cons_self

theorem apart_sample : Apart [] "tenant" [sampleSending 1, sampleSending 2] where
  tenant := by decide
  others := fun _ hr => absurd hr List.not_mem_nil

theorem identifies_sample :
    Identifies asciiCasing [] "tenant" [sampleSending 1, sampleSending 2] ↔
      ∀ s ∈ [sampleSending 1, sampleSending 2], s.call.Unrivalled asciiCasing :=
  identifies_iff sends_sample apart_sample

/-- **The second send returns the id of the first message.** -/
theorem not_identifies_sample :
    ¬Identifies asciiCasing [] "tenant" [sampleSending 1, sampleSending 2] := by
  intro h
  have hlookup : (sampleSending 2).call.lookup asciiCasing = some "<m1>" := by decide +kernel
  have hown := h.own (sampleSending 2, (sampleSending 2).answer asciiCasing)
    (by rw [zip_answers sends_sample]; exact List.mem_cons_of_mem _ List.mem_cons_self) "<m1>" hlookup
  exact absurd hown (by decide)

end VegaRevenue.Outreach.GraphEmail
