import VegaRevenue.ConversationHandling.Service
import VegaRevenue.Lib.Machine

/-!
# Opt-outs and later sends

`interpretReply` over any number of replies. A reply can be recognised as an opt-out when it is
recorded, or by the classifier; only the first way stores a suppression, under the sender as the
event writes it.

* `interpretReply_suppressed` — what a call leaves suppressed
* `optOutDurable_iff` — the gate denies everyone who opted out iff every such reply was recognised
  when it was recorded and names the canonical address as its sender
-/

namespace VegaRevenue.ConversationHandling

open Versioned
open Conversation (ReplyIngressEvent)
open Outreach (RowKey RecipientRecovery Recipient Suppressions SuppressionRecord GateDenies)

/-! ## The activity -/

/-- `persistReplyBasedOptOut`: neither the execution nor the mailbox of the event is used. -/
def persistReplyBasedOptOut (s : Stores) (ctx : Context) (event : ReplyIngressEvent)
    (input : ReplyInput) : Except String Stores :=
  match event.sender with
  | none => .ok s
  | some sender =>
    if sender = "" then .ok s
    else
      input.run .suppress <| .ok { s with
        suppressions := s.suppressions.suppress ctx.tenantId sender
          ⟨.optOut, "conversation-reply-handler", some "Prospect opted out via reply"⟩ }

inductive InterpretReplyResult where
  | completed (conversationId : String) (actionType : Option Conversation.NextActionType)
      (requiresApproval : Bool) (reason : String)
  | failed (reason : String)
deriving DecidableEq

/-- How the worker is set up: the scrubber, and whether it has the repositories of suppressions
and executions. -/
structure Worker where
  scrub : String → String
  wired : Bool

structure Call where
  ctx : Context
  event : ReplyIngressEvent
  autonomyLevel : Rat
  input : ReplyInput

def interpretReply (worker : Worker) (s : Stores) (call : Call) :
    Stores × Except String InterpretReplyResult :=
  match handleReply worker.scrub s call.ctx call.event call.input with
  | .error message => (s, .error message)
  | .ok (s, handled) =>
    if handled.isOptOut then
      match if worker.wired then persistReplyBasedOptOut s call.ctx call.event call.input
        else .ok s with
      | .error message => (s, .error message)
      | .ok s => (s, .ok (.completed handled.conversationId (some .close) false
          "Prospect opted out"))
    else
      match call.input.run .loadConversation
        (.ok (s.conversations.load call.ctx handled.conversationId)) with
      | .error message => (s, .error message)
      | .ok none => (s, .ok (.failed "Conversation not found after ingestion"))
      | .ok (some conversation) =>
        match classifyAndAct s call.ctx conversation call.autonomyLevel call.input with
        | (s, .error message) => (s, .error message)
        | (s, .ok result) => (s, .ok (.completed result.conversationId result.actionType
            result.requiresApproval result.reason))

/-! ## Which replies are recognised -/

variable (worker : Worker) (s : Stores) (call : Call)

/-- `recordReply` takes the reply for an opt-out. -/
def RecordsOptOut : Prop :=
  call.input.refuses .findConversation = none ∧
    (conversationFor s call.ctx call.event call.input).state.optedOut = false ∧
    Conversation.asksToOptOut (worker.scrub call.event.content) = true

/-- The classifier is asked and answers `OPT_OUT`. -/
def ClassifiesOptOut : Prop :=
  ∃ s' handled conversation classification,
    handleReply worker.scrub s call.ctx call.event call.input = .ok (s', handled) ∧
    handled.isOptOut = false ∧
    call.input.refuses .loadConversation = none ∧
    s'.conversations.load call.ctx handled.conversationId = some conversation ∧
    isTerminal conversation = false ∧ conversation.state.latestIntent = none ∧
    call.input.classify (latestContent conversation) conversation.state.channel =
      .ok classification ∧
    classification.intent = .optOut

def Recognised : Prop := RecordsOptOut worker s call ∨ ClassifiesOptOut worker s call

/-- The reply is stored: the statements go through, and a fresh conversation has a free id. -/
def StoresReply : Prop :=
  call.input.refuses .findConversation = none ∧ call.input.refuses .saveReply = none ∧
    (s.conversations.findByLeadAndChannel call.input.pick call.ctx call.event.leadId
      call.event.channel = none →
      s.conversations.taken call.ctx call.input.conversationId = false)

/-! ## What a call leaves suppressed -/

section

variable {worker s call}

/-- **A reply is handled iff it can be stored.** -/
theorem exists_handleReply (scrub : String → String) :
    (∃ out, handleReply scrub s call.ctx call.event call.input = .ok out) ↔
      StoresReply s call := by
  have hsave : (∃ conversations, s.conversations.save call.ctx
      (withReply scrub s call.ctx call.event call.input) = .ok conversations) ↔
      (s.conversations.findByLeadAndChannel call.input.pick call.ctx call.event.leadId
        call.event.channel = none →
        s.conversations.taken call.ctx call.input.conversationId = false) := by
    cases hf : s.conversations.findByLeadAndChannel call.input.pick call.ctx call.event.leadId
        call.event.channel with
    | some a =>
      -- the row was read by this call, and nobody else writes
      obtain ⟨id, r, hr, rfl, -, -⟩ := Conversations.findByLeadAndChannel_eq_some hf
      obtain ⟨hof, hl⟩ := of_withReply scrub (conversationFor_of_found hf) ⟨rfl, rfl, rfl⟩
      exact iff_of_true (Conversations.save_found hr hof hl) nofun
    | none =>
      obtain ⟨hof, hl⟩ := of_withReply scrub (conversationFor_of_missing hf) ⟨rfl, rfl, rfl⟩
      rw [Conversations.save_fresh hof hl]
      exact ⟨fun h _ => h, fun h => h rfl⟩
  unfold StoresReply
  constructor
  · rintro ⟨out, h⟩
    obtain ⟨hfind, hrefuse, conversations, hs, -⟩ := handleReply_eq_ok.mp h
    exact ⟨hfind, hrefuse, hsave.mp ⟨conversations, hs⟩⟩
  · rintro ⟨hfind, hrefuse, hfree⟩
    obtain ⟨conversations, hs⟩ := hsave.mpr hfree
    exact ⟨_, handleReply_eq_ok.mpr ⟨hfind, hrefuse, conversations, hs, rfl⟩⟩

/-- What a handled reply answers, and that it leaves the suppressions alone. -/
theorem handled {out : Stores × HandleReplyResult}
    (h : handleReply worker.scrub s call.ctx call.event call.input = .ok out) :
    out.1.suppressions = s.suppressions ∧
      (out.2.isOptOut = true ↔
        (conversationFor s call.ctx call.event call.input).state.optedOut = true ∨
          Conversation.asksToOptOut (worker.scrub call.event.content) = true) := by
  obtain ⟨-, -, conversations, -, rfl⟩ := handleReply_eq_ok.mp h
  refine ⟨rfl, ?_⟩
  show (withReply worker.scrub s call.ctx call.event call.input).state.optedOut = true ↔ _
  rw [withReply, recordReply_optedOut, Bool.or_eq_true]
  rfl

/-- The call stores a suppression of this sender. -/
def Suppresses (worker : Worker) (s : Stores) (call : Call) (address : String) : Prop :=
  StoresReply s call ∧
    ((conversationFor s call.ctx call.event call.input).state.optedOut = true ∨
      Conversation.asksToOptOut (worker.scrub call.event.content) = true) ∧
    worker.wired = true ∧ call.input.refuses .suppress = none ∧ call.event.sender = some address

/-- The stores after a statement that may throw. -/
def after (s : Stores) (r : Except String Stores) : Stores := r.toOption.getD s

theorem persistReplyBasedOptOut_suppressed (s : Stores) (ctx : Context)
    (event : ReplyIngressEvent) (input : ReplyInput) (tenantId : String) {address : String}
    (ha : address ≠ "") :
    ((after s (persistReplyBasedOptOut s ctx event input)).suppressions.isSuppressed tenantId
        address).isSome ↔
      (s.suppressions.isSuppressed tenantId address).isSome ∨
        tenantId = ctx.tenantId ∧ input.refuses .suppress = none ∧
          event.sender = some address := by
  unfold persistReplyBasedOptOut
  cases hs : event.sender with
  | none => simp [after, Except.toOption]
  | some sender =>
    dsimp only
    by_cases hempty : sender = ""
    · have hne : sender ≠ address := fun heq => ha (heq.symm.trans hempty)
      rw [if_pos hempty]
      simp [after, Except.toOption, hne]
    · rw [if_neg hempty, ReplyInput.run]
      cases hr : input.refuses .suppress with
      | some message => simp [after, Except.toOption]
      | none =>
        show ((s.suppressions.suppress ctx.tenantId sender _).isSuppressed tenantId
          address).isSome ↔ _
        rw [Suppressions.isSuppressed_suppress, Option.some.injEq, @eq_comm _ sender]
        simp

/-- **What a call leaves suppressed: what was suppressed before, and the sender it stores.** -/
theorem interpretReply_suppressed (worker : Worker) (s : Stores) (call : Call)
    {tenantId address : String} (ha : address ≠ "") :
    ((interpretReply worker s call).1.suppressions.isSuppressed tenantId address).isSome ↔
      (s.suppressions.isSuppressed tenantId address).isSome ∨
        tenantId = call.ctx.tenantId ∧ Suppresses worker s call address := by
  unfold interpretReply
  cases hh : handleReply worker.scrub s call.ctx call.event call.input with
  | error message =>
    have hno : ¬Suppresses worker s call address := by
      rintro ⟨hstores, -⟩
      obtain ⟨out, hout⟩ := (exists_handleReply worker.scrub).mpr hstores
      rw [hh] at hout
      cases hout
    simp [hno]
  | ok out =>
    obtain ⟨s₁, result⟩ := out
    obtain ⟨hsame, hopt⟩ := handled hh
    have hstores := (exists_handleReply worker.scrub).mp ⟨_, hh⟩
    dsimp only at hsame hopt ⊢
    rw [← hsame]
    by_cases ho : result.isOptOut = true
    · rw [if_pos ho]
      have hiff : Suppresses worker s call address ↔ worker.wired = true ∧
          call.input.refuses .suppress = none ∧ call.event.sender = some address :=
        ⟨fun h => h.2.2, fun h => ⟨hstores, hopt.mp ho, h⟩⟩
      rw [hiff]
      cases hw : worker.wired with
      | false => simp
      | true =>
        have hp := persistReplyBasedOptOut_suppressed s₁ call.ctx call.event call.input
          tenantId ha
        rw [if_pos rfl]
        cases hpersist : persistReplyBasedOptOut s₁ call.ctx call.event call.input with
        | error message =>
          rw [hpersist] at hp
          simpa [after, Except.toOption] using hp
        | ok s₂ =>
          rw [hpersist] at hp
          simpa [after, Except.toOption] using hp
    · have hno : ¬Suppresses worker s call address := fun h => ho (hopt.mpr h.2.1)
      rw [if_neg ho]
      simp only [hno, and_false, or_false]
      split
      · rfl
      · rfl
      next conversation _ =>
        have hrest := classifyAndAct_suppressions s₁ call.ctx conversation
          call.autonomyLevel call.input
        split
        next hacted =>
          rw [hacted] at hrest
          rw [hrest]
        next hacted =>
          rw [hacted] at hrest
          rw [hrest]

end

/-! ## Every later send -/

section

variable {rec : RecipientRecovery} (worker : Worker) (executions : Table RowKey MessageExecution.Props)

/-- The reply names an execution of the recipient, or comes from its address. -/
def Designates (call : Call) (r : Recipient rec) : Prop :=
  r.tenantId = call.ctx.tenantId ∧
    ∃ key row, executions.find key = some row ∧ key.tenantId = call.ctx.tenantId ∧
      row.payload.recipientCiphertext = some r.recipientCiphertext ∧
      (call.event.executionId = some key.id ∧ key.workspaceId = call.ctx.workspaceId ∨
        ∃ sender, call.event.sender = some sender ∧ rec.canonicalizeEmail sender = .ok r.address)

/-- A suppression is stored for the tenant, and the gate denies the recipient. -/
def Blocked (r : Recipient rec) (s : Stores) : Prop :=
  (∃ address, (s.suppressions.isSuppressed r.tenantId address).isSome) ∧
    GateDenies rec s.suppressions r.tenantId r.address

/-- After every reply that is recognised as an opt-out, the recipients it designates stay
blocked. -/
def OptOutDurable (rec : RecipientRecovery) (s : Stores) (calls : List Call) : Prop :=
  Machine.Lasts (interpretReply worker)
    (fun s call (r : Recipient rec) => Recognised worker s call ∧ Designates executions call r)
    Blocked s calls

/-- The recipients of a recognised reply are suppressed already, or the reply was recognised when
it was recorded, its sender is written as the canonical address, and the stores take both. -/
def Honoured (rec : RecipientRecovery) (s : Stores) (call : Call) : Prop :=
  Recognised worker s call → ∀ r : Recipient rec, Designates executions call r →
    (s.suppressions.isSuppressed r.tenantId r.address).isSome ∨
      RecordsOptOut worker s call ∧ StoresReply s call ∧ worker.wired = true ∧
        call.input.refuses .suppress = none ∧ call.event.sender = some r.address

variable {worker executions}

theorem blocked_iff (r : Recipient rec) (s : Stores) :
    Blocked r s ↔ (s.suppressions.isSuppressed r.tenantId r.address).isSome := by
  unfold Blocked
  rw [Outreach.gateDenies_iff]
  exact ⟨And.right, fun h => ⟨⟨_, h⟩, h⟩⟩

/-- A reply that only the classifier recognises suppresses nobody. -/
theorem recordsOptOut_of_suppresses {s : Stores} {call : Call} {address : String}
    (hr : Recognised worker s call) (hs : Suppresses worker s call address) :
    RecordsOptOut worker s call := by
  rcases hr with hr | ⟨s', result, _, _, hh, hno, -⟩
  · exact hr
  · have hopt := (handled hh).2.mpr hs.2.1
    rw [hno] at hopt
    cases hopt

/-- **Everyone who opted out is denied from then on iff every recognised reply is honoured.** -/
theorem optOutDurable_iff (s : Stores) (calls : List Call) :
    OptOutDurable worker executions rec s calls ↔
      Machine.Meets (interpretReply worker) (Honoured worker executions rec) s calls := by
  have hstep : ∀ (r : Recipient rec) s call, Blocked r (interpretReply worker s call).1 ↔
      Blocked r s ∨ r.tenantId = call.ctx.tenantId ∧ Suppresses worker s call r.address := by
    intro r s call
    rw [blocked_iff, blocked_iff, interpretReply_suppressed worker s call
      (RecipientRecovery.ne_empty_of_recoverEmailForSend r.recovered)]
  unfold OptOutDurable
  rw [Machine.lasts_iff_meets fun r s call h => (hstep r s call).mpr (.inl h)]
  refine Machine.meets_congr (fun s call => ?_) calls
  constructor
  · intro h hr r hd
    rcases (hstep r s call).mp (h r ⟨hr, hd⟩) with hblocked | ⟨-, hs⟩
    · exact .inl ((blocked_iff r s).mp hblocked)
    · exact .inr ⟨recordsOptOut_of_suppresses hr hs, hs.1, hs.2.2⟩
  · rintro h r ⟨hr, hd⟩
    rw [hstep]
    rcases h hr r hd with hsome | ⟨hrec, hstores, hrest⟩
    · exact .inl ((blocked_iff r s).mpr hsome)
    · exact .inr ⟨hd.1, hstores, .inr hrec.2.2, hrest⟩

end

/-! ### A reply as the workflow hands it on -/

def sealedRecovery : RecipientRecovery where
  toLowerCase := String.toLower
  decrypt _ recipientCiphertext :=
    if recipientCiphertext = "sealed" then some "Bob@Example.com" else none

def bob : Recipient sealedRecovery where
  tenantId := "t"
  recipientCiphertext := "sealed"
  address := "bob@example.com"
  recovered := by decide +kernel

def bobsExecution : MessageExecution.Props where
  id := "e"
  tenantId := "t"
  workspaceId := "w"
  campaignId := "c"
  sequenceId := "s"
  stepNumber := 1
  leadId := "l"
  contactId := "p"
  recipientCiphertext := some "sealed"
  recipientProtectionState := .protectedRecipient
  channel := .email
  idempotencyKey := "k"
  status := .delivered
  createdAt := 0
  updatedAt := 0

def noStores : Stores := ⟨⟨[], List.nodup_nil⟩, [], fun _ => none⟩

/-- The event names the execution and no sender. -/
def unsubscribeCall : Call where
  ctx := ⟨"t", "w"⟩
  event := {
    tenantId := "t", workspaceId := "w", leadId := "l", channel := "email"
    providerMessageId := "m", content := "Please unsubscribe me", receivedAt := 0
    executionId := some "e" }
  autonomyLevel := 2
  input := {
    conversationId := "v", replyMessageId := "r", classify := deterministicClassify, now := 0 }

/-- **The reply is recognised when it is recorded, and its recipient can still be mailed.** -/
theorem not_optOutDurable_unsubscribe :
    ¬OptOutDurable ⟨id, true⟩ [(⟨"t", "w", "e"⟩, ⟨bobsExecution, 3⟩)] sealedRecovery noStores
      [unsubscribeCall] := by
  intro h
  have hrec : Recognised ⟨id, true⟩ noStores unsubscribeCall :=
    .inl ⟨rfl, rfl, by decide +kernel⟩
  have hdes : Designates [(⟨"t", "w", "e"⟩, ⟨bobsExecution, 3⟩)] unsubscribeCall bob :=
    ⟨rfl, ⟨"t", "w", "e"⟩, ⟨bobsExecution, 3⟩, rfl, rfl, rfl, .inl ⟨rfl, rfl⟩⟩
  have hblocked := (blocked_iff bob _).mp (h [] unsubscribeCall [] rfl bob ⟨hrec, hdes⟩)
  have hnone : ((interpretReply ⟨id, true⟩ noStores unsubscribeCall).1.suppressions.isSuppressed
      "t" "bob@example.com").isSome = false := by decide +kernel
  exact absurd hblocked (by rw [Bool.not_eq_true]; exact hnone)

end VegaRevenue.ConversationHandling
