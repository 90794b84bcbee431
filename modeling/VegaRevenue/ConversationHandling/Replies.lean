import VegaRevenue.ConversationHandling.OptOut

/-!
# Which replies a decision is about

Replies of one lead on one channel, each taken in, its conversation loaded and acted on. A decision
moves the conversation where `CLASSIFIED` cannot be reached again, and `handleReply` does not look
at whether the conversation took the reply.

* `reaches_iff` — a reply is stored, and the action is about it, iff the conversation takes it
* `reaches_all_iff` — so with all the replies of a thread
* `second_reply_lost` — the reply after a follow-up was scheduled is lost
-/

namespace VegaRevenue.ConversationHandling

open Versioned
open Outreach (rowKey)
open Conversation (ReplyIngressEvent ReplyMessage IntentClassification canTransition)

/-! ## Threads -/

/-- A lead on a channel. -/
structure Thread where
  ctx : Context
  leadId : String
  channel : String

/-- A reply of the thread. -/
structure Reply (t : Thread) extends Call where
  ctx_eq : ctx = t.ctx
  leadId_eq : event.leadId = t.leadId
  channel_eq : event.channel = t.channel

/-- `handleReply`, then `load` and `classifyAndAct`. -/
def turn (scrub : String → String) {t : Thread} :
    Machine.Step Stores (Reply t) (Except String (Option ClassifyAndActResult)) := fun s reply =>
  match handleReply scrub s reply.ctx reply.event reply.input with
  | .error message => (s, .error message)
  | .ok (s, handled) =>
    match reply.input.run .loadConversation
      (.ok (s.conversations.load reply.ctx handled.conversationId)) with
    | .error message => (s, .error message)
    | .ok none => (s, .ok none)
    | .ok (some conversation) =>
      let (s, result) := classifyAndAct s reply.ctx conversation reply.autonomyLevel reply.input
      (s, result.map some)

/-! ## What a reply is owed -/

/-- The conversation with the answer of the classifier. -/
def answered (a : Conversation) (classification : IntentClassification) : Conversation :=
  a.write { a.state with
    latestIntent := some classification.intent
    latestConfidence := some classification.confidence }

/-- The action is the one that is decided on this answer. -/
def ActsOn (a : Conversation) (classification : IntentClassification) (autonomyLevel : Rat)
    (result : ClassifyAndActResult) : Prop :=
  let action := decide (answered a classification) autonomyLevel
  result.actionType = some action.actionType ∧ result.requiresApproval = action.requiresApproval ∧
    result.reason = action.reason

variable (scrub : String → String) {t : Thread}

/-- The reply is stored with its conversation, and the action is about the last reply stored. -/
structure Reaches (s : Stores) (reply : Reply t) : Prop where
  appended : ∀ s' handled, handleReply scrub s reply.ctx reply.event reply.input =
      .ok (s', handled) →
    (conversationFor s reply.ctx reply.event reply.input).state.optedOut = false →
      ∃ stored, s'.conversations.load reply.ctx handled.conversationId = some stored ∧
        stored.state.messages =
          (conversationFor s reply.ctx reply.event reply.input).state.messages ++
            [replyMessage scrub reply.event reply.input]
  decided : ∀ s' handled a s'' result,
    handleReply scrub s reply.ctx reply.event reply.input = .ok (s', handled) →
      s'.conversations.load reply.ctx handled.conversationId = some a → isTerminal a = false →
        classifyAndAct s' reply.ctx a reply.autonomyLevel reply.input = (s'', .ok result) →
          ∃ classification,
            reply.input.classify (latestContent a) a.state.channel = .ok classification ∧
              ActsOn a classification reply.autonomyLevel result

/-- A reply that is handled arrives after the conversation opted out, opts out itself, or meets a
status that can move to `CLASSIFIED`. -/
def Taken (s : Stores) (reply : Reply t) : Prop :=
  StoresReply s reply.toCall →
    (conversationFor s reply.ctx reply.event reply.input).state.optedOut = true ∨
      Conversation.asksToOptOut (scrub reply.event.content) = true ∨
        canTransition (conversationFor s reply.ctx reply.event reply.input).state.status
          .classified = true

/-! ## Conversations without an answer -/

/-- Where a reply can still be taken, nothing was classified yet. -/
def Fresh (a : Conversation) : Prop :=
  canTransition a.state.status .classified = true → a.state.latestIntent = none

/-- So with the stored conversations of the thread. -/
def Unanswered (t : Thread) (c : Conversations) : Prop :=
  ∀ id r, c.rows.find (rowKey t.ctx id) = some r → r.payload.leadId = t.leadId →
    r.payload.channel = t.channel → Fresh (Conversations.restore (rowKey t.ctx id, r))

theorem unanswered_of_ofLead {c : Conversations} (h : c.ofLead t.ctx t.leadId t.channel = []) :
    Unanswered t c := by
  intro id r hr hlead hchannel
  have hmem : (rowKey t.ctx id, r) ∈ c.rows := by
    unfold Table.find at hr
    obtain ⟨⟨key, row⟩, hfound, rfl⟩ := Option.map_eq_some_iff.mp hr
    have hkey : key = rowKey t.ctx id := by
      simpa using List.find?_some hfound
    rw [← hkey]
    exact List.mem_of_find?_eq_some hfound
  have hsel : (rowKey t.ctx id, r) ∈ c.ofLead t.ctx t.leadId t.channel := by
    unfold Conversations.ofLead
    exact List.mem_filter.mpr ⟨hmem, decide_eq_true ⟨rfl, rfl, hlead, hchannel⟩⟩
  rw [h] at hsel
  cases hsel

/-- A save keeps the others, and adds what it saves. -/
theorem Unanswered.save {c c' : Conversations} (h : Unanswered t c) {a : Conversation}
    (hs : c.save t.ctx a = .ok c') (ha : Fresh a) : Unanswered t c' := by
  obtain ⟨-, -, -, hrows⟩ := Conversations.save_ok hs
  intro id r hr hlead hchannel
  rw [Table.find_save hrows] at hr
  split at hr
  · cases hr
    exact ha
  · exact h id r hr hlead hchannel

theorem Unanswered.conversationFor {s : Stores} (h : Unanswered t s.conversations)
    (reply : Reply t) : Fresh (conversationFor s reply.ctx reply.event reply.input) := by
  cases hf : s.conversations.findByLeadAndChannel reply.input.pick reply.ctx reply.event.leadId
      reply.event.channel with
  | some a =>
    rw [conversationFor_of_found hf]
    obtain ⟨id, r, hr, rfl, hlead, hchannel⟩ := Conversations.findByLeadAndChannel_eq_some hf
    rw [reply.ctx_eq] at hr ⊢
    exact h id r hr (hlead.trans reply.leadId_eq) (hchannel.trans reply.channel_eq)
  | none =>
    rw [conversationFor_of_missing hf]
    exact fun _ => rfl

/-! ## Taking a reply -/

/-- What a reply does to a conversation that has not opted out. -/
theorem recordReply_not_optedOut {a : Conversation} (hout : a.state.optedOut = false)
    (reply : ReplyMessage) (now : Date) :
    let b := (Conversation.recordReply a reply now).1
    (Conversation.asksToOptOut reply.content = true ∧
        b.state.messages = a.state.messages ++ [reply] ∧ b.state.optedOut = true) ∨
      (Conversation.asksToOptOut reply.content = false ∧
        canTransition a.state.status .classified = true ∧
        b.state.messages = a.state.messages ++ [reply] ∧ b.state.status = .classified ∧
        b.state.latestIntent = a.state.latestIntent) ∨
      (Conversation.asksToOptOut reply.content = false ∧
        canTransition a.state.status .classified = false ∧ b = a) := by
  intro b
  cases hask : Conversation.asksToOptOut reply.content with
  | true =>
    left
    refine ⟨rfl, ?_, ?_⟩
    · simp only [b, Conversation.recordReply, hout, hask, Bool.false_eq_true, if_false, if_true,
        Conversation.Props.withReply, Aggregate.write_state]
      rcases Conversation.transitionTo_eq a .optedOut
          (.optOutRecorded a.state.id a.state.leadId a.state.channel) with
        ⟨-, -, -, -, hs⟩ | ⟨-, -, hs⟩
      · rw [hs]
      · rw [hs]
    · rw [recordReply_optedOut, hask, Bool.or_true]
  | false =>
    right
    have hb : b = (Conversation.recordReply a reply now).1 := rfl
    simp only [Conversation.recordReply, hout, hask, Bool.false_eq_true, if_false] at hb
    rcases Conversation.transitionTo_eq a .classified
        (.replyReceived a.state.id reply.id reply.providerMessageId reply.channel
          (String.ofList (Conversation.sliceUnits 200 reply.content.toList))) with
      ⟨hcan, hok, -, -, hs⟩ | ⟨hcan, hfail, hs⟩
    · left
      rw [if_pos (by rw [hok]; rfl)] at hb
      rw [hb, Aggregate.write_state, hs]
      exact ⟨rfl, hcan, rfl, rfl, rfl⟩
    · right
      rw [if_neg (by rw [hfail]; exact Bool.false_ne_true), hs] at hb
      exact ⟨rfl, hcan, hb⟩

theorem Fresh.recordReply {a : Conversation} (h : Fresh a) (reply : ReplyMessage) (now : Date) :
    Fresh (Conversation.recordReply a reply now).1 := by
  unfold Conversation.recordReply
  split
  · exact h
  · split
    · rcases Conversation.transitionTo_eq a .optedOut
          (.optOutRecorded a.state.id a.state.leadId a.state.channel) with
        ⟨-, -, -, -, hs⟩ | ⟨-, -, hs⟩
      · intro hcan
        simp only [Conversation.Props.withReply, Aggregate.write_state, hs] at hcan
        exact absurd hcan (by decide)
      · intro hcan
        simp only [Conversation.Props.withReply, Aggregate.write_state, hs] at hcan ⊢
        exact h hcan
    · rcases Conversation.transitionTo_eq a .classified
          (.replyReceived a.state.id reply.id reply.providerMessageId reply.channel
            (String.ofList (Conversation.sliceUnits 200 reply.content.toList))) with
        ⟨hcan, hok, -, -, hs⟩ | ⟨-, hfail, hs⟩
      · simp only [hok, OpResult.success, if_true, Fresh, Conversation.Props.withReply,
          Aggregate.write_state, hs]
        exact fun _ => h hcan
      · simp only [hfail, Bool.false_eq_true, if_false, hs]
        exact h

/-! ## Acting on a reply -/

theorem orThrow_eq_ok {what : String} {r : Conversation × OpResult} {b : Conversation} :
    orThrow what r = .ok b ↔ r.2.success = true ∧ r.1 = b := by
  obtain ⟨c, result⟩ := r
  cases result <;> simp [orThrow, OpResult.success]

/-- A decision leaves the conversation where no reply can be taken. -/
theorem decideAction_ok {a : Conversation} {action : Conversation.NextBestAction} {now : Date}
    (h : (Conversation.decideAction a action now).2.success = true) :
    canTransition (Conversation.decideAction a action now).1.state.status .classified = false := by
  unfold Conversation.decideAction at h ⊢
  split at h
  · cases h
  next hout =>
    rw [if_neg hout]
    generalize (if action.actionType = .escalate then
      a.write { a.state with escalatedReason := some action.reason } else a) = c at h ⊢
    rcases Conversation.transitionTo_eq c action.actionType.target
        (.followUpScheduled a.state.id action.actionType action.reason) with
      ⟨-, hok, -, -, hs⟩ | ⟨-, hfail, -⟩
    · simp only [hok, OpResult.success, if_true, Aggregate.write_state, hs]
      cases action.actionType <;> rfl
    · simp only [hfail, Bool.false_eq_true, if_false] at h

/-- Closing it afterwards does not change that. -/
theorem close_not_takes {a : Conversation} (h : canTransition a.state.status .classified = false)
    (disposition : Conversation.Disposition) (reason : String) (now : Date) :
    canTransition (Conversation.close a disposition reason now).1.state.status .classified =
      false := by
  unfold Conversation.close
  rcases Conversation.transitionTo_eq a .closed
      (.conversationClosed a.state.id disposition reason) with ⟨-, hok, -, -, hs⟩ | ⟨-, hfail, hs⟩
  · simp only [hok, OpResult.success, if_true, Aggregate.write_state, hs]
    rfl
  · simp only [hfail, Bool.false_eq_true, if_false, hs]
    exact h

/-- What is decided is decided for good. -/
theorem decideOn_ok {a decided : Conversation} {autonomyLevel : Rat} {input : ReplyInput}
    {action : Decision} (h : decideOn a autonomyLevel input = .ok (decided, action)) :
    ∃ classified, classifyLatest a input = .ok classified ∧
      action = decide classified autonomyLevel ∧
      canTransition decided.state.status .classified = false := by
  unfold decideOn at h
  cases hc : classifyLatest a input with
  | error message =>
    rw [hc] at h
    cases h
  | ok classified =>
    rw [hc] at h
    simp only [bind, Except.bind] at h
    cases hd : orThrow "Decide action failed: " (Conversation.decideAction classified
        (decide classified autonomyLevel).toNextBestAction input.now) with
    | error message =>
      rw [hd] at h
      cases h
    | ok b =>
      rw [hd] at h
      cases h
      obtain ⟨hok, rfl⟩ := orThrow_eq_ok.mp hd
      exact ⟨classified, rfl, rfl, decideAction_ok hok⟩

/-- **What acting leaves of the conversations: what was there, or a decided one on top.** -/
theorem classifyAndAct_conversations (s : Stores) (ctx : Context) (a : Conversation)
    (autonomyLevel : Rat) (input : ReplyInput) :
    (classifyAndAct s ctx a autonomyLevel input).1.conversations = s.conversations ∨
      ∃ b, canTransition b.state.status .classified = false ∧
        s.conversations.save ctx b =
          .ok (classifyAndAct s ctx a autonomyLevel input).1.conversations := by
  unfold classifyAndAct
  split
  · exact .inl rfl
  · split
    · exact .inl rfl
    next hdecided =>
      split
      · exact .inl rfl
      next hout =>
        obtain ⟨_, -, -, hstuck⟩ := decideOn_ok hdecided
        obtain ⟨⟨leads, hs⟩, hb⟩ := applyOutcome_leads hout
        dsimp only at hs hb
        have hsame : ∀ s₁ : Stores, s₁ = { s with leads } → s₁.conversations = s.conversations := by
          rintro s₁ rfl
          rfl
        split
        · exact .inl (hsame _ hs)
        next hsaved =>
          right
          rw [hsame _ hs] at hsaved
          refine ⟨_, ?_, (ReplyInput.run_eq_ok.mp hsaved).2⟩
          rcases hb with rfl | rfl
          · exact hstuck
          · exact close_not_takes hstuck _ _ _

/-- The policy looks at the intent and the confidence. -/
theorem decide_congr {a b : Conversation} (hintent : a.state.latestIntent = b.state.latestIntent)
    (hconfidence : a.state.latestConfidence = b.state.latestConfidence) (autonomyLevel : Rat) :
    decide a autonomyLevel = decide b autonomyLevel := by
  unfold decide
  rw [hintent, hconfidence]

/-- A classified conversation has the answer. -/
theorem classifyIntent_ok {a : Conversation} {classification : IntentClassification} {now : Date}
    (h : (Conversation.classifyIntent a classification now).2.success = true) :
    (Conversation.classifyIntent a classification now).1.state.latestIntent =
        some classification.intent ∧
      (Conversation.classifyIntent a classification now).1.state.latestConfidence =
        some classification.confidence := by
  unfold Conversation.classifyIntent at h ⊢
  split at h
  · cases h
  next hopen =>
    rw [if_neg hopen]
    dsimp only at h ⊢
    split at h
    next hok =>
      rw [if_pos hok]
      exact ⟨rfl, rfl⟩
    next hfail => exact absurd h hfail

/-- **Without a stored intent, the action is about the last reply stored.** -/
theorem classifyAndAct_actsOn {s s' : Stores} {ctx : Context} {a : Conversation}
    {autonomyLevel : Rat} {input : ReplyInput} {result : ClassifyAndActResult}
    (hterminal : isTerminal a = false) (hnone : a.state.latestIntent = none)
    (h : classifyAndAct s ctx a autonomyLevel input = (s', .ok result)) :
    ∃ classification, input.classify (latestContent a) a.state.channel = .ok classification ∧
      ActsOn a classification autonomyLevel result := by
  unfold classifyAndAct at h
  rw [if_neg (by rw [hterminal]; exact Bool.false_ne_true)] at h
  split at h
  · cases h
  next decided action hdecided =>
    obtain ⟨classified, hclassified, rfl, -⟩ := decideOn_ok hdecided
    unfold classifyLatest at hclassified
    rw [hnone] at hclassified
    simp only [bind, Except.bind] at hclassified
    split at hclassified
    · cases hclassified
    next classification hanswer =>
      obtain ⟨hok, rfl⟩ := orThrow_eq_ok.mp hclassified
      obtain ⟨hintent, hconfidence⟩ := classifyIntent_ok hok
      refine ⟨classification, hanswer, ?_⟩
      have hsame := decide_congr (b := answered a classification) hintent hconfidence autonomyLevel
      unfold ActsOn
      rw [← hsame]
      split at h
      · cases h
      · split at h
        · cases h
        · cases h
          exact ⟨rfl, rfl, rfl⟩

/-! ## One reply -/

variable {scrub}

/-- What a handled reply stores, and that it is loaded again. -/
theorem load_handled {s s' : Stores} {reply : Reply t} {result : HandleReplyResult}
    (h : handleReply scrub s reply.ctx reply.event reply.input = .ok (s', result)) :
    s.conversations.save t.ctx (withReply scrub s reply.ctx reply.event reply.input) =
        .ok s'.conversations ∧
      s'.conversations.load reply.ctx result.conversationId =
        some (.reconstitute (withReply scrub s reply.ctx reply.event reply.input).state
          (withReply scrub s reply.ctx reply.event reply.input).version) := by
  obtain ⟨-, -, conversations, hs, heq⟩ := handleReply_eq_ok.mp h
  obtain ⟨rfl, rfl⟩ := Prod.mk.inj heq
  exact ⟨by rw [← reply.ctx_eq]; exact hs, Conversations.load_save hs⟩

/-- A turn keeps the conversations of the thread unanswered. -/
theorem Unanswered.turn {s : Stores} (h : Unanswered t s.conversations) (reply : Reply t) :
    Unanswered t (turn scrub s reply).1.conversations := by
  unfold ConversationHandling.turn
  split
  · exact h
  next s₁ handled hh =>
    have h₁ : Unanswered t s₁.conversations :=
      h.save (load_handled hh).1 ((h.conversationFor reply).recordReply _ _)
    split
    · exact h₁
    · exact h₁
    next a _ =>
      dsimp only
      rcases classifyAndAct_conversations s₁ reply.ctx a reply.autonomyLevel reply.input with
        hsame | ⟨b, hstuck, hsaved⟩
      · rw [hsame]
        exact h₁
      · refine h₁.save (by rw [← reply.ctx_eq]; exact hsaved) fun hcan => ?_
        rw [hstuck] at hcan
        cases hcan

theorem not_taken {a : Conversation} {content : String} (hout : a.state.optedOut = false)
    (hask : Conversation.asksToOptOut content = false)
    (hcan : canTransition a.state.status .classified = false) :
    ¬(a.state.optedOut = true ∨ Conversation.asksToOptOut content = true ∨
      canTransition a.state.status .classified = true) := by
  simp [hout, hask, hcan]

/-- **A reply is stored, and the action is about it, iff the conversation takes it.** -/
theorem reaches_iff {s : Stores} (h : Unanswered t s.conversations) (reply : Reply t) :
    Reaches scrub s reply ↔ Taken scrub s reply := by
  constructor
  · intro hreaches hstores
    obtain ⟨⟨s', result⟩, hh⟩ := (exists_handleReply scrub).mpr hstores
    cases hout : (conversationFor s reply.ctx reply.event reply.input).state.optedOut with
    | true => exact .inl rfl
    | false =>
      right
      obtain ⟨stored, hload, hmessages⟩ := hreaches.appended s' result hh hout
      rw [(load_handled hh).2] at hload
      cases hload
      rcases recordReply_not_optedOut hout (replyMessage scrub reply.event reply.input)
          reply.input.now with ⟨hask, -, -⟩ | ⟨-, hcan, -⟩ | ⟨-, -, hsame⟩
      · exact .inl hask
      · exact .inr hcan
      · -- a refused reply leaves the messages as they were
        have hlength := congrArg List.length hmessages
        rw [List.length_append, List.length_singleton] at hlength
        have hold : (withReply scrub s reply.ctx reply.event reply.input).state.messages =
            (conversationFor s reply.ctx reply.event reply.input).state.messages :=
          congrArg (fun a : Conversation => a.state.messages) hsame
        rw [show (Aggregate.reconstitute _ _ : Conversation).state.messages = _ from hold]
          at hlength
        omega
  · intro htaken
    have hfresh := h.conversationFor reply
    refine ⟨fun s' result hh hout => ?_, fun s' result a s'' acted hh hload hterminal hacted => ?_⟩
    · refine ⟨_, (load_handled hh).2, ?_⟩
      rcases recordReply_not_optedOut hout (replyMessage scrub reply.event reply.input)
          reply.input.now with ⟨-, hmessages, -⟩ | ⟨-, -, hmessages, -⟩ | ⟨hask, hcan, -⟩
      · exact hmessages
      · exact hmessages
      · exact absurd (htaken ((exists_handleReply scrub).mp ⟨_, hh⟩))
          (not_taken hout hask hcan)
    · rw [(load_handled hh).2] at hload
      cases hload
      have hopen : (withReply scrub s reply.ctx reply.event reply.input).state.optedOut = false := by
        unfold isTerminal at hterminal
        rw [Bool.or_eq_false_iff, Bool.or_eq_false_iff] at hterminal
        exact hterminal.1.1
      have hout : (conversationFor s reply.ctx reply.event reply.input).state.optedOut = false := by
        unfold withReply at hopen
        rw [recordReply_optedOut, Bool.or_eq_false_iff] at hopen
        exact hopen.1
      refine classifyAndAct_actsOn hterminal ?_ hacted
      rcases recordReply_not_optedOut hout (replyMessage scrub reply.event reply.input)
          reply.input.now with ⟨-, -, hopted⟩ | ⟨-, hcan, -, -, hintent⟩ | ⟨hask, hcan, -⟩
      · exact absurd (hopen.symm.trans hopted) Bool.false_ne_true
      · exact hintent.trans (hfresh hcan)
      · exact absurd (htaken ((exists_handleReply scrub).mp ⟨_, hh⟩))
          (not_taken hout hask hcan)

/-! ## All the replies of a thread -/

/-- **From no conversation on, every reply of the thread is stored and acted on iff each of them
is taken.** -/
theorem reaches_all_iff (scrub : String → String) (t : Thread) (s : Stores)
    (h : s.conversations.ofLead t.ctx t.leadId t.channel = []) (replies : List (Reply t)) :
    Machine.Meets (turn scrub) (fun s reply => Reaches scrub s reply) s replies ↔
      Machine.Meets (turn scrub) (fun s reply => Taken scrub s reply) s replies :=
  Machine.meets_iff_of_invariant (fun _ reply hs => reaches_iff hs reply)
    (fun s reply (hs : Unanswered t s.conversations) _ => hs.turn reply) replies
    (unanswered_of_ofLead h)

/-! ### Two replies -/

def emailThread : Thread := ⟨⟨"t", "w"⟩, "l", "email"⟩

def emailReply (id content : String) (autonomyLevel : Rat) : Reply emailThread where
  ctx := ⟨"t", "w"⟩
  event := {
    tenantId := "t", workspaceId := "w", leadId := "l", channel := "email"
    providerMessageId := id, content, receivedAt := 0 }
  autonomyLevel
  input := {
    conversationId := "v", replyMessageId := id, classify := deterministicClassify, now := 0 }
  ctx_eq := rfl
  leadId_eq := rfl
  channel_eq := rfl

/-- The first reply of a thread. -/
theorem reaches_all_first :
    Machine.Meets (turn id) (fun s reply => Reaches id s reply) noStores
      [emailReply "m1" "Yes, tell me more" 2] :=
  (reaches_all_iff id emailThread noStores rfl _).mpr
    ⟨fun _ => .inr (.inr (by decide +kernel)), trivial⟩

/-- **After the follow-up that the first reply scheduled, the second reply is not stored, and the
action is decided on the intent of the first.** -/
theorem second_reply_lost :
    let replies := [emailReply "m1" "Yes, tell me more" 2, emailReply "m2" "Please stop now" 1]
    let s := Machine.final (turn id) noStores replies
    (s.conversations.load ⟨"t", "w"⟩ "v").map
        (fun a => (a.state.messages.map ReplyMessage.id, a.state.latestIntent)) =
          some (["m1"], some .positive) ∧
      (Machine.outputs (turn id) noStores replies).map Except.toOption =
        [some (some {
            conversationId := "v", status := .followUpScheduled, actionType := some .followUp
            requiresApproval := false, reason := "Positive reply; continue nurture sequence"
            leadStatusChanged := false }),
          some (some {
            conversationId := "v", status := .escalated, actionType := some .escalate
            requiresApproval := true, reason := "Autonomy level requires human review"
            leadStatusChanged := false })] ∧
      ¬Machine.Meets (turn id) (fun s reply => Reaches id s reply) noStores replies := by
  refine ⟨by decide +kernel, by decide +kernel, ?_⟩
  rintro ⟨-, hreaches, -⟩
  have hstart : Unanswered emailThread noStores.conversations := unanswered_of_ofLead rfl
  have htaken := (reaches_iff (hstart.turn _) _).mp hreaches
    ⟨rfl, rfl, fun hnone => absurd hnone (by decide +kernel)⟩
  exact absurd htaken (by decide +kernel)

end VegaRevenue.ConversationHandling
