import VegaRevenue.Domain.Conversation
import VegaRevenue.Lib.Machine

/-!
# The opt-out state of a conversation

A conversation has opted out in two places, the flag and the status. Runs of the operations, with a
save or a reload between them, keep the two together unless a reply opts out from a status that
cannot move.

* `lawful_iff` — one operation keeps the law iff it is no refused opt-out
* `optOut_consistent_iff` — so does a run
* `optOut_refused_false` — an escalated conversation opts out and can still be closed
-/

namespace VegaRevenue.Conversation

/-! ## Runs -/

inductive Operation where
  | recordReply (reply : ReplyMessage)
  | classifyIntent (classification : IntentClassification)
  | decideAction (action : NextBestAction)
  | close (disposition : Disposition) (reason : String)
  /-- The conversation is saved and used further. -/
  | save
  /-- The conversation is saved and loaded again. -/
  | restore

/-- One operation at a time. -/
def operate : Machine.Step Conversation (Operation × Date) OpResult := fun a call =>
  match call.1 with
  | .recordReply reply => recordReply a reply call.2
  | .classifyIntent classification => classifyIntent a classification call.2
  | .decideAction action => decideAction a action call.2
  | .close disposition reason => close a disposition reason call.2
  | .save => (a.setVersion a.version, .ok)
  | .restore => (.reconstitute a.state a.version, .ok)

/-! ## The law -/

/-- The flag and the status say the same. -/
def OptOutAgrees (s : Props) : Prop := s.optedOut = true ↔ s.status = .optedOut

/-- What an operation owes, from `a` to `b`. -/
structure Lawful (a b : Conversation) : Prop where
  agrees : OptOutAgrees b.state
  frozen : a.state.optedOut = true → b.state.status = a.state.status ∧
    b.state.messages = a.state.messages ∧ b.state.latestIntent = a.state.latestIntent ∧
      b.state.nextAction = a.state.nextAction
  announced : a.state.optedOut = false → b.state.optedOut = true →
    b.domainEvents = a.domainEvents ++
        [.optOutRecorded a.state.id a.state.leadId a.state.channel] ∧
      b.version = a.version + 1

/-- A reply opts out from a status that cannot move to `OPTED_OUT`. -/
def RefusedOptOut (a : Conversation) (call : Operation × Date) : Prop :=
  ∃ reply, call.1 = .recordReply reply ∧ asksToOptOut reply.content = true ∧
    a.state.optedOut = false ∧ canTransition a.state.status .optedOut = false

/-! ## One operation -/

variable {a : Conversation}

/-- An operation that leaves the state alone. -/
theorem lawful_of_state {b : Conversation} (h : OptOutAgrees a.state) (hb : b.state = a.state) :
    Lawful a b where
  agrees := by rw [hb]; exact h
  frozen := by
    intro _
    rw [hb]
    exact ⟨rfl, rfl, rfl, rfl⟩
  announced := by
    intro hout hout'
    rw [hb, hout] at hout'
    cases hout'

/-- An operation that neither opts out nor was opted out of. -/
theorem lawful_of_not_optedOut {b : Conversation} (hout : a.state.optedOut = false)
    (hflag : b.state.optedOut = false) (hstatus : b.state.status ≠ .optedOut) : Lawful a b where
  agrees := by
    rw [OptOutAgrees, hflag]
    exact iff_of_false nofun hstatus
  frozen := by
    intro h
    rw [hout] at h
    cases h
  announced := by
    intro _ h
    rw [hflag] at h
    cases h

/-- A transition to another status than `OPTED_OUT` moves neither the flag nor the status there. -/
theorem transitionTo_not_optedOut (hstatus : a.state.status ≠ .optedOut) {target : Status}
    (htarget : target ≠ .optedOut) (event : Event) :
    (transitionTo a target event).1.state.optedOut = a.state.optedOut ∧
      (transitionTo a target event).1.state.status ≠ .optedOut := by
  rcases transitionTo_eq a target event with ⟨-, -, -, -, hstate⟩ | ⟨-, -, hsame⟩
  · rw [hstate]
    exact ⟨rfl, htarget⟩
  · rw [hsame]
    exact ⟨rfl, hstatus⟩

/-- Nothing leads out of `OPTED_OUT`. -/
theorem transitionTo_of_optedOut (h : a.state.status = .optedOut) (target : Status)
    (event : Event) : (transitionTo a target event).1 = a ∧
      (transitionTo a target event).2.success = false := by
  rcases transitionTo_eq a target event with ⟨hcan, -⟩ | ⟨-, hfail, hsame⟩
  · rw [h] at hcan
    exact absurd hcan (by cases target <;> decide)
  · exact ⟨hsame, hfail⟩

/-- **A conversation that has opted out stays as it is.** -/
theorem operate_of_optedOut (h : OptOutAgrees a.state) (hout : a.state.optedOut = true)
    (call : Operation × Date) : (operate a call).1.state = a.state := by
  have hstatus := h.mp hout
  obtain ⟨op, now⟩ := call
  cases op with
  | recordReply reply => simp [operate, recordReply, hout]
  | classifyIntent classification => simp [operate, classifyIntent, hstatus]
  | decideAction action => simp [operate, decideAction, hout]
  | close disposition reason =>
    obtain ⟨hsame, hfail⟩ := transitionTo_of_optedOut hstatus .closed
      (.conversationClosed a.state.id disposition reason)
    simp [operate, close, hsame, hfail]
  | save => rfl
  | restore => rfl

/-- Operations other than an opt-out do not opt out. -/
theorem operate_not_optedOut (hout : a.state.optedOut = false)
    (hstatus : a.state.status ≠ .optedOut) {call : Operation × Date}
    (hno : ∀ reply, call.1 = .recordReply reply → asksToOptOut reply.content = false) :
    (operate a call).1.state.optedOut = false ∧
      (operate a call).1.state.status ≠ .optedOut := by
  obtain ⟨op, now⟩ := call
  cases op with
  | recordReply reply =>
    have hmoved := transitionTo_not_optedOut hstatus (by decide : Status.classified ≠ .optedOut)
      (.replyReceived a.state.id reply.id reply.providerMessageId reply.channel
        (String.ofList (sliceUnits 200 reply.content.toList)))
    rw [hout] at hmoved
    simp only [operate, recordReply, hout, hno reply rfl, Bool.false_eq_true, if_false]
    split
    · exact hmoved
    · exact hmoved
  | classifyIntent classification =>
    have hmoved := transitionTo_not_optedOut hstatus (by decide : Status.classified ≠ .optedOut)
      (.intentClassified a.state.id classification.intent classification.confidence
        classification.reason)
    rw [hout] at hmoved
    simp only [operate, classifyIntent]
    split
    · exact ⟨hout, hstatus⟩
    · split
      · exact hmoved
      · exact hmoved
  | decideAction action =>
    have htarget : action.actionType.target ≠ .optedOut := by cases action.actionType <;> decide
    simp only [operate, decideAction]
    rw [if_neg (by rw [hout]; exact Bool.false_ne_true)]
    -- the reason of an escalation is written first
    generalize hb : (if action.actionType = .escalate then
      a.write { a.state with escalatedReason := some action.reason } else a) = b
    have hb' : b.state.optedOut = false ∧ b.state.status ≠ .optedOut := by
      rw [← hb]
      split
      · exact ⟨hout, hstatus⟩
      · exact ⟨hout, hstatus⟩
    have hmoved := transitionTo_not_optedOut hb'.2 htarget
      (.followUpScheduled a.state.id action.actionType action.reason)
    rw [hb'.1] at hmoved
    split
    · exact hmoved
    · exact hmoved
  | close disposition reason =>
    have hmoved := transitionTo_not_optedOut hstatus (by decide : Status.closed ≠ .optedOut)
      (.conversationClosed a.state.id disposition reason)
    rw [hout] at hmoved
    simp only [operate, close]
    split
    · exact hmoved
    · exact hmoved
  | save => exact ⟨hout, hstatus⟩
  | restore => exact ⟨hout, hstatus⟩

/-- What an opt-out leaves. -/
theorem operate_optOut (hout : a.state.optedOut = false) {reply : ReplyMessage}
    (hask : asksToOptOut reply.content = true) (now : Date) :
    (operate a (.recordReply reply, now)).1.state.optedOut = true ∧
      (canTransition a.state.status .optedOut = true →
        (operate a (.recordReply reply, now)).1.state.status = .optedOut ∧
          (operate a (.recordReply reply, now)).1.domainEvents = a.domainEvents ++
              [.optOutRecorded a.state.id a.state.leadId a.state.channel] ∧
            (operate a (.recordReply reply, now)).1.version = a.version + 1) ∧
      (canTransition a.state.status .optedOut = false →
        (operate a (.recordReply reply, now)).1.state.status = a.state.status) := by
  simp only [operate, recordReply, hout, hask, transitionTo, Bool.false_eq_true, if_false, if_true]
  refine ⟨rfl, fun hcan => ?_, fun hcan => ?_⟩
  · rw [if_pos hcan]
    exact ⟨rfl, rfl, rfl⟩
  · rw [if_neg (by rw [hcan]; exact Bool.false_ne_true)]
    rfl

/-- **An operation keeps the law iff it is no refused opt-out.** -/
theorem lawful_iff (h : OptOutAgrees a.state) (call : Operation × Date) :
    Lawful a (operate a call).1 ↔ ¬RefusedOptOut a call := by
  cases hout : a.state.optedOut with
  | true =>
    refine iff_of_true (lawful_of_state h (operate_of_optedOut h hout call)) ?_
    rintro ⟨-, -, -, hnot, -⟩
    rw [hout] at hnot
    cases hnot
  | false =>
    have hstatus : a.state.status ≠ .optedOut := by
      intro hstatus
      rw [h.mpr hstatus] at hout
      cases hout
    by_cases hopt : ∃ reply, call.1 = .recordReply reply ∧ asksToOptOut reply.content = true
    · obtain ⟨op, now⟩ := call
      obtain ⟨reply, rfl, hask⟩ := hopt
      obtain ⟨hflag, hmoved, hstuck⟩ := operate_optOut hout hask now
      constructor
      · rintro hlaw ⟨_, -, -, -, hcan⟩
        exact hstatus ((hstuck hcan).symm.trans (hlaw.agrees.mp hflag))
      · intro hnot
        have hcan : canTransition a.state.status .optedOut = true := by
          rw [← Bool.not_eq_false]
          intro hcan
          exact hnot ⟨reply, rfl, hask, hout, hcan⟩
        obtain ⟨hto, hevents, hversion⟩ := hmoved hcan
        refine ⟨iff_of_true hflag hto, fun hwas => ?_, fun _ _ => ⟨hevents, hversion⟩⟩
        rw [hout] at hwas
        cases hwas
    · have hno : ∀ reply, call.1 = .recordReply reply → asksToOptOut reply.content = false := by
        intro reply hreply
        rw [← Bool.not_eq_true]
        intro hask
        exact hopt ⟨reply, hreply, hask⟩
      obtain ⟨hflag, hto⟩ := operate_not_optedOut hout hstatus hno
      refine iff_of_true (lawful_of_not_optedOut hout hflag hto) ?_
      rintro ⟨reply, hreply, hask, -, -⟩
      exact hopt ⟨reply, hreply, hask⟩

/-! ## Runs -/

/-- **A conversation whose flag and status agree when it is created keeps the law in a run iff the
run refuses no opt-out.** -/
theorem optOut_consistent_iff (props : Props) (ops : List (Operation × Date)) :
    (OptOutAgrees (create props).state ∧
        Machine.Meets operate (fun a call => Lawful a (operate a call).1) (create props) ops) ↔
      OptOutAgrees props ∧
        Machine.Meets operate (fun a call => ¬RefusedOptOut a call) (create props) ops := by
  have hruns (h : OptOutAgrees (create props).state) := Machine.meets_iff_of_invariant
    (fun a call ha => lawful_iff ha call)
    (fun a call (_ : OptOutAgrees a.state) (hlaw : Lawful a _) => hlaw.agrees) ops h
  constructor
  · rintro ⟨h, hmeets⟩
    exact ⟨h, (hruns h).mp hmeets⟩
  · rintro ⟨h, hmeets⟩
    exact ⟨h, (hruns h).mpr hmeets⟩

/-! ## A refused opt-out -/

namespace Sample

def props : Props :=
  { id := "c1", tenantId := "t1", workspaceId := "w1", leadId := "l1", channel := "email"
    createdAt := 0, updatedAt := 0 }

def unsubscribe : ReplyMessage :=
  { id := "r2", providerMessageId := "p2", channel := "email"
    content := "please unsubscribe me", receivedAt := 3 }

/-- A question is escalated, and the lead then asks to be left alone. -/
def escalated : List (Operation × Date) :=
  [(.recordReply { id := "r1", providerMessageId := "p1", channel := "email"
                   content := "who are you?", receivedAt := 1 }, 1),
   (.decideAction ⟨.escalate, "asks for a person"⟩, 2)]

end Sample

/-- **An escalated conversation opts out without the status, the event or a new version, and
closing it afterwards moves it.** -/
theorem optOut_refused_false :
    let a := Machine.final operate (create Sample.props) Sample.escalated
    let b := (operate a (.recordReply Sample.unsubscribe, 3)).1
    let c := (operate b (.close .noAction "done", 4)).1
    b.state.optedOut = true ∧ b.state.status = .escalated ∧ b.version = a.version ∧
      b.domainEvents = a.domainEvents ∧ c.state.status = .closed ∧ c.state.optedOut = true ∧
        ¬Machine.Meets operate (fun a call => Lawful a (operate a call).1) (create Sample.props)
          (Sample.escalated ++ [(.recordReply Sample.unsubscribe, 3)]) := by
  refine ⟨by decide +kernel, by decide +kernel, by decide +kernel, by decide +kernel,
    by decide +kernel, by decide +kernel, ?_⟩
  rintro ⟨-, -, hlaw, -⟩
  have hflag : ¬OptOutAgrees (operate (Machine.final operate (create Sample.props)
      Sample.escalated) (.recordReply Sample.unsubscribe, 3)).1.state := by
    unfold OptOutAgrees
    decide +kernel
  exact hflag hlaw.agrees

end VegaRevenue.Conversation
