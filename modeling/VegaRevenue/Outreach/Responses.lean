import VegaRevenue.Outreach.System

/-!
# What a recorded response leaves

`recordResponse` leads a delivered message on to OPENED or REPLIED. It asks PROVIDER_ACCEPTED for
DELIVERED directly, which the table refuses, and saves the execution all the same.

* `recordResponse_find` — the row a call leaves
* `reflectsAll_iff` — the responses of a sequence of calls are reflected iff the provider had not
  just accepted the message
* `not_reflected_accepted` — a reply to a message that was just accepted
-/

namespace VegaRevenue.Outreach

open Versioned
open MessageExecution (Status Props Event canTransition)

/-- `recordResponse` from its load to its save. -/
def recordResponse (w : World) (call : ResponseCall) (input : Input) : World × ResponsePc :=
  let (w, pc) := responseNext call input w .load
  responseNext call input w pc

/-- The message was accepted by the provider and nothing went wrong since. -/
def accepted : Status → Bool
  | .providerAccepted | .deliveryPending | .delivered | .opened | .replied => true
  | _ => false

/-- The statuses that the events of an execution announce. -/
def announced (e : MessageExecution) : List Status :=
  e.domainEvents.filterMap fun
    | .statusChanged _ _ _ _ target _ _ => some target
    | .created .. => none

/-- The statuses a response is to lead to. -/
def answers : ResponseType → Status → Prop
  | .replied, s => s = .replied
  | .opened, s => s = .opened ∨ s = .replied

/-! ## The transitions of a response -/

/-- What a response does to a loaded execution: the transition to DELIVERED is raised iff the
delivery was pending, and with it the delivery is dated. -/
structure Responded (responseType : ResponseType) (now : Date) (e e' : MessageExecution) : Prop where
  status : answers responseType e'.state.status
  raised : .delivered ∈ announced e' ↔ e.state.status = .deliveryPending
  deliveredAt : e'.state.deliveredAt =
    if e.state.status = .deliveryPending then some now else e.state.deliveredAt

section

variable {e : MessageExecution} {responseType : ResponseType}

theorem transition_of_can {target : Status} (h : canTransition e.state.status target = true)
    (reason : Option String) (now : Date) :
    (MessageExecution.transition e target reason now).1 =
      (e.write { e.state with status := target, updatedAt := now }).applyEvent
        (.statusChanged e.state.id e.state.campaignId e.state.sequenceId e.state.status target reason
          e.state.providerMessageId) := by
  unfold MessageExecution.transition
  rw [if_pos h]

theorem transition_of_not_can {target : Status} (h : canTransition e.state.status target = false)
    (reason : Option String) (now : Date) :
    (MessageExecution.transition e target reason now).1 = e := by
  unfold MessageExecution.transition
  rw [if_neg (by simp [h])]

/-- A transition that is allowed is announced and leaves the date of the delivery. -/
theorem transition_spec (target : Status) (h : canTransition e.state.status target = true)
    (reason : Option String) (now : Date) :
    (MessageExecution.transition e target reason now).1.state.status = target ∧
      (MessageExecution.transition e target reason now).1.state.deliveredAt = e.state.deliveredAt ∧
      announced (MessageExecution.transition e target reason now).1 = announced e ++ [target] := by
  rw [transition_of_can h]
  refine ⟨rfl, rfl, ?_⟩
  unfold announced Aggregate.applyEvent Aggregate.write
  rw [List.filterMap_append]
  rfl

/-- A reply to a message that was replied to is refused. -/
theorem markReplied_of_replied (h : e.state.status = .replied) (now : Date) :
    (MessageExecution.markReplied e now).1 = e := transition_of_not_can (by rw [h]; rfl) _ now

/-- A response to a message that was opened or replied to. -/
theorem respond_of_opened (h : e.state.status = .opened ∨ e.state.status = .replied) (now : Date) :
    respond responseType e now =
      if responseType = .replied then (MessageExecution.markReplied e now).1 else e := by
  unfold respond
  rcases h with h | h <;> simp only [h, reduceCtorEq, or_self, if_false]

/-- A response that the status already answers changes nothing. -/
theorem respond_eq_self (h : e.state.status = .replied ∨
    e.state.status = .opened ∧ responseType = .opened) (now : Date) :
    respond responseType e now = e := by
  rcases h with h | ⟨h, rfl⟩
  · rw [respond_of_opened (.inr h)]
    split
    · exact markReplied_of_replied h now
    · rfl
  · rw [respond_of_opened (.inl h)]
    exact if_neg (by decide)

/-- A response to a message that was opened. -/
theorem respond_opened_spec (responseType : ResponseType) (h : e.state.status = .opened) (now : Date) :
    answers responseType (respond responseType e now).state.status ∧
      (respond responseType e now).state.deliveredAt = e.state.deliveredAt ∧
      (.delivered ∈ announced (respond responseType e now) ↔ .delivered ∈ announced e) := by
  rw [respond_of_opened (.inl h)]
  cases responseType with
  | opened => exact ⟨.inl h, rfl, .rfl⟩
  | replied =>
    obtain ⟨hstatus, hdate, hannounced⟩ :=
      transition_spec .replied (by rw [h]; rfl) (some "Recipient replied") now
    rw [if_pos rfl]
    refine ⟨hstatus, hdate, ?_⟩
    show _ ∈ announced (MessageExecution.transition e .replied _ now).1 ↔ _
    rw [hannounced]
    simp

/-- A response to a message that was delivered is one to the message that is then opened. -/
theorem respond_of_delivered (h : e.state.status = .delivered) (now : Date) :
    respond responseType e now = respond responseType (MessageExecution.markOpened e now).1 now := by
  have hstatus : (MessageExecution.markOpened e now).1.state.status = .opened :=
    (transition_spec _ (by rw [h]; rfl) _ now).1
  rw [respond_of_opened (.inl hstatus)]
  unfold respond
  simp only [h, reduceCtorEq, or_self, if_false, if_true]

theorem respond_delivered_spec (responseType : ResponseType) (h : e.state.status = .delivered) (now : Date) :
    answers responseType (respond responseType e now).state.status ∧
      (respond responseType e now).state.deliveredAt = e.state.deliveredAt ∧
      (.delivered ∈ announced (respond responseType e now) ↔ .delivered ∈ announced e) := by
  obtain ⟨hstatus, hdate, hannounced⟩ :=
    transition_spec .opened (by rw [h]; rfl) (some "Message opened") now
  obtain ⟨hanswers, hdate', hannounced'⟩ :=
    respond_opened_spec (e := (MessageExecution.markOpened e now).1) responseType hstatus now
  rw [respond_of_delivered h]
  refine ⟨hanswers, hdate'.trans hdate, hannounced'.trans ?_⟩
  show _ ∈ announced (MessageExecution.transition e .opened _ now).1 ↔ _
  rw [hannounced]
  simp

/-- A response to a message whose delivery is pending is one to the message that is then
delivered. -/
theorem respond_of_deliveryPending (h : e.state.status = .deliveryPending) (now : Date) :
    respond responseType e now =
      respond responseType (MessageExecution.markDelivered e none now).1 now := by
  have hstatus : (MessageExecution.markDelivered e none now).1.state.status = .delivered :=
    (transition_spec (e := e.write (e.state.withDelivery none now)) _ (by
      show canTransition e.state.status _ = _
      rw [h]
      rfl) _ now).1
  have hopened : (MessageExecution.markOpened (MessageExecution.markDelivered e none now).1
      now).1.state.status = .opened := (transition_spec _ (by rw [hstatus]; rfl) _ now).1
  rw [respond_of_delivered hstatus, respond_of_opened (.inl hopened)]
  unfold respond
  simp only [h, hstatus, reduceCtorEq, or_true, if_true]

theorem respond_deliveryPending_spec (responseType : ResponseType)
    (h : e.state.status = .deliveryPending) (now : Date) :
    answers responseType (respond responseType e now).state.status ∧
      (respond responseType e now).state.deliveredAt = some now ∧
      .delivered ∈ announced (respond responseType e now) := by
  obtain ⟨hstatus, hdate, hannounced⟩ :=
    transition_spec (e := e.write (e.state.withDelivery none now)) .delivered (by
      show canTransition e.state.status _ = _
      rw [h]
      rfl) (some "Message delivered") now
  obtain ⟨hanswers, hdate', hannounced'⟩ :=
    respond_delivered_spec (e := (MessageExecution.markDelivered e none now).1) responseType hstatus
      now
  rw [respond_of_deliveryPending h]
  refine ⟨hanswers, hdate'.trans hdate, hannounced'.mpr ?_⟩
  show _ ∈ announced (MessageExecution.transition (e.write _) .delivered _ now).1
  rw [hannounced]
  exact List.mem_append_right _ (.head _)

/-- What a call does where the provider has not just accepted the message. -/
theorem responded (hevents : e.domainEvents = []) (ha : accepted e.state.status = true)
    (hne : e.state.status ≠ .providerAccepted) (now : Date) :
    Responded responseType now e (respond responseType e now) := by
  have hnone : ¬.delivered ∈ announced e := by
    unfold announced
    rw [hevents]
    exact List.not_mem_nil
  cases hs : e.state.status with
  | deliveryPending =>
    obtain ⟨hanswers, hdate, hannounced⟩ := respond_deliveryPending_spec responseType hs now
    exact ⟨hanswers, iff_of_true hannounced hs, hdate.trans (if_pos hs).symm⟩
  | delivered =>
    have hpending : e.state.status ≠ .deliveryPending := by rw [hs]; decide
    obtain ⟨hanswers, hdate, hannounced⟩ := respond_delivered_spec responseType hs now
    exact ⟨hanswers, iff_of_false (hnone ∘ hannounced.mp) hpending,
      hdate.trans (if_neg hpending).symm⟩
  | opened =>
    have hpending : e.state.status ≠ .deliveryPending := by rw [hs]; decide
    obtain ⟨hanswers, hdate, hannounced⟩ := respond_opened_spec responseType hs now
    exact ⟨hanswers, iff_of_false (hnone ∘ hannounced.mp) hpending,
      hdate.trans (if_neg hpending).symm⟩
  | replied =>
    have hpending : e.state.status ≠ .deliveryPending := by rw [hs]; decide
    rw [respond_eq_self (.inl hs)]
    refine ⟨?_, iff_of_false hnone hpending, (if_neg hpending).symm⟩
    cases responseType with
    | opened => exact .inr hs
    | replied => exact hs
  | providerAccepted => exact absurd hs hne
  | _ =>
    rw [hs] at ha
    cases ha

/-- DELIVERED is refused, and so is every response. -/
theorem respond_providerAccepted_status (h : e.state.status = .providerAccepted) (now : Date) :
    (respond responseType e now).state.status = .providerAccepted := by
  have hdelivered : (MessageExecution.markDelivered e none now).1.state.status =
      .providerAccepted := by
    unfold MessageExecution.markDelivered
    rw [transition_of_not_can (by
      show canTransition e.state.status _ = _
      rw [h]
      rfl)]
    exact h
  unfold respond
  simp only [h, hdelivered, reduceCtorEq, true_or, if_true, if_false]
  cases responseType with
  | opened => exact hdelivered
  | replied =>
    show (MessageExecution.transition _ .replied _ now).1.state.status = _
    rw [transition_of_not_can (by rw [hdelivered]; rfl)]
    exact hdelivered

end

/-! ## The rows -/

section

variable {w : World} {ctx : Context} {id : String} {row : Row Props}

/-- The copy a call loads of a row. -/
def loadedCopy (ctx : Context) (id : String) (row : Row Props) : MessageExecution :=
  .reconstitute { row.payload with id, tenantId := ctx.tenantId, workspaceId := ctx.workspaceId }
    row.version

/-- The row that holds the execution. -/
def rowOf (e : MessageExecution) : Row Props := ⟨e.state, e.version⟩

theorem respond_scope (responseType : ResponseType) (ctx : Context) (id : String) (row : Row Props)
    (now : Date) :
    (respond responseType (loadedCopy ctx id row) now).state.id = id ∧
      (respond responseType (loadedCopy ctx id row) now).state.tenantId = ctx.tenantId ∧
      (respond responseType (loadedCopy ctx id row) now).state.workspaceId = ctx.workspaceId := by
  have hidentity := (respond_keeps responseType (loadedCopy ctx id row) now).identity
  exact ⟨congrArg MessageExecution.Identity.id hidentity,
    congrArg MessageExecution.Identity.tenantId hidentity,
    congrArg MessageExecution.Identity.workspaceId hidentity⟩

/-- **The row a call leaves.** -/
theorem recordResponse_find (h : w.executions.find (rowKey ctx id) = some row)
    (responseType : ResponseType) (input : Input) :
    (recordResponse w ⟨ctx, id, responseType⟩ input).1.executions.find (rowKey ctx id) =
      some (rowOf (respond responseType (loadedCopy ctx id row) input.now.ms)) := by
  have hload : w.loadExecution ctx id = some (loadedCopy ctx id row) := by
    unfold World.loadExecution
    rw [h]
    rfl
  have hkeeps := respond_keeps responseType (loadedCopy ctx id row) input.now.ms
  obtain ⟨hid, htenant, hworkspace⟩ := respond_scope responseType ctx id row input.now.ms
  unfold recordResponse responseNext
  dsimp only
  rw [hload]
  dsimp only
  generalize respond responseType (loadedCopy ctx id row) input.now.ms = e
    at hkeeps hid htenant hworkspace ⊢
  have hl : e.loadedVersion = some row.version := hkeeps.loadedVersion
  have hkey : rowKey ctx e.state.id = rowKey ctx id := congrArg _ hid
  have hsave : w.executions.save (rowKey ctx e.state.id) e =
      some (w.executions.replace (rowKey ctx id) (rowOf e)) := by
    rw [hkey]
    exact Table.save_eq_some_iff.mpr (.inr ⟨_, row, hl, h, rfl, rfl⟩)
  unfold World.saveExecution
  rw [if_neg (not_not_intro htenant), if_neg (not_not_intro hworkspace),
    if_neg (fun hfresh => by rw [hl] at hfresh; cases hfresh.1), hsave]
  exact Table.find_replace_self _ h

/-! ## Sequences of calls -/

/-- The worlds a call and its repetition leave. -/
def afterResponse (w : World) (ctx : Context) (id : String) (response : ResponseType × Input) :
    World := (recordResponse w ⟨ctx, id, response.1⟩ response.2).1

/-- A call is reflected in the row: its status answers the response, the delivery is dated iff the
call made the transition to DELIVERED, and a repetition of the call leaves the row. -/
def Reflected (w : World) (ctx : Context) (id : String) (response : ResponseType × Input) : Prop :=
  ∃ row row', w.executions.find (rowKey ctx id) = some row ∧
    (afterResponse w ctx id response).executions.find (rowKey ctx id) = some row' ∧
    answers response.1 row'.payload.status ∧
    row'.payload.deliveredAt =
      (if .delivered ∈ announced (respond response.1 (loadedCopy ctx id row) response.2.now.ms)
      then some response.2.now.ms else row.payload.deliveredAt) ∧
    ∀ input, (afterResponse (afterResponse w ctx id response) ctx id
      (response.1, input)).executions.find (rowKey ctx id) = some row'

/-- Every call of a sequence is reflected. -/
def AllReflected (w : World) (ctx : Context) (id : String) : List (ResponseType × Input) → Prop
  | [] => True
  | response :: responses =>
    Reflected w ctx id response ∧ AllReflected (afterResponse w ctx id response) ctx id responses

theorem loadedCopy_rowOf {e : MessageExecution} (hid : e.state.id = id)
    (htenant : e.state.tenantId = ctx.tenantId) (hworkspace : e.state.workspaceId = ctx.workspaceId) :
    loadedCopy ctx id (rowOf e) = .reconstitute e.state e.version := by
  unfold loadedCopy rowOf
  rw [← hid, ← htenant, ← hworkspace]

/-- One call. -/
theorem reflected (h : w.executions.find (rowKey ctx id) = some row)
    (ha : accepted row.payload.status = true) (hne : row.payload.status ≠ .providerAccepted)
    (response : ResponseType × Input) : Reflected w ctx id response := by
  obtain ⟨responseType, input⟩ := response
  have hresponded : Responded responseType input.now.ms (loadedCopy ctx id row)
      (respond responseType (loadedCopy ctx id row) input.now.ms) := responded rfl ha hne _
  obtain ⟨hid, htenant, hworkspace⟩ := respond_scope responseType ctx id row input.now.ms
  have hcopy := loadedCopy_rowOf hid htenant hworkspace
  have hfind := recordResponse_find h responseType input
  refine ⟨row, _, h, hfind, hresponded.status, ?_, fun input' => ?_⟩
  · show (respond responseType (loadedCopy ctx id row) input.now.ms).state.deliveredAt = _
    rw [hresponded.deliveredAt]
    by_cases hpending : (loadedCopy ctx id row).state.status = .deliveryPending
    · rw [if_pos hpending, if_pos (hresponded.raised.mpr hpending)]
    · rw [if_neg hpending, if_neg (hpending ∘ hresponded.raised.mp)]
      rfl
  · have hagain := recordResponse_find hfind responseType input'
    have hdone : (respond responseType (loadedCopy ctx id row) input.now.ms).state.status = .replied ∨
        (respond responseType (loadedCopy ctx id row) input.now.ms).state.status = .opened ∧
          responseType = .opened := by
      cases responseType with
      | opened =>
        rcases hresponded.status with hopened | hreplied
        · exact .inr ⟨hopened, rfl⟩
        · exact .inl hreplied
      | replied => exact .inl hresponded.status
    rw [hcopy, respond_eq_self (by exact hdone)] at hagain
    exact hagain

theorem not_reflected (h : w.executions.find (rowKey ctx id) = some row)
    (hs : row.payload.status = .providerAccepted) (response : ResponseType × Input) :
    ¬Reflected w ctx id response := by
  rintro ⟨row₀, row', -, hrow', hanswers, -⟩
  have hfind := recordResponse_find h response.1 response.2
  rw [show (afterResponse w ctx id response).executions.find (rowKey ctx id) = _ from hfind] at hrow'
  cases hrow'
  have hstatus : (rowOf (respond response.1 (loadedCopy ctx id row)
      response.2.now.ms)).payload.status = .providerAccepted :=
    respond_providerAccepted_status hs _
  rw [hstatus] at hanswers
  obtain ⟨responseType, input⟩ := response
  cases responseType with
  | opened => rcases hanswers with hanswers | hanswers <;> cases hanswers
  | replied => cases hanswers

/-- A status that answers a response is accepted and past PROVIDER_ACCEPTED. -/
theorem accepted_of_answers {responseType : ResponseType} {s : Status}
    (h : answers responseType s) : accepted s = true ∧ s ≠ .providerAccepted := by
  cases responseType with
  | opened => rcases h with rfl | rfl <;> exact ⟨rfl, by decide⟩
  | replied => rw [h]; exact ⟨rfl, by decide⟩

theorem allReflected (responses : List (ResponseType × Input))
    (h : w.executions.find (rowKey ctx id) = some row)
    (ha : accepted row.payload.status = true) (hne : row.payload.status ≠ .providerAccepted) :
    AllReflected w ctx id responses := by
  induction responses generalizing w row with
  | nil => trivial
  | cons response responses ih =>
    have hreflected := reflected h ha hne response
    obtain ⟨-, row', -, hrow', hanswers, -⟩ := hreflected
    obtain ⟨ha', hne'⟩ := accepted_of_answers hanswers
    exact ⟨reflected h ha hne response, ih hrow' ha' hne'⟩

/-- **When recorded responses are reflected**: in every sequence of calls on an execution whose
message the provider accepted, iff the execution has left PROVIDER_ACCEPTED. -/
theorem allReflected_iff (h : w.executions.find (rowKey ctx id) = some row)
    (ha : accepted row.payload.status = true) (responses : List (ResponseType × Input)) :
    AllReflected w ctx id responses ↔
      responses = [] ∨ row.payload.status ≠ .providerAccepted := by
  constructor
  · intro hall
    cases responses with
    | nil => exact .inl rfl
    | cons response responses => exact .inr fun hs => not_reflected h hs response hall.1
  · rintro (rfl | hne)
    · trivial
    · exact allReflected responses h ha hne

end

def responseInput : Input := { now := .epoch }

def responseWorld (status : Status) : World :=
  .ofRows [sampleExecution "execution" "sequence" 0 status] [] []

theorem responseWorld_find (status : Status) :
    (responseWorld status).executions.find (rowKey sampleContext "execution") =
      some ⟨sampleExecution "execution" "sequence" 0 status, 1⟩ := rfl

theorem allReflected_iff_pending :
    AllReflected (responseWorld .deliveryPending) sampleContext "execution"
      [(.opened, responseInput), (.replied, responseInput)] :=
  (allReflected_iff (responseWorld_find .deliveryPending) rfl _).mpr (.inr (by decide))

/-- A reply to a message that the provider has just accepted. -/
theorem not_reflected_accepted :
    ¬Reflected (responseWorld .providerAccepted) sampleContext "execution"
      (.replied, responseInput) :=
  not_reflected (responseWorld_find .providerAccepted) rfl _

end VegaRevenue.Outreach
