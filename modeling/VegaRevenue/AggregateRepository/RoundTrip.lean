import VegaRevenue.AggregateRepository.Snapshots

/-!
# Saving and loading an outreach aggregate

Callers create aggregates, apply operations, save and query, in any order. A saved aggregate is
loaded with every field it has, but its workspace comes back as the `uuid` column spells it.

* `Inv.step` — one step keeps every copy at its row
* `saved_is_loaded` — the four aggregates along every history
* `not_saved_is_loaded` — a workspace in capitals
-/

namespace VegaRevenue.AggregateRepository

open Versioned

/-- What callers do with an aggregate besides saving and loading it. -/
structure Behaviour {S C I : Type} (m : Mapping S C I) (E N Op : Type) where
  create : N → Option (Aggregate S E)
  apply : Date → Aggregate S E → Op → Aggregate S E
  create_loadedVersion : ∀ {n a}, create n = some a → a.loadedVersion = none
  apply_loadedVersion : ∀ now a op, (apply now a op).loadedVersion = a.loadedVersion
  apply_key : ∀ now a op, m.key (apply now a op).state = m.key a.state
  apply_owned : ∀ now a op, m.owned (apply now a op).state = m.owned a.state

section

variable {S C I E N Op : Type} {m : Mapping S C I}

structure World (S C I E : Type) where
  rows : List (Row C I) := []
  /-- The aggregates in memory. -/
  copies : List (Aggregate S E) := []

inductive Step (C I N Op : Type) where
  | create (n : N)
  | operate (copy : Nat) (now : Date) (op : Op)
  | clearDomainEvents (copy : Nat)
  | save (copy : Nat) (ctx : Context) (fault : Fault)
  /-- Any of the queries; each result is a new copy. -/
  | query (ctx : Context) (matching : Row C I → Bool)

/-- One step, and what a save answers. -/
def Behaviour.step (b : Behaviour m E N Op) :
    Machine.Step (World S C I E) (Step C I N Op) (Option (Except SaveError (Aggregate S E)))
  | w, .create n => ({ w with copies := w.copies ++ (b.create n).toList }, none)
  | w, .operate copy now op =>
    ({ w with copies := w.copies.modify copy fun a => b.apply now a op }, none)
  | w, .clearDomainEvents copy =>
    ({ w with copies := w.copies.modify copy Aggregate.clearDomainEvents }, none)
  | w, .save copy ctx fault =>
    match w.copies[copy]? with
    | none => (w, none)
    | some a =>
      let (rows, result) := m.save w.rows ctx fault a
      match result with
      | .ok a' => ({ rows, copies := w.copies.set copy a' }, some result)
      | .error _ => ({ w with rows }, some result)
  | w, .query ctx matching => ({ w with copies := w.copies ++ m.select w.rows ctx matching }, none)

/-- Every copy is at its row. -/
structure Inv (m : Mapping S C I) (w : World S C I E) : Prop where
  rows : m.RowsInv w.rows
  copies : ∀ a ∈ w.copies, m.Placed w.rows a

theorem placed_of_eq {rows : List (Row C I)} {a a' : Aggregate S E} (h : m.Placed rows a)
    (hl : a'.loadedVersion = a.loadedVersion) (hkey : m.key a'.state = m.key a.state)
    (howned : m.owned a'.state = m.owned a.state) : m.Placed rows a' := by
  intro hne
  obtain ⟨r, hr, h₁, h₂, h₃⟩ := h (hl ▸ hne)
  refine ⟨r, hr, ?_, ?_, h₃.trans howned.symm⟩
  · rw [hkey]
    exact h₁
  · rw [hkey]
    exact h₂

theorem Inv.modify {w : World S C I E} (h : Inv m w) {f : Aggregate S E → Aggregate S E}
    (hf : ∀ a, m.Placed w.rows a → m.Placed w.rows (f a)) (copy : Nat) :
    Inv m { w with copies := w.copies.modify copy f } := by
  refine ⟨h.rows, fun a ha => ?_⟩
  obtain ⟨i, hi⟩ := List.getElem?_of_mem ha
  rw [List.getElem?_modify] at hi
  split at hi
  next =>
    obtain ⟨a₀, ha₀, rfl⟩ := Option.map_eq_some_iff.mp hi
    exact hf a₀ (h.copies a₀ (List.mem_of_getElem? ha₀))
  next =>
    obtain ⟨a₀, ha₀, rfl⟩ := Option.map_eq_some_iff.mp hi
    exact h.copies a₀ (List.mem_of_getElem? ha₀)

/-- What a save leaves. -/
theorem Inv.save {w : World S C I E} (h : Inv m w) {a : Aggregate S E} (ha : a ∈ w.copies)
    {ctx : Context} {fault : Fault} {rows' : List (Row C I)}
    {result : Except SaveError (Aggregate S E)}
    (hsave : m.save w.rows ctx fault a = (rows', result)) :
    m.RowsInv rows' ∧ Mapping.Kept w.rows rows' ∧
      ∀ a', result = .ok a' → m.Placed rows' a' := by
  have hplaced := h.copies a ha
  have hsaved : ∀ a', result = .ok a' → m.Placed rows' a' := by
    rintro a' rfl -
    obtain ⟨workspaceId, hw, -, hworkspace, hwrite, rfl⟩ := Mapping.save_eq_ok hsave
    rw [← hworkspace] at hw
    obtain ⟨-, hmem, -⟩ := Mapping.write_spec h.rows hplaced hw hwrite
    exact ⟨_, hmem, hw, rfl, rfl⟩
  have hrows := Mapping.save_rows (m := m) w.rows ctx fault a
  rw [hsave] at hrows
  rcases hrows with rfl | ⟨workspaceId, hw, hwrite⟩
  · exact ⟨h.rows, fun r hr => ⟨r, hr, rfl, rfl⟩, hsaved⟩
  · obtain ⟨hinv, -, hkept⟩ := Mapping.write_spec h.rows hplaced hw hwrite
    exact ⟨hinv, hkept, hsaved⟩

theorem Inv.query {w : World S C I E} (h : Inv m w) (ctx : Context) (matching : Row C I → Bool) :
    Inv m { w with copies := w.copies ++ m.select w.rows ctx matching } := by
  refine ⟨h.rows, fun a ha => ?_⟩
  rcases List.mem_append.mp ha with ha | ha
  · exact h.copies a ha
  · obtain ⟨r, hr, -, -, -, he⟩ := Mapping.mem_select.mp ha
    exact fun _ => ⟨r, hr, (h.rows.owns hr he).1⟩

/-- One step keeps every copy at its row. -/
theorem Inv.step (b : Behaviour m E N Op) (w : World S C I E) (i : Step C I N Op)
    (h : Inv m w) : Inv m (b.step w i).1 := by
  cases i with
  | create n =>
    refine ⟨h.rows, fun a ha => ?_⟩
    rcases List.mem_append.mp ha with ha | ha
    · exact h.copies a ha
    · intro hne
      exact absurd (b.create_loadedVersion (Option.mem_toList.mp ha)) hne
  | operate copy now op =>
    exact h.modify (fun a ha => placed_of_eq ha (b.apply_loadedVersion now a op)
      (b.apply_key now a op) (b.apply_owned now a op)) copy
  | clearDomainEvents copy =>
    have hplaced : ∀ a : Aggregate S E, m.Placed w.rows a → m.Placed w.rows a.clearDomainEvents :=
      fun a ha => placed_of_eq ha rfl rfl rfl
    exact h.modify hplaced copy
  | query ctx matching => exact h.query ctx matching
  | save copy ctx fault =>
    unfold Behaviour.step
    dsimp only
    split
    next => exact h
    next a hcopy =>
      obtain ⟨hrows, hkept, hsaved⟩ := h.save (List.mem_of_getElem? hcopy) (Eq.refl _)
      split
      next a' hok =>
        refine ⟨hrows, fun a₀ ha₀ => ?_⟩
        rcases List.mem_or_eq_of_mem_set ha₀ with ha₀ | rfl
        · exact (h.copies a₀ ha₀).kept hkept
        · exact hsaved a₀ hok
      next => exact ⟨hrows, fun a₀ ha₀ => (h.copies a₀ ha₀).kept hkept⟩

/-- The world after a history. -/
def Behaviour.after (b : Behaviour m E N Op) (history : List (Step C I N Op)) :
    World S C I E := Machine.final b.step {} history

theorem Inv.after (b : Behaviour m E N Op) (history : List (Step C I N Op)) :
    Inv m (b.after history) := by
  refine Machine.final_invariant (Inv.step b) history ⟨⟨.nil, ?_, ?_⟩, ?_⟩
  · exact fun r hr => absurd hr List.not_mem_nil
  · exact fun r hr => absurd hr List.not_mem_nil
  · exact fun a ha => absurd ha List.not_mem_nil

/-! ## What is promised -/

/-- Whatever copy is saved, it is loaded with every field of it, the workspace as the column spells
it, at the version saved and without events. -/
def SavedIsLoaded (m : Mapping S C I) (w : World S C I E) : Prop :=
  ∀ a ∈ w.copies, ∀ ctx fault rows a', m.save w.rows ctx fault a = (rows, .ok a') →
    ∃ workspaceId, castUuid ctx.workspaceId = some workspaceId ∧
      m.load rows ctx (m.key a.state).id =
        some (.reconstitute (m.inWorkspace a'.state workspaceId) a'.version : Aggregate S E)

theorem Inv.savedIsLoaded {w : World S C I E} (h : Inv m w) : SavedIsLoaded m w :=
  fun a ha _ _ _ _ hsave => Mapping.load_save h.rows (h.copies a ha) hsave

end

end VegaRevenue.AggregateRepository

namespace VegaRevenue

open AggregateRepository

/-! ## The operations leave the columns of an insert -/

namespace Campaign

/-- The columns that only an insert writes. -/
def Props.columns (s : Props) : Key × OwnedColumns := (mapping.key s, mapping.owned s)

theorem transition_columns (a : Campaign) (target : Status) (reason decidedBy : Option String)
    (now : Date) : (transition a target reason decidedBy now).1.state.columns = a.state.columns := by
  unfold transition
  split <;> rfl

theorem Op.apply_columns (now : Date) (op : Op) (a : Campaign) :
    (op.apply now a).state.columns = a.state.columns := by
  cases op with
  | recordSpend sendCount costUsd =>
    show (Campaign.recordSpend a sendCount costUsd).1.state.columns = _
    unfold Campaign.recordSpend
    split <;> rfl
  | adjustSpentCost costUsd => rfl
  | _ => exact transition_columns a _ _ _ now

def behaviour : Behaviour mapping Event Props Op where
  create props := (create props).toOption
  apply now a op := op.apply now a
  create_loadedVersion := by
    intro props a h
    unfold create at h
    split at h
    · cases h
    · split at h
      · cases h
      · split at h <;> cases h
        rfl
  apply_loadedVersion now a op := (op.apply_tracks now a).1
  apply_key now a op := congrArg Prod.fst (op.apply_columns now a)
  apply_owned now a op := congrArg Prod.snd (op.apply_columns now a)

end Campaign

namespace Sequence

/-- The columns that only an insert writes. -/
def Props.columns (s : Props) : Key × OwnedColumns := (mapping.key s, mapping.owned s)

theorem transition_columns (a : Sequence) (target : Status) (reason decidedBy : Option String)
    (now : Date) : (transition a target reason decidedBy now).1.state.columns = a.state.columns := by
  unfold transition
  split <;> rfl

theorem completeStep_columns (a : Sequence) (executionId : String) (nextDueAt : Option Date)
    (now : Date) :
    (completeStep a executionId nextDueAt now).1.state.columns = a.state.columns := by
  unfold completeStep
  split
  · rfl
  · dsimp only
    split
    · rfl
    · split
      · rfl
      · exact transition_columns _ _ _ _ now

theorem failStep_columns (a : Sequence) (executionId reason : String) (retryable : Bool)
    (now : Date) :
    (failStep a executionId reason retryable now).1.state.columns = a.state.columns := by
  unfold failStep
  split
  · rfl
  · split
    · rfl
    · dsimp only
      split
      · rfl
      · exact transition_columns _ _ _ _ now

theorem startStep_columns (a : Sequence) (executionId : String) (scheduledAt : Date) :
    (startStep a executionId scheduledAt).1.state.columns = a.state.columns := by
  unfold startStep
  split
  · rfl
  · split
    · rfl
    · split <;> rfl

theorem Op.apply_columns (now : Date) (op : Op) (a : Sequence) :
    (op.apply now a).state.columns = a.state.columns := by
  cases op with
  | startStep executionId scheduledAt => exact startStep_columns a executionId scheduledAt
  | completeStep executionId nextDueAt => exact completeStep_columns a executionId nextDueAt now
  | failStep executionId reason retryable => exact failStep_columns a executionId reason retryable now
  | waitForResponse deadline =>
    show (Sequence.waitForResponse a deadline now).1.state.columns = _
    unfold Sequence.waitForResponse
    split
    · rfl
    · exact transition_columns _ _ _ _ now
  | linkWorkflow workflowId =>
    show (Sequence.linkWorkflow a workflowId now).1.state.columns = _
    unfold Sequence.linkWorkflow
    split <;> rfl
  | _ => exact transition_columns _ _ _ _ now

def behaviour : Behaviour mapping Event (Props × Option String) Op where
  create n := (create n.1 n.2).toOption
  apply now a op := op.apply now a
  create_loadedVersion := by
    intro n a h
    unfold create at h
    split at h
    · cases h
    · split at h
      · cases h
      · split at h
        · cases h
        · split at h <;> cases h
          rfl
  apply_loadedVersion now a op := (op.apply_tracks now a).1
  apply_key now a op := congrArg Prod.fst (op.apply_columns now a)
  apply_owned now a op := congrArg Prod.snd (op.apply_columns now a)

end Sequence

namespace MessageExecution

/-- The columns that only an insert writes. -/
def Props.columns (s : Props) : Key × OwnedColumns := (mapping.key s, mapping.owned s)

theorem transition_columns (a : MessageExecution) (target : Status) (reason : Option String)
    (now : Date) : (transition a target reason now).1.state.columns = a.state.columns := by
  unfold transition
  split <;> rfl

theorem markFailed_columns (a : MessageExecution) (classification : RetryClassification)
    (reason : String) (providerErrorCode : Option String) (now : Date) :
    (markFailed a classification reason providerErrorCode now).1.state.columns =
      a.state.columns := by
  unfold markFailed
  dsimp only
  split
  · split
    · rfl
    · exact transition_columns _ _ _ now
  · split
    · exact transition_columns _ _ _ now
    · split <;> exact transition_columns _ _ _ now

/-- A guard, then a write of other fields and a transition. -/
theorem guarded_columns (a : MessageExecution) {refusing : Prop} [Decidable refusing]
    {message : String} {s : Props} (hs : s.columns = a.state.columns) (target : Status)
    (reason : Option String) (now : Date) :
    (if refusing then (a, OpResult.fail message)
      else transition (a.write s) target reason now).1.state.columns = a.state.columns := by
  split
  · rfl
  · exact (transition_columns _ _ _ now).trans hs

theorem Op.apply_columns (now : Date) (op : Op) (a : MessageExecution) :
    (op.apply now a).state.columns = a.state.columns := by
  cases op with
  | setDraft messageId draft => exact guarded_columns a (by rfl) _ _ now
  | approve approvalId => exact guarded_columns a (by rfl) _ _ now
  | reject reason => exact guarded_columns a (by rfl) _ _ now
  | markProviderAttempt providerId =>
    show (MessageExecution.markProviderAttempt a providerId now).1.state.columns = _
    unfold MessageExecution.markProviderAttempt
    split <;> rfl
  | markFailed classification reason providerErrorCode =>
    exact markFailed_columns a classification reason providerErrorCode now
  | markReconciledDelivered internetMessageId =>
    show (MessageExecution.markReconciledDelivered a internetMessageId now).1.state.columns = _
    unfold MessageExecution.markReconciledDelivered
    dsimp only
    split <;> rfl
  | markReconciledFailed reason => rfl
  | recordRetryAfter ms => rfl
  | _ => exact transition_columns _ _ _ now

def behaviour : Behaviour mapping Event Props Op where
  create props := (create props).toOption
  apply now a op := op.apply now a
  create_loadedVersion := by
    intro props a h
    unfold create at h
    split at h
    · cases h
    · split at h <;> cases h
      rfl
  apply_loadedVersion now a op := (op.apply_tracks now a).1
  apply_key now a op := congrArg Prod.fst (op.apply_columns now a)
  apply_owned now a op := congrArg Prod.snd (op.apply_columns now a)

end MessageExecution

namespace Conversation

/-- The columns that only an insert writes. -/
def Props.columns (s : Props) : Key × OwnedColumns := (mapping.key s, mapping.owned s)

theorem transitionTo_columns (a : Conversation) (target : Status) (event : Event) :
    (transitionTo a target event).1.state.columns = a.state.columns := by
  unfold transitionTo
  split <;> rfl

/-- A transition, then a write of other fields where it succeeded. -/
theorem transitionTo_write_columns (a : Conversation) (target : Status) (event : Event)
    {s : Props} (hs : s.columns = (transitionTo a target event).1.state.columns) :
    (if (transitionTo a target event).2.success then
      ((transitionTo a target event).1.write s, OpResult.ok)
      else ((transitionTo a target event).1, (transitionTo a target event).2)).1.state.columns =
      a.state.columns := by
  split
  · exact hs.trans (transitionTo_columns a target event)
  · exact transitionTo_columns a target event

theorem recordReply_columns (a : Conversation) (reply : ReplyMessage) (now : Date) :
    (recordReply a reply now).1.state.columns = a.state.columns := by
  unfold recordReply
  split
  · rfl
  · split
    · exact transitionTo_columns a .optedOut _
    · exact transitionTo_write_columns a _ _ (by rfl)

theorem decideAction_columns (a : Conversation) (action : NextBestAction) (now : Date) :
    (decideAction a action now).1.state.columns = a.state.columns := by
  unfold decideAction
  split
  · rfl
  · dsimp only
    split <;> exact transitionTo_write_columns _ _ _ (by rfl)

theorem Op.apply_columns (now : Date) (op : Op) (a : Conversation) :
    (op.apply now a).state.columns = a.state.columns := by
  cases op with
  | recordReply reply => exact recordReply_columns a reply now
  | classifyIntent classification =>
    show (Conversation.classifyIntent a classification now).1.state.columns = _
    unfold Conversation.classifyIntent
    split
    · rfl
    · exact transitionTo_write_columns a _ _ (by rfl)
  | decideAction action => exact decideAction_columns a action now
  | close disposition reason => exact transitionTo_write_columns a _ _ (by rfl)

def behaviour : Behaviour mapping Event Props Op where
  create props := some (create props)
  apply now a op := op.apply now a
  create_loadedVersion := by
    intro props a h
    cases h
    rfl
  apply_loadedVersion now a op := (op.apply_tracks now a).1
  apply_key now a op := congrArg Prod.fst (op.apply_columns now a)
  apply_owned now a op := congrArg Prod.snd (op.apply_columns now a)

end Conversation

/-! ## The four aggregates -/

namespace MessageExecution

/-- Each query by a column returns an execution iff the execution a load restores has the value. -/
structure QueriesAgree (rows : List ExecutionRow) (ctx : Context) (e : MessageExecution) : Prop where
  status : ∀ statuses, e ∈ findByStatus rows ctx statuses ↔
    mapping.load rows ctx e.state.id = some e ∧ e.state.status ∈ statuses
  fingerprint : ∀ fingerprint, e ∈ findByRecipientFingerprint rows ctx fingerprint ↔
    mapping.load rows ctx e.state.id = some e ∧ e.state.recipientFingerprint = some fingerprint
  idempotencyKey : ∀ key, findByIdempotencyKey rows ctx key = some e ↔
    mapping.load rows ctx e.state.id = some e ∧ e.state.idempotencyKey = key

theorem queriesAgree {rows : List ExecutionRow} (h : mapping.RowsInv rows) (ctx : Context)
    (e : MessageExecution) : QueriesAgree rows ctx e := by
  refine ⟨fun statuses => ?_, fun fingerprint => ?_, fun key => ?_⟩
  · have hiff : e ∈ findByStatus rows ctx statuses ↔ _ :=
      Mapping.mem_select_iff_load h fun _ index => statuses.contains index.status
    rw [List.contains_iff_mem] at hiff
    exact hiff
  · have hiff : e ∈ findByRecipientFingerprint rows ctx fingerprint ↔ _ :=
      Mapping.mem_select_iff_load h fun owned _ => owned.recipientFingerprint = some fingerprint
    rw [decide_eq_true_eq] at hiff
    exact hiff
  · have hkey : ∀ owned : OwnedColumns, decide (owned.idempotencyKey = key) = true →
        mapping.unique owned = some key :=
      fun owned hkey => congrArg some (of_decide_eq_true hkey)
    have hiff : findByIdempotencyKey rows ctx key = some e ↔ _ :=
      Mapping.head?_select_iff_load h hkey
    rw [decide_eq_true_eq] at hiff
    exact hiff

end MessageExecution

namespace AggregateRepository

/-- **Saving and loading an outreach aggregate.** Along every history a saved campaign, sequence,
message execution or conversation is loaded with every field of it, and the queries for executions
agree with what is loaded. -/
theorem saved_is_loaded :
    (∀ history, SavedIsLoaded Campaign.mapping (Campaign.behaviour.after history)) ∧
    (∀ history, SavedIsLoaded Sequence.mapping (Sequence.behaviour.after history)) ∧
    (∀ history, SavedIsLoaded Conversation.mapping (Conversation.behaviour.after history)) ∧
    ∀ history, SavedIsLoaded MessageExecution.mapping (MessageExecution.behaviour.after history) ∧
      ∀ ctx e, MessageExecution.QueriesAgree (MessageExecution.behaviour.after history).rows ctx e :=
  ⟨fun history => (Inv.after _ history).savedIsLoaded,
    fun history => (Inv.after _ history).savedIsLoaded,
    fun history => (Inv.after _ history).savedIsLoaded,
    fun history => ⟨(Inv.after _ history).savedIsLoaded,
      MessageExecution.queriesAgree (Inv.after _ history).rows⟩⟩

def capitalContext : Context := ⟨"acme", "A0EEBC99-9C0B-4EF8-BB6D-6BB9BD380A11"⟩

def capitalConversation : Conversation :=
  .create {
    id := "conversation-1", tenantId := "acme"
    workspaceId := "A0EEBC99-9C0B-4EF8-BB6D-6BB9BD380A11"
    leadId := "lead-1", channel := "email", createdAt := 0, updatedAt := 0 }

theorem capitalConversation_saved :
    ((Conversation.mapping.save [] capitalContext .none capitalConversation).2.toOption.map
      fun a => a.state.workspaceId) = some "A0EEBC99-9C0B-4EF8-BB6D-6BB9BD380A11" ∧
    ((Conversation.mapping.load (E := Conversation.Event)
      (Conversation.mapping.save [] capitalContext .none capitalConversation).1 capitalContext
      "conversation-1").map fun e => e.state.workspaceId) =
      some "a0eebc99-9c0b-4ef8-bb6d-6bb9bd380a11" := by
  decide +kernel

/-- A workspace in capitals is saved, and what is loaded is not what was saved. -/
theorem not_saved_is_loaded :
    ¬ ∀ history, ∀ a ∈ (Conversation.behaviour.after history).copies, ∀ ctx fault rows a',
      Conversation.mapping.save (Conversation.behaviour.after history).rows ctx fault a =
          (rows, .ok a') →
        ∃ e : Conversation, Conversation.mapping.load rows ctx a.state.id = some e ∧
          e.state = a'.state := by
  intro h
  obtain ⟨hsaved, hloaded⟩ := capitalConversation_saved
  obtain ⟨a', hok, hworkspace⟩ := Option.map_eq_some_iff.mp hsaved
  have hsave : Conversation.mapping.save [] capitalContext .none capitalConversation =
      ((Conversation.mapping.save [] capitalContext .none capitalConversation).1, .ok a') := by
    generalize Conversation.mapping.save [] capitalContext .none capitalConversation = result at hok
    obtain ⟨rows, saved⟩ := result
    cases saved with
    | error x => cases hok
    | ok a => cases hok; rfl
  obtain ⟨e, he, hstate⟩ := h [.create capitalConversation.state] capitalConversation
    (List.mem_singleton.mpr rfl) capitalContext .none _ a' hsave
  have heq : Conversation.mapping.load (E := Conversation.Event)
      (Conversation.mapping.save [] capitalContext .none capitalConversation).1 capitalContext
      "conversation-1" = some e := he
  rw [heq, Option.map_some, hstate, hworkspace] at hloaded
  exact absurd hloaded (by decide)

end AggregateRepository

end VegaRevenue
