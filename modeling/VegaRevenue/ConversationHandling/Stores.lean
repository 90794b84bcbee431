import VegaRevenue.Domain.Conversation
import VegaRevenue.Domain.Lead
import VegaRevenue.Outreach.Recipients

/-!
# The stores behind conversations

The conversations and the leads, and the suppressions a send looks up. What a statement meets
beside the rows is an input of the call: a foreign key, a text its column cannot hold, a lost
connection.

* `save_found` — a copy that was just read can be saved
-/

namespace VegaRevenue.ConversationHandling

open Versioned
open Outreach (RowKey rowKey Suppressions)

/-! ## Conversations -/

/-- The rows of `conversation.conversations`. -/
structure Conversations where
  rows : Table RowKey Conversation.Props
  unique : (rows.map Prod.fst).Nodup

namespace Conversations

/-- The columns of a row override its payload. -/
def restore (row : RowKey × Row Conversation.Props) : Conversation :=
  .reconstitute { row.2.payload with
    id := row.1.id, tenantId := row.1.tenantId, workspaceId := row.1.workspaceId } row.2.version

def load (t : Conversations) (ctx : Context) (id : String) : Option Conversation :=
  (t.rows.find (rowKey ctx id)).map fun r => restore (rowKey ctx id, r)

/-- The rows `findByLeadAndChannel` selects. -/
def ofLead (t : Conversations) (ctx : Context) (leadId channel : String) :
    List (RowKey × Row Conversation.Props) :=
  List.filter (fun p => p.1.tenantId = ctx.tenantId ∧ p.1.workspaceId = ctx.workspaceId ∧
    p.2.payload.leadId = leadId ∧ p.2.payload.channel = channel) t.rows

/-- `LIMIT 1` without an order: `pick` says which of the rows comes first. -/
def findByLeadAndChannel (t : Conversations) (pick : Nat) (ctx : Context)
    (leadId channel : String) : Option Conversation :=
  let found := t.ofLead ctx leadId channel
  found[pick % found.length]?.map restore

/-- A fresh conversation meets a primary key. -/
def taken (t : Conversations) (ctx : Context) (id : String) : Bool :=
  List.any t.rows fun p => p.1.tenantId = ctx.tenantId && p.1.id = id

def save (t : Conversations) (ctx : Context) (a : Conversation) : Except String Conversations :=
  if a.state.tenantId ≠ ctx.tenantId then .error "Conversation tenant mismatch"
  else if a.state.workspaceId ≠ ctx.workspaceId then .error "Conversation workspace mismatch"
  else if a.loadedVersion = none ∧ t.taken ctx a.state.id then .error "Conversation exists"
  else
    match h : t.rows.save (rowKey ctx a.state.id) a with
    | none => .error "Stale conversation or wrong workspace"
    | some rows => .ok ⟨rows, Table.nodup_save h t.unique⟩

/-! ### What a save does -/

/-- The identity of a conversation, which no operation changes. -/
structure Of (ctx : Context) (id : String) (a : Conversation) : Prop where
  id : a.state.id = id
  tenantId : a.state.tenantId = ctx.tenantId
  workspaceId : a.state.workspaceId = ctx.workspaceId

theorem save_ok {t t' : Conversations} {ctx : Context} {a : Conversation}
    (h : t.save ctx a = .ok t') :
    a.state.tenantId = ctx.tenantId ∧ a.state.workspaceId = ctx.workspaceId ∧
      ¬(a.loadedVersion = none ∧ t.taken ctx a.state.id = true) ∧
      t.rows.save (rowKey ctx a.state.id) a = some t'.rows := by
  unfold save at h
  split at h
  · cases h
  next ht =>
    split at h
    · cases h
    next hw =>
      split at h
      · cases h
      next hfree =>
        split at h
        · cases h
        next rows hrows =>
          cases h
          exact ⟨not_not.mp ht, not_not.mp hw, hfree, hrows⟩

theorem exists_save {t : Conversations} {ctx : Context} {id : String} {a : Conversation}
    (hof : Of ctx id a) (hfree : ¬(a.loadedVersion = none ∧ t.taken ctx id = true))
    (hrows : (t.rows.save (rowKey ctx id) a).isSome) : ∃ t', t.save ctx a = .ok t' := by
  obtain ⟨rfl, htenant, hworkspace⟩ := hof
  obtain ⟨rows, hr⟩ := Option.isSome_iff_exists.mp hrows
  refine ⟨⟨rows, Table.nodup_save hr t.unique⟩, ?_⟩
  unfold save
  rw [if_neg (not_not.mpr htenant), if_neg (not_not.mpr hworkspace), if_neg hfree]
  split
  next hnone =>
    rw [hr] at hnone
    cases hnone
  next rows' hrows' =>
    rw [hr] at hrows'
    cases hrows'
    rfl

/-- What a query of one lead and channel returns is a row of the table. -/
theorem findByLeadAndChannel_eq_some {t : Conversations} {pick : Nat} {ctx : Context}
    {leadId channel : String} {a : Conversation}
    (h : t.findByLeadAndChannel pick ctx leadId channel = some a) :
    ∃ id r, t.rows.find (rowKey ctx id) = some r ∧ a = restore (rowKey ctx id, r) ∧
      r.payload.leadId = leadId ∧ r.payload.channel = channel := by
  obtain ⟨⟨key, r⟩, hp, rfl⟩ := Option.map_eq_some_iff.mp h
  have hmem : (key, r) ∈ t.ofLead ctx leadId channel := List.mem_of_getElem? hp
  unfold ofLead at hmem
  obtain ⟨hrow, hsel⟩ := List.mem_filter.mp hmem
  obtain ⟨htenant, hworkspace, hlead, hchannel⟩ := of_decide_eq_true hsel
  have hkey : key = rowKey ctx key.id := by
    cases key
    simp only at htenant hworkspace
    rw [htenant, hworkspace]
    rfl
  refine ⟨key.id, r, ?_, by rw [← hkey], hlead, hchannel⟩
  rw [← hkey]
  exact Table.find_of_mem t.unique hrow

/-- **A copy that was just read can be saved.** -/
theorem save_found {t : Conversations} {ctx : Context} {id : String}
    {r : Row Conversation.Props} {a : Conversation} (hr : t.rows.find (rowKey ctx id) = some r)
    (hof : Of ctx id a) (hl : a.loadedVersion = some r.version) : ∃ t', t.save ctx a = .ok t' := by
  refine exists_save hof (fun h => ?_) ?_
  · rw [hl] at h
    cases h.1
  · exact (Table.save_loaded hl).mpr ⟨r, hr, rfl⟩

/-- A fresh conversation can be saved iff its id is free. -/
theorem save_fresh {t : Conversations} {ctx : Context} {id : String} {a : Conversation}
    (hof : Of ctx id a) (hl : a.loadedVersion = none) :
    (∃ t', t.save ctx a = .ok t') ↔ t.taken ctx id = false := by
  constructor
  · rintro ⟨t', h⟩
    have hfree := (save_ok h).2.2.1
    rw [hof.id] at hfree
    simpa [hl] using hfree
  · intro hfree
    refine exists_save hof (by simp [hfree]) ?_
    have hnone : t.rows.find (rowKey ctx id) = none := by
      rw [Table.find, Option.map_eq_none_iff, List.find?_eq_none]
      intro p hp heq
      have hne := List.any_eq_false.mp hfree p hp
      have hk : p.1 = rowKey ctx id := of_decide_eq_true heq
      simp [hk, rowKey] at hne
    rw [Option.isSome_iff_exists]
    exact ⟨_, Table.save_eq_some_iff.mpr (.inl ⟨hl, hnone, rfl⟩)⟩

/-- A saved conversation is loaded as it was saved. -/
theorem load_save {t t' : Conversations} {ctx : Context} {a : Conversation}
    (h : t.save ctx a = .ok t') :
    t'.load ctx a.state.id = some (.reconstitute a.state a.version) := by
  obtain ⟨htenant, hworkspace, -, hrows⟩ := save_ok h
  unfold load
  rw [Table.find_save_self hrows, Option.map_some]
  have hstate : { a.state with
      id := a.state.id, tenantId := ctx.tenantId, workspaceId := ctx.workspaceId } = a.state := by
    rw [← htenant, ← hworkspace]
  show some (Aggregate.reconstitute _ _) = _
  exact congrArg (fun s => some (Aggregate.reconstitute s a.version)) hstate

end Conversations

/-! ## Leads -/

/-- By tenant and id. -/
abbrev Leads := Table (String × String) Lead.Props

namespace Leads

def load (t : Leads) (ctx : Context) (id : String) : Option Lead :=
  (t.find (ctx.tenantId, id)).map fun r =>
    .reconstitute { r.payload with id, tenantId := ctx.tenantId } r.version

def save (t : Leads) (ctx : Context) (lead : Lead) : Except String Leads :=
  if ctx.tenantId ≠ lead.state.tenantId then
    .error s!"Lead tenant {lead.state.tenantId} does not match context tenant {ctx.tenantId}"
  else
    match Table.save t (ctx.tenantId, lead.state.id) lead with
    | some rows => .ok rows
    | none =>
      match lead.loadedVersion with
      | none => .error s!"Lead {lead.state.id} already exists"
      | some expected => .error s!"Stale version for lead {lead.state.id}: expected {expected}"

end Leads

/-! ## Together -/

structure Stores where
  conversations : Conversations
  leads : Leads
  suppressions : Suppressions

/-- The statements a call runs. -/
inductive Statement where
  | findConversation
  | saveReply
  | suppress
  | loadConversation
  | loadLead
  | saveLead
  | saveConversation
deriving DecidableEq

end VegaRevenue.ConversationHandling
