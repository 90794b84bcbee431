import VegaRevenue.Lib.Machine
import VegaRevenue.Lib.Versioned
import VegaRevenue.Shared.JsonRecord
import VegaRevenue.Shared.Uuid

/-!
# The repositories of versioned aggregates

The repositories of campaigns, sequences, message executions and conversations are one program. A
row holds an aggregate in three parts: columns that only an insert writes, columns that every save
writes, and a snapshot. A `Mapping` says which these are and carries the fact that they restore the
aggregate, in the workspace as the `uuid` column spells it.

* `RowsInv`, `Placed` — the rows are apart and restore what was saved, and a copy that was loaded or
  saved has the columns of its row
* `load_save` — what is loaded after a save
* `mem_select_iff_load` — what a query by columns returns
-/

namespace VegaRevenue.AggregateRepository

open Versioned

/-- The columns a row is found by. -/
structure Key where
  tenantId : String
  workspaceId : String
  id : String
deriving DecidableEq

def Key.inWorkspace (k : Key) (workspaceId : String) : Key := { k with workspaceId }

structure Row (C I : Type) where
  key : Key
  /-- The columns that only an insert writes. -/
  owned : C
  /-- The columns that every save writes. -/
  index : I
  payload : Json
  version : Nat

/-- What a repository writes of an aggregate, and what it makes of a row. -/
structure Mapping (S C I : Type) where
  key : S → Key
  owned : S → C
  index : S → I
  snap : S → Json
  /-- What a unique index keeps apart within a workspace. -/
  unique : C → Option String
  restore : Row C I → Option S
  inWorkspace : S → String → S
  restore_snap : ∀ s workspaceId version,
    restore ⟨(key s).inWorkspace workspaceId, owned s, index s, snap s, version⟩ =
      some (inWorkspace s workspaceId)
  key_inWorkspace : ∀ s workspaceId,
    key (inWorkspace s workspaceId) = (key s).inWorkspace workspaceId
  owned_inWorkspace : ∀ s workspaceId, owned (inWorkspace s workspaceId) = owned s
  index_inWorkspace : ∀ s workspaceId, index (inWorkspace s workspaceId) = index s

inductive SaveError where
  | tenantIsolation
  | authorization
  | conflict
  /-- The statement failed, or its answer was lost. -/
  | failed
deriving DecidableEq

/-- What may go wrong with a statement. -/
inductive Fault where
  | none
  /-- A constraint or the connection refuses it. -/
  | refused
  /-- It is committed, and the answer is lost. -/
  | unanswered
deriving DecidableEq

namespace Mapping

variable {S C I E : Type} (m : Mapping S C I)

/-! ## Statements -/

/-- The row of a state. -/
def row (s : S) (workspaceId : String) (version : Nat) : Row C I :=
  ⟨(m.key s).inWorkspace workspaceId, m.owned s, m.index s, m.snap s, version⟩

/-- A primary key or a unique index keeps the rows apart. -/
def conflicts (r r' : Row C I) : Bool :=
  r.key.tenantId = r'.key.tenantId && (r.key.id = r'.key.id ||
    r.key.workspaceId = r'.key.workspaceId && (m.unique r.owned).isSome &&
      m.unique r.owned = m.unique r'.owned)

/-- `INSERT … ON CONFLICT DO NOTHING`, none where it inserts nothing. -/
def insert (rows : List (Row C I)) (r : Row C I) : Option (List (Row C I)) :=
  if rows.any fun r' => m.conflicts r' r then none else some (rows ++ [r])

/-- `UPDATE … WHERE version`, none where it updates nothing. -/
def update (rows : List (Row C I)) (key : Key) (loaded : Nat) (s : S) (version : Nat) :
    Option (List (Row C I)) :=
  if rows.any fun r => r.key = key && r.version = loaded then
    some (rows.map fun r => if r.key = key ∧ r.version = loaded then
      { r with index := m.index s, payload := m.snap s, version } else r)
  else none

def write (rows : List (Row C I)) (workspaceId : String) (a : Aggregate S E) :
    Option (List (Row C I)) :=
  match a.loadedVersion with
  | none => m.insert rows (m.row a.state workspaceId a.version)
  | some loaded =>
    m.update rows ((m.key a.state).inWorkspace workspaceId) loaded a.state a.version

/-- `save`: the rows it leaves, and the aggregate or the error it throws. -/
def save (rows : List (Row C I)) (ctx : Context) (fault : Fault) (a : Aggregate S E) :
    List (Row C I) × Except SaveError (Aggregate S E) :=
  if (m.key a.state).tenantId ≠ ctx.tenantId then (rows, .error .tenantIsolation)
  else if (m.key a.state).workspaceId ≠ ctx.workspaceId then (rows, .error .authorization)
  else
    match (castUuid ctx.workspaceId).filter fun _ => fault ≠ .refused with
    | none => (rows, .error .failed)
    | some workspaceId =>
      match m.write rows workspaceId a with
      | none => (rows, .error .conflict)
      | some rows' =>
        if fault = .unanswered then (rows', .error .failed)
        else (rows', .ok (a.setVersion a.version))

/-- The aggregate of a row. -/
def reconstitute (r : Row C I) : Option (Aggregate S E) :=
  (m.restore r).map fun s => .reconstitute s r.version

/-- `WHERE tenant_id = … AND workspace_id = … AND …`. -/
def select (rows : List (Row C I)) (ctx : Context) (matching : Row C I → Bool) :
    List (Aggregate S E) :=
  (rows.filter fun r => r.key.tenantId = ctx.tenantId &&
    castUuid ctx.workspaceId = some r.key.workspaceId && matching r).filterMap m.reconstitute

def load (rows : List (Row C I)) (ctx : Context) (id : String) : Option (Aggregate S E) :=
  (m.select rows ctx fun r => r.key.id = id).head?

/-! ## The rows -/

/-- The rows are apart, and each is the row of a state. -/
structure RowsInv (rows : List (Row C I)) : Prop where
  apart : rows.Pairwise fun r r' => m.conflicts r r' = false
  restorable : ∀ r ∈ rows, ∃ s, r = m.row s r.key.workspaceId r.version
  canonical : ∀ r ∈ rows, castUuid r.key.workspaceId = some r.key.workspaceId

variable {m} {rows rows' : List (Row C I)}

theorem conflicts_congr {r₁ r₁' r₂ r₂' : Row C I} (hkey : r₁'.key = r₁.key)
    (howned : r₁'.owned = r₁.owned) (hkey' : r₂'.key = r₂.key) (howned' : r₂'.owned = r₂.owned) :
    m.conflicts r₁' r₂' = m.conflicts r₁ r₂ := by
  unfold conflicts
  rw [hkey, howned, hkey', howned']

theorem conflicts_symm {r r' : Row C I} (h : m.conflicts r r' = true) :
    m.conflicts r' r = true := by
  unfold conflicts at h ⊢
  simp only [Bool.and_eq_true, Bool.or_eq_true, decide_eq_true_eq] at h ⊢
  obtain ⟨htenant, hid | ⟨⟨hworkspace, hsome⟩, hunique⟩⟩ := h
  · exact ⟨htenant.symm, .inl hid.symm⟩
  · exact ⟨htenant.symm, .inr ⟨⟨hworkspace.symm, hunique ▸ hsome⟩, hunique.symm⟩⟩

instance : Std.Symm fun r r' : Row C I => m.conflicts r r' = false where
  symm r r' h := by
    by_contra hne
    rw [conflicts_symm (Bool.not_eq_false _ ▸ hne)] at h
    cases h

/-- Rows that conflict are one row. -/
theorem RowsInv.eq_of_conflicts (h : m.RowsInv rows) {r r' : Row C I} (hr : r ∈ rows)
    (hr' : r' ∈ rows) (hc : m.conflicts r r' = true) : r = r' := by
  by_contra hne
  have hfalse := h.apart.forall hr hr' hne
  rw [hc] at hfalse
  cases hfalse

/-- Rows of one tenant with one id are one row. -/
theorem RowsInv.eq_of_id (h : m.RowsInv rows) {r r' : Row C I} (hr : r ∈ rows) (hr' : r' ∈ rows)
    (htenant : r.key.tenantId = r'.key.tenantId) (hid : r.key.id = r'.key.id) : r = r' := by
  refine h.eq_of_conflicts hr hr' ?_
  unfold conflicts
  simp [htenant, hid]

/-- Rows of one workspace with one value under the unique index are one row. -/
theorem RowsInv.eq_of_unique (h : m.RowsInv rows) {r r' : Row C I} (hr : r ∈ rows) (hr' : r' ∈ rows)
    (htenant : r.key.tenantId = r'.key.tenantId)
    (hworkspace : r.key.workspaceId = r'.key.workspaceId) {value : String}
    (hunique : m.unique r.owned = some value) (hunique' : m.unique r'.owned = some value) :
    r = r' := by
  refine h.eq_of_conflicts hr hr' ?_
  unfold conflicts
  simp [htenant, hworkspace, hunique, hunique']

theorem RowsInv.insert (h : m.RowsInv rows) {s : S} {workspaceId : String} {version : Nat}
    (hw : castUuid workspaceId = some workspaceId)
    (hi : m.insert rows (m.row s workspaceId version) = some rows') : m.RowsInv rows' := by
  unfold Mapping.insert at hi
  split at hi
  next => cases hi
  next hfree =>
    cases hi
    simp only [List.any_eq_true, not_exists, not_and, Bool.not_eq_true] at hfree
    refine ⟨?_, fun r hr => ?_, fun r hr => ?_⟩
    · rw [List.pairwise_append]
      refine ⟨h.apart, List.pairwise_singleton _ _, fun r hr r' hr' => ?_⟩
      rw [List.mem_singleton.mp hr']
      exact hfree r hr
    · rcases List.mem_append.mp hr with hr | hr
      · exact h.restorable r hr
      · rw [List.mem_singleton.mp hr]
        exact ⟨s, rfl⟩
    · rcases List.mem_append.mp hr with hr | hr
      · exact h.canonical r hr
      · rw [List.mem_singleton.mp hr]
        exact hw

/-- The row an update leaves of a row. -/
def updated (m : Mapping S C I) (key : Key) (loaded : Nat) (s : S) (version : Nat) (r : Row C I) :
    Row C I :=
  if r.key = key ∧ r.version = loaded then
    { r with index := m.index s, payload := m.snap s, version } else r

theorem updated_key (key : Key) (loaded : Nat) (s : S) (version : Nat) (r : Row C I) :
    (m.updated key loaded s version r).key = r.key ∧
      (m.updated key loaded s version r).owned = r.owned := by
  unfold updated
  split <;> exact ⟨rfl, rfl⟩

/-- An update of the row of the aggregate, whose other columns are those of the aggregate. -/
theorem RowsInv.update (h : m.RowsInv rows) {s : S} {workspaceId : String} {loaded version : Nat}
    (howned : ∀ r ∈ rows, r.key = (m.key s).inWorkspace workspaceId → r.owned = m.owned s)
    (hu : m.update rows ((m.key s).inWorkspace workspaceId) loaded s version = some rows') :
    m.RowsInv rows' := by
  unfold Mapping.update at hu
  split at hu
  next =>
    cases hu
    have hmem : ∀ r' ∈ rows.map (m.updated ((m.key s).inWorkspace workspaceId) loaded s version),
        ∃ r ∈ rows, r' = m.updated ((m.key s).inWorkspace workspaceId) loaded s version r := by
      intro r' hr'
      obtain ⟨r, hr, rfl⟩ := List.mem_map.mp hr'
      exact ⟨r, hr, rfl⟩
    refine ⟨?_, fun r' hr' => ?_, fun r' hr' => ?_⟩
    · refine List.Pairwise.map _ (fun r₁ r₂ hr => ?_) h.apart
      rw [← hr]
      exact conflicts_congr (updated_key ..).1 (updated_key ..).2 (updated_key ..).1
        (updated_key ..).2
    · obtain ⟨r, hr, rfl⟩ := hmem r' hr'
      unfold updated
      split
      next hhit =>
        refine ⟨s, ?_⟩
        show (⟨r.key, r.owned, _, _, _⟩ : Row C I) = ⟨_, _, _, _, _⟩
        rw [howned r hr hhit.1, hhit.1]
        rfl
      next => exact h.restorable r hr
    · obtain ⟨r, hr, rfl⟩ := hmem r' hr'
      rw [(updated_key ..).1]
      exact h.canonical r hr
  next => cases hu

/-! ## A save -/

/-- The row has the columns of the aggregate that a save leaves alone. -/
def Owns (m : Mapping S C I) (r : Row C I) (a : Aggregate S E) : Prop :=
  castUuid (m.key a.state).workspaceId = some r.key.workspaceId ∧
    r.key = (m.key a.state).inWorkspace r.key.workspaceId ∧ r.owned = m.owned a.state

/-- An aggregate that was loaded or saved has its row. -/
def Placed (m : Mapping S C I) (rows : List (Row C I)) (a : Aggregate S E) : Prop :=
  a.loadedVersion ≠ none → ∃ r ∈ rows, m.Owns r a

/-- Every row is still there, but for what a save writes. -/
def Kept (rows rows' : List (Row C I)) : Prop :=
  ∀ r ∈ rows, ∃ r' ∈ rows', r'.key = r.key ∧ r'.owned = r.owned

theorem Placed.kept {a : Aggregate S E} (h : m.Placed rows a) (hk : Kept rows rows') :
    m.Placed rows' a := by
  intro hl
  obtain ⟨r, hr, huuid, hkey, howned⟩ := h hl
  obtain ⟨r', hr', hkey', howned'⟩ := hk r hr
  refine ⟨r', hr', ?_, ?_, howned'.trans howned⟩
  · rw [hkey']
    exact huuid
  · rw [hkey']
    exact hkey

/-- The row an update writes has the other columns of the aggregate. -/
theorem Placed.owned_eq {a : Aggregate S E} (h : m.Placed rows a) (hl : a.loadedVersion ≠ none)
    (hrows : m.RowsInv rows) {workspaceId : String} {r : Row C I} (hr : r ∈ rows)
    (hkey : r.key = (m.key a.state).inWorkspace workspaceId) : r.owned = m.owned a.state := by
  obtain ⟨r', hr', -, hkey', howned⟩ := h hl
  have heq : r = r' := hrows.eq_of_id hr hr' (by rw [hkey, hkey']; rfl) (by rw [hkey, hkey']; rfl)
  rw [heq]
  exact howned

/-- **What a write leaves**: the row of the aggregate, and every other row. -/
theorem write_spec {a : Aggregate S E} (hrows : m.RowsInv rows) (hplaced : m.Placed rows a)
    {workspaceId : String} (hw : castUuid (m.key a.state).workspaceId = some workspaceId)
    (hwrite : m.write rows workspaceId a = some rows') :
    m.RowsInv rows' ∧ m.row a.state workspaceId a.version ∈ rows' ∧ Kept rows rows' := by
  unfold write at hwrite
  split at hwrite
  next =>
    refine ⟨hrows.insert (castUuid_castUuid hw) hwrite, ?_⟩
    unfold Mapping.insert at hwrite
    split at hwrite
    next => cases hwrite
    next =>
      cases hwrite
      exact ⟨List.mem_append_right _ (.head _),
        fun r hr => ⟨r, List.mem_append_left _ hr, rfl, rfl⟩⟩
  next loaded hl =>
    have hne : a.loadedVersion ≠ none := by simp [hl]
    have howned : ∀ r ∈ rows, r.key = (m.key a.state).inWorkspace workspaceId →
        r.owned = m.owned a.state := fun r hr hkey => hplaced.owned_eq hne hrows hr hkey
    refine ⟨hrows.update howned hwrite, ?_⟩
    unfold Mapping.update at hwrite
    split at hwrite
    next hany =>
      cases hwrite
      obtain ⟨r, hr, hhit⟩ := List.any_eq_true.mp hany
      simp only [Bool.and_eq_true, decide_eq_true_eq] at hhit
      refine ⟨List.mem_map.mpr ⟨r, hr, ?_⟩, fun r hr => ?_⟩
      · rw [if_pos hhit]
        show (⟨r.key, r.owned, _, _, _⟩ : Row C I) = ⟨_, _, _, _, _⟩
        rw [howned r hr hhit.1, hhit.1]
      · exact ⟨_, List.mem_map_of_mem hr, updated_key (m := m) ..⟩
    next => cases hwrite

/-- A save writes or leaves the rows as they are. -/
theorem save_rows (rows : List (Row C I)) (ctx : Context) (fault : Fault) (a : Aggregate S E) :
    (m.save rows ctx fault a).1 = rows ∨
      ∃ workspaceId, castUuid (m.key a.state).workspaceId = some workspaceId ∧
        m.write rows workspaceId a = some (m.save rows ctx fault a).1 := by
  unfold save
  split
  · exact .inl rfl
  · split
    · exact .inl rfl
    next hworkspace =>
      split
      next => exact .inl rfl
      next workspaceId hw =>
        rw [← not_not.mp hworkspace] at hw
        split
        next => exact .inl rfl
        next rows' hwrite =>
          refine .inr ⟨workspaceId, (Option.filter_eq_some_iff.mp hw).1, ?_⟩
          rw [hwrite]
          split <;> rfl

theorem save_eq_ok {ctx : Context} {fault : Fault} {a a' : Aggregate S E}
    (h : m.save rows ctx fault a = (rows', .ok a')) :
    ∃ workspaceId, castUuid ctx.workspaceId = some workspaceId ∧
      (m.key a.state).tenantId = ctx.tenantId ∧ (m.key a.state).workspaceId = ctx.workspaceId ∧
      m.write rows workspaceId a = some rows' ∧ a' = a.setVersion a.version := by
  unfold save at h
  split at h
  next => cases h
  next htenant =>
    split at h
    next => cases h
    next hworkspace =>
      split at h
      next => cases h
      next workspaceId hw =>
        split at h
        next => cases h
        next hwrite =>
          split at h
          next => cases h
          next =>
            cases h
            exact ⟨workspaceId, (Option.filter_eq_some_iff.mp hw).1, not_not.mp htenant,
              not_not.mp hworkspace, hwrite, rfl⟩

/-! ## Queries -/

theorem mem_select {ctx : Context} {matching : Row C I → Bool} {e : Aggregate S E} :
    e ∈ m.select rows ctx matching ↔ ∃ r ∈ rows, r.key.tenantId = ctx.tenantId ∧
      castUuid ctx.workspaceId = some r.key.workspaceId ∧ matching r = true ∧
      m.reconstitute r = some e := by
  unfold select
  rw [List.mem_filterMap]
  simp only [List.mem_filter, Bool.and_eq_true, decide_eq_true_eq, and_assoc]

/-- Where a query finds one row at most, its first result is any of its results. -/
theorem head?_select_eq_some_iff {ctx : Context} {e : Aggregate S E} (matching : Row C I → Bool)
    (hone : ∀ r ∈ rows, ∀ r' ∈ rows, r.key.tenantId = r'.key.tenantId →
      r.key.workspaceId = r'.key.workspaceId → matching r = true → matching r' = true → r = r') :
    (m.select rows ctx matching).head? = some e ↔ e ∈ m.select rows ctx matching := by
  refine ⟨List.mem_of_head?, fun he => ?_⟩
  cases hhead : (m.select rows ctx matching).head? with
  | none =>
    rw [List.head?_eq_none_iff.mp hhead] at he
    cases he
  | some e' =>
    obtain ⟨r, hr, htenant, hw, hmatch, he⟩ := mem_select.mp he
    obtain ⟨r', hr', htenant', hw', hmatch', he'⟩ := mem_select.mp (List.mem_of_head? hhead)
    have hws : r.key.workspaceId = r'.key.workspaceId := Option.some.inj (hw.symm.trans hw')
    have heq := hone r hr r' hr' (htenant.trans htenant'.symm) hws hmatch hmatch'
    rw [heq] at he
    exact he'.symm.trans he

theorem load_eq_some_iff (h : m.RowsInv rows) {ctx : Context} {id : String} {e : Aggregate S E} :
    m.load rows ctx id = some e ↔ ∃ r ∈ rows, r.key.tenantId = ctx.tenantId ∧
      castUuid ctx.workspaceId = some r.key.workspaceId ∧ r.key.id = id ∧
      m.reconstitute r = some e := by
  have hhead : (m.select rows ctx fun r => r.key.id = id).head? = some e ↔
      e ∈ m.select rows ctx fun r => r.key.id = id :=
    head?_select_eq_some_iff _ fun r hr r' hr' htenant _ hid hid' =>
      h.eq_of_id hr hr' htenant ((of_decide_eq_true hid).trans (of_decide_eq_true hid').symm)
  unfold load
  rw [hhead, mem_select]
  simp only [decide_eq_true_eq]

theorem reconstitute_row (s : S) (workspaceId : String) (version : Nat) :
    m.reconstitute (m.row s workspaceId version) =
      some (.reconstitute (m.inWorkspace s workspaceId) version : Aggregate S E) := by
  unfold reconstitute row
  rw [m.restore_snap]
  rfl

theorem RowsInv.exists_reconstitute (h : m.RowsInv rows) {r : Row C I} (hr : r ∈ rows) :
    ∃ e : Aggregate S E, m.reconstitute r = some e := by
  obtain ⟨s, hs⟩ := h.restorable r hr
  rw [hs]
  exact ⟨_, reconstitute_row ..⟩

/-- **What is loaded after a save**: every field of the aggregate, the workspace as the column
spells it, at the version saved and without events. -/
theorem load_save (hrows : m.RowsInv rows) {ctx : Context} {fault : Fault} {a a' : Aggregate S E}
    (hplaced : m.Placed rows a) (h : m.save rows ctx fault a = (rows', .ok a')) :
    ∃ workspaceId, castUuid ctx.workspaceId = some workspaceId ∧
      m.load rows' ctx (m.key a.state).id =
        some (.reconstitute (m.inWorkspace a'.state workspaceId) a'.version : Aggregate S E) := by
  obtain ⟨workspaceId, hw, htenant, hworkspace, hwrite, rfl⟩ := save_eq_ok h
  obtain ⟨hrows', hmem, -⟩ := write_spec hrows hplaced (hworkspace ▸ hw) hwrite
  exact ⟨workspaceId, hw, (load_eq_some_iff hrows').mpr
    ⟨_, hmem, htenant, hw, rfl, reconstitute_row a.state workspaceId a.version⟩⟩

/-- What is restored has the columns of its row. -/
theorem RowsInv.owns (h : m.RowsInv rows) {r : Row C I} (hr : r ∈ rows) {e : Aggregate S E}
    (he : m.reconstitute r = some e) :
    m.Owns r e ∧ m.index e.state = r.index ∧ (m.key e.state).id = r.key.id := by
  obtain ⟨s, hs⟩ := h.restorable r hr
  have hw := h.canonical r hr
  rw [hs] at he ⊢
  rw [reconstitute_row] at he
  cases he
  refine ⟨⟨?_, ?_, ?_⟩, ?_, ?_⟩
  · show castUuid (m.key (m.inWorkspace s _)).workspaceId = _
    rw [m.key_inWorkspace]
    exact hw
  · show (m.row s _ _).key = (m.key (m.inWorkspace s _)).inWorkspace _
    rw [m.key_inWorkspace]
    rfl
  · exact (m.owned_inWorkspace s _).symm
  · exact m.index_inWorkspace s _
  · show (m.key (m.inWorkspace s _)).id = _
    rw [m.key_inWorkspace]
    rfl

/-- **What a query by columns returns**: what a load returns and has them. -/
theorem mem_select_iff_load (h : m.RowsInv rows) {ctx : Context} {e : Aggregate S E}
    (matching : C → I → Bool) :
    (e ∈ m.select rows ctx fun r => matching r.owned r.index) ↔
      m.load rows ctx (m.key e.state).id = some e ∧
        matching (m.owned e.state) (m.index e.state) = true := by
  rw [mem_select, load_eq_some_iff h]
  constructor
  · rintro ⟨r, hr, htenant, hw, hmatch, he⟩
    obtain ⟨⟨-, -, howned⟩, hindex, hid⟩ := h.owns hr he
    rw [← howned, hindex]
    exact ⟨⟨r, hr, htenant, hw, hid.symm, he⟩, hmatch⟩
  · rintro ⟨⟨r, hr, htenant, hw, -, he⟩, hmatch⟩
    obtain ⟨⟨-, -, howned⟩, hindex, -⟩ := h.owns hr he
    rw [← howned, hindex] at hmatch
    exact ⟨r, hr, htenant, hw, hmatch, he⟩

/-- A query by what the unique index keeps apart returns what a load returns and has it. -/
theorem head?_select_iff_load (h : m.RowsInv rows) {ctx : Context} {e : Aggregate S E}
    {matching : C → Bool} {value : String}
    (hunique : ∀ c, matching c = true → m.unique c = some value) :
    (m.select rows ctx fun r => matching r.owned).head? = some e ↔
      m.load rows ctx (m.key e.state).id = some e ∧ matching (m.owned e.state) = true := by
  rw [head?_select_eq_some_iff _ fun r hr r' hr' htenant hw hmatch hmatch' =>
    h.eq_of_unique hr hr' htenant hw (hunique _ hmatch) (hunique _ hmatch')]
  exact mem_select_iff_load h fun c _ => matching c

end Mapping

end VegaRevenue.AggregateRepository
