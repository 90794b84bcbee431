import VegaRevenue.ConversationHandling.Stores
import VegaRevenue.Domain.Account

/-!
# The tables of research

Accounts and contacts are keyed by the id the provider gave them, over all workspaces. A fresh
aggregate is inserted, a loaded one is updated where the stored version is the loaded one.

* `Accounts.save_taken` — a fresh account whose id is taken is refused
* `Contacts.save_new`, `saveLead_new` — the save of a fresh contact or lead changes no row
-/

namespace VegaRevenue.Intelligence

open Versioned

/-- The errors of the repositories. -/
inductive RepositoryError where
  | isolation (message : String)
  /-- `ConcurrencyConflictError`; a row that exists already has no expected version. -/
  | concurrencyConflict (message : String) (expectedVersion : Option Nat)
  | duplicateRecord (message conflictField : String)
  | other (message : String)
deriving DecidableEq

/-- The row that is to be inserted, or one that stands for the same thing, exists already. -/
def RepositoryError.alreadyExists : RepositoryError → Bool
  | concurrencyConflict _ none | duplicateRecord _ _ => true
  | _ => false

/-! ## Accounts -/

/-- A number that an `INTEGER` column holds. -/
def int32 (q : Rat) : Bool := q.den = 1 && -2 ^ 31 ≤ q.num && q.num < 2 ^ 31

/-- The columns hold the values. -/
def Account.storable (s : Account.Props) : Bool :=
  textStorable s.id && textStorable s.name && s.domain.all textStorable &&
    s.normalizedDomain.all textStorable && s.industry.all textStorable &&
    s.employeeCount.all int32 && s.territories.all textStorable && s.techStack.all textStorable

/-- By id. -/
abbrev Accounts := Table String Account.Props

namespace Accounts

/-- Another row of the workspace has the domain: `accounts_workspace_domain_dedup`. -/
def domainTaken (t : Accounts) (s : Account.Props) : Bool :=
  s.normalizedDomain.isSome && t.any fun row =>
    row.1 ≠ s.id && row.2.payload.tenantId = s.tenantId &&
      row.2.payload.workspaceId = s.workspaceId && row.2.payload.normalizedDomain = s.normalizedDomain

def insert (t : Accounts) (s : Account.Props) : Except RepositoryError Accounts :=
  if Account.storable s = false then .error (.other s!"Persistence failure for account {s.id}")
  else if (t.find s.id).isSome then
    .error (.concurrencyConflict s!"Account {s.id} already exists" none)
  else if t.domainTaken s then
    .error (.duplicateRecord s!"Duplicate normalized domain in workspace for account {s.id}"
      "normalized_domain")
  else .ok (t ++ [(s.id, ⟨s, s.accountVersion⟩)])

/-- The row that `WHERE` finds. -/
def matching (t : Accounts) (ctx : Context) (id : String) (expectedVersion : Nat) : Bool :=
  (t.find id).any fun r => r.payload.tenantId = ctx.tenantId &&
    r.payload.workspaceId = ctx.workspaceId && r.version = expectedVersion

def update (t : Accounts) (ctx : Context) (s : Account.Props) (expectedVersion : Nat) :
    Except RepositoryError Accounts :=
  if Account.storable s = false then .error (.other s!"Persistence failure for account {s.id}")
  else if t.matching ctx s.id expectedVersion = false then
    .error (.concurrencyConflict s!"Stale version for account {s.id}: expected {expectedVersion}"
      (some expectedVersion))
  else if t.domainTaken s then
    .error (.duplicateRecord s!"Duplicate normalized domain in workspace for account {s.id}"
      "normalized_domain")
  else .ok (t.replace s.id ⟨s, s.accountVersion⟩)

/-- `isNew ? insert : update`. -/
def write (t : Accounts) (ctx : Context) (a : Account) : Except RepositoryError Accounts :=
  match a.loadedVersion with
  | none => t.insert a.state
  | some expectedVersion => t.update ctx a.state expectedVersion

/-- The save, and the aggregate after it. -/
def save (t : Accounts) (ctx : Context) (a : Account) : Except RepositoryError (Accounts × Account) :=
  if ctx.tenantId ≠ a.state.tenantId then
    let tenant := a.state.tenantId
    .error (.isolation s!"Account tenant {tenant} does not match context tenant {ctx.tenantId}")
  else if ctx.workspaceId ≠ a.state.workspaceId then
    .error (.isolation (s!"Account workspace {a.state.workspaceId} does not match " ++
      s!"authorized workspace {ctx.workspaceId}"))
  else (t.write ctx a).map fun rows => (rows, a.setVersion a.state.accountVersion)

theorem insert_ok {t t' : Accounts} {s : Account.Props} (h : t.insert s = .ok t') :
    t' = t ++ [(s.id, ⟨s, s.accountVersion⟩)] := by
  unfold insert at h
  split at h
  · cases h
  · split at h
    · cases h
    · split at h
      · cases h
      · exact (Except.ok.inj h).symm

theorem update_ok {t t' : Accounts} {ctx : Context} {s : Account.Props} {expectedVersion : Nat}
    (h : t.update ctx s expectedVersion = .ok t') :
    (t.find s.id).isSome = true ∧ t' = t.replace s.id ⟨s, s.accountVersion⟩ := by
  unfold update at h
  split at h
  · cases h
  · split at h
    · cases h
    next hmatching =>
      have hfound : (t.find s.id).isSome = true := by
        unfold matching at hmatching
        cases hr : t.find s.id with
        | none => simp [hr] at hmatching
        | some r => rfl
      split at h
      · cases h
      · exact ⟨hfound, (Except.ok.inj h).symm⟩

/-- A save stores the account and drops none. -/
theorem save_ok {t : Accounts} {ctx : Context} {a : Account} {p : Accounts × Account}
    (h : t.save ctx a = .ok p) :
    p.2.state = a.state ∧ (p.1.find a.state.id).isSome = true ∧
      ∀ id, (t.find id).isSome = true → (p.1.find id).isSome = true := by
  unfold save at h
  split at h
  · cases h
  · split at h
    · cases h
    · obtain ⟨rows, hrows, rfl⟩ := of_map_eq_ok h
      unfold write at hrows
      cases hl : a.loadedVersion with
      | none =>
        rw [hl] at hrows
        rw [insert_ok hrows]
        refine ⟨rfl, ?_, fun id hid => ?_⟩
        · simp [Table.find_append_single]
        · simp [Table.find_append_single, hid]
      | some expectedVersion =>
        rw [hl] at hrows
        obtain ⟨hfound, rfl⟩ := update_ok hrows
        obtain ⟨r, hr⟩ := Option.isSome_iff_exists.mp hfound
        have hself := Table.find_replace_self (⟨a.state, a.state.accountVersion⟩ : Row _) hr
        refine ⟨rfl, by rw [hself]; rfl, fun id hid => ?_⟩
        by_cases hne : id = a.state.id
        · rw [hne, hself]
          rfl
        · rw [Table.find_replace_ne _ _ hne]
          exact hid

/-- **A fresh account whose id is taken is refused.** -/
theorem save_taken {t : Accounts} {ctx : Context} {a : Account} (hl : a.loadedVersion = none)
    (htenant : a.state.tenantId = ctx.tenantId) (hworkspace : a.state.workspaceId = ctx.workspaceId)
    (hstorable : Account.storable a.state = true) (htaken : (t.find a.state.id).isSome = true) :
    t.save ctx a = .error
      (.concurrencyConflict s!"Account {a.state.id} already exists" none) := by
  unfold save
  rw [if_neg (not_not.mpr htenant.symm), if_neg (not_not.mpr hworkspace.symm)]
  have hinsert : t.insert a.state =
      .error (.concurrencyConflict s!"Account {a.state.id} already exists" none) := by
    unfold insert
    rw [if_neg (by rw [hstorable]; decide), if_pos htaken]
  unfold write
  rw [hl]
  show (t.insert a.state).map _ = _
  rw [hinsert]
  rfl

/-- What the columns cannot hold is refused before the keys are looked at. -/
theorem save_unstorable {t : Accounts} {ctx : Context} {a : Account} (hl : a.loadedVersion = none)
    (htenant : a.state.tenantId = ctx.tenantId) (hworkspace : a.state.workspaceId = ctx.workspaceId)
    (hstorable : Account.storable a.state = false) :
    t.save ctx a = .error (.other s!"Persistence failure for account {a.state.id}") := by
  unfold save
  rw [if_neg (not_not.mpr htenant.symm), if_neg (not_not.mpr hworkspace.symm)]
  have hinsert : t.insert a.state =
      .error (.other s!"Persistence failure for account {a.state.id}") := by
    unfold insert
    rw [if_pos hstorable]
  unfold write
  rw [hl]
  show (t.insert a.state).map _ = _
  rw [hinsert]
  rfl

end Accounts

/-! ## Contacts -/

def Contact.storable (s : Contact.Props) : Bool :=
  textStorable s.id && s.name.all textStorable && s.title.all textStorable &&
    s.role.all textStorable && s.seniority.all textStorable && s.channels.all textStorable

/-- By id. The fingerprints of the channels are not set here. -/
abbrev Contacts := Table String Contact.Props

namespace Contacts

def insert (t : Contacts) (a : Contact) : Except RepositoryError Contacts :=
  let id := a.state.id
  if Contact.storable a.state = false then .error (.other s!"Persistence failure for contact {id}")
  else if (t.find id).isSome then
    .error (.concurrencyConflict s!"Contact {id} already exists" none)
  else .ok (t ++ [(id, ⟨a.state, a.version⟩)])

/-- The row that `WHERE` finds. -/
def matching (t : Contacts) (ctx : Context) (id : String) (expectedVersion : Nat) : Bool :=
  (t.find id).any fun r => r.payload.tenantId = ctx.tenantId &&
    r.payload.workspaceId = ctx.workspaceId && r.version = expectedVersion

def update (t : Contacts) (ctx : Context) (a : Contact) (expectedVersion : Nat) :
    Except RepositoryError Contacts :=
  let id := a.state.id
  if Contact.storable a.state = false then .error (.other s!"Persistence failure for contact {id}")
  else if t.matching ctx id expectedVersion = false then
    .error (.concurrencyConflict s!"Stale version for contact {id}: expected {expectedVersion}"
      (some expectedVersion))
  else .ok (t.replace id ⟨a.state, a.version⟩)

/-- `isNew ? insert : update`. -/
def write (t : Contacts) (ctx : Context) (a : Contact) : Except RepositoryError Contacts :=
  match a.loadedVersion with
  | none => t.insert a
  | some expectedVersion => t.update ctx a expectedVersion

def save (t : Contacts) (ctx : Context) (a : Contact) : Except RepositoryError (Contacts × Contact) :=
  if ctx.tenantId ≠ a.state.tenantId then
    let tenant := a.state.tenantId
    .error (.isolation s!"Contact tenant {tenant} does not match context tenant {ctx.tenantId}")
  else if ctx.workspaceId ≠ a.state.workspaceId then
    .error (.isolation (s!"Contact workspace {a.state.workspaceId} does not match " ++
      s!"authorized workspace {ctx.workspaceId}"))
  else (t.write ctx a).map fun rows => (rows, a.setVersion a.version)

/-- The save of a fresh contact changes no row. -/
theorem save_new {t : Contacts} {ctx : Context} {a : Contact} {p : Contacts × Contact}
    (hl : a.loadedVersion = none) (h : t.save ctx a = .ok p) {id : String} {r : Row Contact.Props}
    (hr : t.find id = some r) : p.1.find id = some r := by
  unfold save at h
  split at h
  · cases h
  · split at h
    · cases h
    · obtain ⟨rows, hrows, rfl⟩ := of_map_eq_ok h
      unfold write at hrows
      rw [hl] at hrows
      unfold insert at hrows
      dsimp only at hrows
      split at hrows
      · cases hrows
      · split at hrows
        · cases hrows
        · cases hrows
          rw [Table.find_append_single, hr]
          rfl

def findById (t : Contacts) (ctx : Context) (id : String) : Option Contact :=
  ((t.find id).filter fun r => r.payload.tenantId = ctx.tenantId &&
    r.payload.workspaceId = ctx.workspaceId).map fun r => .reconstitute r.payload r.version

end Contacts

/-! ## Leads -/

/-- The save of a fresh lead changes no row. -/
theorem saveLead_new {t t' : ConversationHandling.Leads} {ctx : Context} {a : Lead}
    (hl : a.loadedVersion = none) (h : t.save ctx a = .ok t') {key : String × String}
    {r : Row Lead.Props} (hr : t.find key = some r) : t'.find key = some r := by
  unfold ConversationHandling.Leads.save at h
  split at h
  · cases h
  · split at h
    next rows hrows =>
      cases h
      rcases Table.save_eq_some_iff.mp hrows with ⟨-, -, rfl⟩ | ⟨v, -, hv, -⟩
      · rw [Table.find_append_single, hr]
        rfl
      · rw [hl] at hv
        cases hv
    · split at h
      · cases h
      · cases h

end VegaRevenue.Intelligence
