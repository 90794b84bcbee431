import VegaRevenue.Lib.Programs
import VegaRevenue.Lib.RowSecurity

/-!
# Users, workspaces and memberships

`PostgresIdentityRepository`. Workspaces and memberships are under row-level security: a statement
sees and writes the rows of the tenant that its session names. Users are not.

* `upsertUser`, `createWorkspace`, `addMember` — what is written
* `findWorkspaceById`, `listWorkspacesForUser`, `listMembers` — what is read
* `permissionsForRole` — what a role may do
-/

namespace VegaRevenue.Identity

open Programs RowSecurity

/-! ## Roles -/

/-- A role as it is stored; the column takes every text. -/
abbrev Role := String

/-- `ROLE_PERMISSIONS[role] ?? []`. -/
def permissionsForRole (role : Role) : List String :=
  if role = "OWNER" then
    ["workspace:manage", "member:invite", "member:remove", "mission:all", "approval:all",
      "settings:all"]
  else if role = "ADMIN" then
    ["workspace:read", "member:invite", "member:remove", "mission:all", "approval:all",
      "settings:read"]
  else if role = "MEMBER" then
    ["workspace:read", "mission:read", "mission:execute", "approval:respond"]
  else if role = "OPERATOR" then
    ["workspace:read", "mission:read", "mission:execute", "mission:pause", "mission:resume",
      "mission:cancel"]
  else []

/-! ## Tables -/

structure UserRow where
  id : String
  email : String
  name : Option String
  tenantId : String
deriving DecidableEq

structure WorkspaceRow where
  id : String
  tenantId : String
  name : String
  ownerUserId : String
deriving DecidableEq

structure MembershipRow where
  workspaceId : String
  tenantId : String
  userId : String
  role : Role
deriving DecidableEq

/-- The primary key. -/
def MembershipRow.key (m : MembershipRow) : String × String := (m.workspaceId, m.userId)

structure IdentityStore where
  users : Table UserRow.id := ⟨[], List.nodup_nil⟩
  workspaces : Table WorkspaceRow.id := ⟨[], List.nodup_nil⟩
  memberships : Table MembershipRow.key := ⟨[], List.nodup_nil⟩

inductive IdentityError where
  | invalidUuid
  | uniqueViolation
  | foreignKeyViolation
  | rowSecurityViolation
deriving DecidableEq

/-- What the repository takes from Postgres. -/
structure Postgres where
  /-- `s::UUID` as text, none where it fails. -/
  uuid : String → Option String
  uuid_uuid : ∀ {s t : String}, uuid s = some t → uuid t = some t
  /-- The order in which a query without `ORDER BY` returns the rows. -/
  arrange : List WorkspaceRow → List WorkspaceRow
  arrange_perm : ∀ rows, (arrange rows).Perm rows

/-- `tenant_id = current_setting('app.current_tenant')`, for the rows read and the rows written. -/
def tenantRows {R : Type} (tenantOf : R → String) (tenantId : String) : Policy R where
  visible r := tenantOf r = tenantId
  check r := tenantOf r = tenantId

/-- A table without row-level security. -/
def allRows {R : Type} : Policy R where
  visible _ := true
  check _ := true

abbrev IdentityProg (A : Type) := Prog IdentityStore IdentityError A

def getOrThrow {A : Type} (x : IdentityError) : Option A → IdentityProg A
  | some a => pure a
  | none => throw x

/-! ## The repository -/

namespace Postgres

variable (db : Postgres)

def castUuid (s : String) : IdentityProg String := getOrThrow .invalidUuid (db.uuid s)

/-- `ON CONFLICT (email) DO UPDATE SET name`. -/
def upsertUser (userId email : String) (name : Option String) : IdentityProg UserRow := do
  let id ← db.castUuid userId
  let s ← get
  match s.users.rows.find? fun u => u.email = email with
  | some user => do
    let users ← getOrThrow .rowSecurityViolation
      (s.users.update? allRows (fun u => u.email = email) (fun u => { u with name }) fun _ => rfl)
    set { s with users }
    pure { user with name }
  | none => do
    let user : UserRow := { id, email, name, tenantId := id }
    let users ← getOrThrow .uniqueViolation (s.users.insert? allRows user)
    set { s with users }
    pure user

def findUserByEmail (email : String) : IdentityProg (Option UserRow) := do
  let s ← get
  pure (s.users.rows.find? fun u => u.email = email)

/-- The tenant is the owner's id; the workspace id is the one `randomUUID` has drawn. -/
def createWorkspace (workspaceId name ownerUserId : String) : IdentityProg WorkspaceRow := do
  let tenantId := ownerUserId
  let id ← db.castUuid workspaceId
  let owner ← db.castUuid ownerUserId
  let s ← get
  let workspace : WorkspaceRow := { id, tenantId, name, ownerUserId := owner }
  let workspaces ← getOrThrow .uniqueViolation
    (s.workspaces.insert? (tenantRows WorkspaceRow.tenantId tenantId) workspace)
  if (s.users.lookup owner).isNone then throw .foreignKeyViolation
  else do
    -- a membership that is there already stays
    let memberships := (s.memberships.insert? (tenantRows MembershipRow.tenantId tenantId)
      ⟨id, tenantId, owner, "OWNER"⟩).getD s.memberships
    set { s with workspaces, memberships }
    pure workspace

def findWorkspaceById (workspaceId tenantId : String) : IdentityProg (Option WorkspaceRow) := do
  let id ← db.castUuid workspaceId
  let s ← get
  pure (s.workspaces.select (tenantRows WorkspaceRow.tenantId tenantId) fun w => w.id = id).head?

/-- The user's tenant only: both tables are under its policy. -/
def listWorkspacesForUser (userId : String) : IdentityProg (List WorkspaceRow) := do
  let id ← db.castUuid userId
  let s ← get
  let memberships := s.memberships.select (tenantRows MembershipRow.tenantId userId)
    fun m => m.userId = id
  pure (db.arrange (s.workspaces.select (tenantRows WorkspaceRow.tenantId userId)
    fun w => memberships.any fun m => m.workspaceId = w.id))

/-- `ON CONFLICT (workspace_id, user_id) DO UPDATE SET role`; the row in conflict has to be
visible. -/
def addMember (workspaceId tenantId userId : String) (role : Role) : IdentityProg MembershipRow := do
  let workspace ← db.castUuid workspaceId
  let user ← db.castUuid userId
  let s ← get
  let policy := tenantRows MembershipRow.tenantId tenantId
  match s.memberships.lookup (workspace, user) with
  | some old =>
    if policy.visible old then do
      let memberships ← getOrThrow .rowSecurityViolation
        (s.memberships.update? policy (fun m => m.key = (workspace, user))
          (fun m => { m with role }) fun _ => rfl)
      set { s with memberships }
      pure { old with role }
    else throw .rowSecurityViolation
  | none =>
    if (s.workspaces.lookup workspace).isNone ∨ (s.users.lookup user).isNone then
      throw .foreignKeyViolation
    else do
      let row : MembershipRow := { workspaceId := workspace, tenantId, userId := user, role }
      let memberships ← getOrThrow .rowSecurityViolation (s.memberships.insert? policy row)
      set { s with memberships }
      pure row

structure WorkspaceMember where
  userId : String
  email : String
  name : Option String
  role : Role

def listMembers (workspaceId tenantId : String) : IdentityProg (List WorkspaceMember) := do
  let workspace ← db.castUuid workspaceId
  let s ← get
  pure ((s.memberships.select (tenantRows MembershipRow.tenantId tenantId)
    fun m => m.workspaceId = workspace).filterMap fun m =>
      (s.users.lookup m.userId).map fun u => ⟨u.id, u.email, u.name, m.role⟩)

end Postgres

end VegaRevenue.Identity
