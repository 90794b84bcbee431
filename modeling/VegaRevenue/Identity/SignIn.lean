import VegaRevenue.Identity.Repository
import VegaRevenue.Identity.TokenIssuer

/-!
# Signing in, creating workspaces and inviting members

`AuthService.authenticate` and `WorkspaceService` over the repository.

* `authenticate`, `WorkspaceService.createWorkspace`, `WorkspaceService.inviteMember` — the code
* `identityStep` — one call of a history
-/

namespace VegaRevenue.Identity

open Programs RowSecurity

/-- An identity that the provider has validated; `workspaceId` is empty without a claim. -/
structure ExternalIdentity where
  userId : String
  email : String
  name : Option String
  tenantId : String
  workspaceId : String

/-- The ids that `randomUUID` draws are arguments. -/
inductive IdentityCall where
  | authenticate (identity : ExternalIdentity) (newWorkspaceId : String)
  | createWorkspace (name ownerUserId newWorkspaceId : String)
  | inviteMember (workspaceId tenantId inviteeEmail : String) (role : Role) (newUserId : String)

inductive IdentityAnswer where
  /-- What the token is issued for, none where the identity is denied. -/
  | authenticated (result : Except IdentityError (Option AuthenticatedUser))
  | created (result : Except IdentityError WorkspaceRow)
  | invited (result : Except IdentityError String)

variable (db : Postgres)

namespace AuthService

/-- `identity.email.split('@')[0]`, with what makes it the name of a workspace. -/
def workspaceName (email : String) : String :=
  String.ofList (email.toList.takeWhile (· ≠ '@')) ++ "'s workspace"

/-- The workspace of a user without a claim: one of the own, or a new one. -/
def ownWorkspace (identity : ExternalIdentity) (user : UserRow) (newWorkspaceId : String) :
    IdentityProg WorkspaceRow := do
  let workspaces ← db.listWorkspacesForUser user.id
  match workspaces.head? with
  | some workspace => pure workspace
  | none => db.createWorkspace newWorkspaceId (workspaceName identity.email) user.id

/-- The workspace the identity is signed in to. -/
def workspaceOf (identity : ExternalIdentity) (user : UserRow) (newWorkspaceId : String) :
    IdentityProg (Option WorkspaceRow) :=
  if identity.workspaceId ≠ "" then db.findWorkspaceById identity.workspaceId identity.tenantId
  else do
    let workspace ← ownWorkspace db identity user newWorkspaceId
    pure (some workspace)

/-- What the token is issued for. -/
def tokenUser (identity : ExternalIdentity) (user : UserRow) (workspace : WorkspaceRow)
    (members : List Postgres.WorkspaceMember) : AuthenticatedUser :=
  let membership := members.find? fun m => m.userId = identity.userId
  let role := (membership.map (·.role)).getD "MEMBER"
  { userId := user.id
    email := user.email
    name := user.name
    tenantId := workspace.tenantId
    workspaceId := workspace.id
    roles := [role]
    permissions := permissionsForRole role }

def authenticate (identity : ExternalIdentity) (newWorkspaceId : String) :
    IdentityProg (Option AuthenticatedUser) := do
  let user ← db.upsertUser identity.userId identity.email identity.name
  let found ← workspaceOf db identity user newWorkspaceId
  match found with
  | none => pure none
  | some workspace => do
    let members ← db.listMembers workspace.id workspace.tenantId
    pure (some (tokenUser identity user workspace members))

end AuthService

namespace WorkspaceService

/-- The user of the e-mail, or a new one. -/
def inviteeOf (inviteeEmail newUserId : String) : IdentityProg String := do
  let existing ← Postgres.findUserByEmail inviteeEmail
  match existing with
  | some user => pure user.id
  | none => do
    let _ ← db.upsertUser newUserId inviteeEmail none
    pure newUserId

def inviteMember (workspaceId tenantId inviteeEmail : String) (role : Role) (newUserId : String) :
    IdentityProg String := do
  let userId ← inviteeOf db inviteeEmail newUserId
  let _ ← db.addMember workspaceId tenantId userId role
  pure userId

end WorkspaceService

/-- One call. -/
def identityStep : Machine.Step IdentityStore IdentityCall IdentityAnswer := fun s call =>
  match call with
  | .authenticate identity newWorkspaceId =>
    let (r, s') := exec (AuthService.authenticate db identity newWorkspaceId) s
    (s', .authenticated r)
  | .createWorkspace name ownerUserId newWorkspaceId =>
    let (r, s') := exec (db.createWorkspace newWorkspaceId name ownerUserId) s
    (s', .created r)
  | .inviteMember workspaceId tenantId inviteeEmail role newUserId =>
    let (r, s') :=
      exec (WorkspaceService.inviteMember db workspaceId tenantId inviteeEmail role newUserId) s
    (s', .invited r)

end VegaRevenue.Identity
