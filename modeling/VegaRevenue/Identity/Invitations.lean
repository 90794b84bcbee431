import VegaRevenue.Identity.Memberships

/-!
# Invitations and roles

`WorkspaceController.invite`: a member whose role may invite names an e-mail and a role, and the
user of the e-mail is stored with that role, whatever role either has.

* `Unescalated` — what a request owes
* `Permitted` — when it gives it
* `unescalated_iff_permitted` — every sequence of requests to a workspace
-/

namespace VegaRevenue.Identity

open Programs RowSecurity

/-! ## The controller -/

/-- The user of a request, as the token tells. -/
structure RequestUser where
  userId : String
  tenantId : String
  workspaceId : String
  permissions : List String

/-- A request; `newUserId` is the id that `randomUUID` draws. -/
structure InviteRequest where
  inviterUserId : String
  /-- In the path. -/
  workspaceId : String
  /-- In the body, where it is a string. -/
  bodyWorkspaceId : Option String := none
  email : String
  role : Role
  newUserId : String

/-- `TenantGuard`: the workspace that the body names, else the one of the path. -/
def tenantGuard (user : RequestUser) (request : InviteRequest) : Bool :=
  let workspaceId := request.bodyWorkspaceId.getD request.workspaceId
  workspaceId = "" || workspaceId = user.workspaceId

/-- `PermissionsGuard`: one of the permissions, or all of its namespace. -/
def permissionsGuard (required permissions : List String) : Bool :=
  required.any fun permission =>
    permissions.contains permission ||
      permissions.contains (String.ofList (permission.toList.takeWhile (· ≠ ':')) ++ ":all")

/-- The guards and the controller let the request pass. -/
def passes (user : RequestUser) (request : InviteRequest) : Bool :=
  tenantGuard user request && permissionsGuard ["member:invite"] user.permissions &&
    request.workspaceId = user.workspaceId

variable (db : Postgres)

/-- The answer is none where the request is forbidden. -/
def invite (user : RequestUser) (request : InviteRequest) :
    IdentityProg (Option String) :=
  if passes user request then do
    let userId ← WorkspaceService.inviteMember db request.workspaceId user.tenantId request.email
      request.role request.newUserId
    pure (some userId)
  else pure none

/-- The user of a request by a member of the workspace, with the role that is stored. -/
def requester (w : WorkspaceRow) (userId : String) (role : Role) : RequestUser where
  userId := userId
  tenantId := w.tenantId
  workspaceId := w.id
  permissions := permissionsForRole role

/-- One request; who is no member makes none. -/
def inviteStep (w : WorkspaceRow) :
    Machine.Step IdentityStore InviteRequest (Except IdentityError (Option String)) :=
  fun s request =>
    match s.storedRole w.id request.inviterUserId with
    | some role =>
      let (r, s') := exec (invite db (requester w request.inviterUserId role) request) s
      (s', r)
    | none => (s, .ok none)

/-! ## Ranks -/

/-- The rank of a role; a text that is no role has none. -/
def rank (role : Role) : Option Nat :=
  if role = "OWNER" then some 2
  else if role = "ADMIN" then some 1
  else if role = "MEMBER" ∨ role = "OPERATOR" then some 0
  else none

def NotAbove (role limit : Role) : Prop := ∃ r ∈ rank role, ∃ l ∈ rank limit, r ≤ l

def Above (role limit : Role) : Prop := ∃ r ∈ rank role, ∃ l ∈ rank limit, l < r

def IdentityStore.HasOwner (s : IdentityStore) (workspaceId : String) : Prop :=
  ∃ userId, s.storedRole workspaceId userId = some "OWNER"

/-! ## What a request owes -/

section

variable (w : WorkspaceRow) (s : IdentityStore) (request : InviteRequest)

/-- What a request owes, where the inviter has the role and the request is accepted. -/
structure Unescalated : Prop where
  granted : ∀ inviter userId, s.storedRole w.id request.inviterUserId = some inviter →
    (inviteStep db w s request).2 = .ok (some userId) →
    ∃ id role, db.uuid userId = some id ∧
      (inviteStep db w s request).1.storedRole w.id id = some role ∧ NotAbove role inviter
  kept : ∀ inviter userId role, s.storedRole w.id request.inviterUserId = some inviter →
    s.storedRole w.id userId = some role → Above role inviter →
    (inviteStep db w s request).1.storedRole w.id userId = some role
  owned : (inviteStep db w s request).1.HasOwner w.id

/-- The user that is invited; none where no user can be created. -/
def IdentityStore.inviteeOf : Option String :=
  match s.userByEmail request.email with
  | some user => some user.id
  | none => s.upsertedId db request.newUserId request.email

/-- The role does not pass the inviter's, the invitee's does not either, and the invitee is not
the last owner, unless as an owner again. -/
def Permitted : Prop :=
  ∀ inviter userId, s.storedRole w.id request.inviterUserId = some inviter →
    passes (requester w request.inviterUserId inviter) request = true →
    s.inviteeOf db request = some userId →
    NotAbove request.role inviter ∧
      (∀ role, s.storedRole w.id userId = some role → ¬ Above role inviter) ∧
      (request.role = "OWNER" ∨ ∃ other, other ≠ userId ∧ s.storedRole w.id other = some "OWNER")

end

/-! ## What a request does -/

/-- What holds between the requests. -/
structure WorkspaceInv (w : WorkspaceRow) (s : IdentityStore) : Prop extends IdentityInv db s where
  stored : s.workspaces.lookup w.id = some w
  tenant : ∀ userId m, s.memberships.lookup (w.id, userId) = some m → m.tenantId = w.tenantId

variable {db} {w : WorkspaceRow} {s s' : IdentityStore} {request : InviteRequest} {inviter : Role}

/-- The membership of the user is stored with the role, the others stay. -/
def Stores (w : WorkspaceRow) (s s' : IdentityStore) (userId : String) (role : Role) : Prop :=
  ∀ userId', s'.storedRole w.id userId' =
    if userId = userId' then some role else s.storedRole w.id userId'

theorem stores_of_added {m : MembershipRow} (h : Added s s' m) (hm : m.workspaceId = w.id) :
    Stores w s s' m.userId m.role := by
  intro userId'
  unfold IdentityStore.storedRole
  rw [h.memberships]
  by_cases huser : m.userId = userId'
  · rw [if_pos ⟨hm, huser⟩, if_pos huser, Option.map_some]
  · rw [if_neg fun hboth => huser hboth.2, if_neg huser]

theorem workspaceInv_added {m : MembershipRow} (hinv : WorkspaceInv db w s) (h : Added s s' m)
    (htenant : m.tenantId = w.tenantId) : WorkspaceInv db w s' := by
  refine ⟨inv_added hinv.toIdentityInv h, ?_, fun userId m' hm' => ?_⟩
  · rw [h.workspaces]
    exact hinv.stored
  · rw [h.memberships] at hm'
    split at hm'
    · cases hm'
      exact htenant
    · exact hinv.tenant userId m' hm'

theorem workspaceInv_upserted {userId : String} (hinv : WorkspaceInv db w s)
    (h : Upserted s s' userId) (hid : db.uuid userId = some userId) : WorkspaceInv db w s' := by
  refine ⟨inv_upserted hinv.toIdentityInv h hid, ?_, ?_⟩
  · rw [h.workspaces]
    exact hinv.stored
  · rw [h.memberships]
    exact hinv.tenant

theorem uuid_workspace (hinv : WorkspaceInv db w s) : db.uuid w.id = some w.id :=
  hinv.workspaceIds w.id (by rw [hinv.stored]; rfl)

/-- A user is added to the workspace, or gets another role there. -/
theorem exec_addMember_workspace {userId u : String} (role : Role) (hinv : WorkspaceInv db w s)
    (hu : db.uuid userId = some u) (huser : (s.users.lookup u).isSome = true) :
    ∃ m s', exec (db.addMember w.id w.tenantId userId role) s = (.ok m, s') ∧
      Stores w s s' u role ∧ WorkspaceInv db w s' := by
  have hw := uuid_workspace hinv
  cases hold : s.memberships.lookup (w.id, u) with
  | some old =>
    have hkey := Table.key_of_lookup hold
    have htenant := hinv.tenant u old hold
    obtain ⟨s', hexec, hadded⟩ := exec_addMember_old role hinv.toIdentityInv hw hu hold htenant
    have hworkspace : old.workspaceId = w.id := congrArg Prod.fst hkey
    have hstores := stores_of_added hadded hworkspace
    rw [show old.userId = u from congrArg Prod.snd hkey] at hstores
    exact ⟨_, s', hexec, hstores, workspaceInv_added hinv hadded htenant⟩
  | none =>
    obtain ⟨s', hexec, hadded⟩ := exec_addMember_new w.tenantId role hw hu hold
      (by rw [hinv.stored]; rfl) huser
    exact ⟨_, s', hexec, stores_of_added hadded rfl, workspaceInv_added hinv hadded rfl⟩

theorem exec_findUserByEmail (email : String) :
    exec (Postgres.findUserByEmail email) s = (.ok (s.userByEmail email), s) := rfl

theorem exec_inviteeOf (email newUserId : String) :
    exec (WorkspaceService.inviteeOf db email newUserId) s =
      match s.userByEmail email with
      | some user => (.ok user.id, s)
      | none =>
        match exec (db.upsertUser newUserId email none) s with
        | (.ok _, s') => (.ok newUserId, s')
        | (.error x, s') => (.error x, s') := by
  unfold WorkspaceService.inviteeOf
  rw [exec_bind, exec_findUserByEmail]
  dsimp only
  cases s.userByEmail email with
  | some user => rfl
  | none =>
    dsimp only
    rw [exec_bind]
    generalize exec (db.upsertUser newUserId email none) s = r
    obtain ⟨result, s'⟩ := r
    cases result with
    | ok user => rfl
    | error x => rfl

/-- A request that passes is accepted where it has an invitee. -/
theorem exec_inviteMember_some {u : String} (hinv : WorkspaceInv db w s)
    (h : s.inviteeOf db request = some u) :
    ∃ userId s', exec (WorkspaceService.inviteMember db w.id w.tenantId request.email request.role
        request.newUserId) s = (.ok userId, s') ∧
      db.uuid userId = some u ∧ Stores w s s' u request.role ∧ WorkspaceInv db w s' := by
  unfold IdentityStore.inviteeOf at h
  unfold WorkspaceService.inviteMember
  rw [exec_bind, exec_inviteeOf]
  cases hemail : s.userByEmail request.email with
  | some user =>
    rw [hemail] at h
    cases h
    have huser : (s.users.lookup user.id).isSome = true := by
      rw [Table.lookup_of_mem (List.mem_of_find?_eq_some hemail)]
      rfl
    have hid := hinv.userIds user.id huser
    obtain ⟨m, s', hexec, hstores, hinv'⟩ := exec_addMember_workspace request.role hinv hid huser
    refine ⟨user.id, s', ?_, hid, hstores, hinv'⟩
    dsimp only
    rw [exec_bind, hexec]
    rfl
  | none =>
    rw [hemail] at h
    dsimp only at h ⊢
    obtain ⟨user, s₁, hupsert, -, hup⟩ := exec_upsertUser_some none h
    have hnew : db.uuid request.newUserId = some u := by
      obtain ⟨id, hid, h⟩ := Option.bind_eq_some_iff.mp h
      rw [hemail] at h
      dsimp only at h
      split at h
      · cases h
      · rwa [Option.some.inj h] at hid
    have hinv₁ := workspaceInv_upserted hinv hup (db.uuid_uuid hnew)
    obtain ⟨m, s', hexec, hstores, hinv'⟩ := exec_addMember_workspace request.role hinv₁ hnew
      ((hup.users u).mpr (.inr rfl))
    refine ⟨request.newUserId, s', ?_, hnew, fun userId' => ?_, hinv'⟩
    · rw [hupsert]
      dsimp only
      rw [exec_bind, hexec]
      rfl
    · rw [hstores userId']
      unfold IdentityStore.storedRole
      rw [hup.memberships]

theorem exec_inviteMember_none (h : s.inviteeOf db request = none) (workspaceId tenantId : String) :
    ∃ x, exec (WorkspaceService.inviteMember db workspaceId tenantId request.email request.role
        request.newUserId) s = (.error x, s) := by
  unfold IdentityStore.inviteeOf at h
  unfold WorkspaceService.inviteMember
  cases hemail : s.userByEmail request.email with
  | some user =>
    rw [hemail] at h
    cases h
  | none =>
    rw [hemail] at h
    obtain ⟨x, hx⟩ := exec_upsertUser_none none h
    refine ⟨x, exec_bind_error ?_⟩
    rw [exec_inviteeOf, hemail]
    dsimp only
    rw [hx]

/-- A request is refused and leaves the tables alone, or it stores the invitee's membership. -/
inductive Outcome (db : Postgres) (w : WorkspaceRow) (s : IdentityStore) (request : InviteRequest) :
    IdentityStore → Except IdentityError (Option String) → Prop where
  | refused {answer : Except IdentityError (Option String)}
      (hanswer : ∀ userId, answer ≠ .ok (some userId))
      (hwhy : ∀ inviter, s.storedRole w.id request.inviterUserId = some inviter →
        passes (requester w request.inviterUserId inviter) request = true →
        s.inviteeOf db request = none) :
      Outcome db w s request s answer
  | accepted {s' : IdentityStore} {inviter : Role} {u userId : String}
      (hinviter : s.storedRole w.id request.inviterUserId = some inviter)
      (hpasses : passes (requester w request.inviterUserId inviter) request = true)
      (hinvitee : s.inviteeOf db request = some u) (hid : db.uuid userId = some u)
      (hstores : Stores w s s' u request.role) (hinv : WorkspaceInv db w s') :
      Outcome db w s request s' (.ok (some userId))

theorem outcome_inviteStep (hinv : WorkspaceInv db w s) (request : InviteRequest) :
    Outcome db w s request (inviteStep db w s request).1 (inviteStep db w s request).2 := by
  unfold inviteStep
  cases hinviter : s.storedRole w.id request.inviterUserId with
  | none =>
    refine .refused (fun _ h => nomatch h) fun inviter h => ?_
    rw [hinviter] at h
    cases h
  | some inviter =>
    dsimp only
    unfold invite
    by_cases hpasses : passes (requester w request.inviterUserId inviter) request = true
    · rw [if_pos hpasses,
        show (requester w request.inviterUserId inviter).tenantId = w.tenantId from rfl]
      have hworkspace : request.workspaceId = w.id := by
        unfold passes at hpasses
        exact of_decide_eq_true (Bool.and_eq_true_iff.mp hpasses).2
      cases hinvitee : s.inviteeOf db request with
      | none =>
        obtain ⟨x, hx⟩ := exec_inviteMember_none hinvitee request.workspaceId w.tenantId
        rw [exec_bind_error (f := fun userId => pure (some userId)) hx]
        exact .refused (fun _ h => nomatch h) fun _ _ _ => hinvitee
      | some u =>
        obtain ⟨userId, s', hexec, hid, hstores, hinv'⟩ := exec_inviteMember_some hinv hinvitee
        rw [← hworkspace] at hexec
        rw [exec_bind, hexec]
        exact .accepted hinviter hpasses hinvitee hid hstores hinv'
    · rw [if_neg hpasses]
      refine .refused (fun _ h => nomatch h) fun inviter' h hpasses' => ?_
      rw [hinviter] at h
      cases h
      exact absurd hpasses' hpasses

theorem not_above {role limit : Role} (h : NotAbove role limit) : ¬ Above role limit := by
  obtain ⟨r, hr, l, hl, hle⟩ := h
  rintro ⟨r', hr', l', hl', hlt⟩
  cases hr.symm.trans hr'
  cases hl.symm.trans hl'
  omega

/-- **A request keeps the ranks iff it is permitted.** -/
theorem unescalated_iff_permitted_step (hinv : WorkspaceInv db w s) (howner : s.HasOwner w.id)
    (request : InviteRequest) : Unescalated db w s request ↔ Permitted db w s request := by
  have houtcome := outcome_inviteStep hinv request
  generalize hs : (inviteStep db w s request).1 = s', ha : (inviteStep db w s request).2 = answer
    at houtcome
  cases houtcome with
  | refused hanswer hwhy =>
    refine iff_of_true ⟨?_, ?_, ?_⟩ ?_
    · intro inviter userId _ h
      rw [ha] at h
      exact absurd h (hanswer userId)
    · intro inviter userId role _ h _
      rw [hs]
      exact h
    · rw [hs]
      exact howner
    · intro inviter userId hinviter hpasses hinvitee
      rw [hwhy inviter hinviter hpasses] at hinvitee
      cases hinvitee
  | @accepted _ inviter u userId hinviter hpasses hinvitee hid hstores hinv' =>
    constructor
    · intro h inviter' u' hinviter' _ hinvitee'
      cases hinviter.symm.trans hinviter'
      cases hinvitee.symm.trans hinvitee'
      have hgranted : NotAbove request.role inviter := by
        obtain ⟨id, role, hid', hrole, hnot⟩ := h.granted inviter userId hinviter ha
        cases hid.symm.trans hid'
        rw [hs, hstores, if_pos rfl] at hrole
        cases hrole
        exact hnot
      refine ⟨hgranted, fun role hrole habove => ?_, ?_⟩
      · have hkept := h.kept inviter u role hinviter hrole habove
        rw [hs, hstores, if_pos rfl] at hkept
        cases hkept
        exact not_above hgranted habove
      · obtain ⟨owner, howner'⟩ := h.owned
        rw [hs, hstores] at howner'
        split at howner'
        · exact .inl (Option.some.inj howner')
        next hne => exact .inr ⟨owner, Ne.symm hne, howner'⟩
    · intro h
      obtain ⟨hgranted, hbelow, howned⟩ := h inviter u hinviter hpasses hinvitee
      refine ⟨fun inviter' userId' hinviter' hanswer => ?_, fun inviter' userId' role hinviter' hrole
        habove => ?_, ?_⟩
      · cases hinviter.symm.trans hinviter'
        rw [ha] at hanswer
        cases hanswer
        refine ⟨u, request.role, hid, ?_, hgranted⟩
        rw [hs, hstores, if_pos rfl]
      · cases hinviter.symm.trans hinviter'
        rw [hs, hstores]
        split
        next heq =>
          subst heq
          exact absurd habove (hbelow role hrole)
        next => exact hrole
      · rw [hs]
        rcases howned with hrole | ⟨other, hne, hother⟩
        · exact ⟨u, by rw [hstores, if_pos rfl, hrole]⟩
        · refine ⟨other, ?_⟩
          rw [hstores, if_neg (Ne.symm hne)]
          exact hother

theorem workspaceInv_inviteStep (hinv : WorkspaceInv db w s) (request : InviteRequest) :
    WorkspaceInv db w (inviteStep db w s request).1 := by
  have houtcome := outcome_inviteStep hinv request
  generalize (inviteStep db w s request).1 = s', (inviteStep db w s request).2 = answer at houtcome
  cases houtcome with
  | refused => exact hinv
  | accepted _ _ _ _ _ hinv' => exact hinv'

/-! ## Sequences of requests -/

def OwnedInv (db : Postgres) (w : WorkspaceRow) (s : IdentityStore) : Prop :=
  WorkspaceInv db w s ∧ s.HasOwner w.id

/-- The creator of a workspace owns it. -/
theorem owned_of_created (hinv : IdentityInv db s) (hnew : s.workspaces.lookup w.id = none)
    (hid : db.uuid w.id = some w.id) (howner : (s.users.lookup w.ownerUserId).isSome = true)
    (h : Created s s' w) : OwnedInv db w s' := by
  refine ⟨⟨inv_created hinv hid howner h, ?_, fun userId m hm => ?_⟩, w.ownerUserId, ?_⟩
  · rw [h.workspaces, if_pos rfl]
  · rw [h.memberships] at hm
    split at hm
    · cases hm
      rfl
    · have hworkspace := (hinv.members w.id userId m hm).2
      rw [hnew] at hworkspace
      cases hworkspace
  · unfold IdentityStore.storedRole
    rw [h.memberships, if_pos ⟨rfl, rfl⟩]
    rfl

/-- **In a workspace that was created in any history, every request of a sequence keeps the ranks
and an owner iff every request is permitted.** -/
theorem unescalated_iff_permitted (db : Postgres) (calls : List IdentityCall)
    (newWorkspaceId name ownerUserId : String) (w : WorkspaceRow) (s : IdentityStore)
    (hcreate : exec (db.createWorkspace newWorkspaceId name ownerUserId)
      (Machine.final (identityStep db) {} calls) = (.ok w, s)) (requests : List InviteRequest) :
    s.HasOwner w.id ∧
      (Machine.Meets (inviteStep db w) (Unescalated db w) s requests ↔
        Machine.Meets (inviteStep db w) (Permitted db w) s requests) := by
  have hinv := identityInv_final db calls
  generalize Machine.final (identityStep db) {} calls = s₀ at hcreate hinv
  rcases exec_createWorkspace_cases hinv newWorkspaceId name ownerUserId with ⟨x, hx⟩ | hok
  · rw [hx] at hcreate
    cases hcreate
  · obtain ⟨w', s', hexec, hcreated, hid, howner, hnew⟩ := hok
    rw [hexec] at hcreate
    cases hcreate
    have howned := owned_of_created hinv hnew (db.uuid_uuid hid) howner hcreated
    refine ⟨howned.2, Machine.meets_iff_of_invariant ?_ ?_ requests howned⟩
    · exact fun s request h => unescalated_iff_permitted_step h.1 h.2 request
    · exact fun s request h hlaw => ⟨workspaceInv_inviteStep h.1 request, hlaw.owned⟩

/-! ## An administrator -/

def salesWorkspaceId : String := "00000000-0000-4000-8000-0000000000a2"

/-- Ann has signed in. -/
def annSignsIn : List IdentityCall :=
  [.authenticate ⟨annId, "ann@example.com", none, annId, ""⟩ annWorkspaceId]

/-- Ann creates a second workspace. -/
def annCreates : IdentityProg WorkspaceRow :=
  plainPostgres.createWorkspace salesWorkspaceId "Sales" annId

def sales : WorkspaceRow := ⟨salesWorkspaceId, annId, "Sales", annId⟩

/-- The tables with her workspace. -/
def salesStore : IdentityStore :=
  (exec annCreates (Machine.final (identityStep plainPostgres) {} annSignsIn)).2

/-- Ann invites Bob as an administrator. -/
def bobInvited : InviteRequest where
  inviterUserId := annId
  workspaceId := salesWorkspaceId
  email := "bob@example.com"
  role := "ADMIN"
  newUserId := bobId

/-- Bob invites himself as an owner. -/
def bobPromoted : InviteRequest where
  inviterUserId := bobId
  workspaceId := salesWorkspaceId
  email := "bob@example.com"
  role := "OWNER"
  newUserId := bobId

theorem exec_annCreates :
    exec annCreates (Machine.final (identityStep plainPostgres) {} annSignsIn) =
      (.ok sales, salesStore) :=
  Prod.ext (eq_ok_of_toOption (by decide +kernel)) rfl

theorem unescalated_iff_permitted_sales :
    salesStore.HasOwner salesWorkspaceId ∧
      (Machine.Meets (inviteStep plainPostgres sales) (Unescalated plainPostgres sales) salesStore
          [bobInvited] ↔
        Machine.Meets (inviteStep plainPostgres sales) (Permitted plainPostgres sales) salesStore
          [bobInvited]) :=
  unescalated_iff_permitted plainPostgres annSignsIn salesWorkspaceId "Sales" annId sales salesStore
    exec_annCreates [bobInvited]

/-- An administrator makes himself an owner. -/
theorem admin_becomes_owner :
    ¬ Machine.Meets (inviteStep plainPostgres sales) (Unescalated plainPostgres sales) salesStore
      [bobInvited, bobPromoted] := by
  rintro ⟨-, hlaw, -⟩
  obtain ⟨id, role, hid, hrole, hnot⟩ := hlaw.granted "ADMIN" bobId (by decide +kernel)
    (eq_ok_of_toOption (by decide +kernel))
  have hbob : plainPostgres.uuid bobId = some bobId := by decide +kernel
  cases hbob.symm.trans hid
  have howner : (inviteStep plainPostgres sales
      (inviteStep plainPostgres sales salesStore bobInvited).1 bobPromoted).1.storedRole sales.id
        bobId = some "OWNER" := by decide +kernel
  cases howner.symm.trans hrole
  simp [NotAbove, rank] at hnot

end VegaRevenue.Identity
