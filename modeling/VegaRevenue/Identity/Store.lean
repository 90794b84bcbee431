import Mathlib.Data.List.Find
import VegaRevenue.Identity.Repository

/-!
# What the repository stores

The operations by what they leave under each key, and what holds between them.

* `exec_upsertUser_some`, `exec_createWorkspace_ok`, `exec_addMember_some` — what is written
* `exec_listMembers`, `exec_listWorkspacesForUser` — what is read
* `IdentityInv` — ids are UUIDs, memberships refer to rows
-/

namespace VegaRevenue.Identity

open Programs RowSecurity

/-! ## What is stored -/

namespace IdentityStore

variable (s : IdentityStore) (db : Postgres)

/-- The user of an e-mail. -/
def userByEmail (email : String) : Option UserRow := s.users.rows.find? fun u => u.email = email

/-- The role that is stored for the membership. -/
def storedRole (workspaceId userId : String) : Option Role :=
  (s.memberships.lookup (workspaceId, userId)).map (·.role)

/-- The role that the members of the workspace are listed with. -/
def listedRole (w : WorkspaceRow) (userId : String) : Option Role :=
  ((s.memberships.lookup (w.id, userId)).filter fun m => m.tenantId = w.tenantId).map (·.role)

/-- The id of the user that is upserted; none where the statement fails. -/
def upsertedId (externalId email : String) : Option String :=
  (db.uuid externalId).bind fun id =>
    match s.userByEmail email with
    | some user => some user.id
    | none => if (s.users.lookup id).isSome then none else some id

/-- The workspaces of the user's own tenant that the user is a member of. -/
def owned (userId : String) : List WorkspaceRow :=
  db.arrange (s.workspaces.rows.filter fun w => w.tenantId = userId &&
    (s.memberships.lookup (w.id, userId)).any fun m => m.tenantId = userId)

end IdentityStore

/-! ## What holds between calls -/

structure IdentityInv (db : Postgres) (s : IdentityStore) : Prop where
  userIds : ∀ id, (s.users.lookup id).isSome = true → db.uuid id = some id
  workspaceIds : ∀ id, (s.workspaces.lookup id).isSome = true → db.uuid id = some id
  members : ∀ workspaceId userId m, s.memberships.lookup (workspaceId, userId) = some m →
    (s.users.lookup userId).isSome = true ∧ (s.workspaces.lookup workspaceId).isSome = true

variable {db : Postgres} {s s' : IdentityStore}

/-! ## The operations -/

theorem exec_castUuid (text : String) :
    exec (db.castUuid text) s =
      match db.uuid text with
      | some id => (.ok id, s)
      | none => (.error .invalidUuid, s) := by
  unfold Postgres.castUuid getOrThrow
  split
  next h => rw [h]; rfl
  next h => rw [h]; rfl

/-- What an upsert of a user leaves. -/
structure Upserted (s s' : IdentityStore) (userId : String) : Prop where
  workspaces : s'.workspaces = s.workspaces
  memberships : s'.memberships = s.memberships
  users : ∀ id, (s'.users.lookup id).isSome = true ↔ (s.users.lookup id).isSome = true ∨ id = userId

theorem exec_upsertUser_new {userId email id : String} (name : Option String)
    (hid : db.uuid userId = some id) (hemail : s.userByEmail email = none) :
    exec (db.upsertUser userId email name) s =
      match s.users.insert? allRows ⟨id, email, name, id⟩ with
      | some users => (.ok ⟨id, email, name, id⟩, { s with users })
      | none => (.error .uniqueViolation, s) := by
  unfold Postgres.upsertUser
  rw [exec_bind, exec_castUuid, hid]
  dsimp only
  rw [exec_bind, exec_get]
  dsimp only
  unfold IdentityStore.userByEmail at hemail
  rw [hemail]
  dsimp only
  cases hinsert : s.users.insert? allRows ⟨id, email, name, id⟩ with
  | some users => rfl
  | none => rfl

theorem exec_upsertUser_old {userId email id : String} {user : UserRow} (name : Option String)
    (hid : db.uuid userId = some id) (hemail : s.userByEmail email = some user) :
    ∃ users, s.users.update? allRows (fun u => u.email = email) (fun u => { u with name })
        (fun _ => rfl) = some users ∧
      exec (db.upsertUser userId email name) s = (.ok { user with name }, { s with users }) := by
  obtain ⟨users, hupdate⟩ := Table.exists_update s.users allRows (fun u => u.email = email)
    (fun u => { u with name }) (fun _ => rfl) fun _ _ _ => rfl
  refine ⟨users, hupdate, ?_⟩
  unfold Postgres.upsertUser
  rw [exec_bind, exec_castUuid, hid]
  dsimp only
  rw [exec_bind, exec_get]
  dsimp only
  unfold IdentityStore.userByEmail at hemail
  rw [hemail]
  dsimp only
  rw [hupdate]
  rfl

/-- The user of the e-mail, or a new one. -/
theorem exec_upsertUser_some {externalId email userId : String} (name : Option String)
    (h : s.upsertedId db externalId email = some userId) :
    ∃ user s', exec (db.upsertUser externalId email name) s = (.ok user, s') ∧
      user.id = userId ∧ Upserted s s' userId := by
  obtain ⟨id, hid, h⟩ := Option.bind_eq_some_iff.mp h
  cases hemail : s.userByEmail email with
  | some user =>
    rw [hemail] at h
    cases h
    obtain ⟨users, hupdate, hexec⟩ := exec_upsertUser_old name hid hemail
    refine ⟨_, _, hexec, rfl, rfl, rfl, fun id' => ?_⟩
    have hlookup : (s.users.lookup user.id).isSome = true := by
      rw [Table.lookup_of_mem (List.mem_of_find?_eq_some hemail)]
      rfl
    show (users.lookup id').isSome = true ↔ _
    rw [Table.lookup_update hupdate, Option.isSome_map]
    constructor
    · exact .inl
    · rintro (h | rfl)
      · exact h
      · exact hlookup
  | none =>
    rw [hemail] at h
    dsimp only at h
    split at h
    · cases h
    next hfree =>
      have huser := Option.some.inj h
      subst huser
      have hexec := exec_upsertUser_new name hid hemail
      obtain ⟨users, hinsert⟩ := s.users.exists_insert allRows
        ⟨id, email, name, id⟩ (by simpa using hfree) rfl
      rw [hinsert] at hexec
      refine ⟨_, _, hexec, rfl, rfl, rfl, fun id' => ?_⟩
      show (users.lookup id').isSome = true ↔ _
      rw [Table.lookup_insert hinsert]
      by_cases hid' : id = id'
      · simp [hid']
      · simp [hid', Ne.symm hid']

theorem exec_upsertUser_none {externalId email : String} (name : Option String)
    (h : s.upsertedId db externalId email = none) :
    ∃ x, exec (db.upsertUser externalId email name) s = (.error x, s) := by
  unfold IdentityStore.upsertedId at h
  cases hid : db.uuid externalId with
  | none =>
    refine ⟨.invalidUuid, ?_⟩
    unfold Postgres.upsertUser
    exact exec_bind_error (by rw [exec_castUuid, hid])
  | some id =>
    rw [hid] at h
    cases hemail : s.userByEmail email with
    | some user =>
      rw [Option.bind_some, hemail] at h
      cases h
    | none =>
      rw [Option.bind_some, hemail] at h
      have htaken : (s.users.lookup id).isSome = true := by
        by_contra hfree
        simp [hfree] at h
      refine ⟨.uniqueViolation, ?_⟩
      rw [exec_upsertUser_new name hid hemail]
      cases hinsert : s.users.insert? allRows ⟨id, email, name, id⟩ with
      | none => rfl
      | some users =>
        have hnone := (Table.of_insert hinsert).2
        rw [show UserRow.id ⟨id, email, name, id⟩ = id from rfl] at hnone
        rw [hnone] at htaken
        cases htaken

theorem inv_upserted {userId : String} (hinv : IdentityInv db s) (h : Upserted s s' userId)
    (hid : db.uuid userId = some userId) : IdentityInv db s' := by
  constructor
  · intro id hsome
    rcases (h.users id).mp hsome with hold | rfl
    · exact hinv.userIds id hold
    · exact hid
  · rw [h.workspaces]
    exact hinv.workspaceIds
  · intro workspaceId userId' m hm
    rw [h.memberships] at hm
    obtain ⟨huser, hworkspace⟩ := hinv.members workspaceId userId' m hm
    rw [h.workspaces]
    exact ⟨(h.users userId').mpr (.inl huser), hworkspace⟩

/-- The id of a user is one. -/
theorem uuid_upsertedId {externalId email userId : String} (hinv : IdentityInv db s)
    (h : s.upsertedId db externalId email = some userId) : db.uuid userId = some userId := by
  obtain ⟨id, hid, h⟩ := Option.bind_eq_some_iff.mp h
  split at h
  next user huser =>
    cases h
    apply hinv.userIds
    rw [Table.lookup_of_mem (List.mem_of_find?_eq_some huser)]
    rfl
  next =>
    split at h
    · cases h
    · cases h
      exact db.uuid_uuid hid

/-- A member as it is listed. -/
def IdentityStore.memberOf (s : IdentityStore) (m : MembershipRow) :
    Option Postgres.WorkspaceMember :=
  (s.users.lookup m.userId).map fun u => ⟨u.id, u.email, u.name, m.role⟩

theorem any_memberOf (hinv : IdentityInv db s) {m : MembershipRow} (hm : m ∈ s.memberships.rows)
    (userId : String) :
    ((s.memberOf m).any fun member => member.userId = userId) = decide (m.userId = userId) := by
  have hlookup := Table.lookup_of_mem hm
  have huser := (hinv.members m.workspaceId m.userId m hlookup).1
  unfold IdentityStore.memberOf
  cases hu : s.users.lookup m.userId with
  | none =>
    rw [hu] at huser
    cases huser
  | some u =>
    have hid : u.id = m.userId := Table.key_of_lookup hu
    simp [hid]

/-- **The members of a workspace are listed with the roles that are stored under its tenant.** -/
theorem exec_listMembers {w : WorkspaceRow} (hinv : IdentityInv db s)
    (hid : db.uuid w.id = some w.id) :
    ∃ members, exec (db.listMembers w.id w.tenantId) s = (.ok members, s) ∧
      ∀ userId, (members.find? fun m => m.userId = userId).map (·.role) = s.listedRole w userId := by
  refine ⟨(s.memberships.select (tenantRows MembershipRow.tenantId w.tenantId)
    fun m => m.workspaceId = w.id).filterMap s.memberOf, ?_, fun userId => ?_⟩
  · unfold Postgres.listMembers
    rw [exec_bind, exec_castUuid, hid]
    dsimp only
    rw [exec_bind, exec_get]
    rfl
  · have hfind : ((s.memberships.select (tenantRows MembershipRow.tenantId w.tenantId)
          fun m => m.workspaceId = w.id).find? fun m =>
            (s.memberOf m).any fun member => member.userId = userId) =
        (s.memberships.lookup (w.id, userId)).filter fun m => m.tenantId = w.tenantId := by
      rw [show (fun m : MembershipRow => decide (m.tenantId = w.tenantId)) =
        (tenantRows MembershipRow.tenantId w.tenantId).visible from rfl, ← Table.head?_select_key]
      unfold Table.select
      rw [List.find?_filter, List.head?_filter]
      refine List.find?_congr fun m hm => ?_
      rw [any_memberOf hinv hm]
      simp [Table.selects, MembershipRow.key, Bool.and_assoc]
    rw [List.find?_filterMap, hfind]
    unfold IdentityStore.listedRole
    cases hm : (s.memberships.lookup (w.id, userId)).filter fun m => m.tenantId = w.tenantId with
    | none => rfl
    | some m =>
      have hlookup := (Option.filter_eq_some_iff.mp hm).1
      obtain ⟨u, hu⟩ := Option.isSome_iff_exists.mp (hinv.members w.id userId m hlookup).1
      have hkey : m.userId = userId := congrArg Prod.snd (Table.key_of_lookup hlookup)
      unfold IdentityStore.memberOf
      rw [Option.bind_some, hkey, hu]
      rfl

/-- The members of a workspace, by user. -/
theorem any_select_member (tenantId workspaceId userId : String) :
    ((s.memberships.select (tenantRows MembershipRow.tenantId tenantId)
        fun m => m.userId = userId).any fun m => m.workspaceId = workspaceId) =
      (s.memberships.lookup (workspaceId, userId)).any fun m => m.tenantId = tenantId := by
  rw [Bool.eq_iff_iff, List.any_eq_true, Option.any_eq_true]
  constructor
  · rintro ⟨m, hm, hworkspace⟩
    obtain ⟨hrow, hsel⟩ := List.mem_filter.mp hm
    simp only [Table.selects, tenantRows, Bool.and_eq_true, decide_eq_true_eq] at hsel
    have hkey : m.key = (workspaceId, userId) :=
      Prod.ext (of_decide_eq_true hworkspace) hsel.2
    exact ⟨m, hkey ▸ Table.lookup_of_mem hrow, decide_eq_true hsel.1⟩
  · rintro ⟨m, hm, htenant⟩
    have hkey := Table.key_of_lookup hm
    refine ⟨m, List.mem_filter.mpr ⟨Table.mem_of_lookup hm, ?_⟩, ?_⟩
    · simp only [Table.selects, tenantRows, htenant, Bool.true_and, decide_eq_true_eq]
      exact congrArg Prod.snd hkey
    · exact decide_eq_true (congrArg Prod.fst hkey)

theorem exec_listWorkspacesForUser {userId : String} (hid : db.uuid userId = some userId) :
    exec (db.listWorkspacesForUser userId) s = (.ok (s.owned db userId), s) := by
  unfold Postgres.listWorkspacesForUser
  rw [exec_bind, exec_castUuid, hid]
  dsimp only
  rw [exec_bind, exec_get]
  dsimp only
  rw [exec_pure]
  unfold IdentityStore.owned
  congr 3
  refine List.filter_congr fun w _ => ?_
  exact congrArg (decide (w.tenantId = userId) && ·) (any_select_member userId w.id userId)

theorem mem_of_owned {userId : String} {w : WorkspaceRow}
    (h : (s.owned db userId).head? = some w) : w ∈ s.workspaces.rows :=
  (List.mem_filter.mp ((db.arrange_perm _).mem_iff.mp (List.mem_of_mem_head? h))).1

theorem exec_findWorkspaceById (workspaceId tenantId : String) :
    exec (db.findWorkspaceById workspaceId tenantId) s =
      match db.uuid workspaceId with
      | none => (.error .invalidUuid, s)
      | some id => (.ok ((s.workspaces.lookup id).filter fun w => w.tenantId = tenantId), s) := by
  unfold Postgres.findWorkspaceById
  rw [exec_bind, exec_castUuid]
  cases db.uuid workspaceId with
  | none => rfl
  | some id =>
    dsimp only
    rw [exec_bind, exec_get]
    dsimp only
    rw [exec_pure, Table.head?_select_key]
    rfl

/-- What the creation of a workspace leaves. -/
structure Created (s s' : IdentityStore) (w : WorkspaceRow) : Prop where
  users : s'.users = s.users
  workspaces : ∀ id, s'.workspaces.lookup id = if w.id = id then some w else s.workspaces.lookup id
  memberships : ∀ workspaceId userId, s'.memberships.lookup (workspaceId, userId) =
    if w.id = workspaceId ∧ w.ownerUserId = userId then
      some ⟨w.id, w.tenantId, w.ownerUserId, "OWNER"⟩
    else s.memberships.lookup (workspaceId, userId)

theorem exec_createWorkspace {newWorkspaceId ownerUserId id owner : String} (name : String)
    (hid : db.uuid newWorkspaceId = some id) (howner : db.uuid ownerUserId = some owner) :
    exec (db.createWorkspace newWorkspaceId name ownerUserId) s =
      match s.workspaces.insert? (tenantRows WorkspaceRow.tenantId ownerUserId)
          ⟨id, ownerUserId, name, owner⟩ with
      | none => (.error .uniqueViolation, s)
      | some workspaces =>
        if (s.users.lookup owner).isNone then (.error .foreignKeyViolation, s)
        else (.ok ⟨id, ownerUserId, name, owner⟩,
          { s with
            workspaces
            memberships := (s.memberships.insert? (tenantRows MembershipRow.tenantId ownerUserId)
              ⟨id, ownerUserId, owner, "OWNER"⟩).getD s.memberships }) := by
  unfold Postgres.createWorkspace
  rw [exec_bind, exec_castUuid, hid]
  dsimp only
  rw [exec_bind, exec_castUuid, howner]
  dsimp only
  rw [exec_bind, exec_get]
  dsimp only
  cases s.workspaces.insert? (tenantRows WorkspaceRow.tenantId ownerUserId)
      ⟨id, ownerUserId, name, owner⟩ with
  | none => rfl
  | some workspaces =>
    unfold getOrThrow
    dsimp only
    rw [exec_bind, exec_pure]
    dsimp only
    split
    · rfl
    · rfl

/-- A workspace is created where its id is new and its owner is a user. -/
theorem exec_createWorkspace_ok {newWorkspaceId ownerUserId id owner : String} (name : String)
    (hinv : IdentityInv db s) (hid : db.uuid newWorkspaceId = some id)
    (howner : db.uuid ownerUserId = some owner) (hnew : s.workspaces.lookup id = none)
    (huser : (s.users.lookup owner).isSome = true) :
    ∃ s', exec (db.createWorkspace newWorkspaceId name ownerUserId) s =
        (.ok ⟨id, ownerUserId, name, owner⟩, s') ∧
      Created s s' ⟨id, ownerUserId, name, owner⟩ := by
  obtain ⟨workspaces, hworkspaces⟩ := s.workspaces.exists_insert
    (tenantRows WorkspaceRow.tenantId ownerUserId) ⟨id, ownerUserId, name, owner⟩ hnew
    (decide_eq_true rfl)
  have hnone : s.memberships.lookup (id, owner) = none := by
    rw [Option.eq_none_iff_forall_ne_some]
    intro m hm
    have hworkspace := (hinv.members id owner m hm).2
    rw [hnew] at hworkspace
    cases hworkspace
  obtain ⟨memberships, hmemberships⟩ := s.memberships.exists_insert
    (tenantRows MembershipRow.tenantId ownerUserId) ⟨id, ownerUserId, owner, "OWNER"⟩ hnone
    (decide_eq_true rfl)
  refine ⟨{ s with workspaces, memberships }, ?_, rfl, ?_, ?_⟩
  · rw [exec_createWorkspace name hid howner, hworkspaces, hmemberships]
    dsimp only
    rw [if_neg (by rw [← Option.not_isSome]; simp [huser])]
    rfl
  · exact Table.lookup_insert hworkspaces
  · intro workspaceId userId
    show memberships.lookup (workspaceId, userId) = _
    rw [Table.lookup_insert hmemberships]
    simp only [MembershipRow.key, Prod.mk.injEq]

theorem exec_createWorkspace_error {newWorkspaceId ownerUserId owner : String} (name : String)
    (howner : db.uuid ownerUserId = some owner)
    (hid : ∀ id, db.uuid newWorkspaceId = some id → (s.workspaces.lookup id).isSome = true) :
    ∃ x, exec (db.createWorkspace newWorkspaceId name ownerUserId) s = (.error x, s) := by
  cases hnew : db.uuid newWorkspaceId with
  | none => exact ⟨_, exec_bind_error (by rw [exec_castUuid, hnew])⟩
  | some id =>
    refine ⟨.uniqueViolation, ?_⟩
    rw [exec_createWorkspace name hnew howner]
    cases hinsert : s.workspaces.insert? (tenantRows WorkspaceRow.tenantId ownerUserId)
        ⟨id, ownerUserId, name, owner⟩ with
    | none => rfl
    | some workspaces =>
      have hnone := (Table.of_insert hinsert).2
      have htaken := hid id hnew
      rw [show WorkspaceRow.id ⟨id, ownerUserId, name, owner⟩ = id from rfl] at hnone
      rw [hnone] at htaken
      cases htaken

theorem inv_created {w : WorkspaceRow} (hinv : IdentityInv db s)
    (hid : db.uuid w.id = some w.id) (howner : (s.users.lookup w.ownerUserId).isSome = true)
    (h : Created s s' w) : IdentityInv db s' := by
  constructor
  · rw [h.users]
    exact hinv.userIds
  · intro id hsome
    rw [h.workspaces] at hsome
    split at hsome
    next heq =>
      rw [← heq]
      exact hid
    next => exact hinv.workspaceIds id hsome
  · intro workspaceId userId m hm
    rw [h.memberships] at hm
    rw [h.users, h.workspaces]
    split at hm
    next heq =>
      rw [← heq.1, ← heq.2, if_pos rfl]
      exact ⟨howner, rfl⟩
    next =>
      obtain ⟨huser, hworkspace⟩ := hinv.members workspaceId userId m hm
      refine ⟨huser, ?_⟩
      split
      · rfl
      · exact hworkspace

/-- What a write to a membership leaves. -/
structure Added (s s' : IdentityStore) (m : MembershipRow) : Prop where
  users : s'.users = s.users
  workspaces : s'.workspaces = s.workspaces
  memberships : ∀ workspaceId userId, s'.memberships.lookup (workspaceId, userId) =
    if m.workspaceId = workspaceId ∧ m.userId = userId then some m
    else s.memberships.lookup (workspaceId, userId)
  user : (s.users.lookup m.userId).isSome = true
  workspace : (s.workspaces.lookup m.workspaceId).isSome = true

theorem exec_addMember {workspaceId userId w u : String} (tenantId : String) (role : Role)
    (hw : db.uuid workspaceId = some w) (hu : db.uuid userId = some u) :
    exec (db.addMember workspaceId tenantId userId role) s =
      match s.memberships.lookup (w, u) with
      | some old =>
        if old.tenantId = tenantId then
          match s.memberships.update? (tenantRows MembershipRow.tenantId tenantId)
              (fun m => m.key = (w, u)) (fun m => { m with role }) fun _ => rfl with
          | some memberships => (.ok { old with role }, { s with memberships })
          | none => (.error .rowSecurityViolation, s)
        else (.error .rowSecurityViolation, s)
      | none =>
        if (s.workspaces.lookup w).isNone ∨ (s.users.lookup u).isNone then
          (.error .foreignKeyViolation, s)
        else
          match s.memberships.insert? (tenantRows MembershipRow.tenantId tenantId)
              ⟨w, tenantId, u, role⟩ with
          | some memberships => (.ok ⟨w, tenantId, u, role⟩, { s with memberships })
          | none => (.error .rowSecurityViolation, s) := by
  unfold Postgres.addMember
  rw [exec_bind, exec_castUuid, hw]
  dsimp only
  rw [exec_bind, exec_castUuid, hu]
  dsimp only
  rw [exec_bind, exec_get]
  dsimp only
  cases s.memberships.lookup (w, u) with
  | some old =>
    dsimp only
    have hvisible : (tenantRows MembershipRow.tenantId tenantId).visible old = true ↔
        old.tenantId = tenantId := decide_eq_true_iff
    by_cases htenant : old.tenantId = tenantId
    · rw [if_pos (hvisible.mpr htenant), if_pos htenant]
      split
      next h => rw [h]; rfl
      next h => rw [h]; rfl
    · rw [if_neg (mt hvisible.mp htenant), if_neg htenant]
      rfl
  | none =>
    dsimp only
    split
    · rfl
    · split
      next h => rw [h]; rfl
      next h => rw [h]; rfl

theorem exec_addMember_old {workspaceId tenantId userId w u : String} {old : MembershipRow}
    (role : Role) (hinv : IdentityInv db s) (hw : db.uuid workspaceId = some w)
    (hu : db.uuid userId = some u) (hold : s.memberships.lookup (w, u) = some old)
    (htenant : old.tenantId = tenantId) :
    ∃ s', exec (db.addMember workspaceId tenantId userId role) s = (.ok { old with role }, s') ∧
      Added s s' { old with role } := by
  obtain ⟨memberships, hupdate⟩ := s.memberships.exists_update
    (tenantRows MembershipRow.tenantId tenantId) (fun m => m.key = (w, u))
    (fun m => { m with role }) (fun _ => rfl) fun m _ hsel => by
      unfold Table.selects at hsel
      rw [Bool.and_eq_true] at hsel
      exact hsel.1
  have hkey := Table.key_of_lookup hold
  have hvisible : (tenantRows MembershipRow.tenantId tenantId).visible old = true :=
    decide_eq_true htenant
  obtain ⟨huser, hworkspace⟩ := hinv.members w u old hold
  have hworkspaceId : old.workspaceId = w := congrArg Prod.fst hkey
  have huserId : old.userId = u := congrArg Prod.snd hkey
  refine ⟨{ s with memberships }, ?_, rfl, rfl, fun workspaceId' userId' => ?_, ?_, ?_⟩
  · rw [exec_addMember tenantId role hw hu, hold]
    dsimp only
    rw [if_pos htenant, hupdate]
  · show memberships.lookup (workspaceId', userId') = _
    rw [Table.lookup_update hupdate, hworkspaceId, huserId]
    by_cases hsame : w = workspaceId' ∧ u = userId'
    · obtain ⟨rfl, rfl⟩ := hsame
      rw [hold, if_pos ⟨rfl, rfl⟩, Option.map_some]
      simp [Table.selects, hvisible, hkey, hworkspaceId, huserId]
    · rw [if_neg hsame]
      cases hlookup : s.memberships.lookup (workspaceId', userId') with
      | none => rfl
      | some m =>
        have hne : m.key ≠ (w, u) := by
          rw [Table.key_of_lookup hlookup]
          intro h
          exact hsame ⟨(congrArg Prod.fst h).symm, (congrArg Prod.snd h).symm⟩
        rw [Option.map_some]
        simp [Table.selects, hne]
  · rw [huserId]
    exact huser
  · rw [hworkspaceId]
    exact hworkspace

theorem exec_addMember_new {workspaceId userId w u : String} (tenantId : String) (role : Role)
    (hw : db.uuid workspaceId = some w) (hu : db.uuid userId = some u)
    (hnone : s.memberships.lookup (w, u) = none) (hworkspace : (s.workspaces.lookup w).isSome = true)
    (huser : (s.users.lookup u).isSome = true) :
    ∃ s', exec (db.addMember workspaceId tenantId userId role) s =
        (.ok ⟨w, tenantId, u, role⟩, s') ∧ Added s s' ⟨w, tenantId, u, role⟩ := by
  obtain ⟨memberships, hinsert⟩ := s.memberships.exists_insert
    (tenantRows MembershipRow.tenantId tenantId) ⟨w, tenantId, u, role⟩ hnone (decide_eq_true rfl)
  have hthere : ¬ ((s.workspaces.lookup w).isNone = true ∨ (s.users.lookup u).isNone = true) := by
    rw [← Option.not_isSome, ← Option.not_isSome, hworkspace, huser]
    simp
  refine ⟨{ s with memberships }, ?_, rfl, rfl, fun workspaceId' userId' => ?_, huser, hworkspace⟩
  · rw [exec_addMember tenantId role hw hu, hnone]
    dsimp only
    rw [if_neg hthere, hinsert]
  · show memberships.lookup (workspaceId', userId') = _
    rw [Table.lookup_insert hinsert]
    simp only [MembershipRow.key, Prod.mk.injEq]

/-- **A membership is written with the role, or nothing is.** -/
theorem exec_addMember_cases (hinv : IdentityInv db s) (workspaceId tenantId userId : String)
    (role : Role) :
    (∃ x, exec (db.addMember workspaceId tenantId userId role) s = (.error x, s)) ∨
      ∃ m s', exec (db.addMember workspaceId tenantId userId role) s = (.ok m, s') ∧
        Added s s' m ∧ db.uuid workspaceId = some m.workspaceId ∧ db.uuid userId = some m.userId ∧
        m.tenantId = tenantId ∧ m.role = role := by
  cases hw : db.uuid workspaceId with
  | none => exact .inl ⟨_, exec_bind_error (by rw [exec_castUuid, hw])⟩
  | some w =>
    cases hu : db.uuid userId with
    | none =>
      refine .inl ⟨.invalidUuid, ?_⟩
      unfold Postgres.addMember
      rw [exec_bind, exec_castUuid, hw]
      exact exec_bind_error (by rw [exec_castUuid, hu])
    | some u =>
      cases hold : s.memberships.lookup (w, u) with
      | some old =>
        have hkey := Table.key_of_lookup hold
        by_cases htenant : old.tenantId = tenantId
        · obtain ⟨s', hexec, hadded⟩ := exec_addMember_old role hinv hw hu hold htenant
          refine .inr ⟨_, s', hexec, hadded, ?_, ?_, htenant, rfl⟩
          · exact congrArg some (congrArg Prod.fst hkey).symm
          · exact congrArg some (congrArg Prod.snd hkey).symm
        · refine .inl ⟨.rowSecurityViolation, ?_⟩
          rw [exec_addMember tenantId role hw hu, hold]
          dsimp only
          rw [if_neg htenant]
      | none =>
        by_cases hthere : (s.workspaces.lookup w).isSome = true ∧ (s.users.lookup u).isSome = true
        · obtain ⟨s', hexec, hadded⟩ := exec_addMember_new tenantId role hw hu hold hthere.1 hthere.2
          exact .inr ⟨_, s', hexec, hadded, rfl, rfl, rfl, rfl⟩
        · refine .inl ⟨.foreignKeyViolation, ?_⟩
          rw [exec_addMember tenantId role hw hu, hold]
          dsimp only
          rw [if_pos]
          by_contra hnot
          rw [← Option.not_isSome, ← Option.not_isSome] at hnot
          exact hthere (by simpa [Option.isSome_iff_ne_none] using hnot)

theorem inv_added {m : MembershipRow} (hinv : IdentityInv db s) (h : Added s s' m) :
    IdentityInv db s' := by
  constructor
  · rw [h.users]
    exact hinv.userIds
  · rw [h.workspaces]
    exact hinv.workspaceIds
  · intro workspaceId userId m' hm'
    rw [h.memberships] at hm'
    rw [h.users, h.workspaces]
    split at hm'
    next heq =>
      rw [← heq.1, ← heq.2]
      exact ⟨h.user, h.workspace⟩
    next => exact hinv.members workspaceId userId m' hm'

/-- A workspace is created, or nothing is. -/
theorem exec_createWorkspace_cases (hinv : IdentityInv db s)
    (newWorkspaceId name ownerUserId : String) :
    (∃ x, exec (db.createWorkspace newWorkspaceId name ownerUserId) s = (.error x, s)) ∨
      ∃ w s', exec (db.createWorkspace newWorkspaceId name ownerUserId) s = (.ok w, s') ∧
        Created s s' w ∧ db.uuid newWorkspaceId = some w.id ∧
        (s.users.lookup w.ownerUserId).isSome = true ∧ s.workspaces.lookup w.id = none := by
  cases howner : db.uuid ownerUserId with
  | none =>
    refine .inl ?_
    unfold Postgres.createWorkspace
    cases hid : db.uuid newWorkspaceId with
    | none => exact ⟨_, exec_bind_error (by rw [exec_castUuid, hid])⟩
    | some id =>
      refine ⟨.invalidUuid, ?_⟩
      rw [exec_bind, exec_castUuid, hid]
      exact exec_bind_error (by rw [exec_castUuid, howner])
  | some owner =>
    by_cases hfree : ∃ id, db.uuid newWorkspaceId = some id ∧ s.workspaces.lookup id = none
    · obtain ⟨id, hid, hnew⟩ := hfree
      by_cases huser : (s.users.lookup owner).isSome = true
      · obtain ⟨s', hexec, hcreated⟩ := exec_createWorkspace_ok name hinv hid howner hnew huser
        exact .inr ⟨_, s', hexec, hcreated, hid, huser, hnew⟩
      · refine .inl ⟨.foreignKeyViolation, ?_⟩
        obtain ⟨workspaces, hworkspaces⟩ := s.workspaces.exists_insert
          (tenantRows WorkspaceRow.tenantId ownerUserId) ⟨id, ownerUserId, name, owner⟩ hnew
          (decide_eq_true rfl)
        rw [exec_createWorkspace name hid howner, hworkspaces]
        dsimp only
        rw [if_pos (by rw [← Option.not_isSome]; simp [huser])]
    · refine .inl (exec_createWorkspace_error name howner fun id hid => ?_)
      by_contra hnot
      exact hfree ⟨id, hid, by simpa using hnot⟩

/-! ## What the operations keep -/

theorem ensures_upsertUser (externalId email : String) (name : Option String) :
    Ensures (IdentityInv db) (db.upsertUser externalId email name)
      (fun _ => IdentityInv db) fun _ => IdentityInv db := by
  intro s hinv
  cases h : s.upsertedId db externalId email with
  | none =>
    obtain ⟨x, hx⟩ := exec_upsertUser_none name h
    rw [hx]
    exact hinv
  | some userId =>
    obtain ⟨user, s', hexec, -, hup⟩ := exec_upsertUser_some name h
    rw [hexec]
    exact inv_upserted hinv hup (uuid_upsertedId hinv h)

theorem ensures_createWorkspace (newWorkspaceId name ownerUserId : String) :
    Ensures (IdentityInv db) (db.createWorkspace newWorkspaceId name ownerUserId)
      (fun _ => IdentityInv db) fun _ => IdentityInv db := by
  intro s hinv
  rcases exec_createWorkspace_cases hinv newWorkspaceId name ownerUserId with ⟨x, hx⟩ | hok
  · rw [hx]
    exact hinv
  · obtain ⟨w, s', hexec, hcreated, hid, howner, -⟩ := hok
    rw [hexec]
    exact inv_created hinv (db.uuid_uuid hid) howner hcreated

theorem ensures_addMember (workspaceId tenantId userId : String) (role : Role) :
    Ensures (IdentityInv db) (db.addMember workspaceId tenantId userId role)
      (fun _ => IdentityInv db) fun _ => IdentityInv db := by
  intro s hinv
  rcases exec_addMember_cases hinv workspaceId tenantId userId role with ⟨x, hx⟩ | hok
  · rw [hx]
    exact hinv
  · obtain ⟨m, s', hexec, hadded, -⟩ := hok
    rw [hexec]
    exact inv_added hinv hadded

theorem ensures_castUuid (text : String) :
    Ensures (IdentityInv db) (db.castUuid text) (fun _ => IdentityInv db) fun _ =>
      IdentityInv db := by
  intro s hinv
  rw [exec_castUuid]
  cases db.uuid text with
  | none => exact hinv
  | some id => exact hinv

theorem ensures_read {A : Type} (f : IdentityStore → A) :
    Ensures (IdentityInv db) (do let s ← get; pure (f s) : IdentityProg A)
      (fun _ => IdentityInv db) fun _ => IdentityInv db := fun _ hinv => hinv

theorem ensures_findUserByEmail (email : String) :
    Ensures (IdentityInv db) (Postgres.findUserByEmail email) (fun _ => IdentityInv db) fun _ =>
      IdentityInv db :=
  ensures_read _

theorem ensures_findWorkspaceById (workspaceId tenantId : String) :
    Ensures (IdentityInv db) (db.findWorkspaceById workspaceId tenantId)
      (fun _ => IdentityInv db) fun _ => IdentityInv db :=
  ensures_bind (ensures_castUuid workspaceId) fun _ => ensures_read _

theorem ensures_listWorkspacesForUser (userId : String) :
    Ensures (IdentityInv db) (db.listWorkspacesForUser userId)
      (fun _ => IdentityInv db) fun _ => IdentityInv db :=
  ensures_bind (ensures_castUuid userId) fun _ => ensures_read _

theorem ensures_listMembers (workspaceId tenantId : String) :
    Ensures (IdentityInv db) (db.listMembers workspaceId tenantId)
      (fun _ => IdentityInv db) fun _ => IdentityInv db :=
  ensures_bind (ensures_castUuid workspaceId) fun _ => ensures_read _

end VegaRevenue.Identity
