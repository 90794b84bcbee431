import VegaRevenue.Identity.SignIn
import VegaRevenue.Identity.Store

/-!
# A token carries a real membership

Whoever signs in is the user of the e-mail, whatever the external id is. The membership is looked
up under the external id.

* `Truthful` — what a call owes
* `Recognized`, `Recognizes` — when it gives it
* `truthful_iff_recognizes` — whole histories
-/

namespace VegaRevenue.Identity

open Programs RowSecurity

/-! ## Who signs in -/

namespace IdentityStore

variable (s : IdentityStore) (db : Postgres)

/-- The workspace the identity asks for. -/
def asked (identity : ExternalIdentity) : Option WorkspaceRow :=
  if identity.workspaceId = "" then none
  else
    (db.uuid identity.workspaceId).bind fun id =>
      (s.workspaces.lookup id).filter fun w => w.tenantId = identity.tenantId

/-- The id of the user the identity signs in as; none where the call throws. -/
def userIdOf (identity : ExternalIdentity) : Option String :=
  s.upsertedId db identity.userId identity.email

end IdentityStore

/-! ## What a call owes -/

/-- The token carries a stored membership, the tenant of its workspace and what its role may do. -/
def Carries (s : IdentityStore) (t : AuthenticatedUser) : Prop :=
  ∃ w ∈ s.workspaces.rows, w.id = t.workspaceId ∧ w.tenantId = t.tenantId ∧
    ∃ m ∈ s.memberships.rows, m.workspaceId = w.id ∧ m.userId = t.userId ∧ t.roles = [m.role] ∧
      t.permissions = permissionsForRole m.role

section

variable (db : Postgres) (s : IdentityStore)

structure TruthfulSignIn (identity : ExternalIdentity)
    (result : Except IdentityError (Option AuthenticatedUser)) (s' : IdentityStore) : Prop where
  carried : ∀ t, result = .ok (some t) → Carries s' t
  denied : ∀ w, s.asked db identity = some w →
    (∀ user, s.userByEmail identity.email = some user → s.storedRole w.id user.id = none) →
    ∀ t, result ≠ .ok (some t)
  received : ∀ w user role, s.asked db identity = some w →
    s.userByEmail identity.email = some user → s.storedRole w.id user.id = some role →
    ∃ t, result = .ok (some t) ∧ t.userId = user.id ∧ t.workspaceId = w.id ∧ t.roles = [role]

/-- What a call owes; the others issue no token. -/
def Truthful : IdentityCall → Prop
  | .authenticate identity newWorkspaceId =>
    let r := exec (AuthService.authenticate db identity newWorkspaceId) s
    TruthfulSignIn db s identity r.1 r.2
  | _ => True

/-- The role the user is stored with is the one found under the external id. -/
def Recognized (w : WorkspaceRow) (userId externalId : String) : Prop :=
  s.storedRole w.id userId = some ((s.listedRole w externalId).getD "MEMBER")

/-- When a call is truthful. -/
def Recognizes : IdentityCall → Prop
  | .authenticate identity newWorkspaceId =>
    if identity.workspaceId ≠ "" then
      ∀ w, s.asked db identity = some w →
        (∀ userId, s.userIdOf db identity = some userId →
          Recognized s w userId identity.userId) ∧
        (db.uuid identity.userId = none → ∀ user, s.userByEmail identity.email = some user →
          s.storedRole w.id user.id = none)
    else
      ∀ userId, s.userIdOf db identity = some userId →
        match (s.owned db userId).head? with
        | some w => Recognized s w userId identity.userId
        | none => ∀ id, db.uuid newWorkspaceId = some id → s.workspaces.lookup id = none →
            identity.userId = userId
  | _ => True

end

variable {db : Postgres} {s s' : IdentityStore}

/-! ## Signing in -/

/-- A token for a workspace carries a membership iff the user is recognized in it. -/
theorem carries_iff {identity : ExternalIdentity} {user : UserRow} {w : WorkspaceRow}
    {members : List Postgres.WorkspaceMember} (hw : w ∈ s.workspaces.rows)
    (hmembers : ∀ userId,
      (members.find? fun m => m.userId = userId).map (·.role) = s.listedRole w userId) :
    Carries s (AuthService.tokenUser identity user w members) ↔
      Recognized s w user.id identity.userId := by
  have hroles : (AuthService.tokenUser identity user w members).roles =
      [(s.listedRole w identity.userId).getD "MEMBER"] := by
    rw [← hmembers]
    rfl
  have hpermissions : (AuthService.tokenUser identity user w members).permissions =
      permissionsForRole ((s.listedRole w identity.userId).getD "MEMBER") := by
    rw [← hmembers]
    rfl
  unfold Carries Recognized IdentityStore.storedRole
  rw [hroles, hpermissions]
  constructor
  · rintro ⟨w', -, hid, -, m, hm, hworkspace, huser, hrole, -⟩
    have hkey : m.key = (w.id, user.id) := Prod.ext (hworkspace.trans hid) huser
    rw [← hkey, Table.lookup_of_mem hm, (List.cons.inj hrole).1]
    rfl
  · intro h
    obtain ⟨m, hm, hrole⟩ := Option.map_eq_some_iff.mp h
    have hkey := Table.key_of_lookup hm
    refine ⟨w, hw, rfl, rfl, m, Table.mem_of_lookup hm, congrArg Prod.fst hkey,
      congrArg Prod.snd hkey, ?_, ?_⟩
    · rw [hrole]
    · rw [hrole]

/-- The end of a sign-in: the workspace is found, its members are listed. -/
theorem exec_token {identity : ExternalIdentity} {newWorkspaceId : String} {user : UserRow}
    {w : WorkspaceRow} {s₁ s₂ : IdentityStore} (hinv : IdentityInv db s₂)
    (hw : w ∈ s₂.workspaces.rows)
    (huser : exec (db.upsertUser identity.userId identity.email identity.name) s = (.ok user, s₁))
    (hworkspace : exec (AuthService.workspaceOf db identity user newWorkspaceId) s₁ =
      (.ok (some w), s₂)) :
    ∃ t, exec (AuthService.authenticate db identity newWorkspaceId) s = (.ok (some t), s₂) ∧
      t.userId = user.id ∧ t.workspaceId = w.id ∧
      t.roles = [(s₂.listedRole w identity.userId).getD "MEMBER"] ∧
      (Carries s₂ t ↔ Recognized s₂ w user.id identity.userId) := by
  have hid := hinv.workspaceIds w.id (by rw [Table.lookup_of_mem hw]; rfl)
  obtain ⟨members, hmembers, hroles⟩ := exec_listMembers hinv hid
  refine ⟨AuthService.tokenUser identity user w members, ?_, rfl, rfl, ?_, carries_iff hw hroles⟩
  · unfold AuthService.authenticate
    rw [exec_bind, huser]
    dsimp only
    rw [exec_bind, hworkspace]
    dsimp only
    rw [exec_bind, hmembers]
    rfl
  · rw [← hroles]
    rfl

/-- A call that throws is truthful unless an invited member asks for the workspace. -/
theorem truthfulSignIn_error {identity : ExternalIdentity} {x : IdentityError} :
    TruthfulSignIn db s identity (.error x) s' ↔
      ∀ w, s.asked db identity = some w → ∀ user, s.userByEmail identity.email = some user →
        s.storedRole w.id user.id = none := by
  constructor
  · intro h w hw user huser
    rw [Option.eq_none_iff_forall_ne_some]
    intro role hrole
    obtain ⟨t, ht, -⟩ := h.received w user role hw huser hrole
    cases ht
  · intro h
    constructor
    · intro t ht
      cases ht
    · intro w _ _ t ht
      cases ht
    · intro w user role hw huser hrole
      rw [h w hw user huser] at hrole
      cases hrole

theorem asked_eq_none {identity : ExternalIdentity} (h : identity.workspaceId = "") :
    s.asked db identity = none := if_pos h

/-- The user of the e-mail is the one who signs in. -/
theorem userIdOf_of_email {identity : ExternalIdentity} {user : UserRow} {userId : String}
    (hemail : s.userByEmail identity.email = some user)
    (h : s.userIdOf db identity = some userId) : userId = user.id := by
  obtain ⟨id, -, h⟩ := Option.bind_eq_some_iff.mp h
  rw [hemail] at h
  exact (Option.some.inj h).symm

/-- A new user is a member of nothing. -/
theorem storedRole_of_new {identity : ExternalIdentity} {userId : String} (hinv : IdentityInv db s)
    (hemail : s.userByEmail identity.email = none)
    (h : s.userIdOf db identity = some userId) (workspaceId : String) :
    s.storedRole workspaceId userId = none := by
  obtain ⟨id, -, h⟩ := Option.bind_eq_some_iff.mp h
  rw [hemail] at h
  dsimp only at h
  split at h
  · cases h
  next hfree =>
    have hid := Option.some.inj h
    subst hid
    unfold IdentityStore.storedRole
    rw [Option.map_eq_none_iff, Option.eq_none_iff_forall_ne_some]
    intro m hm
    exact hfree (hinv.members workspaceId id m hm).1

theorem recognized_congr {w : WorkspaceRow} {userId externalId : String}
    (h : s'.memberships = s.memberships) :
    Recognized s' w userId externalId ↔ Recognized s w userId externalId := by
  unfold Recognized IdentityStore.storedRole IdentityStore.listedRole
  rw [h]

theorem mem_of_asked {identity : ExternalIdentity} {w : WorkspaceRow}
    (h : s.asked db identity = some w) : w ∈ s.workspaces.rows := by
  unfold IdentityStore.asked at h
  split at h
  · cases h
  · obtain ⟨id, -, h⟩ := Option.bind_eq_some_iff.mp h
    exact Table.mem_of_lookup (Option.filter_eq_some_iff.mp h).1

/-- With a claim, the workspace is the one that is asked for. -/
theorem exec_workspaceOf_claim {identity : ExternalIdentity} {s₁ : IdentityStore}
    (newWorkspaceId : String) (user : UserRow) (hclaim : identity.workspaceId ≠ "")
    (h : s₁.workspaces = s.workspaces) :
    ((∃ x, exec (AuthService.workspaceOf db identity user newWorkspaceId) s₁ = (.error x, s₁)) ∧
        s.asked db identity = none) ∨
      exec (AuthService.workspaceOf db identity user newWorkspaceId) s₁ =
        (.ok (s.asked db identity), s₁) := by
  unfold AuthService.workspaceOf IdentityStore.asked
  rw [if_pos hclaim, if_neg hclaim, exec_findWorkspaceById, h]
  cases db.uuid identity.workspaceId with
  | none => exact .inl ⟨⟨_, rfl⟩, rfl⟩
  | some id => exact .inr rfl

/-- The upsert fails. -/
theorem truthful_iff_of_none {identity : ExternalIdentity} {newWorkspaceId : String}
    (h : s.userIdOf db identity = none) :
    Truthful db s (.authenticate identity newWorkspaceId) ↔
      Recognizes db s (.authenticate identity newWorkspaceId) := by
  obtain ⟨x, hx⟩ := exec_upsertUser_none identity.name h
  have hexec : exec (AuthService.authenticate db identity newWorkspaceId) s = (.error x, s) :=
    exec_bind_error hx
  unfold Truthful Recognizes
  dsimp only
  rw [hexec, truthfulSignIn_error]
  split
  · constructor
    · intro hmember w hw
      refine ⟨fun userId huserId => ?_, fun _ => hmember w hw⟩
      rw [h] at huserId
      cases huserId
    · intro hrec w hw user huser
      apply (hrec w hw).2 _ user huser
      cases hid : db.uuid identity.userId with
      | none => rfl
      | some id =>
        unfold IdentityStore.userIdOf IdentityStore.upsertedId at h
        rw [hid, Option.bind_some, huser] at h
        cases h
  next hclaim =>
    constructor
    · intro _ userId huserId
      rw [h] at huserId
      cases huserId
    · intro _ w hw
      rw [asked_eq_none (not_not.mp hclaim)] at hw
      cases hw

/-- The identity asks for a workspace. -/
theorem truthful_iff_of_claim {identity : ExternalIdentity} {newWorkspaceId userId : String}
    (hinv : IdentityInv db s) (h : s.userIdOf db identity = some userId)
    (hclaim : identity.workspaceId ≠ "") :
    Truthful db s (.authenticate identity newWorkspaceId) ↔
      Recognizes db s (.authenticate identity newWorkspaceId) := by
  obtain ⟨user, s₁, huser, hid, hup⟩ := exec_upsertUser_some identity.name h
  have hinv₁ := inv_upserted hinv hup (uuid_upsertedId hinv h)
  have hcast : db.uuid identity.userId ≠ none := by
    intro hnone
    unfold IdentityStore.userIdOf IdentityStore.upsertedId at h
    rw [hnone] at h
    cases h
  have hrec : Recognizes db s (.authenticate identity newWorkspaceId) ↔
      ∀ w, s.asked db identity = some w → Recognized s w userId identity.userId := by
    unfold Recognizes
    dsimp only
    rw [if_pos hclaim]
    refine forall_congr' fun w => forall_congr' fun _ => ?_
    constructor
    · exact fun hw => hw.1 userId h
    · refine fun hw => ⟨fun userId' huserId' => ?_, fun hnone => absurd hnone hcast⟩
      rw [h] at huserId'
      rwa [← Option.some.inj huserId']
  rw [hrec]
  unfold Truthful
  dsimp only
  rcases exec_workspaceOf_claim newWorkspaceId user hclaim hup.workspaces with ⟨hx, hnone⟩ | hfound
  · obtain ⟨x, hx⟩ := hx
    have hexec : exec (AuthService.authenticate db identity newWorkspaceId) s = (.error x, s₁) := by
      unfold AuthService.authenticate
      rw [exec_bind, huser]
      exact exec_bind_error hx
    rw [hexec, truthfulSignIn_error]
    refine iff_of_true (fun w hw => ?_) (fun w hw => ?_)
    · rw [hnone] at hw
      cases hw
    · rw [hnone] at hw
      cases hw
  · cases hasked : s.asked db identity with
    | none =>
      have hexec : exec (AuthService.authenticate db identity newWorkspaceId) s = (.ok none, s₁) := by
        unfold AuthService.authenticate
        rw [exec_bind, huser]
        dsimp only
        rw [exec_bind, hfound, hasked]
        rfl
      rw [hexec]
      refine iff_of_true ⟨?_, ?_, ?_⟩ fun w hw => nomatch hw
      · intro t ht
        cases ht
      · intro w _ _ t ht
        cases ht
      · intro w _ _ hw
        rw [hasked] at hw
        cases hw
    | some w =>
      have hw : w ∈ s₁.workspaces.rows := by
        rw [hup.workspaces]
        exact mem_of_asked hasked
      rw [hasked] at hfound
      obtain ⟨t, hexec, htuser, htworkspace, htroles, hcarries⟩ := exec_token hinv₁ hw huser hfound
      rw [recognized_congr hup.memberships, hid] at hcarries
      have hroles : t.roles = [(s.listedRole w identity.userId).getD "MEMBER"] := by
        rw [htroles]
        unfold IdentityStore.listedRole
        rw [hup.memberships]
      rw [hexec]
      constructor
      · intro htruth w' hw'
        cases hw'
        exact hcarries.mp (htruth.carried t rfl)
      · intro hrec
        have hw := hrec w rfl
        refine ⟨fun t' ht' => ?_, fun w' hw' hnot => ?_, fun w' user' role hw' huser' hrole => ?_⟩
        · cases ht'
          exact hcarries.mpr hw
        · rw [hasked] at hw'
          cases hw'
          have hstored : s.storedRole w.id userId = none := by
            cases hemail : s.userByEmail identity.email with
            | none => exact storedRole_of_new hinv hemail h w.id
            | some user' =>
              rw [userIdOf_of_email hemail h]
              exact hnot user' hemail
          unfold Recognized at hw
          rw [hstored] at hw
          cases hw
        · rw [hasked] at hw'
          cases hw'
          have huserId := userIdOf_of_email huser' h
          refine ⟨t, rfl, by rw [htuser, hid, huserId], htworkspace, ?_⟩
          unfold Recognized at hw
          rw [huserId, hrole] at hw
          rw [hroles, ← Option.some.inj hw]

/-- Who asks for no workspace is owed a membership that is carried. -/
theorem truthfulSignIn_of_not_asked {identity : ExternalIdentity}
    {result : Except IdentityError (Option AuthenticatedUser)}
    (h : s.asked db identity = none) :
    TruthfulSignIn db s identity result s' ↔ ∀ t, result = .ok (some t) → Carries s' t := by
  constructor
  · exact fun htruth => htruth.carried
  · refine fun hcarried => ⟨hcarried, fun w hw => ?_, fun w _ _ hw => ?_⟩
    · rw [h] at hw
      cases hw
    · rw [h] at hw
      cases hw

/-- The owner is recognized in a new workspace, and nobody else. -/
theorem recognized_of_created {w : WorkspaceRow} {externalId : String} (hinv : IdentityInv db s)
    (hnew : s.workspaces.lookup w.id = none) (h : Created s s' w) :
    Recognized s' w w.ownerUserId externalId ↔ externalId = w.ownerUserId := by
  have hnone : ∀ userId, s.memberships.lookup (w.id, userId) = none := by
    intro userId
    rw [Option.eq_none_iff_forall_ne_some]
    intro m hm
    have hworkspace := (hinv.members w.id userId m hm).2
    rw [hnew] at hworkspace
    cases hworkspace
  unfold Recognized IdentityStore.storedRole IdentityStore.listedRole
  rw [h.memberships, if_pos ⟨rfl, rfl⟩, h.memberships, hnone]
  by_cases hexternal : externalId = w.ownerUserId
  · rw [if_pos ⟨rfl, hexternal.symm⟩, Option.filter_some, if_pos (decide_eq_true rfl)]
    simp [hexternal]
  · rw [if_neg fun hboth => hexternal hboth.2.symm]
    simp [hexternal]

/-- The identity asks for no workspace. -/
theorem truthful_iff_of_no_claim {identity : ExternalIdentity} {newWorkspaceId userId : String}
    (hinv : IdentityInv db s) (h : s.userIdOf db identity = some userId)
    (hclaim : identity.workspaceId = "") :
    Truthful db s (.authenticate identity newWorkspaceId) ↔
      Recognizes db s (.authenticate identity newWorkspaceId) := by
  obtain ⟨user, s₁, huser, hid, hup⟩ := exec_upsertUser_some identity.name h
  have huuid := uuid_upsertedId hinv h
  have hinv₁ := inv_upserted hinv hup huuid
  have howned : s₁.owned db userId = s.owned db userId := by
    unfold IdentityStore.owned
    rw [hup.workspaces, hup.memberships]
  have hown : exec (AuthService.ownWorkspace db identity user newWorkspaceId) s₁ =
      match (s.owned db userId).head? with
      | some w => (.ok w, s₁)
      | none => exec (db.createWorkspace newWorkspaceId
          (AuthService.workspaceName identity.email) userId) s₁ := by
    unfold AuthService.ownWorkspace
    rw [exec_bind, hid, exec_listWorkspacesForUser huuid, howned]
    dsimp only
    cases (s.owned db userId).head? with
    | some w => rfl
    | none => rfl
  have hworkspace : exec (AuthService.workspaceOf db identity user newWorkspaceId) s₁ =
      match exec (AuthService.ownWorkspace db identity user newWorkspaceId) s₁ with
      | (.ok w, s₂) => (.ok (some w), s₂)
      | (.error x, s₂) => (.error x, s₂) := by
    unfold AuthService.workspaceOf
    rw [if_neg (not_not.mpr hclaim), exec_bind]
    generalize exec (AuthService.ownWorkspace db identity user newWorkspaceId) s₁ = r
    obtain ⟨result, s₂⟩ := r
    cases result with
    | ok w => rfl
    | error x => rfl
  have hrec : Recognizes db s (.authenticate identity newWorkspaceId) ↔
      match (s.owned db userId).head? with
      | some w => Recognized s w userId identity.userId
      | none => ∀ id, db.uuid newWorkspaceId = some id → s.workspaces.lookup id = none →
          identity.userId = userId := by
    unfold Recognizes
    dsimp only
    rw [if_neg (not_not.mpr hclaim)]
    constructor
    · exact fun hall => hall userId h
    · intro hone userId' huserId'
      rw [h] at huserId'
      cases huserId'
      exact hone
  rw [hrec]
  unfold Truthful
  dsimp only
  rw [truthfulSignIn_of_not_asked (asked_eq_none hclaim)]
  rw [hown] at hworkspace
  cases hhead : (s.owned db userId).head? with
  | some w =>
    rw [hhead] at hworkspace
    have hw : w ∈ s₁.workspaces.rows := by
      rw [hup.workspaces]
      exact mem_of_owned hhead
    obtain ⟨t, hexec, -, -, -, hcarries⟩ := exec_token hinv₁ hw huser hworkspace
    rw [recognized_congr hup.memberships, hid] at hcarries
    rw [hexec]
    dsimp only
    rw [← hcarries]
    constructor
    · exact fun hall => hall t rfl
    · intro ht t' ht'
      cases ht'
      exact ht
  | none =>
    rw [hhead] at hworkspace
    dsimp only at hworkspace ⊢
    by_cases hfree : ∃ id, db.uuid newWorkspaceId = some id ∧ s.workspaces.lookup id = none
    · obtain ⟨id, hnewId, hnew⟩ := hfree
      have hexists : (s₁.users.lookup userId).isSome = true := (hup.users userId).mpr (.inr rfl)
      have hnew₁ : s₁.workspaces.lookup id = none := by
        rw [hup.workspaces]
        exact hnew
      obtain ⟨s₂, hcreate, hcreated⟩ := exec_createWorkspace_ok
        (AuthService.workspaceName identity.email) hinv₁ hnewId huuid hnew₁ hexists
      rw [hcreate] at hworkspace
      have hinv₂ := inv_created hinv₁ (db.uuid_uuid hnewId) hexists hcreated
      have hw := Table.mem_of_lookup ((hcreated.workspaces id).trans (if_pos rfl))
      obtain ⟨t, hexec, -, -, -, hcarries⟩ := exec_token hinv₂ hw huser hworkspace
      rw [hid, recognized_of_created hinv₁ hnew₁ hcreated] at hcarries
      rw [hexec]
      constructor
      · exact fun hall _ _ _ => hcarries.mp (hall t rfl)
      · intro hsame t' ht'
        cases ht'
        exact hcarries.mpr (hsame id hnewId hnew)
    · obtain ⟨x, hx⟩ := exec_createWorkspace_error (s := s₁)
        (AuthService.workspaceName identity.email) huuid fun id hnewId => by
          rw [hup.workspaces]
          by_contra hnot
          exact hfree ⟨id, hnewId, by simpa using hnot⟩
      rw [hx] at hworkspace
      have hexec : exec (AuthService.authenticate db identity newWorkspaceId) s = (.error x, s₁) := by
        unfold AuthService.authenticate
        rw [exec_bind, huser]
        exact exec_bind_error hworkspace
      rw [hexec]
      refine iff_of_true (fun t ht => by cases ht) fun id hnewId hnew => ?_
      exact absurd ⟨id, hnewId, hnew⟩ hfree

theorem truthful_iff_recognizes_step (hinv : IdentityInv db s) (call : IdentityCall) :
    Truthful db s call ↔ Recognizes db s call := by
  cases call with
  | authenticate identity newWorkspaceId =>
    cases h : s.userIdOf db identity with
    | none => exact truthful_iff_of_none h
    | some userId =>
      by_cases hclaim : identity.workspaceId = ""
      · exact truthful_iff_of_no_claim hinv h hclaim
      · exact truthful_iff_of_claim hinv h hclaim
  | createWorkspace name ownerUserId newWorkspaceId => exact Iff.rfl
  | inviteMember workspaceId tenantId inviteeEmail role newUserId => exact Iff.rfl

/-! ## Histories -/

theorem ensures_ownWorkspace (identity : ExternalIdentity) (user : UserRow)
    (newWorkspaceId : String) :
    Ensures (IdentityInv db) (AuthService.ownWorkspace db identity user newWorkspaceId)
      (fun _ => IdentityInv db) fun _ => IdentityInv db := by
  refine ensures_bind (ensures_listWorkspacesForUser user.id) fun workspaces => ?_
  cases workspaces.head? with
  | some w => exact ensures_pure fun _ hinv => hinv
  | none => exact ensures_createWorkspace _ _ _

theorem ensures_authenticate (identity : ExternalIdentity) (newWorkspaceId : String) :
    Ensures (IdentityInv db) (AuthService.authenticate db identity newWorkspaceId)
      (fun _ => IdentityInv db) fun _ => IdentityInv db := by
  refine ensures_bind (ensures_upsertUser _ _ _) fun user => ?_
  refine ensures_bind (Q := fun _ => IdentityInv db) ?_ fun found => ?_
  · unfold AuthService.workspaceOf
    split
    · exact (ensures_findWorkspaceById _ _).mono (fun _ h => h) fun _ _ h => h
    · exact ensures_bind (ensures_ownWorkspace identity user newWorkspaceId) fun _ =>
        ensures_pure fun _ hinv => hinv
  · cases found with
    | none => exact ensures_pure fun _ hinv => hinv
    | some w =>
      exact ensures_bind (ensures_listMembers _ _) fun _ => ensures_pure fun _ hinv => hinv

theorem ensures_inviteMember (workspaceId tenantId inviteeEmail : String) (role : Role)
    (newUserId : String) :
    Ensures (IdentityInv db)
      (WorkspaceService.inviteMember db workspaceId tenantId inviteeEmail role newUserId)
      (fun _ => IdentityInv db) fun _ => IdentityInv db := by
  refine ensures_bind (Q := fun _ => IdentityInv db) ?_ fun userId => ?_
  · unfold WorkspaceService.inviteeOf
    refine ensures_bind (ensures_findUserByEmail inviteeEmail) fun existing => ?_
    cases existing with
    | some user => exact ensures_pure fun _ hinv => hinv
    | none => exact ensures_bind (ensures_upsertUser _ _ _) fun _ => ensures_pure fun _ hinv => hinv
  · exact ensures_bind (ensures_addMember _ _ _ _) fun _ => ensures_pure fun _ hinv => hinv

theorem inv_identityStep (hinv : IdentityInv db s) (call : IdentityCall) :
    IdentityInv db (identityStep db s call).1 := by
  cases call with
  | authenticate identity newWorkspaceId =>
    exact (ensures_authenticate identity newWorkspaceId).final hinv
  | createWorkspace name ownerUserId newWorkspaceId =>
    exact (ensures_createWorkspace newWorkspaceId name ownerUserId).final hinv
  | inviteMember workspaceId tenantId inviteeEmail role newUserId =>
    exact (ensures_inviteMember workspaceId tenantId inviteeEmail role newUserId).final hinv

theorem identityInv_empty (db : Postgres) : IdentityInv db {} := by
  constructor
  · intro id h
    cases h
  · intro id h
    cases h
  · intro workspaceId userId m h
    cases h

theorem identityInv_final (db : Postgres) (calls : List IdentityCall) :
    IdentityInv db (Machine.final (identityStep db) {} calls) := by
  have hstep : ∀ s call, IdentityInv db s → IdentityInv db (identityStep db s call).1 :=
    fun _ call hinv => inv_identityStep hinv call
  exact Machine.final_invariant hstep calls (identityInv_empty db)

/-- **Every sign-in of a history carries a real membership iff every sign-in recognizes the user
under the external id.** -/
theorem truthful_iff_recognizes (db : Postgres) (calls : List IdentityCall) :
    Machine.Meets (identityStep db) (Truthful db) {} calls ↔
      Machine.Meets (identityStep db) (Recognizes db) {} calls :=
  Machine.meets_iff_of_invariant (fun _ call hinv => truthful_iff_recognizes_step hinv call)
    (fun _ call hinv _ => inv_identityStep hinv call) calls (identityInv_empty db)

/-! ## An invited administrator -/

/-- The lower-case text of a UUID. -/
def canonicalUuid (s : String) : Bool :=
  (s.toList.splitOn '-').map List.length = [8, 4, 4, 4, 12] &&
    s.toList.all fun c => c = '-' || c.isDigit || ('a' ≤ c && c ≤ 'f')

/-- Postgres as far as UUIDs in lower case go. -/
def plainPostgres : Postgres where
  uuid s := if canonicalUuid s then some s else none
  uuid_uuid := by
    intro s t h
    split at h
    next hcanonical =>
      cases h
      rw [if_pos hcanonical]
    next => cases h
  arrange := id
  arrange_perm := fun _ => .rfl

def annId : String := "00000000-0000-4000-8000-00000000000a"

def bobId : String := "00000000-0000-4000-8000-00000000000b"

def bobExternalId : String := "00000000-0000-4000-8000-0000000000eb"

def annWorkspaceId : String := "00000000-0000-4000-8000-0000000000a1"

/-- Ann signs in for the first time and invites Bob, an administrator. -/
def annInvitesBob : List IdentityCall := [
  .authenticate ⟨annId, "ann@example.com", none, annId, ""⟩ annWorkspaceId,
  .inviteMember annWorkspaceId annId "bob@example.com" "ADMIN" bobId]

/-- Bob signs in to that workspace. -/
def bobSignsIn : IdentityCall :=
  .authenticate ⟨bobExternalId, "bob@example.com", none, annId, annWorkspaceId⟩ ""

/-- Bob is stored as an administrator and gets the token of a member. -/
theorem invited_admin_is_member :
    ¬ Machine.Meets (identityStep plainPostgres) (Truthful plainPostgres) {}
      (annInvitesBob ++ [bobSignsIn]) := by
  rintro ⟨-, -, htruth, -⟩
  have hinv := inv_identityStep (inv_identityStep (identityInv_empty plainPostgres)
    (.authenticate ⟨annId, "ann@example.com", none, annId, ""⟩ annWorkspaceId))
    (.inviteMember annWorkspaceId annId "bob@example.com" "ADMIN" bobId)
  have hrec := (truthful_iff_recognizes_step hinv bobSignsIn).mp htruth
  have hbob := (hrec ⟨annWorkspaceId, annId, "ann's workspace", annId⟩ (by decide +kernel)).1 bobId
    (by decide +kernel)
  exact absurd hbob (by unfold Recognized; decide +kernel)

end VegaRevenue.Identity
