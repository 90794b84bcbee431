import VegaRevenue.Lib.Machine
import VegaRevenue.Lib.Sessions

/-!
# The tenant that a pooled session is set to

`PostgresClient` and `PostgresIdentityRepository` by the statements they send over a session of
the pool: what `app.current_tenant` is when a statement on rows runs, and what a call leaves it at.

* `ensures_run_idle` — what a call leaves a session at
* `ran_of_tenant` — a call with a tenant runs its statements with it
* `isolated_iff_clears` — no statement runs with another's tenant iff every call clears its own
-/

namespace VegaRevenue.Identity

open Programs Sessions

/-- Sets `app.current_tenant`, for the session. -/
abbrev setTenantContext (tenantId : String) (fails : Bool) : ConnProg String Unit :=
  issue (.change tenantId) fails

/-- `clearTenantContext(client).catch(() => {})`. -/
abbrev clearTenantContext (fails : Bool) : ConnProg String Unit := attempt (.change "") fails

/-! ## Calls -/

/-- What a callback does with its client: it sends statements on rows, goes on from whether each
was carried out, and returns or throws. -/
inductive Script where
  | returns
  | throws
  | rows (fails : Bool) (next : Bool → Script)

/-- Whether a statement on rows was carried out. -/
def askRows (fails : Bool) : ConnProg String Bool :=
  tryCatch (do
    issue .rows fails
    pure true) fun _ => pure false

def Script.run : Script → ConnProg String Unit
  | .returns => pure ()
  | .throws => throw ()
  | .rows fails next => askRows fails >>= fun done => (next done).run

/-- The statements that fail where a tenant is set and cleared. -/
structure ScopeFaults where
  change : Bool
  clear : Bool

/-- The statements that fail around a transaction. -/
structure BlockFaults where
  start : Bool
  commit : Bool
  rollback : Bool

/-- `PostgresClient.query`, `pool.query`. -/
def query (fails : Bool) : ConnProg String Unit := issue .rows fails

/-- `withTenant`, of the client and of the repository. -/
def withTenant (tenantId : String) (faults : ScopeFaults) (operation : ConnProg String Unit) :
    ConnProg String Unit :=
  finallyDo (do
    setTenantContext tenantId faults.change
    operation) (clearTenantContext faults.clear)

/-- `BEGIN`, the body and `COMMIT`, or `ROLLBACK` where one of them throws. -/
def withTransaction (faults : BlockFaults) (body : ConnProg String Unit) : ConnProg String Unit :=
  tryCatch (do
    issue .start faults.start
    body
    issue .commit faults.commit) fun err => do
    attempt .rollback faults.rollback
    throw err

/-- `PostgresClient.transaction`. -/
def transaction (tenantId : String) (faults : ScopeFaults) (block : BlockFaults)
    (operation : ConnProg String Unit) : ConnProg String Unit :=
  finallyDo (withTransaction block do
    setTenantContext tenantId faults.change
    operation) (clearTenantContext faults.clear)

/-- The statements of `createWorkspace` that fail inside the transaction. -/
structure WorkspaceFaults where
  change : Bool
  workspace : Bool
  membership : Bool

/-- `PostgresIdentityRepository.createWorkspace`: the owner's id is the tenant. -/
def createWorkspace (ownerUserId : String) (block : BlockFaults) (faults : WorkspaceFaults) :
    ConnProg String Unit :=
  withTransaction block do
    setTenantContext ownerUserId faults.change
    issue .rows faults.workspace
    issue .rows faults.membership

/-- A call, with the statements of it that fail. -/
inductive Call where
  | upsertUser (fails : Bool)
  | findUserByEmail (fails : Bool)
  | findUserById (fails : Bool)
  | createWorkspace (ownerUserId : String) (block : BlockFaults) (faults : WorkspaceFaults)
  | findWorkspaceById (tenantId : String) (faults : ScopeFaults) (fails : Bool)
  | listWorkspacesForUser (userId : String) (faults : ScopeFaults) (fails : Bool)
  | addMember (tenantId : String) (faults : ScopeFaults) (fails : Bool)
  | listMembers (tenantId : String) (faults : ScopeFaults) (fails : Bool)
  | isMember (tenantId : String) (faults : ScopeFaults) (fails : Bool)
  | query (fails : Bool)
  | withTenant (tenantId : String) (faults : ScopeFaults) (operation : Script)
  | transaction (tenantId : String) (faults : ScopeFaults) (block : BlockFaults)
      (operation : Script)

namespace Call

def run : Call → ConnProg String Unit
  | upsertUser fails => Identity.query fails
  | findUserByEmail fails => Identity.query fails
  | findUserById fails => Identity.query fails
  | createWorkspace ownerUserId block faults => Identity.createWorkspace ownerUserId block faults
  | findWorkspaceById tenantId faults fails =>
    Identity.withTenant tenantId faults (issue .rows fails)
  | listWorkspacesForUser userId faults fails =>
    Identity.withTenant userId faults (issue .rows fails)
  | addMember tenantId faults fails => Identity.withTenant tenantId faults (issue .rows fails)
  | listMembers tenantId faults fails => Identity.withTenant tenantId faults (issue .rows fails)
  | isMember tenantId faults fails => Identity.withTenant tenantId faults (issue .rows fails)
  | query fails => Identity.query fails
  | withTenant tenantId faults operation => Identity.withTenant tenantId faults operation.run
  | transaction tenantId faults block operation =>
    Identity.transaction tenantId faults block operation.run

/-- The tenant that the statements of a call have to run with; empty where it has no scope. -/
def tenant : Call → String
  | upsertUser _ => ""
  | findUserByEmail _ => ""
  | findUserById _ => ""
  | createWorkspace ownerUserId _ _ => ownerUserId
  | findWorkspaceById tenantId _ _ => tenantId
  | listWorkspacesForUser userId _ _ => userId
  | addMember tenantId _ _ => tenantId
  | listMembers tenantId _ _ => tenantId
  | isMember tenantId _ _ => tenantId
  | query _ => ""
  | withTenant tenantId _ _ => tenantId
  | transaction tenantId _ _ _ => tenantId

end Call

/-! ## The pool -/

/-- The sessions by their number. -/
abbrev Pool := Nat → Session String

def Pool.fresh : Pool := fun _ => { setting := "", block := .idle }

/-- A call over the session that the pool lends it; the answer is what its statements on rows ran
with. Sessions share nothing, so calls over different sessions may overlap. -/
def Pool.call : Machine.Step Pool (Nat × Call) (List String) := fun pool input =>
  let c := (exec input.2.run { session := pool input.1, ran := [] }).2
  (Function.update pool input.1 c.session, c.ran)

/-- Whichever call comes next and whichever session it borrows, its statements run with its own
tenant. -/
def Isolated (pool : Pool) : Prop :=
  ∀ input, ∀ setting ∈ (pool.call input).2, setting = input.2.tenant

/-! ## What a call leaves the session at -/

/-- The callback's statements are all carried out, and it returns. -/
def Script.completes : Script → Bool
  | .returns => true
  | .throws => false
  | .rows fails next => !fails && (next true).completes

/-- Over a session that is not in a transaction, the call leaves its tenant set: a transaction that
commits and is not cleared, or a scope whose clearing fails. -/
def Call.leavesTenant : Call → Bool
  | .createWorkspace _ block faults =>
    !block.start && (!faults.change && (!faults.workspace && !faults.membership) && !block.commit)
  | .findWorkspaceById _ faults _ => !faults.change && faults.clear
  | .listWorkspacesForUser _ faults _ => !faults.change && faults.clear
  | .addMember _ faults _ => !faults.change && faults.clear
  | .listMembers _ faults _ => !faults.change && faults.clear
  | .isMember _ faults _ => !faults.change && faults.clear
  | .withTenant _ faults _ => !faults.change && faults.clear
  | .transaction _ faults block operation =>
    !block.start && (!faults.change && operation.completes && !block.commit) && faults.clear
  | _ => false

section

variable {tenantId v : String} {A : Type} {s : Session String}

theorem ensures_askRows (fails : Bool) (hs : s.RunsWith tenantId) :
    Ensures (Over tenantId s) (askRows fails)
      (fun done c => s.accepts .rows fails = done ∧ Over tenantId (s.next .rows fails) c)
      fun _ _ => False := by
  cases haccepts : s.accepts .rows fails with
  | true =>
    have hissue : Ensures (Over tenantId s) (issue .rows fails)
        (fun _ => Over tenantId (s.next .rows fails)) fun _ _ => False :=
      ensures_accepted haccepts (fun _ => hs) fun _ hc => hc
    refine ensures_tryCatch (ensures_bind hissue fun _ => ?_) fun _ => ?_
    · exact ensures_pure fun _ hc => ⟨rfl, hc⟩
    · exact fun c hc => hc.elim
  | false =>
    have hissue : Ensures (Over tenantId s) (issue .rows fails) (fun _ _ => False)
        fun _ => Over tenantId (s.next .rows fails) :=
      ensures_refused haccepts (fun _ => hs) fun _ hc => hc
    refine ensures_tryCatch (ensures_bind hissue fun _ => ?_) fun _ => ?_
    · exact fun c hc => hc.elim
    · exact ensures_pure fun _ hc => ⟨rfl, hc⟩

/-- Where statements on rows leave the session as it is, so does a callback. -/
theorem ensures_run_resting (hs : s.RunsWith tenantId) (hstay : ∀ fails, s.next .rows fails = s)
    (script : Script) :
    Ensures (Over tenantId s) script.run (fun _ => Over tenantId s) fun _ => Over tenantId s := by
  induction script with
  | returns => exact ensures_pure fun _ hc => hc
  | throws => exact ensures_throw fun _ hc => hc
  | rows fails next ih =>
    refine ensures_bind ((ensures_askRows fails hs).exit fun _ _ h => h.elim) fun done => ?_
    exact (ih done).mono (fun c hc => hstay fails ▸ hc.2) fun _ _ hc => hc

/-- A transaction whose body is at its end: the tenant is set, or the block is aborted. -/
def Within (tenantId v : String) (done : Bool) (c : Connection String) : Prop :=
  done = true ∧ Over tenantId ⟨tenantId, .begun v⟩ c ∨ done = false ∧ Over tenantId ⟨v, .aborted⟩ c

/-- A transaction whose body threw. -/
def Threw (tenantId v : String) (done : Bool) (c : Connection String) : Prop :=
  (Over tenantId ⟨tenantId, .begun v⟩ c ∨ Over tenantId ⟨v, .aborted⟩ c) ∧ done = false

theorem ensures_run_aborted (script : Script) :
    Ensures (Over tenantId ⟨v, .aborted⟩) script.run (fun _ => Over tenantId ⟨v, .aborted⟩)
      fun _ => Over tenantId ⟨v, .aborted⟩ :=
  ensures_run_resting (.inl rfl) (fun fails => by cases fails <;> rfl) script

theorem ensures_run_begun (script : Script) :
    Ensures (Over tenantId ⟨tenantId, .begun v⟩) script.run
      (fun _ => Within tenantId v script.completes)
      fun _ => Threw tenantId v script.completes := by
  induction script with
  | returns => exact ensures_pure fun _ hc => .inl ⟨rfl, hc⟩
  | throws => exact ensures_throw fun _ hc => ⟨.inl hc, rfl⟩
  | rows fails next ih =>
    have hask := ensures_askRows fails (s := ⟨tenantId, .begun v⟩) (.inr rfl)
    refine ensures_bind (hask.exit fun _ _ h => h.elim) fun done => ?_
    cases fails with
    | false =>
      refine ensures_of_pure fun hdone => ?_
      cases hdone
      exact ih true
    | true =>
      refine (ensures_run_aborted (next done)).mono (fun c hc => hc.2) (fun _ c hc => ?_) |>.exit
        fun _ c hc => ?_
      · exact .inr ⟨rfl, hc⟩
      · exact ⟨.inr hc, rfl⟩

/-- A session that a call is done with: no transaction is open. -/
def Resting (tenantId setting : String) (c : Connection String) : Prop :=
  Over tenantId ⟨setting, .idle⟩ c ∨ Over tenantId ⟨setting, .aborted⟩ c

/-- What ends a transaction before its handler rolls it back. -/
def Failed (tenantId v : String) (c : Connection String) : Prop :=
  Over tenantId ⟨tenantId, .begun v⟩ c ∨ Resting tenantId v c

theorem ensures_rollback {fails : Bool} {R : Unit → Connection String → Prop} :
    Ensures (Failed tenantId v) (attempt .rollback fails) (fun _ => Resting tenantId v) R := by
  refine ensures_or ?_ (ensures_or ?_ ?_)
  · cases fails with
    | false => exact ensures_attempt_over nofun fun c hc => .inl hc
    | true => exact ensures_attempt_over nofun fun c hc => .inr hc
  · cases fails with
    | false => exact ensures_attempt_over nofun fun c hc => .inl hc
    | true => exact ensures_attempt_over nofun fun c hc => .inl hc
  · cases fails with
    | false => exact ensures_attempt_over nofun fun c hc => .inl hc
    | true => exact ensures_attempt_over nofun fun c hc => .inr hc

theorem ensures_start (fails : Bool) :
    Ensures (Over tenantId ⟨v, .idle⟩) (issue .start fails)
      (fun _ c => fails = false ∧ Over tenantId ⟨v, .begun v⟩ c)
      fun _ c => Resting tenantId v c ∧ fails = true := by
  cases fails with
  | false => exact ensures_accepted rfl nofun fun c hc => ⟨rfl, hc⟩
  | true => exact ensures_refused rfl nofun fun c hc => ⟨.inl hc, rfl⟩

/-- What a commit leaves: the tenant set where there was something to commit. -/
theorem ensures_commit (fails done : Bool) :
    Ensures (Within tenantId v done) (issue .commit fails)
      (fun _ c => if done && !fails then Over tenantId ⟨tenantId, .idle⟩ c
        else Resting tenantId v c)
      fun _ c => Resting tenantId v c ∧ (done && !fails) = false := by
  refine ensures_or ?_ ?_
  · refine ensures_of_pure fun hdone => ?_
    subst hdone
    cases fails with
    | false => exact ensures_accepted rfl nofun fun c hc => hc
    | true => exact ensures_refused rfl nofun fun c hc => ⟨.inl hc, rfl⟩
  · refine ensures_of_pure fun hdone => ?_
    subst hdone
    cases fails with
    | false => exact ensures_accepted rfl nofun fun c hc => .inl hc
    | true => exact ensures_refused rfl nofun fun c hc => ⟨.inr hc, rfl⟩

/-- **A transaction leaves its tenant set iff its body is done and it commits.** -/
theorem ensures_withTransaction {body : ConnProg String Unit} {done : Bool} (block : BlockFaults)
    (hbody : Ensures (Over tenantId ⟨v, .begun v⟩) body (fun _ => Within tenantId v done)
      fun _ => Threw tenantId v done) :
    Ensures (Over tenantId ⟨v, .idle⟩) (withTransaction block body)
      (fun _ c => if !block.start && (done && !block.commit) then Over tenantId ⟨tenantId, .idle⟩ c
        else Resting tenantId v c)
      fun _ c => (!block.start && (done && !block.commit)) = false ∧ Resting tenantId v c := by
  have hinner : Ensures (Over tenantId ⟨v, .idle⟩)
      (do issue .start block.start; body; issue .commit block.commit)
      (fun _ c => if !block.start && (done && !block.commit) then Over tenantId ⟨tenantId, .idle⟩ c
        else Resting tenantId v c)
      fun _ c => (!block.start && (done && !block.commit)) = false ∧ Failed tenantId v c := by
    refine ensures_bind ((ensures_start block.start).exit fun _ c hc => ⟨?_, .inr hc.1⟩) fun _ => ?_
    · simp [hc.2]
    refine ensures_of_pure fun hstarted => ?_
    rw [hstarted]
    refine ensures_bind (hbody.exit fun _ c hc => ⟨by simp [hc.2], ?_⟩) fun _ => ?_
    · exact hc.1.imp_right .inr
    · exact (ensures_commit block.commit done).exit fun _ c hc => ⟨hc.2, .inr hc.1⟩
  refine ensures_tryCatch hinner fun err => ensures_of_pure fun hdone => ?_
  refine ensures_bind ensures_rollback fun _ => ensures_throw fun c hc => ⟨hdone, hc⟩

theorem ensures_start_aborted (fails : Bool) :
    Ensures (Over tenantId ⟨v, .aborted⟩) (issue .start fails) (fun _ _ => False)
      fun _ => Failed tenantId v := by
  cases fails with
  | false => exact ensures_refused rfl nofun fun c hc => .inr (.inr hc)
  | true => exact ensures_refused rfl nofun fun c hc => .inr (.inr hc)

/-- A session whose transaction is aborted refuses another one, and may be rolled back. -/
theorem ensures_withTransaction_aborted {body : ConnProg String Unit} (block : BlockFaults) :
    Ensures (Over tenantId ⟨v, .aborted⟩) (withTransaction block body) (fun _ _ => False)
      fun _ => Resting tenantId v := by
  refine ensures_tryCatch (ensures_bind (ensures_start_aborted block.start) fun _ => ?_)
    fun err => ?_
  · exact fun c hc => hc.elim
  · exact ensures_bind ensures_rollback fun _ => ensures_throw fun c hc => hc

/-! ### Scopes -/

theorem ensures_setTenantContext_aborted (fails : Bool) :
    Ensures (Over tenantId ⟨v, .aborted⟩) (setTenantContext tenantId fails) (fun _ _ => False)
      fun _ => Over tenantId ⟨v, .aborted⟩ := by
  cases fails with
  | false => exact ensures_refused rfl nofun fun c hc => hc
  | true => exact ensures_refused rfl nofun fun c hc => hc

/-- What a call leaves: its tenant, or else the setting from before it or none. -/
def Leaves (tenantId v : String) (leaves : Bool) (c : Connection String) : Prop :=
  if leaves then Over tenantId ⟨tenantId, .idle⟩ c else Resting tenantId v c ∨ Resting tenantId "" c

theorem ensures_clear_tenant {fails : Bool} {R : Unit → Connection String → Prop} :
    Ensures (Over tenantId ⟨tenantId, .idle⟩) (clearTenantContext fails)
      (fun _ => Leaves tenantId v fails) R := by
  cases fails with
  | false => exact ensures_attempt_over nofun fun c hc => .inr (.inl hc)
  | true => exact ensures_attempt_over nofun fun c hc => hc

theorem ensures_clear_resting {fails : Bool} {R : Unit → Connection String → Prop} :
    Ensures (Resting tenantId v) (clearTenantContext fails)
      (fun _ => Leaves tenantId v false) R := by
  refine ensures_or ?_ ?_
  · cases fails with
    | false => exact ensures_attempt_over nofun fun c hc => .inr (.inl hc)
    | true => exact ensures_attempt_over nofun fun c hc => .inl (.inl hc)
  · cases fails with
    | false => exact ensures_attempt_over nofun fun c hc => .inl (.inr hc)
    | true => exact ensures_attempt_over nofun fun c hc => .inl (.inr hc)

theorem ensures_withTenant_idle {operation : ConnProg String Unit} (faults : ScopeFaults)
    (hoperation : Ensures (Over tenantId ⟨tenantId, .idle⟩) operation
      (fun _ => Over tenantId ⟨tenantId, .idle⟩) fun _ => Over tenantId ⟨tenantId, .idle⟩) :
    Ensures (Over tenantId ⟨v, .idle⟩) (withTenant tenantId faults operation)
      (fun _ => Leaves tenantId v (!faults.change && faults.clear))
      fun _ => Leaves tenantId v (!faults.change && faults.clear) := by
  obtain ⟨change, clear⟩ := faults
  cases change with
  | false =>
    have hset : Ensures (Over tenantId ⟨v, .idle⟩) (setTenantContext tenantId false)
        (fun _ => Over tenantId ⟨tenantId, .idle⟩) fun _ => Over tenantId ⟨tenantId, .idle⟩ :=
      ensures_accepted rfl nofun fun c hc => hc
    exact ensures_finallyDo (ensures_bind hset fun _ => hoperation)
      (fun _ => ensures_clear_tenant) fun _ => ensures_clear_tenant
  | true =>
    have hset : Ensures (Over tenantId ⟨v, .idle⟩) (setTenantContext tenantId true)
        (fun _ _ => False) fun _ => Resting tenantId v :=
      ensures_refused rfl nofun fun c hc => .inl hc
    refine ensures_finallyDo (ensures_bind hset fun _ => ?_) (Q := fun _ _ => False) (fun _ => ?_)
      fun _ => ensures_clear_resting
    · exact fun c hc => hc.elim
    · exact fun c hc => hc.elim

/-- In an aborted transaction a scope refuses its operation. -/
theorem ensures_withTenant_aborted {operation : ConnProg String Unit} (faults : ScopeFaults) :
    Ensures (Over tenantId ⟨v, .aborted⟩) (withTenant tenantId faults operation)
      (fun _ _ => False) fun _ => Leaves tenantId v false := by
  have hset : Ensures (Over tenantId ⟨v, .aborted⟩) (setTenantContext tenantId faults.change)
      (fun _ _ => False) fun _ => Resting tenantId v :=
    (ensures_setTenantContext_aborted faults.change).exit fun _ c hc => .inr hc
  refine ensures_finallyDo (ensures_bind hset fun _ => ?_) (Q := fun _ _ => False) (fun _ => ?_)
    fun _ => ensures_clear_resting
  · exact fun c hc => hc.elim
  · exact fun c hc => hc.elim

/-- The body of a scoped transaction. -/
theorem ensures_scoped_begun {operation : ConnProg String Unit} {done : Bool} (fails : Bool)
    (hoperation : Ensures (Over tenantId ⟨tenantId, .begun v⟩) operation
      (fun _ => Within tenantId v done) fun _ => Threw tenantId v done) :
    Ensures (Over tenantId ⟨v, .begun v⟩)
      (do setTenantContext tenantId fails; operation)
      (fun _ => Within tenantId v (!fails && done)) fun _ => Threw tenantId v (!fails && done) := by
  cases fails with
  | false =>
    refine ensures_bind (Q := fun _ => Over tenantId ⟨tenantId, .begun v⟩) ?_ fun _ => hoperation
    exact ensures_accepted rfl nofun fun c hc => hc
  | true =>
    refine ensures_bind (Q := fun _ _ => False) ?_ fun _ => fun c hc => hc.elim
    exact ensures_refused rfl nofun fun c hc => ⟨.inr hc, rfl⟩

theorem ensures_transaction_idle {operation : ConnProg String Unit} {done : Bool}
    (faults : ScopeFaults) (block : BlockFaults)
    (hoperation : Ensures (Over tenantId ⟨tenantId, .begun v⟩) operation
      (fun _ => Within tenantId v done) fun _ => Threw tenantId v done) :
    Ensures (Over tenantId ⟨v, .idle⟩) (transaction tenantId faults block operation)
      (fun _ => Leaves tenantId v
        (!block.start && (!faults.change && done && !block.commit) && faults.clear))
      fun _ => Leaves tenantId v
        (!block.start && (!faults.change && done && !block.commit) && faults.clear) := by
  have hblock := ensures_withTransaction block (ensures_scoped_begun faults.change hoperation)
  generalize (!block.start && (!faults.change && done && !block.commit)) = committed at hblock ⊢
  cases committed with
  | true => exact ensures_finallyDo hblock (fun _ => ensures_clear_tenant) fun _ c hc => nomatch hc.1
  | false =>
    refine ensures_finallyDo hblock (fun _ => ensures_clear_resting) fun _ => ?_
    exact ensures_of_pure fun _ => ensures_clear_resting

theorem ensures_transaction_aborted {operation : ConnProg String Unit} (faults : ScopeFaults)
    (block : BlockFaults) :
    Ensures (Over tenantId ⟨v, .aborted⟩) (transaction tenantId faults block operation)
      (fun _ _ => False) fun _ => Leaves tenantId v false := by
  refine ensures_finallyDo (ensures_withTransaction_aborted block) (fun _ => ?_)
    fun _ => ensures_clear_resting
  exact fun c hc => hc.elim

theorem ensures_createWorkspace_idle (block : BlockFaults) (faults : WorkspaceFaults) :
    Ensures (Over tenantId ⟨v, .idle⟩) (createWorkspace tenantId block faults)
      (fun _ => Leaves tenantId v (!block.start &&
        (!faults.change && (!faults.workspace && !faults.membership) && !block.commit)))
      fun _ => Leaves tenantId v (!block.start &&
        (!faults.change && (!faults.workspace && !faults.membership) && !block.commit)) := by
  have hrows : Ensures (Over tenantId ⟨tenantId, .begun v⟩)
      (do issue .rows faults.workspace; issue .rows faults.membership)
      (fun _ => Within tenantId v (!faults.workspace && !faults.membership))
      fun _ => Threw tenantId v (!faults.workspace && !faults.membership) := by
    obtain ⟨change, workspace, membership⟩ := faults
    cases workspace with
    | true =>
      refine ensures_bind (Q := fun _ _ => False) ?_ fun _ => fun c hc => hc.elim
      exact ensures_refused rfl (fun _ => .inr rfl) fun c hc => ⟨.inr hc, rfl⟩
    | false =>
      refine ensures_bind (Q := fun _ => Over tenantId ⟨tenantId, .begun v⟩) ?_ fun _ => ?_
      · exact ensures_accepted rfl (fun _ => .inr rfl) fun c hc => hc
      · cases membership with
        | true => exact ensures_refused rfl (fun _ => .inr rfl) fun c hc => ⟨.inr hc, rfl⟩
        | false => exact ensures_accepted rfl (fun _ => .inr rfl) fun c hc => .inl ⟨rfl, hc⟩
  have hblock := ensures_withTransaction block (ensures_scoped_begun faults.change hrows)
  refine (hblock.mono (fun c hc => hc) fun _ c hc => ?_).exit fun _ c hc => ?_
  · unfold Leaves
    split at hc
    next hdone =>
      rw [if_pos hdone]
      exact hc
    next hdone =>
      rw [if_neg hdone]
      exact .inl hc
  · unfold Leaves
    rw [hc.1]
    exact .inl hc.2

theorem ensures_query_idle (fails : Bool) {Q R : Unit → Connection String → Prop}
    (hQ : ∀ c, Over v ⟨v, .idle⟩ c → Q () c) (hR : ∀ c, Over v ⟨v, .idle⟩ c → R () c) :
    Ensures (Over v ⟨v, .idle⟩) (query fails) Q R := by
  cases fails with
  | false => exact ensures_accepted rfl (fun _ => .inr rfl) hQ
  | true => exact ensures_refused rfl (fun _ => .inr rfl) hR

end

/-! ## Calls -/

namespace Call

variable {v : String}

theorem ensures_rows_idle {tenantId : String} (fails : Bool) :
    Ensures (Over tenantId ⟨tenantId, .idle⟩) (issue .rows fails)
      (fun _ => Over tenantId ⟨tenantId, .idle⟩) fun _ => Over tenantId ⟨tenantId, .idle⟩ :=
  ensures_query_idle fails (fun _ hc => hc) fun _ hc => hc

/-- **What a call leaves an idle session at**, its statements run with its own tenant. -/
theorem ensures_run_idle (call : Call) (hv : call.tenant = "" → v = "") :
    Ensures (Over call.tenant ⟨v, .idle⟩) call.run
      (fun _ => Leaves call.tenant v call.leavesTenant)
      fun _ => Leaves call.tenant v call.leavesTenant := by
  have hquery : ∀ fails, v = "" → Ensures (Over "" ⟨v, .idle⟩) (Identity.query fails)
      (fun _ => Leaves "" v false) fun _ => Leaves "" v false := by
    intro fails hv
    subst hv
    exact ensures_query_idle fails (fun c hc => .inl (.inl hc)) fun c hc => .inl (.inl hc)
  cases call with
  | upsertUser fails => exact hquery fails (hv rfl)
  | findUserByEmail fails => exact hquery fails (hv rfl)
  | findUserById fails => exact hquery fails (hv rfl)
  | query fails => exact hquery fails (hv rfl)
  | createWorkspace ownerUserId block faults => exact ensures_createWorkspace_idle block faults
  | findWorkspaceById _ faults fails =>
    exact ensures_withTenant_idle faults (ensures_rows_idle fails)
  | listWorkspacesForUser _ faults fails =>
    exact ensures_withTenant_idle faults (ensures_rows_idle fails)
  | addMember _ faults fails => exact ensures_withTenant_idle faults (ensures_rows_idle fails)
  | listMembers _ faults fails => exact ensures_withTenant_idle faults (ensures_rows_idle fails)
  | isMember _ faults fails => exact ensures_withTenant_idle faults (ensures_rows_idle fails)
  | withTenant _ faults operation =>
    refine ensures_withTenant_idle faults (ensures_run_resting (.inr rfl) ?_ operation)
    intro fails
    cases fails with
    | false => rfl
    | true => rfl
  | transaction _ faults block operation =>
    exact ensures_transaction_idle faults block (ensures_run_begun operation)

/-- In an aborted transaction no statement of a call runs, and none leaves its tenant. -/
theorem ensures_run_aborted (call : Call) :
    Ensures (Over call.tenant ⟨v, .aborted⟩) call.run (fun _ => Leaves call.tenant v false)
      fun _ => Leaves call.tenant v false := by
  have hquery : ∀ fails, Ensures (Over "" ⟨v, .aborted⟩) (Identity.query fails)
      (fun _ => Leaves "" v false) fun _ => Leaves "" v false := by
    intro fails
    cases fails with
    | false => exact ensures_refused rfl (fun _ => .inl rfl) fun c hc => .inl (.inr hc)
    | true => exact ensures_refused rfl (fun _ => .inl rfl) fun c hc => .inl (.inr hc)
  have hscope : ∀ (tenantId : String) (faults : ScopeFaults) (operation : ConnProg String Unit),
      Ensures (Over tenantId ⟨v, .aborted⟩) (Identity.withTenant tenantId faults operation)
        (fun _ => Leaves tenantId v false) fun _ => Leaves tenantId v false := by
    intro tenantId faults operation
    exact (ensures_withTenant_aborted faults).mono (fun _ hc => hc) fun _ _ hc => hc.elim
  cases call with
  | upsertUser fails => exact hquery fails
  | findUserByEmail fails => exact hquery fails
  | findUserById fails => exact hquery fails
  | query fails => exact hquery fails
  | createWorkspace _ block faults =>
    refine ((ensures_withTransaction_aborted block).mono (fun _ hc => hc) fun _ _ hc => hc.elim).exit
      fun _ c hc => .inl hc
  | findWorkspaceById _ faults fails => exact hscope _ faults _
  | listWorkspacesForUser _ faults fails => exact hscope _ faults _
  | addMember _ faults fails => exact hscope _ faults _
  | listMembers _ faults fails => exact hscope _ faults _
  | isMember _ faults fails => exact hscope _ faults _
  | withTenant _ faults operation => exact hscope _ faults _
  | transaction _ faults block operation =>
    exact (ensures_transaction_aborted faults block).mono (fun _ hc => hc) fun _ _ hc => hc.elim

end Call

/-! ## The pool -/

/-- No session names a tenant, and none is left inside a transaction that goes on. -/
def Unset (pool : Pool) : Prop :=
  ∀ i, pool i = ⟨"", .idle⟩ ∨ pool i = ⟨"", .aborted⟩

/-- The call clears the tenant it sets, or it borrows a session that refuses to set one. -/
def Clears (pool : Pool) (input : Nat × Call) : Prop :=
  (pool input.1).block = .idle → input.2.leavesTenant = true → input.2.tenant = ""

variable {pool : Pool}

theorem left_call {input : Nat × Call} {v : String} (hidle : pool input.1 = ⟨v, .idle⟩)
    (hv : input.2.tenant = "" → v = "") :
    Leaves input.2.tenant v input.2.leavesTenant
      ⟨(pool.call input).1 input.1, (pool.call input).2⟩ := by
  have hleft := (input.2.ensures_run_idle hv).final (s := ⟨pool input.1, []⟩) ⟨hidle, nofun⟩
  show Leaves _ _ _ ⟨Function.update pool input.1 _ input.1, _⟩
  rw [Function.update_self]
  exact hleft

theorem left_call_aborted {input : Nat × Call} {v : String}
    (haborted : pool input.1 = ⟨v, .aborted⟩) :
    Leaves input.2.tenant v false ⟨(pool.call input).1 input.1, (pool.call input).2⟩ := by
  have hleft := input.2.ensures_run_aborted.final (s := ⟨pool input.1, []⟩) ⟨haborted, nofun⟩
  show Leaves _ _ _ ⟨Function.update pool input.1 _ input.1, _⟩
  rw [Function.update_self]
  exact hleft

theorem Leaves.ran {tenantId v : String} {leaves : Bool} {c : Connection String}
    (h : Leaves tenantId v leaves c) : ∀ setting ∈ c.ran, setting = tenantId := by
  unfold Leaves at h
  split at h
  · exact h.2
  · rcases h with (h | h) | (h | h)
    all_goals exact h.2

/-- A call with a tenant runs its statements with it, whatever its session was left at. -/
theorem ran_of_tenant {input : Nat × Call} {v : String} (htenant : input.2.tenant ≠ "")
    (hresting : pool input.1 = ⟨v, .idle⟩ ∨ pool input.1 = ⟨v, .aborted⟩) :
    ∀ setting ∈ (pool.call input).2, setting = input.2.tenant := by
  rcases hresting with hidle | haborted
  · exact (left_call hidle fun h => absurd h htenant).ran
  · exact (left_call_aborted haborted).ran

theorem Leaves.unset {tenantId : String} {leaves : Bool} {c : Connection String}
    (h : Leaves tenantId "" leaves c) (htenant : leaves = true → tenantId = "") :
    c.session = ⟨"", .idle⟩ ∨ c.session = ⟨"", .aborted⟩ := by
  unfold Leaves at h
  split at h
  next hleaves => exact .inl (htenant hleaves ▸ h.1)
  · rcases h with (h | h) | (h | h)
    · exact .inl h.1
    · exact .inr h.1
    · exact .inl h.1
    · exact .inr h.1

/-- Where no session names a tenant, every call runs its statements with its own tenant. -/
theorem Unset.isolated (h : Unset pool) : Isolated pool := by
  intro input setting hsetting
  rcases h input.1 with hidle | haborted
  · exact (left_call hidle fun _ => rfl).ran setting hsetting
  · exact (left_call_aborted haborted).ran setting hsetting

theorem Unset.call (h : Unset pool) {input : Nat × Call} (hclears : Clears pool input) :
    Unset (pool.call input).1 := by
  intro i
  by_cases hi : i = input.1
  · subst hi
    rcases h input.1 with hidle | haborted
    · exact (left_call hidle fun _ => rfl).unset (hclears (by rw [hidle]))
    · exact (left_call_aborted haborted).unset nofun
  · show Function.update pool input.1 _ i = _ ∨ Function.update pool input.1 _ i = _
    rw [Function.update_of_ne hi]
    exact h i

/-- A statement without a scope runs with what an idle session is set to. -/
theorem ran_query {i : Nat} {v : String} (h : pool i = ⟨v, .idle⟩) :
    (pool.call (i, .query false)).2 = [v] := by
  show (exec (issue Statement.rows false) ⟨pool i, []⟩).2.ran = [v]
  rw [h]
  rfl

theorem clears_of_isolated (h : Unset pool) {input : Nat × Call}
    (hisolated : Isolated (pool.call input).1) : Clears pool input := by
  intro hidle hleaves
  have hunset := (h input.1).resolve_right fun haborted => by
    rw [haborted] at hidle
    cases hidle
  have hleft := left_call hunset fun _ => rfl
  unfold Leaves at hleft
  rw [if_pos hleaves] at hleft
  have hset : (pool.call input).1 input.1 = ⟨input.2.tenant, .idle⟩ := hleft.1
  have hran := ran_query hset
  exact hisolated (input.1, .query false) _ (hran ▸ List.mem_singleton_self _)

/-- **Whatever call comes next, its statements run with its own tenant, throughout a history, iff
every call of the history clears the tenant it sets.** -/
theorem isolated_iff_clears (calls : List (Nat × Call)) :
    Machine.Throughout Pool.call Isolated Pool.fresh calls ↔
      Machine.Meets Pool.call Clears Pool.fresh calls := by
  have hfresh : Unset Pool.fresh := fun _ => .inl rfl
  have hstep : ∀ pool input, Unset pool → Isolated pool →
      (Isolated (pool.call input).1 ↔ Clears pool input) := by
    intro pool input h _
    constructor
    · exact clears_of_isolated h
    · exact fun hclears => (h.call hclears).isolated
  rw [Machine.throughout_iff_meets_of_kept (fun pool input h _ hisolated => ?_) hstep calls hfresh]
  · exact and_iff_right hfresh.isolated
  · exact h.call (clears_of_isolated h hisolated)

/-- A workspace is created, and a user is looked up by e-mail over the same session. -/
def sampleCalls : List (Nat × Call) :=
  [(0, .createWorkspace "ann" ⟨false, false, false⟩ ⟨false, false, false⟩),
    (0, .findUserByEmail false)]

theorem createWorkspace_leaks :
    Machine.outputs Pool.call Pool.fresh sampleCalls = [["ann", "ann"], ["ann"]] ∧
      ¬Machine.Throughout Pool.call Isolated Pool.fresh sampleCalls := by
  refine ⟨by decide, fun h => ?_⟩
  have hempty := h.2.1 (0, .findUserByEmail false) "ann" (by decide)
  revert hempty
  decide

end VegaRevenue.Identity
