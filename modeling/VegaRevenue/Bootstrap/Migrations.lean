import Mathlib.Data.List.Sort
import VegaRevenue.AiRuntime.ContextAssembler
import VegaRevenue.Lib.Interleave
import VegaRevenue.Shared.Casing
import VegaRevenue.Shared.Result

/-!
# Bootstrapping the database

Any number of bootstrap runs against one database, interleaved: each applies the migrations of its
directory that are not recorded yet, one transaction for each, checks what is recorded and the role
of the application, and hands it a new password. Every operation can fail, with or without effect,
and a run can die anywhere.

* `committed_applied` — what is committed is what runs one after another could have committed
* `applied_prefix` — where they share a directory, the first so many of its migrations
* `complete_verified` — what a run has checked that gave the application its password
* `rerun_completes` — after any failures a run that nothing disturbs completes
* `password_reads_back` — the statement that sets the password sets exactly it
-/

namespace VegaRevenue.Bootstrap

open Interleave

/-! ## The parts of `main` -/

structure Migration where
  filename : String
  sql : String
deriving DecidableEq

/-- The files of a directory, no name twice. -/
structure Directory where
  entries : List Migration
  nodup : (entries.map Migration.filename).Nodup

/-- `a <= b` by code units, as `sort` compares without a function. -/
def unitsLe (a b : String) : Bool :=
  decide (AiRuntime.ContextAssembler.units a ≤ AiRuntime.ContextAssembler.units b)

def isSql (filename : String) : Bool := ".sql".toList.isSuffixOf filename.toList

def listMigrations (dir : Directory) : List Migration :=
  (dir.entries.filter (isSql ·.filename)).insertionSort
    (fun a b => unitsLe a.filename b.filename = true)

/-- `process.env`. -/
abbrev Environment := String → Option String

def env (e : Environment) (name : String) (fallback : Option String) : Except String String :=
  match e name, fallback with
  | some value, _ => .ok value
  | none, some value => .ok value
  | none, none => .error ("Missing required environment variable: " ++ name)

def requireApproval (e : Environment) : Except String Unit :=
  if e "PRODUCTION_BOOTSTRAP_APPROVED" = some "true" then .ok ()
  else .error "PRODUCTION_BOOTSTRAP_APPROVED must be set to \"true\""

def refuseLocalHost (u : Casing) (host : String) : Except String Unit :=
  let lower := u.toLowerCase host
  if lower = "localhost" || lower = "127.0.0.1" || lower = "::1" ||
      "localhost:".toList.isPrefixOf lower.toList then
    .error ("Refusing to bootstrap against a local target: " ++ host)
  else .ok ()

structure Target where
  pgHost : String
  pgPort : String
  pgDatabase : String
deriving DecidableEq

/-- What `main` reads and checks before it connects. -/
def configure (u : Casing) (e : Environment) : Except String Target := do
  requireApproval e
  let pgHost ← env e "PGHOST" none
  let pgPort ← env e "PGPORT" (some "5432")
  let _ ← env e "PGADMINUSER" none
  let _ ← env e "PGADMINPASSWORD" none
  let pgDatabase ← env e "PGDATABASE" (some "projectx")
  let _ ← env e "AZURE_KEY_VAULT_URL" none
  let _ ← env e "AZURE_CLIENT_ID" none
  refuseLocalHost u pgHost
  return ⟨pgHost, pgPort, pgDatabase⟩

structure PgRole where
  rolcanlogin : Bool
  rolsuper : Bool
  rolbypassrls : Bool
  rolcreatedb : Bool
  rolcreaterole : Bool
  rolreplication : Bool
deriving DecidableEq

/-- The role the application connects with, where it passes the checks. -/
def checkRole (roles : List PgRole) : Except String PgRole :=
  match roles with
  | [] => .error "Role projectx_app does not exist"
  | role :: _ =>
    if !role.rolcanlogin then .error "projectx_app must have LOGIN"
    else if role.rolsuper then .error "projectx_app must be NOSUPERUSER"
    else if role.rolbypassrls then .error "projectx_app must be NOBYPASSRLS"
    else if role.rolcreatedb then .error "projectx_app must be NOCREATEDB"
    else if role.rolcreaterole then .error "projectx_app must be NOCREATEROLE"
    else if role.rolreplication then .error "projectx_app must be NOREPLICATION"
    else .ok role

/-- The checks after the loop on what `schema_migrations` holds. -/
def checkApplied (files : List Migration) (applied : List String) : Except String Unit :=
  let missing := (files.map Migration.filename).filter (· ∉ applied)
  if missing ≠ [] then .error ("Migrations not recorded: " ++ ", ".intercalate missing)
  else if applied.length ≠ files.length then
    .error ("schema_migrations count mismatch: expected " ++ toString files.length ++ ", got " ++
      toString applied.length)
  else .ok ()

/-! ## The system -/

structure World where
  /-- The committed rows of `schema_migrations`. -/
  schemaMigrations : List String
  /-- The migration files whose statements are committed. -/
  scripts : List String := []
  /-- Rows inserted in open transactions, with the run that inserted them. -/
  inserting : List (Nat × String) := []
  /-- The runs that gave the role of the application a password, with what they had read of it. -/
  altered : List (Nat × PgRole) := []
deriving DecidableEq

/-- What a run does next. -/
inductive Pc where
  | connect
  | ensureMigrationsTable
  | lookup (m : Migration) (rest : List Migration)
  | begin (m : Migration) (rest : List Migration)
  | execute (m : Migration) (rest : List Migration)
  | insert (m : Migration) (rest : List Migration)
  | commit (m : Migration) (rest : List Migration)
  | verify
  | role
  | alterRole (role : PgRole)
  | setSecret
  | complete
  | failed (message : String)
deriving DecidableEq

structure Input where
  delivery : Delivery := .answered
  /-- The rows of `pg_roles`. -/
  roles : List PgRole := []

/-- The connection ends: its open transaction is rolled back. -/
def World.rollback (w : World) (i : Nat) : World :=
  { w with inserting := w.inserting.filter (·.1 ≠ i) }

def World.committed (w : World) (i : Nat) (m : Migration) : World :=
  { w.rollback i with
    schemaMigrations := w.schemaMigrations ++ [m.filename], scripts := w.scripts ++ [m.sql] }

/-- The next round of the loop. -/
def loop : List Migration → Pc
  | [] => .verify
  | m :: rest => .lookup m rest

/-- An operation with this effect, after which the run goes on at `next`. -/
def attempt (i : Nat) (w : World) (delivery : Delivery) (effect : World) (next : Pc) : World × Pc :=
  match delivery with
  | .answered => (effect, next)
  | .unanswered message => (effect.rollback i, .failed message)
  | .lost message => (w.rollback i, .failed message)

/-- A check of the run after an answer. -/
def after {α : Type} (check : Except String α) (next : α → Pc) : Pc :=
  match check with
  | .ok a => next a
  | .error message => .failed message

def duplicateKey : String :=
  "duplicate key value violates unique constraint \"schema_migrations_pkey\""

/-- One step of run `i`. -/
def step (u : Casing) (e : Nat → Environment) (dirs : Nat → Directory) : Stepper World Pc Input :=
  fun i input w pc =>
  match pc with
  | .connect =>
    match configure u (e i) with
    | .error message => (w, .failed message)
    | .ok _ => attempt i w input.delivery w .ensureMigrationsTable
  | .ensureMigrationsTable => attempt i w input.delivery w (loop (listMigrations (dirs i)))
  | .lookup m rest =>
    attempt i w input.delivery w
      (if m.filename ∈ w.schemaMigrations then loop rest else .begin m rest)
  | .begin m rest => attempt i w input.delivery w (.execute m rest)
  | .execute m rest => attempt i w input.delivery w (.insert m rest)
  | .insert m rest =>
    match input.delivery with
    | .lost message => (w.rollback i, .failed message)
    | delivery =>
      if m.filename ∈ w.schemaMigrations then (w.rollback i, .failed duplicateKey)
      -- the insert waits for the open transaction that has inserted the row before
      else if ∃ r ∈ w.inserting, r.2 = m.filename ∧ r.1 ≠ i then (w, .insert m rest)
      else
        attempt i w delivery { w with inserting := (i, m.filename) :: w.inserting } (.commit m rest)
  | .commit m rest => attempt i w input.delivery (w.committed i m) (loop rest)
  | .verify =>
    attempt i w input.delivery w
      (after (checkApplied (listMigrations (dirs i)) w.schemaMigrations) fun _ => .role)
  | .role => attempt i w input.delivery w (after (checkRole input.roles) .alterRole)
  | .alterRole role =>
    attempt i w input.delivery { w with altered := (i, role) :: w.altered } .setSecret
  | .setSecret => attempt i w input.delivery w .complete
  | pc => (w, pc)

def init : Config World Pc := ⟨⟨[], [], [], []⟩, fun _ => .connect⟩

/-! ## What may be committed -/

/-- The rows and the scripts that runs one after another can commit: each adds a file of its
directory that is not there yet, after all the files before it. -/
inductive Applied (dirs : Nat → Directory) : List String → List String → Prop where
  | none : Applied dirs [] []
  | next {rows scripts : List String} {done rest : List Migration} {m : Migration} (i : Nat)
      (before : Applied dirs rows scripts) (files : listMigrations (dirs i) = done ++ m :: rest)
      (inOrder : ∀ d ∈ done, d.filename ∈ rows) (new : m.filename ∉ rows) :
      Applied dirs (rows ++ [m.filename]) (scripts ++ [m.sql])

/-- The files of a run are the ones it has dealt with, which are recorded, and these. -/
def Passed (rows : List String) (files rest : List Migration) : Prop :=
  ∃ done, files = done ++ rest ∧ ∀ d ∈ done, d.filename ∈ rows

/-- The files are what was recorded first. -/
def Verified (rows : List String) (files : List Migration) : Prop :=
  ∃ first later, rows = first ++ later ∧ first.Perm (files.map Migration.filename)

/-- The role can log in and do nothing that row-level security does not hold back. -/
def SafeRole (role : PgRole) : Prop :=
  role.rolcanlogin = true ∧ role.rolsuper = false ∧ role.rolbypassrls = false ∧
    role.rolcreatedb = false ∧ role.rolcreaterole = false ∧ role.rolreplication = false

theorem Passed.mono {rows rows' : List String} {files rest : List Migration}
    (h : Passed rows files rest) (hrows : rows <+: rows') : Passed rows' files rest := by
  obtain ⟨done, hfiles, hdone⟩ := h
  exact ⟨done, hfiles, fun d hd => hrows.subset (hdone d hd)⟩

theorem Passed.next {rows : List String} {files rest : List Migration} {m : Migration}
    (h : Passed rows files (m :: rest)) (hm : m.filename ∈ rows) : Passed rows files rest := by
  obtain ⟨done, hfiles, hdone⟩ := h
  refine ⟨done ++ [m], by rw [hfiles, List.append_assoc]; rfl, fun d hd => ?_⟩
  rcases List.mem_append.mp hd with hd | hd
  · exact hdone d hd
  · rw [List.mem_singleton.mp hd]
    exact hm

theorem Verified.mono {rows rows' : List String} {files : List Migration} (h : Verified rows files)
    (hrows : rows <+: rows') : Verified rows' files := by
  obtain ⟨first, later, rfl, hperm⟩ := h
  obtain ⟨more, rfl⟩ := hrows
  exact ⟨first, later ++ more, List.append_assoc first later more, hperm⟩

theorem nodup_listMigrations (dir : Directory) :
    ((listMigrations dir).map Migration.filename).Nodup := by
  have hperm := List.perm_insertionSort (fun a b => unitsLe a.filename b.filename = true)
    (dir.entries.filter (isSql ·.filename))
  exact ((hperm.map _).nodup_iff).mpr (dir.nodup.sublist (List.filter_sublist.map _))

theorem Applied.nodup {dirs : Nat → Directory} {rows scripts : List String}
    (h : Applied dirs rows scripts) : rows.Nodup := by
  induction h with
  | none => exact List.nodup_nil
  | next i _ _ _ new ih =>
    rw [List.nodup_append]
    refine ⟨ih, List.nodup_singleton _, ?_⟩
    rintro a ha b hb rfl
    rw [List.mem_singleton.mp hb] at ha
    exact new ha

/-- What passes the checks on the recorded rows is exactly the files. -/
theorem perm_of_checkApplied {files : List Migration} {applied : List String}
    (hfiles : (files.map Migration.filename).Nodup)
    (h : checkApplied files applied = .ok ()) :
    applied.Perm (files.map Migration.filename) := by
  unfold checkApplied at h
  dsimp only at h
  split at h
  · cases h
  next hmissing =>
    split at h
    · cases h
    next hlength =>
      have hsub : files.map Migration.filename ⊆ applied := by
        intro f hf
        by_contra hnot
        have hmem : f ∈ (files.map Migration.filename).filter (· ∉ applied) :=
          List.mem_filter.mpr ⟨hf, by simpa using hnot⟩
        rw [not_not.mp hmissing] at hmem
        cases hmem
      have hsubperm := List.subperm_of_subset hfiles hsub
      exact (hsubperm.perm_of_length_le (by rw [List.length_map]; omega)).symm

theorem safeRole_of_checkRole {roles : List PgRole} {role : PgRole}
    (h : checkRole roles = .ok role) : SafeRole role := by
  unfold checkRole at h
  split at h
  · cases h
  next role' _ =>
    cases hlogin : role'.rolcanlogin with
    | false => simp [hlogin] at h
    | true =>
      rw [hlogin] at h
      rw [if_neg (by decide)] at h
      split at h
      · cases h
      next hsuper =>
        split at h
        · cases h
        next hbypass =>
          split at h
          · cases h
          next hdb =>
            split at h
            · cases h
            next hcreaterole =>
              split at h
              · cases h
              next hreplication =>
                obtain rfl := Except.ok.inj h
                exact ⟨hlogin, by simpa using hsuper, by simpa using hbypass, by simpa using hdb,
                  by simpa using hcreaterole, by simpa using hreplication⟩

/-! ## The invariant -/

section

variable {u : Casing} {e : Nat → Environment} {dirs : Nat → Directory} {i : Nat} {w w' : World}
  {pc pc' : Pc}

/-- What a run that gave the role a password had checked. -/
def Checked (u : Casing) (e : Nat → Environment) (dirs : Nat → Directory) (rows : List String)
    (i : Nat) : Prop :=
  (∃ target, configure u (e i) = .ok target) ∧ Verified rows (listMigrations (dirs i))

structure WorldOk (u : Casing) (e : Nat → Environment) (dirs : Nat → Directory) (w : World) :
    Prop where
  applied : Applied dirs w.schemaMigrations w.scripts
  /-- No two open transactions have inserted the same row. -/
  once : (w.inserting.map Prod.snd).Nodup
  fresh : ∀ r ∈ w.inserting, r.2 ∉ w.schemaMigrations
  altered : ∀ r ∈ w.altered, Checked u e dirs w.schemaMigrations r.1 ∧ SafeRole r.2

/-- What a run knows of the database. -/
def PcOk (u : Casing) (e : Nat → Environment) (dirs : Nat → Directory) (i : Nat) (w : World) :
    Pc → Prop
  | .connect | .failed _ => True
  | .ensureMigrationsTable => ∃ target, configure u (e i) = .ok target
  | .lookup m rest | .begin m rest | .execute m rest | .insert m rest =>
    (∃ target, configure u (e i) = .ok target) ∧
      Passed w.schemaMigrations (listMigrations (dirs i)) (m :: rest)
  | .commit m rest =>
    (∃ target, configure u (e i) = .ok target) ∧
      Passed w.schemaMigrations (listMigrations (dirs i)) (m :: rest) ∧
      (i, m.filename) ∈ w.inserting
  | .verify =>
    (∃ target, configure u (e i) = .ok target) ∧
      Passed w.schemaMigrations (listMigrations (dirs i)) []
  | .role => Checked u e dirs w.schemaMigrations i
  | .alterRole role => Checked u e dirs w.schemaMigrations i ∧ SafeRole role
  | .setSecret | .complete => ∃ role, (i, role) ∈ w.altered

/-- The rows a run has inserted are those of its transaction. -/
def Owner (i : Nat) (w : World) (pc : Pc) : Prop :=
  ∀ f, (i, f) ∈ w.inserting → ∃ m rest, pc = .commit m rest ∧ m.filename = f

/-- What the other runs may rely on when run `i` moves. -/
structure Grows (i : Nat) (w w' : World) : Prop where
  rows : w.schemaMigrations <+: w'.schemaMigrations
  others : ∀ j f, j ≠ i → ((j, f) ∈ w'.inserting ↔ (j, f) ∈ w.inserting)
  altered : ∀ r ∈ w.altered, r ∈ w'.altered

structure StepOk (u : Casing) (e : Nat → Environment) (dirs : Nat → Directory) (i : Nat)
    (w w' : World) (pc' : Pc) : Prop where
  world : WorldOk u e dirs w'
  grows : Grows i w w'
  moved : PcOk u e dirs i w' pc'
  owner : Owner i w' pc'

theorem Checked.mono {rows rows' : List String} (h : Checked u e dirs rows i)
    (hrows : rows <+: rows') : Checked u e dirs rows' i := ⟨h.1, h.2.mono hrows⟩

/-- A run that does not move stays right. -/
theorem PcOk.mono {j : Nat} (h : PcOk u e dirs j w pc) (hg : Grows i w w') (hj : j ≠ i) :
    PcOk u e dirs j w' pc := by
  cases pc with
  | connect | failed _ => trivial
  | ensureMigrationsTable => exact h
  | lookup m rest | begin m rest | execute m rest | insert m rest =>
    exact ⟨h.1, h.2.mono hg.rows⟩
  | commit m rest => exact ⟨h.1, h.2.1.mono hg.rows, (hg.others j m.filename hj).mpr h.2.2⟩
  | verify => exact ⟨h.1, h.2.mono hg.rows⟩
  | role => exact Checked.mono h hg.rows
  | setSecret | complete => exact h.imp fun role hrole => hg.altered _ hrole
  | alterRole role => exact ⟨h.1.mono hg.rows, h.2⟩

theorem Grows.trans {w'' : World} (h : Grows i w w') (h' : Grows i w' w'') : Grows i w w'' :=
  ⟨h.rows.trans h'.rows, fun j f hj => (h'.others j f hj).trans (h.others j f hj),
    fun r hr => h'.altered r (h.altered r hr)⟩

theorem mem_rollback {r : Nat × String} : r ∈ (w.rollback i).inserting ↔ r ∈ w.inserting ∧ r.1 ≠ i := by
  simp [World.rollback]

/-- A run that ends leaves nothing behind but what it has committed. -/
theorem WorldOk.rollback (h : WorldOk u e dirs w) (message : String) :
    StepOk u e dirs i w (w.rollback i) (.failed message) where
  world :=
    { applied := h.applied
      once := h.once.sublist (List.filter_sublist.map _)
      fresh := fun r hr => h.fresh r (mem_rollback.mp hr).1
      altered := h.altered }
  grows :=
    { rows := List.prefix_rfl
      others := fun _ _ hj => mem_rollback.trans (and_iff_left hj)
      altered := fun _ hr => hr }
  moved := trivial
  owner _ hf := absurd rfl (mem_rollback.mp hf).2

/-- An operation leaves the world right, whatever becomes of it. -/
theorem attempt_ok (hw : WorldOk u e dirs w) (delivery : Delivery)
    (h : StepOk u e dirs i w w' pc') :
    StepOk u e dirs i w (attempt i w delivery w' pc').1 (attempt i w delivery w' pc').2 := by
  cases delivery with
  | answered => exact h
  | unanswered message =>
    have hend := h.world.rollback (i := i) message
    exact ⟨hend.world, h.grows.trans hend.grows, hend.moved, hend.owner⟩
  | lost message => exact hw.rollback message

/-- A step that only reads, of a run without an open transaction. -/
theorem StepOk.stay (hw : WorldOk u e dirs w) (howner : ∀ f, (i, f) ∉ w.inserting)
    (h : PcOk u e dirs i w pc') : StepOk u e dirs i w w pc' :=
  ⟨hw, ⟨List.prefix_rfl, fun _ _ _ => Iff.rfl, fun _ hr => hr⟩, h, fun f hf => absurd hf (howner f)⟩

theorem pcOk_loop (hconfigured : ∃ target, configure u (e i) = .ok target) {rest : List Migration}
    (h : Passed w.schemaMigrations (listMigrations (dirs i)) rest) :
    PcOk u e dirs i w (loop rest) := by
  cases rest with
  | nil => exact ⟨hconfigured, h⟩
  | cons m rest => exact ⟨hconfigured, h⟩

theorem step_insert (hw : WorldOk u e dirs w) (howner : ∀ f, (i, f) ∉ w.inserting) {m : Migration}
    {rest : List Migration} (h : PcOk u e dirs i w (.insert m rest)) (input : Input) :
    StepOk u e dirs i w (step u e dirs i input w (.insert m rest)).1
      (step u e dirs i input w (.insert m rest)).2 := by
  have hinsert : ∀ delivery, StepOk u e dirs i w
      (if m.filename ∈ w.schemaMigrations then (w.rollback i, Pc.failed duplicateKey)
        else if ∃ r ∈ w.inserting, r.2 = m.filename ∧ r.1 ≠ i then (w, .insert m rest)
        else attempt i w delivery { w with inserting := (i, m.filename) :: w.inserting }
          (.commit m rest)).1
      (if m.filename ∈ w.schemaMigrations then (w.rollback i, Pc.failed duplicateKey)
        else if ∃ r ∈ w.inserting, r.2 = m.filename ∧ r.1 ≠ i then (w, .insert m rest)
        else attempt i w delivery { w with inserting := (i, m.filename) :: w.inserting }
          (.commit m rest)).2 := by
    intro delivery
    split
    · exact hw.rollback _
    next hnew =>
      split
      · exact .stay hw howner h
      next hfree =>
        refine attempt_ok hw delivery ⟨⟨hw.applied, ?_, ?_, hw.altered⟩, ?_, ?_, ?_⟩
        · refine List.nodup_cons.mpr ⟨fun hmem => hfree ?_, hw.once⟩
          obtain ⟨r, hr, hf⟩ := List.mem_map.mp hmem
          refine ⟨r, hr, hf, ?_⟩
          rintro rfl
          exact howner r.2 hr
        · intro r hr
          rcases List.mem_cons.mp hr with rfl | hr
          · exact hnew
          · exact hw.fresh r hr
        · refine ⟨List.prefix_rfl, fun j f hj => ?_, fun _ hr => hr⟩
          simp [hj]
        · exact ⟨h.1, h.2, List.mem_cons_self⟩
        · intro f hf
          rcases List.mem_cons.mp hf with heq | hf
          · exact ⟨m, rest, rfl, (congrArg Prod.snd heq).symm⟩
          · exact absurd hf (howner f)
  unfold step
  dsimp only
  split
  · exact hw.rollback _
  · exact hinsert _

theorem step_commit (hw : WorldOk u e dirs w) {m : Migration} {rest : List Migration}
    (h : PcOk u e dirs i w (.commit m rest)) (input : Input) :
    StepOk u e dirs i w (step u e dirs i input w (.commit m rest)).1
      (step u e dirs i input w (.commit m rest)).2 := by
  obtain ⟨hconfigured, hpassed, hmem⟩ := h
  have hnew : m.filename ∉ w.schemaMigrations := hw.fresh _ hmem
  have hrows : w.schemaMigrations <+: (w.committed i m).schemaMigrations :=
    List.prefix_append _ _
  obtain ⟨done, hfiles, hdone⟩ := hpassed
  refine attempt_ok hw input.delivery ⟨⟨?_, ?_, ?_, ?_⟩, ?_, ?_, ?_⟩
  · exact .next i hw.applied hfiles hdone hnew
  · exact hw.once.sublist (List.filter_sublist.map _)
  · intro r hr hin
    obtain ⟨hr, hne⟩ := mem_rollback.mp hr
    rcases List.mem_append.mp hin with hin | hin
    · exact hw.fresh r hr hin
    · -- the row belongs to this transaction
      have hsame := List.inj_on_of_nodup_map hw.once hr hmem (List.mem_singleton.mp hin)
      exact hne (congrArg Prod.fst hsame)
  · exact fun r hr => ⟨(hw.altered r hr).1.mono hrows, (hw.altered r hr).2⟩
  · exact ⟨hrows, fun j f hj => mem_rollback.trans (and_iff_left hj), fun _ hr => hr⟩
  · refine pcOk_loop hconfigured (Passed.next (m := m) (Passed.mono ⟨done, hfiles, hdone⟩ hrows) ?_)
    exact List.mem_append_right _ (List.mem_singleton.mpr rfl)
  · intro f hf
    exact absurd rfl (mem_rollback.mp hf).2

/-- Every step of a run keeps the world and the run right. -/
theorem step_ok (hw : WorldOk u e dirs w) (h : PcOk u e dirs i w pc) (howner : Owner i w pc)
    (input : Input) :
    StepOk u e dirs i w (step u e dirs i input w pc).1 (step u e dirs i input w pc).2 := by
  by_cases hcommit : ∃ m rest, pc = .commit m rest
  · obtain ⟨m, rest, rfl⟩ := hcommit
    exact step_commit hw h input
  have hnone : ∀ f, (i, f) ∉ w.inserting := by
    intro f hf
    obtain ⟨m, rest, hpc, -⟩ := howner f hf
    exact hcommit ⟨m, rest, hpc⟩
  have hread : ∀ pc', PcOk u e dirs i w pc' → StepOk u e dirs i w
      (attempt i w input.delivery w pc').1 (attempt i w input.delivery w pc').2 :=
    fun pc' hpc' => attempt_ok hw input.delivery (.stay hw hnone hpc')
  cases pc with
  | connect =>
    unfold step
    dsimp only
    cases hc : configure u (e i) with
    | error message => exact .stay hw hnone trivial
    | ok target => exact hread _ ⟨target, hc⟩
  | ensureMigrationsTable => exact hread _ (pcOk_loop h ⟨[], rfl, fun _ hd => nomatch hd⟩)
  | lookup m rest =>
    refine hread _ ?_
    split
    next hm => exact pcOk_loop h.1 (h.2.next hm)
    · exact h
  | begin m rest => exact hread _ h
  | execute m rest => exact hread _ h
  | insert m rest => exact step_insert hw hnone h input
  | commit m rest => exact absurd ⟨m, rest, rfl⟩ hcommit
  | verify =>
    refine hread _ ?_
    unfold after
    cases hc : checkApplied (listMigrations (dirs i)) w.schemaMigrations with
    | error message => trivial
    | ok =>
      exact ⟨h.1, w.schemaMigrations, [], (List.append_nil _).symm,
        perm_of_checkApplied (nodup_listMigrations (dirs i)) hc⟩
  | role =>
    refine hread _ ?_
    unfold after
    cases hc : checkRole input.roles with
    | error message => trivial
    | ok role => exact ⟨h, safeRole_of_checkRole hc⟩
  | alterRole role =>
    refine attempt_ok hw input.delivery ⟨⟨hw.applied, hw.once, hw.fresh, ?_⟩,
      ⟨List.prefix_rfl, fun _ _ _ => Iff.rfl, fun _ hr => List.mem_cons_of_mem _ hr⟩,
      ⟨role, List.mem_cons_self⟩, fun f hf => absurd hf (hnone f)⟩
    intro r hr
    rcases List.mem_cons.mp hr with rfl | hr
    · exact h
    · exact hw.altered r hr
  | setSecret => exact hread _ h
  | complete => exact .stay hw hnone h
  | failed message => exact .stay hw hnone trivial

end

structure Inv (u : Casing) (e : Nat → Environment) (dirs : Nat → Directory)
    (c : Config World Pc) : Prop where
  world : WorldOk u e dirs c.world
  runs : ∀ i, PcOk u e dirs i c.world (c.pc i)
  owners : ∀ i, Owner i c.world (c.pc i)

theorem inv_init (u : Casing) (e : Nat → Environment) (dirs : Nat → Directory) :
    Inv u e dirs init where
  world := ⟨.none, List.nodup_nil, fun _ h => (nomatch h), fun _ h => nomatch h⟩
  runs _ := trivial
  owners _ _ h := nomatch h

theorem inv_step {u : Casing} {e : Nat → Environment} {dirs : Nat → Directory}
    (c : Config World Pc) (a : Tick Input) (h : Inv u e dirs c) :
    Inv u e dirs (c.step (step u e dirs) a) := by
  have hok := step_ok h.world (h.runs a.call) (h.owners a.call) a.input
  refine ⟨hok.world, ?_, ?_⟩
  · intro i
    by_cases hi : i = a.call
    · subst hi
      rw [Config.step_pc_self]
      exact hok.moved
    · rw [Config.step_pc_ne _ c hi]
      exact (h.runs i).mono hok.grows hi
  · intro i
    by_cases hi : i = a.call
    · subst hi
      rw [Config.step_pc_self]
      exact hok.owner
    · rw [Config.step_pc_ne _ c hi]
      exact fun f hf => h.owners i f ((hok.grows.others i f hi).mp hf)

theorem inv_run (u : Casing) (e : Nat → Environment) (dirs : Nat → Directory)
    (schedule : List (Tick Input)) : Inv u e dirs (run (step u e dirs) init schedule) :=
  run_invariant inv_step (inv_init u e dirs)

/-! ## The laws -/

/-- In a list without duplicates an element that is not among the first `n`, while all before it
are, is the next one. -/
theorem length_eq_of_next {α : Type} {l before after : List α} {a : α} {n : Nat} (hl : l.Nodup)
    (heq : l = before ++ a :: after) (hin : ∀ b ∈ before, b ∈ l.take n) (hnew : a ∉ l.take n) :
    n = before.length := by
  rcases Nat.lt_trichotomy n before.length with hlt | heqn | hgt
  · have hne : before.drop n ≠ [] := by
      intro hnil
      have hlength := congrArg List.length hnil
      rw [List.length_drop, List.length_nil] at hlength
      omega
    obtain ⟨b, hb⟩ := List.exists_mem_of_ne_nil _ hne
    have hdrop : b ∈ l.drop n := by
      rw [heq, List.drop_append_of_le_length (Nat.le_of_lt hlt)]
      exact List.mem_append_left _ hb
    exact absurd hdrop (List.disjoint_take_drop hl (Nat.le_refl n) (hin b (List.mem_of_mem_drop hb)))
  · exact heqn
  · refine absurd ?_ hnew
    obtain ⟨k, hk⟩ : ∃ k, n - before.length = k + 1 := ⟨n - before.length - 1, by omega⟩
    rw [heq, List.take_append, hk, List.take_succ_cons]
    exact List.mem_append_right _ List.mem_cons_self

/-- Where all runs have one directory, what can be committed is the first so many of its files. -/
theorem Applied.take {dir : Directory} {rows scripts : List String}
    (h : Applied (fun _ => dir) rows scripts) :
    ∃ n, rows = ((listMigrations dir).take n).map Migration.filename ∧
      scripts = ((listMigrations dir).take n).map Migration.sql := by
  induction h with
  | none => exact ⟨0, rfl, rfl⟩
  | @next rows scripts done rest m i before files inOrder new ih =>
    obtain ⟨n, rfl, rfl⟩ := ih
    have hnames : (listMigrations dir).map Migration.filename =
        done.map Migration.filename ++ m.filename :: rest.map Migration.filename := by
      rw [files, List.map_append, List.map_cons]
    rw [List.map_take] at inOrder new
    -- the files up to this one are recorded and this one is not, so it is the next
    have hn : n = (done.map Migration.filename).length := by
      refine length_eq_of_next (nodup_listMigrations dir) hnames (fun f hf => ?_) new
      obtain ⟨d, hd, rfl⟩ := List.mem_map.mp hf
      exact inOrder d hd
    rw [List.length_map] at hn
    subst hn
    have hdone : (listMigrations dir).take done.length = done := by
      rw [files, List.take_left']
      rfl
    have hnext : (listMigrations dir).take (done.length + 1) = done ++ [m] := by
      rw [files, ← List.singleton_append, ← List.append_assoc, List.take_left']
      simp
    refine ⟨done.length + 1, ?_, ?_⟩
    · rw [hnext, hdone, List.map_append, List.map_singleton]
    · rw [hnext, hdone, List.map_append, List.map_singleton]

/-- **What is committed could have been committed by runs one after another**, whatever operations
fail and wherever runs die; no row and no script twice. -/
theorem committed_applied (u : Casing) (e : Nat → Environment) (dirs : Nat → Directory)
    (schedule : List (Tick Input)) :
    let w := (run (step u e dirs) init schedule).world
    Applied dirs w.schemaMigrations w.scripts ∧ w.schemaMigrations.Nodup := by
  intro w
  have h := (inv_run u e dirs schedule).world.applied
  exact ⟨h, h.nodup⟩

/-- **Runs that share a directory have committed the first so many of its migrations, each once and
in their order.** -/
theorem applied_prefix (u : Casing) (e : Nat → Environment) (dir : Directory)
    (schedule : List (Tick Input)) :
    let w := (run (step u e fun _ => dir) init schedule).world
    ∃ n, w.schemaMigrations = ((listMigrations dir).take n).map Migration.filename ∧
      w.scripts = ((listMigrations dir).take n).map Migration.sql :=
  (inv_run u e (fun _ => dir) schedule).world.applied.take

section

variable {u : Casing} {e : Nat → Environment} {dirs : Nat → Directory} {i : Nat}

/-- The steps of run `i` when every operation succeeds. -/
def advance (u : Casing) (e : Nat → Environment) (dirs : Nat → Directory) (i : Nat) (role : PgRole)
    (x : World × Pc) : World × Pc := step u e dirs i { roles := [role] } x.1 x.2

/-- The loop records every file it still has. -/
theorem loop_advances (u : Casing) (e : Nat → Environment) (dirs : Nat → Directory) (i : Nat)
    (role : PgRole) (rest : List Migration) : ∀ w : World, w.inserting = [] →
    ∃ n w', (advance u e dirs i role)^[n] (w, loop rest) = (w', .verify) ∧
      w.schemaMigrations ⊆ w'.schemaMigrations ∧ ∀ m ∈ rest, m.filename ∈ w'.schemaMigrations := by
  induction rest with
  | nil => intro w _; exact ⟨0, w, rfl, List.Subset.refl _, fun _ h => nomatch h⟩
  | cons m rest ih =>
    intro w hw
    by_cases hm : m.filename ∈ w.schemaMigrations
    · obtain ⟨n, w', hn, hsub, hrest⟩ := ih w hw
      refine ⟨n + 1, w', ?_, hsub, ?_⟩
      · have hskip : advance u e dirs i role (w, loop (m :: rest)) = (w, loop rest) := by
          show (w, if m.filename ∈ w.schemaMigrations then loop rest else Pc.begin m rest) = _
          rw [if_pos hm]
        rw [Function.iterate_succ_apply, hskip, hn]
      · intro m' hm'
        rcases List.mem_cons.mp hm' with rfl | hm'
        · exact hsub hm
        · exact hrest m' hm'
    · have hcommitted : (w.committed i m).inserting = [] := by
        show w.inserting.filter _ = []
        rw [hw]
        rfl
      obtain ⟨n, w', hn, hsub, hrest⟩ := ih (w.committed i m) hcommitted
      have hmem : m.filename ∈ (w.committed i m).schemaMigrations :=
        List.mem_append_right _ (List.mem_singleton.mpr rfl)
      refine ⟨n + 5, w', ?_, fun f hf => hsub (List.mem_append_left _ hf), ?_⟩
      · have hbegin : advance u e dirs i role (w, loop (m :: rest)) = (w, .begin m rest) := by
          show (w, if m.filename ∈ w.schemaMigrations then loop rest else Pc.begin m rest) = _
          rw [if_neg hm]
        have hinsert : advance u e dirs i role (w, .insert m rest) =
            ({ w with inserting := [(i, m.filename)] }, .commit m rest) := by
          show (if m.filename ∈ w.schemaMigrations then _ else if ∃ r ∈ w.inserting, _ then _ else _)
            = _
          rw [if_neg hm, hw, if_neg (by simp)]
          rfl
        have hcommit : advance u e dirs i role
            ({ w with inserting := [(i, m.filename)] }, .commit m rest) =
              (w.committed i m, loop rest) := by
          show (World.committed { w with inserting := [(i, m.filename)] } i m, loop rest) = _
          simp [World.committed, World.rollback, hw]
        have hround : (advance u e dirs i role)^[5] (w, loop (m :: rest)) =
            (w.committed i m, loop rest) := by
          show advance u e dirs i role (advance u e dirs i role (advance u e dirs i role
            (advance u e dirs i role (advance u e dirs i role (w, loop (m :: rest)))))) = _
          rw [hbegin]
          show advance u e dirs i role (advance u e dirs i role (w, .insert m rest)) = _
          rw [hinsert, hcommit]
        rw [Function.iterate_add_apply, hround, hn]
      · intro m' hm'
        rcases List.mem_cons.mp hm' with rfl | hm'
        · exact hsub hmem
        · exact hrest m' hm'

theorem checkRole_of_safeRole {role : PgRole} (h : SafeRole role) :
    checkRole [role] = .ok role := by
  obtain ⟨hlogin, hsuper, hbypass, hdb, hcreaterole, hreplication⟩ := h
  unfold checkRole
  simp [hlogin, hsuper, hbypass, hdb, hcreaterole, hreplication]

/-- Where the first so many files are recorded, and every file is, these are all and the checks
pass. -/
theorem checkApplied_of_take {files : List Migration} {n : Nat}
    (h : ∀ m ∈ files, m.filename ∈ (files.take n).map Migration.filename)
    (hnodup : (files.map Migration.filename).Nodup) :
    files.take n = files ∧ checkApplied files ((files.take n).map Migration.filename) = .ok () := by
  have hall : files.take n = files := by
    have hlength : (files.map Migration.filename).length ≤
        ((files.take n).map Migration.filename).length := by
      refine (List.subperm_of_subset hnodup fun f hf => ?_).length_le
      obtain ⟨m, hm, rfl⟩ := List.mem_map.mp hf
      exact h m hm
    rw [List.length_map, List.length_map, List.length_take] at hlength
    exact List.take_of_length_le (by omega)
  refine ⟨hall, ?_⟩
  rw [hall]
  have hmissing : (files.map Migration.filename).filter
      (· ∉ files.map Migration.filename) = [] := by
    rw [List.filter_eq_nil_iff]
    intro f hf
    simpa using hf
  unfold checkApplied
  dsimp only
  rw [hmissing, if_neg (by simp), if_neg (by simp)]

/-- The steps after the loop. -/
theorem end_advances {role : PgRole} (hrole : SafeRole role) {w : World}
    (h : checkApplied (listMigrations (dirs i)) w.schemaMigrations = .ok ()) :
    (advance u e dirs i role)^[4] (w, .verify) =
      ({ w with altered := (i, role) :: w.altered }, .complete) := by
  have hverify : advance u e dirs i role (w, .verify) = (w, .role) := by
    show (w, after (checkApplied (listMigrations (dirs i)) w.schemaMigrations) fun _ => Pc.role) = _
    rw [h]
    rfl
  have hread : advance u e dirs i role (w, .role) = (w, .alterRole role) := by
    show (w, after (checkRole [role]) Pc.alterRole) = _
    rw [checkRole_of_safeRole hrole]
    rfl
  show advance u e dirs i role (advance u e dirs i role (advance u e dirs i role
    (advance u e dirs i role (w, .verify)))) = _
  rw [hverify, hread]
  rfl

/-- Run `i` alone, with every operation answered. -/
def undisturbed (n i : Nat) (role : PgRole) : List (Tick Input) :=
  List.replicate n ⟨i, { roles := [role] }⟩

/-- The run has completed, and all migrations are committed. -/
def Completed (dir : Directory) (i : Nat) (c : Config World Pc) : Prop :=
  c.pc i = .complete ∧ c.world.schemaMigrations = (listMigrations dir).map Migration.filename ∧
    c.world.scripts = (listMigrations dir).map Migration.sql

/-- **Whatever failed before, once no transaction is open a run that nothing disturbs completes, and
all migrations are committed.** -/
theorem rerun_completes (u : Casing) (e : Nat → Environment) (dir : Directory)
    (schedule : List (Tick Input)) (i : Nat) {role : PgRole}
    (hclosed : (run (step u e fun _ => dir) init schedule).world.inserting = [])
    (hconnect : (run (step u e fun _ => dir) init schedule).pc i = .connect)
    (hconfigured : ∃ target, configure u (e i) = .ok target) (hrole : SafeRole role) :
    ∃ n, Completed dir i
      (run (step u e fun _ => dir) init (schedule ++ undisturbed n i role)) := by
  obtain ⟨target, hconfigured⟩ := hconfigured
  let f := step u e fun _ => dir
  let c := run f init schedule
  obtain ⟨n, w, hn, -, hrecorded⟩ := loop_advances u e (fun _ => dir) i role (listMigrations dir)
    c.world hclosed
  -- the run up to the end of the loop
  have hloop : (advance u e (fun _ => dir) i role)^[n + 2] (c.world, c.pc i) = (w, .verify) := by
    have hstart : (advance u e (fun _ => dir) i role)^[2] (c.world, c.pc i) =
        (c.world, loop (listMigrations dir)) := by
      have hconfig : advance u e (fun _ => dir) i role (c.world, .connect) =
          (c.world, .ensureMigrationsTable) := by
        unfold advance step
        dsimp only
        rw [hconfigured]
        rfl
      show advance u e (fun _ => dir) i role (advance u e (fun _ => dir) i role
        (c.world, c.pc i)) = _
      rw [show c.pc i = .connect from hconnect, hconfig]
      rfl
    rw [Function.iterate_add_apply, hstart, hn]
  have hpair := run_replicate f i { roles := [role] } (n + 2) c
  have hinv := inv_run u e (fun _ => dir)
    (schedule ++ List.replicate (n + 2) ⟨i, { roles := [role] }⟩)
  rw [run_append] at hinv
  have hworld : (run f c (List.replicate (n + 2) ⟨i, { roles := [role] }⟩)).world = w :=
    congrArg Prod.fst (hpair.trans hloop)
  obtain ⟨k, hrows, hscripts⟩ := hinv.world.applied.take
  rw [hworld] at hrows hscripts
  rw [hrows] at hrecorded
  obtain ⟨hall, hcheck⟩ := checkApplied_of_take hrecorded (nodup_listMigrations dir)
  rw [hall] at hrows hscripts
  refine ⟨4 + (n + 2), ?_⟩
  have hfinal := run_replicate f i { roles := [role] } (4 + (n + 2)) c
  have hend : (advance u e (fun _ => dir) i role)^[4 + (n + 2)] (c.world, c.pc i) =
      ({ w with altered := (i, role) :: w.altered }, .complete) := by
    rw [Function.iterate_add_apply, hloop]
    refine end_advances hrole ?_
    rw [hall] at hcheck
    rw [hrows]
    exact hcheck
  have hdone := hfinal.trans hend
  unfold Completed
  rw [undisturbed, run_append]
  have hworld' := congrArg Prod.fst hdone
  refine ⟨congrArg Prod.snd hdone, ?_, ?_⟩
  · exact (congrArg World.schemaMigrations hworld').trans hrows
  · exact (congrArg World.scripts hworld').trans hscripts

end

/-- A directory with two migrations. -/
def sampleDirectory : Directory :=
  ⟨[⟨"002_b.sql", "CREATE TABLE b ()"⟩, ⟨"001_a.sql", "CREATE TABLE a ()"⟩, ⟨"run.ts", ""⟩], by decide⟩

def production : Environment := fun name =>
  [("PRODUCTION_BOOTSTRAP_APPROVED", "true"), ("PGHOST", "db.internal"), ("PGADMINUSER", "admin"),
    ("PGADMINPASSWORD", "secret"), ("AZURE_KEY_VAULT_URL", "https://vault"),
    ("AZURE_CLIENT_ID", "client")].lookup name

/-- Run 0 commits the first migration and dies in the second one. -/
def interrupted : List (Tick Input) :=
  List.replicate 11 ⟨0, {}⟩ ++ [⟨0, { delivery := .lost "connection terminated" }⟩]

theorem rerun_completes_interrupted :
    ∃ n, Completed sampleDirectory 1
      (run (step asciiCasing (fun _ => production) fun _ => sampleDirectory) init
        (interrupted ++ undisturbed n 1 ⟨true, false, false, false, false, false⟩)) :=
  rerun_completes asciiCasing (fun _ => production) sampleDirectory interrupted 1
    (by decide +kernel) (by decide +kernel)
    ⟨⟨"db.internal", "5432", "projectx"⟩, by decide +kernel⟩ ⟨rfl, rfl, rfl, rfl, rfl, rfl⟩

/-! ## The statement that sets the password -/

def apostrophe : Char := Char.ofNat 39

def quoted (cs : List Char) : List Char :=
  cs.flatMap fun c => if c = apostrophe then [apostrophe, apostrophe] else [c]

def quotePgLiteral (value : String) : String :=
  String.ofList (apostrophe :: (quoted value.toList ++ [apostrophe]))

def alterRoleStart : String := "ALTER ROLE projectx_app WITH LOGIN PASSWORD "

def alterRoleSql (password : String) : String := alterRoleStart ++ quotePgLiteral password

/-- What PostgreSQL reads after the opening apostrophe, under `standard_conforming_strings`: the
value of the literal and the text after it. An apostrophe that was just read ends the literal unless
another one follows. -/
def literalBody : Bool → List Char → Option (List Char × List Char)
  | false, [] => none
  | true, [] => some ([], [])
  | false, c :: cs =>
    if c = apostrophe then literalBody true cs
    else (literalBody false cs).map fun (value, rest) => (c :: value, rest)
  | true, c :: cs =>
    if c = apostrophe then (literalBody false cs).map fun (value, rest) => (c :: value, rest)
    else some ([], c :: cs)

/-- The value of a literal and the text after it. -/
def readLiteral : List Char → Option (List Char × List Char)
  | [] => none
  | c :: cs => if c = apostrophe then literalBody false cs else none

theorem literalBody_quoted (cs : List Char) {rest : List Char}
    (hrest : rest.head? ≠ some apostrophe) :
    literalBody false (quoted cs ++ apostrophe :: rest) = some (cs, rest) := by
  induction cs with
  | nil =>
    show literalBody false (apostrophe :: rest) = _
    rw [literalBody, if_pos rfl]
    cases rest with
    | nil => rfl
    | cons d ds => rw [literalBody, if_neg fun h => hrest (congrArg some h)]
  | cons c cs ih =>
    by_cases hc : c = apostrophe
    · subst hc
      have hquoted : quoted (apostrophe :: cs) = apostrophe :: apostrophe :: quoted cs := by
        simp [quoted]
      rw [hquoted, List.cons_append, List.cons_append, literalBody, if_pos rfl, literalBody,
        if_pos rfl, ih]
      rfl
    · have hquoted : quoted (c :: cs) = c :: quoted cs := by
        simp [quoted, hc]
      rw [hquoted, List.cons_append, literalBody, if_neg hc, ih]
      rfl

/-- **The statement gives the role exactly the password, and no password gets out of its literal.** -/
theorem password_reads_back (password : String) :
    ∃ cs, (alterRoleSql password).toList = alterRoleStart.toList ++ cs ∧
      readLiteral cs = some (password.toList, []) := by
  refine ⟨(quotePgLiteral password).toList, String.toList_append, ?_⟩
  unfold quotePgLiteral
  rw [String.toList_ofList]
  show literalBody false (quoted password.toList ++ [apostrophe]) = _
  exact literalBody_quoted password.toList (by simp)

end VegaRevenue.Bootstrap
