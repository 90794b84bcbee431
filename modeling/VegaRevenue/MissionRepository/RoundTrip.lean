import VegaRevenue.Lib.Machine
import VegaRevenue.MissionRepository.Postgres

/-!
# What is read back after a save

* `SameMission` — two copies agree in what a reader of the mission relies on
* `Recorded` — what a save leaves to what was stored before and to the mission itself
* `roundTrips_iff` — a save is read back unchanged iff the mission is `Recorded`
* `alwaysRoundTrips_iff` — the same along a history of operations, saves and loads
-/

namespace VegaRevenue.MissionRepository

open Versioned
open Mission (Props Plan Outcomes)

/-! ## What is promised -/

/-- A task in what is compared of it. -/
def view (t : MissionTask) : MissionTask := { t with missionId := "", taskType := "" }

/-- The found mission is the saved one. -/
structure SameMission (found saved : Mission) : Prop where
  status : found.state.status = saved.state.status
  version : found.version = saved.version
  plan : found.state.plan = saved.state.plan
  outcomes : found.state.outcomes = saved.state.outcomes
  tasks : found.state.tasks.map view = saved.state.tasks.map view

/-- A save that succeeds is read back unchanged. -/
def RoundTrips (ctx : Context) (scan : Scan) (now : Date) (db : Database) (m : Mission) : Prop :=
  ∀ db' m', save db ctx m now = .saved db' m' →
    ∃ found, findById db' scan ctx m.state.id = some found ∧ SameMission found m'

/-! ## The condition -/

/-- The version of the plan is the one that is stored. -/
def known (db : Database) (ctx : Context) (m : Mission) : Bool :=
  (db.existing ctx m.state.id).map (·.currentPlanVersion) = some m.state.plan.version

/-- The plan that is read: the stored one where its version is known, and none where the version
is an old one. -/
def readPlan (db : Database) (ctx : Context) (m : Mission) : Plan :=
  if known db ctx m then db.planOf m.state.id m.state.plan.version
  else if db.plans.any (·.key = (planRow m).key) then
    missingPlan m.state.id m.state.plan.version
  else m.state.plan

/-- The definitions that are read: the stored ones, with those of new tasks where the version of
the plan is new. -/
def readTasks (db : Database) (ctx : Context) (m : Mission) : List TaskRow :=
  let stored := db.tasksOf m.state.id m.state.plan.version
  if known db ctx m then stored
  else KeyedRows.insertAll TaskRow.key stored (m.state.tasks.map (taskRow m))

def readDependencies (db : Database) (ctx : Context) (m : Mission) : List DependencyRow :=
  let stored := db.dependenciesOf m.state.id m.state.plan.version
  if known db ctx m then stored
  else KeyedRows.insertAll id stored (m.state.tasks.flatMap (dependencyRows m))

/-- A definition in what is compared of it. -/
def definition (r : TaskRow) : TaskRow := { r with taskType := "" }

/-- The task carries what the repository fills in for what it has no column for, and no output
that reads as absent. -/
structure Plain (plan : Plan) (t : MissionTask) : Prop where
  planId : t.planId = plan.planId
  idempotencyKey : t.idempotencyKey = t.id
  correlationId : t.correlationId = "reconstituted"
  output : ∀ v, t.output = some v → truthy v = true

/-- What is stored beside the mission's row is, in the order it comes, what the mission holds. -/
structure Recorded (ctx : Context) (scan : Scan) (db : Database) (m : Mission) : Prop where
  bound : ∀ row, db.existing ctx m.state.id = some row →
    row.workspaceBindingState = .workspaceBound
  plan : readPlan db ctx m = m.state.plan
  definitions : (scan.tasks (readTasks db ctx m)).map definition =
    m.state.tasks.map fun t => definition (taskRow m t)
  dependencies : ∀ t ∈ m.state.tasks,
    dependsOn (scan.dependencies (readDependencies db ctx m)) t.id = t.dependsOn
  tasks : ∀ t ∈ m.state.tasks, Plain m.state.plan t

section

variable {db : Database} {ctx : Context} {m : Mission} {scan : Scan} {now : Date}

/-! ## The rows after a save -/

/-- The plans and the definitions are those of the other database. -/
structure Database.SameChildren (db₁ db : Database) : Prop where
  plans : db₁.plans = db.plans
  tasks : db₁.tasks = db.tasks
  dependencies : db₁.dependencies = db.dependencies

theorem Database.SameChildren.putTasks {db₁ : Database} (h : db₁.SameChildren db)
    (current : Option Int) : (db₁.putTasks current m).SameChildren (db.putTasks current m) := by
  unfold Database.putTasks
  split
  · exact ⟨h.plans, h.tasks, h.dependencies⟩
  · refine ⟨?_, ?_, ?_⟩
    · simp only [Database.putStates, Database.putDefinitions, h.plans]
    · simp only [Database.putStates, Database.putDefinitions, h.tasks]
    · simp only [Database.putStates, Database.putDefinitions, h.dependencies]

theorem planOf_putTasks :
    (db.putTasks ((db.existing ctx m.state.id).map (·.currentPlanVersion)) m).planOf m.state.id
      m.state.plan.version = readPlan db ctx m := by
  unfold Database.putTasks readPlan known
  simp only [decide_eq_true_eq]
  split
  · rfl
  · -- no row of the mission is current but the one that is inserted
    have hcleared : (db.plans.map (clearCurrent m)).find? (fun r => r.missionId = m.state.id &&
        r.version = m.state.plan.version && r.isCurrent) = none := by
      rw [List.find?_eq_none]
      intro r hr
      obtain ⟨r, -, rfl⟩ := List.mem_map.mp hr
      unfold clearCurrent
      split
      · simp
      next hne => simp [hne]
    have hkeys : (db.plans.map (clearCurrent m)).any (·.key = (planRow m).key) =
        db.plans.any (·.key = (planRow m).key) := by
      rw [List.any_map]
      refine congrArg _ (funext fun r => ?_)
      unfold clearCurrent PlanRow.key
      dsimp only [Function.comp]
      split <;> rfl
    unfold Database.planOf Database.putStates Database.putDefinitions KeyedRows.insertMissing
    dsimp only
    rw [hkeys]
    by_cases hold : db.plans.any (·.key = (planRow m).key) = true
    · rw [if_pos hold, if_pos hold, hcleared]
    · rw [if_neg hold, if_neg hold, List.find?_append, hcleared]
      simp [planRow, PlanRow.plan]

theorem tasksOf_putTasks :
    (db.putTasks ((db.existing ctx m.state.id).map (·.currentPlanVersion)) m).tasksOf m.state.id
      m.state.plan.version = readTasks db ctx m := by
  unfold Database.putTasks readTasks known
  simp only [decide_eq_true_eq]
  split
  · rfl
  · refine KeyedRows.filter_insertAll ?_ ?_ db.tasks
    · intro x y hxy
      simp only [TaskRow.key, Prod.mk.injEq] at hxy
      rw [hxy.1, hxy.2.1]
    · intro r hr
      obtain ⟨t, -, rfl⟩ := List.mem_map.mp hr
      simp [taskRow]

theorem dependenciesOf_putTasks :
    (db.putTasks ((db.existing ctx m.state.id).map (·.currentPlanVersion)) m).dependenciesOf
      m.state.id m.state.plan.version = readDependencies db ctx m := by
  unfold Database.putTasks readDependencies known
  simp only [decide_eq_true_eq]
  split
  · rfl
  · refine KeyedRows.filter_insertAll ?_ ?_ db.dependencies
    · rintro x y rfl
      rfl
    · intro r hr
      obtain ⟨t, -, hr⟩ := List.mem_flatMap.mp hr
      obtain ⟨d, -, rfl⟩ := List.mem_map.mp hr
      simp

/-- The state that is read of a task is the one that was saved. -/
theorem stateOf_putTasks {current : Option Int} (hids : (m.state.tasks.map (·.id)).Nodup)
    {t : MissionTask} (ht : t ∈ m.state.tasks) :
    (db.putTasks current m).stateOf m.state.id m.state.plan.version t.id = some (stateRow m t) := by
  have hrows : ((m.state.tasks.map (stateRow m)).map StateRow.key).Nodup := by
    rw [List.map_map]
    refine List.Nodup.of_map (fun k => k.2.2) ?_
    simpa [Function.comp_def, StateRow.key, stateRow] using hids
  have hmem : stateRow m t ∈ m.state.tasks.map (stateRow m) := List.mem_map_of_mem ht
  have hfound : ∀ r, (db.putTasks current m).stateOf m.state.id m.state.plan.version t.id = some r →
      r = stateRow m t := by
    intro r hr
    have hkey := List.find?_some hr
    simp only [Bool.and_eq_true, decide_eq_true_eq] at hkey
    refine KeyedRows.eq_of_mem_upsertAll hrows hmem
      (List.mem_reverse.mp (List.mem_of_find?_eq_some hr)) ?_
    simp only [StateRow.key, stateRow, hkey.1.1, hkey.1.2, hkey.2]
  cases hstate : (db.putTasks current m).stateOf m.state.id m.state.plan.version t.id with
  | some r => rw [hfound r hstate]
  | none =>
    refine absurd ?_ (List.find?_eq_none.mp hstate (stateRow m t) ?_)
    · simp [stateRow]
    · exact List.mem_reverse.mpr (KeyedRows.mem_upsertAll hrows hmem)

/-! ## The row of the mission -/

/-- A row of the caller's that is bound is the one that is found. -/
theorem find_owned {row : MissionRow} (hrow : row ∈ db.missions)
    (howned : row.ownedBy ctx m.state.id = true) :
    db.missions.find? (fun r => r.ownedBy ctx m.state.id &&
      r.workspaceBindingState = .workspaceBound) =
      if row.workspaceBindingState = .workspaceBound then some row else none := by
  have hid : ∀ {r : MissionRow}, r.ownedBy ctx m.state.id = true → r.id = m.state.id := by
    intro r hr
    simp only [MissionRow.ownedBy, Bool.and_eq_true, decide_eq_true_eq] at hr
    exact hr.1.1
  have honly : ∀ r ∈ db.missions, r.ownedBy ctx m.state.id = true → r = row := fun r hr h =>
    List.inj_on_of_nodup_map db.missions_unique hr hrow ((hid h).trans (hid howned).symm)
  split
  next hbound =>
    cases hfind : db.missions.find? (fun r => r.ownedBy ctx m.state.id &&
        r.workspaceBindingState = .workspaceBound) with
    | none => exact absurd (by simp [howned, hbound]) (List.find?_eq_none.mp hfind row hrow)
    | some r =>
      have hr := List.find?_some hfind
      rw [Bool.and_eq_true] at hr
      rw [honly r (List.mem_of_find?_eq_some hfind) hr.1]
  next hunbound =>
    rw [List.find?_eq_none]
    intro r hr hfound
    rw [Bool.and_eq_true, decide_eq_true_eq] at hfound
    exact hunbound (honly r hr hfound.1 ▸ hfound.2)

/-- The row of the mission after a save. -/
structure Written (ctx : Context) (db : Database) (m : Mission) (row : MissionRow) : Prop where
  owned : row.ownedBy ctx m.state.id = true
  status : row.status = m.state.status
  currentPlanVersion : row.currentPlanVersion = m.state.plan.version
  outcomes : row.outcomes = m.state.outcomes
  version : row.version = m.version
  bound : row.workspaceBindingState = .workspaceBound ↔
    ∀ r, db.existing ctx m.state.id = some r → r.workspaceBindingState = .workspaceBound

/-- A save that succeeds writes the row of the mission, and its tasks. -/
theorem save_saved {db' : Database} {m' : Mission} (h : save db ctx m now = .saved db' m') :
    ctx.workspaceId ≠ "" ∧ m' = m.setVersion m.version ∧
      ∃ (db₁ : Database) (row : MissionRow), row ∈ db₁.missions ∧ Written ctx db m row ∧
        db₁.SameChildren db ∧
        db' = db₁.putTasks ((db.existing ctx m.state.id).map (·.currentPlanVersion)) m := by
  unfold save at h
  split at h
  · cases h
  next hctx =>
    simp only [not_or, not_not] at hctx
    obtain ⟨hws, hbound, hown, htenant⟩ := hctx
    refine ⟨hws, ?_⟩
    have howned : ∀ a b, (missionRow ctx m a b).ownedBy ctx m.state.id = true := fun a b => by
      simp [MissionRow.ownedBy, missionRow]
    dsimp only at h
    split at h
    next hnone =>
      split at h
      next hnew =>
        cases h
        have hmissing : db.existing ctx m.state.id = none := by
          cases hrow : db.existing ctx m.state.id with
          | none => rfl
          | some r =>
            rw [hrow] at hnone
            cases hl : m.loadedVersion <;> simp [hl] at hnone
        refine ⟨rfl, db.insertMission (missionRow ctx m now now) hnew, missionRow ctx m now now,
          List.mem_append_right _ (List.mem_singleton_self _),
          ⟨howned _ _, rfl, rfl, rfl, rfl, ?_⟩, ⟨rfl, rfl, rfl⟩, rfl⟩
        exact iff_of_true hbound fun r hr => by rw [hmissing] at hr; cases hr
      · cases h
    next expectedVersion hexpected =>
      split at h
      · cases h
      next hsame =>
        split at h
        · cases h
        next hsome =>
          cases h
          obtain ⟨r, hr⟩ := Option.ne_none_iff_exists'.mp (mt Option.isNone_iff_eq_none.mpr hsome)
          have hrown : r.ownedBy ctx m.state.id = true := by
            have hp := List.find?_some hr
            exact hp
          have hversion : r.version = expectedVersion := by simpa [hr] using hsame
          have hupdated : Database.updated ctx m expectedVersion now r = r.update ctx m now := by
            unfold Database.updated
            rw [if_pos (by simp [hrown, hversion])]
          refine ⟨rfl, db.updateMission ctx m expectedVersion now, r.update ctx m now, ?_,
            ⟨howned r.createdAt now, rfl, rfl, rfl, rfl, ?_⟩, ⟨rfl, rfl, rfl⟩, rfl⟩
          · exact hupdated ▸ List.mem_map_of_mem (List.mem_of_find?_eq_some hr)
          · rw [hr]
            simp [MissionRow.update]

/-! ## The tasks that are read -/

/-- The lists two maps make equal are made equal by any two that agree where those do. -/
theorem map_eq_map_of {α β γ δ : Type*} {f : α → γ} {g : β → γ} {d : α → δ} {e : β → δ}
    {l : List α} {l' : List β} (h : l.map d = l'.map e)
    (hfg : ∀ a ∈ l, ∀ b ∈ l', d a = e b → f a = g b) : l.map f = l'.map g := by
  induction l generalizing l' with
  | nil =>
    cases l' with
    | nil => rfl
    | cons b l' => cases h
  | cons a l ih =>
    cases l' with
    | nil => cases h
    | cons b l' =>
      obtain ⟨hhead, htail⟩ := List.cons.inj h
      rw [List.map_cons, List.map_cons, hfg a (by simp) b (by simp) hhead,
        ih htail fun x hx y hy => hfg x (List.mem_cons_of_mem a hx) y (List.mem_cons_of_mem b hy)]

theorem exists_mem_of_map_eq_map {α β γ : Type*} {f : α → γ} {g : β → γ} {l : List α} {l' : List β}
    (h : l.map f = l'.map g) {b : β} (hb : b ∈ l') : ∃ a ∈ l, f a = g b := by
  have hmem : g b ∈ l.map f := by
    rw [h]
    exact List.mem_map_of_mem hb
  exact List.mem_map.mp hmem

/-- The task that is read from a row. -/
def restored (plan : Plan) (dependencies : List DependencyRow) (state : Option StateRow)
    (r : TaskRow) : MissionTask :=
  withState (.init (r.props plan (dependsOn dependencies r.taskId))) state

/-- An output is read back unless it reads as absent. -/
theorem orUndefined_eq_iff (output : Option Json) :
    orUndefined (output.getD .null) = output ↔ ∀ v, output = some v → truthy v = true := by
  cases output with
  | none => simp [orUndefined, truthy]
  | some v =>
    unfold orUndefined
    by_cases hv : truthy v = true
    · simp [hv]
    · simp [hv]

/-- A row of the mission is read as the task iff it is the definition of the task and the rest is
what is stored of it. -/
theorem view_restored_iff {plan : Plan} {dependencies : List DependencyRow} {r : TaskRow}
    (hr : r.missionId = m.state.id ∧ r.planVersion = m.state.plan.version) (t : MissionTask) :
    view (restored plan dependencies (some (stateRow m t)) r) = view t ↔
      definition r = definition (taskRow m t) ∧ dependsOn dependencies t.id = t.dependsOn ∧
        Plain plan t := by
  obtain ⟨missionId, planVersion, taskId, agentId, agentVersion, taskType, requiredCapability,
    input, approvalGateId, deadline⟩ := r
  obtain ⟨rfl, rfl⟩ := hr
  have hplain : Plain plan t ↔ t.planId = plan.planId ∧ t.idempotencyKey = t.id ∧
      t.correlationId = "reconstituted" ∧ orUndefined (t.output.getD .null) = t.output := by
    rw [orUndefined_eq_iff]
    exact ⟨fun h => ⟨h.planId, h.idempotencyKey, h.correlationId, h.output⟩,
      fun h => ⟨h.1, h.2.1, h.2.2.1, h.2.2.2⟩⟩
  rw [hplain]
  obtain ⟨⟨id, tMission, planId, tAgent, tVersion, tType, tCapability, tInput, tDepends, tDeadline,
    tGate, key, correlation⟩, status, output, startedAt, completedAt⟩ := t
  simp only [view, restored, withState, MissionTask.init, TaskRow.props, definition, taskRow,
    stateRow, MissionTask.mk.injEq, MissionTaskProps.mk.injEq, TaskRow.mk.injEq]
  constructor
  · rintro ⟨⟨rfl, -, hplan, rfl, rfl, -, rfl, rfl, hdeps, rfl, rfl, hkey, hcorr⟩, -, hout, -⟩
    exact ⟨⟨trivial, trivial, rfl, rfl, rfl, trivial, rfl, rfl, rfl, rfl⟩, hdeps, hplan.symm,
      hkey.symm, hcorr.symm, hout⟩
  · rintro ⟨⟨-, -, rfl, rfl, rfl, -, rfl, rfl, rfl, rfl⟩, hdeps, hplan, hkey, hcorr, hout⟩
    exact ⟨⟨rfl, trivial, hplan.symm, rfl, rfl, trivial, rfl, rfl, hdeps, rfl, rfl, hkey.symm,
      hcorr.symm⟩, trivial, hout, trivial, trivial⟩

/-! ## What is found after a save -/

/-- What `findById` reads after a save that succeeded. -/
structure Found (ctx : Context) (scan : Scan) (db : Database) (m : Mission) (db' : Database)
    (found : Mission) : Prop where
  status : found.state.status = m.state.status
  version : found.version = m.version
  plan : found.state.plan = readPlan db ctx m
  outcomes : found.state.outcomes = m.state.outcomes
  tasks : found.state.tasks = (scan.tasks (readTasks db ctx m)).map fun r =>
    restored (readPlan db ctx m) (scan.dependencies (readDependencies db ctx m))
      (db'.stateOf m.state.id m.state.plan.version r.taskId) r

theorem missions_putTasks (db : Database) (current : Option Int) (m : Mission) :
    (db.putTasks current m).missions = db.missions := by
  unfold Database.putTasks
  split <;> rfl

/-- The rows of the children after a save. -/
structure Children (ctx : Context) (db : Database) (m : Mission) (db' : Database) : Prop where
  plan : db'.planOf m.state.id m.state.plan.version = readPlan db ctx m
  tasks : db'.tasksOf m.state.id m.state.plan.version = readTasks db ctx m
  dependencies : db'.dependenciesOf m.state.id m.state.plan.version = readDependencies db ctx m
  states : (m.state.tasks.map (·.id)).Nodup → ∀ t ∈ m.state.tasks,
    db'.stateOf m.state.id m.state.plan.version t.id = some (stateRow m t)

theorem Children.of_saved {db₁ : Database} (h : db₁.SameChildren db) : Children ctx db m
    (db₁.putTasks ((db.existing ctx m.state.id).map (·.currentPlanVersion)) m) := by
  have hsame := h.putTasks ((db.existing ctx m.state.id).map (·.currentPlanVersion)) (m := m)
  refine ⟨?_, ?_, ?_, fun hids t ht => stateOf_putTasks hids ht⟩
  · unfold Database.planOf
    rw [hsame.plans]
    exact planOf_putTasks
  · unfold Database.tasksOf
    rw [hsame.tasks]
    exact tasksOf_putTasks
  · unfold Database.dependenciesOf
    rw [hsame.dependencies]
    exact dependenciesOf_putTasks

/-- A save that succeeds is found again where the row it wrote is bound. -/
theorem findById_saved {db' : Database} {m' : Mission}
    (h : save db ctx m now = .saved db' m') (scan : Scan) :
    Children ctx db m db' ∧ m' = m.setVersion m.version ∧
      ((∀ r, db.existing ctx m.state.id = some r → r.workspaceBindingState = .workspaceBound) →
        ∃ found, findById db' scan ctx m.state.id = some found ∧ Found ctx scan db m db' found) ∧
      ∀ found, findById db' scan ctx m.state.id = some found →
        Found ctx scan db m db' found ∧ ∀ r, db.existing ctx m.state.id = some r →
          r.workspaceBindingState = .workspaceBound := by
  obtain ⟨hws, hm', db₁, row, hrow, hwritten, hsame, rfl⟩ := save_saved h
  have hchildren : Children ctx db m _ := .of_saved hsame
  have hid : row.id = m.state.id := by
    have howned := hwritten.owned
    simp only [MissionRow.ownedBy, Bool.and_eq_true, decide_eq_true_eq] at howned
    exact howned.1.1
  generalize hdb' : db₁.putTasks ((db.existing ctx m.state.id).map (·.currentPlanVersion)) m = db'
    at hchildren
  have hmissions : db'.missions = db₁.missions := by
    rw [← hdb']
    exact missions_putTasks db₁ _ m
  have hfind := find_owned hrow hwritten.owned
  have hfound : Found ctx scan db m db' (.reconstitute (db'.restore scan row) row.version) := by
    refine ⟨hwritten.status, hwritten.version, ?_, hwritten.outcomes, ?_⟩
    · show db'.planOf row.id row.currentPlanVersion = _
      rw [hid, hwritten.currentPlanVersion, hchildren.plan]
    · show (scan.tasks (db'.tasksOf row.id row.currentPlanVersion)).map _ = _
      rw [hid, hwritten.currentPlanVersion, hchildren.plan, hchildren.tasks,
        hchildren.dependencies]
      rfl
  have hlookup : findById db' scan ctx m.state.id =
      if row.workspaceBindingState = .workspaceBound then
        some (.reconstitute (db'.restore scan row) row.version) else none := by
    unfold findById
    rw [if_neg hws, hmissions, hfind]
    split <;> rfl
  rw [hlookup]
  refine ⟨hchildren, hm', fun hbound => ?_, fun found hf => ?_⟩
  · exact ⟨_, if_pos (hwritten.bound.mpr hbound), hfound⟩
  · split at hf
    next hbound =>
      cases hf
      exact ⟨hfound, hwritten.bound.mp hbound⟩
    · cases hf

/-- Rows with different keys are those of different tasks. -/
theorem readTasks_ids {db' : Database} (h : Children ctx db m db') :
    ((scan.tasks (readTasks db ctx m)).map (·.taskId)).Nodup := by
  rw [((scan.tasks_perm _).map _).nodup_iff, ← h.tasks]
  refine List.Nodup.map_on ?_ (db'.tasks_unique.of_map.filter _)
  intro x hx y hy hxy
  obtain ⟨hx, hx'⟩ := List.mem_filter.mp hx
  obtain ⟨hy, hy'⟩ := List.mem_filter.mp hy
  simp only [Bool.and_eq_true, decide_eq_true_eq] at hx' hy'
  refine List.inj_on_of_nodup_map db'.tasks_unique hx hy ?_
  rw [TaskRow.key, TaskRow.key, hx'.1, hx'.2, hy'.1, hy'.2, hxy]

theorem of_mem_readTasks {db' : Database} (h : Children ctx db m db') {r : TaskRow}
    (hr : r ∈ scan.tasks (readTasks db ctx m)) :
    r.missionId = m.state.id ∧ r.planVersion = m.state.plan.version := by
  rw [(scan.tasks_perm _).mem_iff, ← h.tasks] at hr
  simpa using (List.mem_filter.mp hr).2

/-- The tasks that are found are those of the mission iff their definitions, dependencies and
the rest are. -/
theorem tasks_iff {db' : Database} (h : Children ctx db m db') {plan : Plan}
    {dependencies : List DependencyRow} :
    ((scan.tasks (readTasks db ctx m)).map fun r => view (restored plan dependencies
        (db'.stateOf m.state.id m.state.plan.version r.taskId) r)) = m.state.tasks.map view ↔
      ((scan.tasks (readTasks db ctx m)).map definition =
          m.state.tasks.map fun t => definition (taskRow m t)) ∧
        (∀ t ∈ m.state.tasks, dependsOn dependencies t.id = t.dependsOn) ∧
        ∀ t ∈ m.state.tasks, Plain plan t := by
  -- where a row is the task's, the state that is read is the one that was saved
  have hone : (m.state.tasks.map (·.id)).Nodup → ∀ r ∈ scan.tasks (readTasks db ctx m),
      ∀ t ∈ m.state.tasks, r.taskId = t.id →
      (view (restored plan dependencies (db'.stateOf m.state.id m.state.plan.version r.taskId) r) =
          view t ↔ definition r = definition (taskRow m t) ∧
        dependsOn dependencies t.id = t.dependsOn ∧ Plain plan t) := by
    intro hids r hr t ht hid
    rw [hid, h.states hids t ht]
    exact view_restored_iff (of_mem_readTasks h hr) t
  have hrows : ((scan.tasks (readTasks db ctx m)).map (·.taskId)).Nodup := readTasks_ids h
  constructor
  · intro hviews
    have hid : ∀ r ∈ scan.tasks (readTasks db ctx m), ∀ t ∈ m.state.tasks,
        view (restored plan dependencies (db'.stateOf m.state.id m.state.plan.version r.taskId) r) =
          view t → r.taskId = t.id := by
      intro r _ t _ hv
      have := congrArg (fun t : MissionTask => t.id) hv
      cases hstate : db'.stateOf m.state.id m.state.plan.version r.taskId <;>
        simpa [view, restored, withState, MissionTask.init, TaskRow.props, hstate] using this
    have hids : (m.state.tasks.map (·.id)).Nodup := by
      rw [← map_eq_map_of hviews hid]
      exact hrows
    refine ⟨map_eq_map_of hviews fun r hr t ht hv =>
      ((hone hids r hr t ht (hid r hr t ht hv)).mp hv).1, fun t ht => ?_, fun t ht => ?_⟩
    · obtain ⟨r, hr, hv⟩ := exists_mem_of_map_eq_map hviews ht
      exact ((hone hids r hr t ht (hid r hr t ht hv)).mp hv).2.1
    · obtain ⟨r, hr, hv⟩ := exists_mem_of_map_eq_map hviews ht
      exact ((hone hids r hr t ht (hid r hr t ht hv)).mp hv).2.2
  · rintro ⟨hdefs, hdeps, hplain⟩
    have hid : ∀ r ∈ scan.tasks (readTasks db ctx m), ∀ t ∈ m.state.tasks,
        definition r = definition (taskRow m t) → r.taskId = t.id :=
      fun _ _ _ _ hd => congrArg TaskRow.taskId hd
    have hids : (m.state.tasks.map (·.id)).Nodup := by
      rw [← map_eq_map_of hdefs hid]
      exact hrows
    exact map_eq_map_of hdefs fun r hr t ht hd =>
      (hone hids r hr t ht (hid r hr t ht hd)).mpr ⟨hd, hdeps t ht, hplain t ht⟩

/-- **A save that succeeds is read back unchanged iff the mission is `Recorded`.** -/
theorem roundTrips_iff :
    RoundTrips ctx scan now db m ↔
      ((∃ db' m', save db ctx m now = .saved db' m') → Recorded ctx scan db m) := by
  constructor
  · rintro h ⟨db', m', hsave⟩
    obtain ⟨found, hfound, hsame⟩ := h db' m' hsave
    obtain ⟨hchildren, rfl, -, hread⟩ := findById_saved hsave scan
    obtain ⟨hread, hbound⟩ := hread found hfound
    have hplan : readPlan db ctx m = m.state.plan := hread.plan.symm.trans hsame.plan
    have htasks := hsame.tasks
    rw [hread.tasks, List.map_map] at htasks
    obtain ⟨hdefs, hdeps, hplain⟩ := (tasks_iff hchildren).mp htasks
    exact ⟨hbound, hplan, hdefs, hdeps, hplan ▸ hplain⟩
  · intro h db' m' hsave
    have hrec := h ⟨db', m', hsave⟩
    obtain ⟨hchildren, rfl, hread, -⟩ := findById_saved hsave scan
    obtain ⟨found, hfound, hread⟩ := hread hrec.bound
    refine ⟨found, hfound, hread.status, hread.version, hread.plan.trans hrec.plan, hread.outcomes,
      ?_⟩
    rw [hread.tasks, List.map_map]
    exact (tasks_iff hchildren).mpr ⟨hrec.definitions, hrec.dependencies,
      hrec.plan.symm ▸ hrec.tasks⟩

end

/-! ## Histories -/

/-- What a caller works with: the database and its copy of the mission. -/
structure Session where
  db : Database
  mission : Mission

inductive Request where
  | operate (op : Mission.Op) (now : Date)
  | save (scan : Scan) (now : Date)
  | findById (scan : Scan)

/-- A save that is refused changes nothing; a load that finds nothing keeps the copy. -/
def step (ctx : Context) : Machine.Step Session Request Unit
  | s, .operate op now => ({ s with mission := (op.apply now s.mission).1 }, ())
  | s, .save _ now =>
    (match save s.db ctx s.mission now with
    | .saved db mission => ⟨db, mission⟩
    | _ => s, ())
  | s, .findById scan =>
    ({ s with mission := (findById s.db scan ctx s.mission.state.id).getD s.mission }, ())

/-- Where the request is a save, it is read back unchanged. -/
def ReadsBack (ctx : Context) (s : Session) (r : Request) : Prop :=
  ∀ scan now, r = .save scan now → RoundTrips ctx scan now s.db s.mission

/-- Where the request is a save that succeeds, the mission is `Recorded`. -/
def SavesRecorded (ctx : Context) (s : Session) (r : Request) : Prop :=
  ∀ scan now, r = .save scan now →
    (∃ db' m', save s.db ctx s.mission now = .saved db' m') → Recorded ctx scan s.db s.mission

/-- **Along a history of operations, saves and loads, every save that succeeds is read back
unchanged iff the mission is `Recorded` at every one of them.** -/
theorem alwaysRoundTrips_iff (ctx : Context) (s : Session) (h : List Request) :
    Machine.Meets (step ctx) (ReadsBack ctx) s h ↔
      Machine.Meets (step ctx) (SavesRecorded ctx) s h :=
  Machine.meets_congr (fun _ _ => forall₃_congr fun _ _ _ => roundTrips_iff) h

/-- A task that carries what the repository fills in. -/
def plainTask (id : String) : MissionTaskProps :=
  { Mission.sampleTask id [] with idempotencyKey := id, correlationId := "reconstituted" }

/-- A task is added after the version of the plan was stored. -/
def addedLater : List Request :=
  [.operate (.addTask (plainTask "research")) 0, .save .inserted 0,
    .operate (.addTask (plainTask "draft")) 0, .save .inserted 0]

def sampleContext : Context := ⟨"tenant", "workspace"⟩

/-- The added task is not found again. -/
theorem not_alwaysRoundTrips :
    ¬ Machine.Meets (step sampleContext) (ReadsBack sampleContext) ⟨{}, Mission.sampleCreated⟩
      addedLater := by
  intro h
  have hlast := h.2.2.2.1 .inserted 0 rfl
  have hrec := roundTrips_iff.mp hlast ⟨_, _, rfl⟩
  have hlength := congrArg List.length hrec.definitions
  revert hlength
  decide +kernel

end VegaRevenue.MissionRepository
