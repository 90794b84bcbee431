import VegaRevenue.Domain.Mission
import VegaRevenue.Lib.KeyedRows

/-!
# The mission repository on Postgres

A mission is a row of `mission.missions`; its plan, the definitions of its tasks, their
dependencies and their execution states are rows of four more tables, each under a version of the
plan. No query has an `ORDER BY`, so a `Scan` says in which order the rows come.

* `findById`, `save` — the two methods
-/

namespace VegaRevenue.MissionRepository

open Versioned
open Mission (Props Plan Budget Constraints SuccessCriteria Outcomes WorkspaceBindingState)

/-! ## The tables -/

structure MissionRow where
  id : String
  tenantId : String
  workspaceId : Option String
  workspaceBindingState : WorkspaceBindingState
  ownerUserId : String
  name : String
  objective : String
  icpId : String
  territory : List String
  channels : List String
  budget : Budget
  autonomyLevel : Rat
  constraints : Constraints
  successCriteria : SuccessCriteria
  deadline : Option Date
  status : Mission.Status
  currentPlanVersion : Int
  outcomes : Outcomes
  version : Nat
  createdAt : Date
  updatedAt : Date

structure PlanRow where
  missionId : String
  version : Int
  planId : String
  isCurrent : Bool
  objectives : List Json
  phases : List Json
  approvalGates : List Json
  fallbackBranches : List Json

structure TaskRow where
  missionId : String
  planVersion : Int
  taskId : String
  agentId : String
  agentVersion : String
  taskType : String
  requiredCapability : Option String
  input : Json
  approvalGateId : Option String
  deadline : Option Date

structure DependencyRow where
  missionId : String
  planVersion : Int
  taskId : String
  dependsOnTaskId : String
deriving DecidableEq

structure StateRow where
  missionId : String
  planVersion : Int
  taskId : String
  status : TaskStatus
  output : Json
  startedAt : Option Date
  completedAt : Option Date

/-- The keys of the unique indexes. -/
def PlanRow.key (r : PlanRow) : String × Int := (r.missionId, r.version)

def TaskRow.key (r : TaskRow) : String × Int × String := (r.missionId, r.planVersion, r.taskId)

def StateRow.key (r : StateRow) : String × Int × String := (r.missionId, r.planVersion, r.taskId)

structure Database where
  missions : List MissionRow := []
  plans : List PlanRow := []
  tasks : List TaskRow := []
  dependencies : List DependencyRow := []
  states : List StateRow := []
  missions_unique : (missions.map (·.id)).Nodup := by simp
  tasks_unique : (tasks.map TaskRow.key).Nodup := by simp

/-- The order in which rows come. -/
structure Scan where
  tasks : List TaskRow → List TaskRow
  dependencies : List DependencyRow → List DependencyRow
  tasks_perm : ∀ rows, (tasks rows).Perm rows
  dependencies_perm : ∀ rows, (dependencies rows).Perm rows

/-- Rows in the order in which they were inserted. -/
def Scan.inserted : Scan := ⟨id, id, fun _ => .refl _, fun _ => .refl _⟩

/-! ## `findById` -/

def truthy : Json → Bool
  | .null => false
  | .bool b => b
  | .num q => q ≠ 0
  | .str s => s ≠ ""
  | _ => true

/-- `v ? v : undefined`. -/
def orUndefined (v : Json) : Option Json := if truthy v then some v else none

/-- The plan that is read where no row of the version is current. -/
def missingPlan (missionId : String) (version : Int) : Plan where
  planId := missionId ++ "-plan"
  version := version

def PlanRow.plan (r : PlanRow) : Plan where
  planId := r.planId
  version := r.version
  objectives := r.objectives
  phases := r.phases
  approvalGates := r.approvalGates
  fallbackBranches := r.fallbackBranches

namespace Database

def planOf (db : Database) (missionId : String) (version : Int) : Plan :=
  match db.plans.find? fun r => r.missionId = missionId && r.version = version && r.isCurrent with
  | some r => { r.plan with version }
  | none => missingPlan missionId version

def tasksOf (db : Database) (missionId : String) (version : Int) : List TaskRow :=
  db.tasks.filter fun r => r.missionId = missionId && r.planVersion = version

def dependenciesOf (db : Database) (missionId : String) (version : Int) : List DependencyRow :=
  db.dependencies.filter fun r => r.missionId = missionId && r.planVersion = version

/-- `stateByTask.get(taskId)`: the map holds the last row of a task. -/
def stateOf (db : Database) (missionId : String) (version : Int) (taskId : String) :
    Option StateRow :=
  db.states.reverse.find? fun r =>
    r.missionId = missionId && r.planVersion = version && r.taskId = taskId

end Database

/-- The task of a row, before its execution state. -/
def TaskRow.props (r : TaskRow) (plan : Plan) (dependsOn : List String) : MissionTaskProps where
  id := r.taskId
  missionId := r.missionId
  planId := plan.planId
  agentId := r.agentId
  agentVersion := r.agentVersion
  taskType := r.taskType
  requiredCapability := r.requiredCapability
  input := r.input
  dependsOn := dependsOn
  deadline := r.deadline
  approvalGateId := r.approvalGateId
  idempotencyKey := r.taskId
  correlationId := "reconstituted"

def withState (t : MissionTask) : Option StateRow → MissionTask
  | some s =>
    { t with
      status := s.status
      output := orUndefined s.output
      startedAt := s.startedAt
      completedAt := s.completedAt }
  | none => t

/-- `depsByTask.get(taskId)`. -/
def dependsOn (rows : List DependencyRow) (taskId : String) : List String :=
  (rows.filter (·.taskId = taskId)).map (·.dependsOnTaskId)

def Database.restore (db : Database) (scan : Scan) (row : MissionRow) : Props :=
  let plan := db.planOf row.id row.currentPlanVersion
  let dependencies := scan.dependencies (db.dependenciesOf row.id row.currentPlanVersion)
  { id := row.id
    tenantId := row.tenantId
    workspaceId := row.workspaceId
    workspaceBindingState := row.workspaceBindingState
    name := row.name
    objective := row.objective
    icpId := row.icpId
    territory := row.territory
    channels := row.channels
    budget := row.budget
    autonomyLevel := row.autonomyLevel
    constraints := row.constraints
    successCriteria := row.successCriteria
    deadline := row.deadline
    ownerUserId := row.ownerUserId
    plan := plan
    status := row.status
    tasks := (scan.tasks (db.tasksOf row.id row.currentPlanVersion)).map fun r =>
      withState (.init (r.props plan (dependsOn dependencies r.taskId)))
        (db.stateOf row.id row.currentPlanVersion r.taskId)
    approvals := []
    outcomes := row.outcomes
    createdAt := row.createdAt
    updatedAt := row.updatedAt }

/-- The row is the caller's. -/
def MissionRow.ownedBy (r : MissionRow) (ctx : Context) (id : String) : Bool :=
  r.id = id && r.tenantId = ctx.tenantId && r.workspaceId = some ctx.workspaceId

def findById (db : Database) (scan : Scan) (ctx : Context) (missionId : String) :
    Option Mission :=
  if ctx.workspaceId = "" then none
  else
    (db.missions.find? fun r =>
      r.ownedBy ctx missionId && r.workspaceBindingState = .workspaceBound).map fun row =>
        .reconstitute (db.restore scan row) row.version

/-! ## `save` -/

inductive Saved where
  | saved (db : Database) (mission : Mission)
  | conflict (message : String)
  | threw (message : String)

def missionRow (ctx : Context) (m : Mission) (createdAt updatedAt : Date) : MissionRow where
  id := m.state.id
  tenantId := ctx.tenantId
  workspaceId := some ctx.workspaceId
  workspaceBindingState := m.state.workspaceBindingState
  ownerUserId := m.state.ownerUserId
  name := m.state.name
  objective := m.state.objective
  icpId := m.state.icpId
  territory := m.state.territory
  channels := m.state.channels
  budget := m.state.budget
  autonomyLevel := m.state.autonomyLevel
  constraints := m.state.constraints
  successCriteria := m.state.successCriteria
  deadline := m.state.deadline
  status := m.state.status
  currentPlanVersion := m.state.plan.version
  outcomes := m.state.outcomes
  version := m.version
  createdAt := createdAt
  updatedAt := updatedAt

/-- The `UPDATE` leaves the binding and `created_at` as they are. -/
def MissionRow.update (r : MissionRow) (ctx : Context) (m : Mission) (now : Date) : MissionRow :=
  { missionRow ctx m r.createdAt now with workspaceBindingState := r.workspaceBindingState }

def planRow (m : Mission) : PlanRow where
  missionId := m.state.id
  version := m.state.plan.version
  planId := m.state.plan.planId
  isCurrent := true
  objectives := m.state.plan.objectives
  phases := m.state.plan.phases
  approvalGates := m.state.plan.approvalGates
  fallbackBranches := m.state.plan.fallbackBranches

def taskRow (m : Mission) (t : MissionTask) : TaskRow where
  missionId := m.state.id
  planVersion := m.state.plan.version
  taskId := t.id
  agentId := t.agentId
  agentVersion := t.agentVersion
  taskType := t.taskType
  requiredCapability := t.requiredCapability
  input := t.input
  approvalGateId := t.approvalGateId
  deadline := t.deadline

def dependencyRows (m : Mission) (t : MissionTask) : List DependencyRow :=
  t.dependsOn.map fun dep => ⟨m.state.id, m.state.plan.version, t.id, dep⟩

/-- `JSON.stringify(task.output ?? null)`. -/
def stateRow (m : Mission) (t : MissionTask) : StateRow where
  missionId := m.state.id
  planVersion := m.state.plan.version
  taskId := t.id
  status := t.status
  output := t.output.getD .null
  startedAt := t.startedAt
  completedAt := t.completedAt

def clearCurrent (m : Mission) (r : PlanRow) : PlanRow :=
  if r.missionId = m.state.id then { r with isCurrent := false } else r

namespace Database

/-- The plan and the definitions of the tasks, written where the version of the plan changed. -/
def putDefinitions (db : Database) (m : Mission) : Database :=
  { db with
    plans := KeyedRows.insertMissing PlanRow.key (db.plans.map (clearCurrent m)) (planRow m)
    tasks := KeyedRows.insertAll TaskRow.key db.tasks (m.state.tasks.map (taskRow m))
    dependencies :=
      KeyedRows.insertAll id db.dependencies (m.state.tasks.flatMap (dependencyRows m))
    tasks_unique := KeyedRows.insertAll_keys db.tasks_unique _ }

def putStates (db : Database) (m : Mission) : Database :=
  { db with
    states := KeyedRows.upsertAll StateRow.key db.states (m.state.tasks.map (stateRow m)) }

/-- What follows the write of the mission row. -/
def putTasks (db : Database) (currentDbVersion : Option Int) (m : Mission) : Database :=
  (if currentDbVersion = some m.state.plan.version then db else db.putDefinitions m).putStates m

/-- The row the save finds. -/
def existing (db : Database) (ctx : Context) (id : String) : Option MissionRow :=
  db.missions.find? (·.ownedBy ctx id)

def insertMission (db : Database) (row : MissionRow) (h : db.missions.any (·.id = row.id) = false) :
    Database :=
  { db with
    missions := db.missions ++ [row]
    missions_unique := by
      rw [List.map_append, List.map_singleton]
      exact List.nodup_append'.mpr ⟨db.missions_unique, List.nodup_singleton _, by simpa using h⟩ }

/-- The row after the `UPDATE`, where it is the one. -/
def updated (ctx : Context) (m : Mission) (version : Nat) (now : Date) (r : MissionRow) :
    MissionRow :=
  if r.ownedBy ctx m.state.id && r.version = version then r.update ctx m now else r

theorem updated_id (ctx : Context) (m : Mission) (version : Nat) (now : Date) (r : MissionRow) :
    (updated ctx m version now r).id = r.id := by
  unfold updated
  split
  next h =>
    simp only [MissionRow.ownedBy, Bool.and_eq_true, decide_eq_true_eq] at h
    exact h.1.1.1.symm
  · rfl

def updateMission (db : Database) (ctx : Context) (m : Mission) (version : Nat) (now : Date) :
    Database :=
  { db with
    missions := db.missions.map (updated ctx m version now)
    missions_unique := by
      have hids : (db.missions.map (updated ctx m version now)).map (·.id) =
          db.missions.map (·.id) := by
        simp [updated_id]
      rw [hids]
      exact db.missions_unique }

end Database

def save (db : Database) (ctx : Context) (m : Mission) (now : Date) : Saved :=
  if ctx.workspaceId = "" ∨ m.state.workspaceBindingState ≠ .workspaceBound ∨
      m.state.workspaceId ≠ some ctx.workspaceId ∨ m.state.tenantId ≠ ctx.tenantId then
    .threw "Mission workspace ownership mismatch"
  else
    let row := db.existing ctx m.state.id
    let written (db' : Database) : Saved :=
      .saved (db'.putTasks (row.map (·.currentPlanVersion)) m) (m.setVersion m.version)
    match m.loadedVersion.or (row.map (·.version)) with
    | none =>
      if h : db.missions.any (·.id = m.state.id) = false then
        written (db.insertMission (missionRow ctx m now now) h)
      else .conflict ("Insert failed: mission " ++ m.state.id ++ " already exists")
    | some expectedVersion =>
      if row.any (·.version ≠ expectedVersion) then
        .conflict ("Mission " ++ m.state.id ++ " was modified by another transaction")
      else if row.isNone then
        .conflict ("Update failed: expected version " ++ toString expectedVersion ++
          " for mission " ++ m.state.id ++ " is stale")
      else written (db.updateMission ctx m expectedVersion now)

end VegaRevenue.MissionRepository
