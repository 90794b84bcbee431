import VegaRevenue.Domain.Mission
import VegaRevenue.Shared.JsonRecord

/-!
# The mission planner

`MissionPlanner` selects the phase templates a mission requires and makes a phase with one task of
each. The agents are filtered for by capability; the dependencies of a template are copied as they
stand.

* `plan_eq_ok_iff` — when there is a plan, and which
-/

namespace VegaRevenue

/-! ## Contracts -/

structure TaskContract where
  taskId : String
  missionId : String
  planId : String
  agentId : String
  agentVersion : String
  taskType : String
  requiredCapability : Option String := none
  status : TaskStatus
  input : Json
  output : Option Json := none
  dependsOn : List String
  deadline : Option Date := none
  approvalGateId : Option String

structure PlanPhase where
  phaseId : String
  name : String
  tasks : List TaskContract
  approvalGate : Option Json := none

structure PlanContract where
  planId : String
  missionId : String
  version : Int
  objectives : List Json
  phases : List PlanPhase
  approvalGates : List Json
  fallbackBranches : List Json

/-- A mission as planners and agents see it. -/
structure MissionContract where
  missionId : String
  tenantId : String
  name : String
  objective : String
  icpId : String
  territory : List String
  channels : List String
  budget : Mission.Budget
  autonomyLevel : Rat
  constraints : Mission.Constraints
  successCriteria : Mission.SuccessCriteria
  deadline : Option Date
  ownerUserId : String
  status : Mission.Status
  /-- The plan of the mission; its `missionId` is that of the mission. -/
  plan : Mission.Plan
  tasks : List TaskContract
  approvals : List Json
  outcomes : Mission.Outcomes
  createdAt : Date
  updatedAt : Date

structure AgentContract where
  agentId : String
  version : String
  capabilities : List String
deriving DecidableEq

structure PlanningRequest where
  mission : MissionContract
  availableAgents : List AgentContract

structure PhaseTemplate where
  phaseId : String
  name : String
  capability : String
  requiredWhen : MissionContract → Bool
  dependencies : List String
  taskType : String

/-! ## The planner -/

namespace MissionPlanner

/-- The message of a `PlannerError`. -/
def plannerError (message : String) : String := "Planner: " ++ message

def selectedPhases (phaseTemplates : List PhaseTemplate) (request : PlanningRequest) :
    List PhaseTemplate := phaseTemplates.filter fun template => template.requiredWhen request.mission

def missingCapabilities (selected : List PhaseTemplate) (agents : List AgentContract) :
    List String :=
  (selected.map (·.capability)).filter (· ∉ agents.flatMap (·.capabilities))

def selectAgent (agents : List AgentContract) (capability : String) : Option AgentContract :=
  agents.find? fun agent => agent.capabilities.contains capability

def taskId (missionId phaseId : String) : String := missionId ++ "-" ++ phaseId ++ "-task"

def planId (missionId : String) : String := missionId ++ "-plan"

def task (mission : MissionContract) (template : PhaseTemplate) (agent : AgentContract) :
    TaskContract where
  taskId := taskId mission.missionId template.phaseId
  missionId := mission.missionId
  planId := planId mission.missionId
  agentId := agent.agentId
  agentVersion := agent.version
  taskType := template.taskType
  status := .pending
  input := .obj [("objective", .str mission.objective), ("channel", .str template.phaseId)]
  dependsOn := template.dependencies.map (taskId mission.missionId)
  approvalGateId := none

/-- The body of the loop over the templates. -/
def phase (request : PlanningRequest) (template : PhaseTemplate) : Except String PlanPhase :=
  match selectAgent request.availableAgents template.capability with
  | none => .error (plannerError ("No agent provides capability " ++ template.capability))
  | some agent => .ok {
      phaseId := request.mission.missionId ++ "-" ++ template.phaseId
      name := template.name
      tasks := [task request.mission template agent] }

/-- `MissionPlanner.plan`; the message it throws otherwise. -/
def plan (phaseTemplates : List PhaseTemplate) (tenantId : String) (request : PlanningRequest) :
    Except String PlanContract :=
  let selected := selectedPhases phaseTemplates request
  let missing := missingCapabilities selected request.availableAgents
  if request.mission.tenantId ≠ tenantId then
    .error (plannerError "Mission tenant does not match execution context")
  else if selected.isEmpty then
    .error (plannerError "No applicable phase templates for the mission")
  else if missing ≠ [] then
    .error (plannerError
      ("Missing required capabilities: " ++ ", ".intercalate missing.eraseDups))
  else do
    let phases ← selected.mapM (phase request)
    .ok {
      planId := planId request.mission.missionId
      missionId := request.mission.missionId
      version := 1
      objectives := [.str request.mission.objective]
      phases
      approvalGates := []
      fallbackBranches := [] }

/-! ## When there is a plan -/

/-- The agent of a template, one without a name where none provides the capability. -/
def agentOf (agents : List AgentContract) (template : PhaseTemplate) : AgentContract :=
  (selectAgent agents template.capability).getD ⟨"", "", []⟩

/-- The phase of a template with its agent. -/
def phaseOf (request : PlanningRequest) (template : PhaseTemplate) : PlanPhase where
  phaseId := request.mission.missionId ++ "-" ++ template.phaseId
  name := template.name
  tasks := [task request.mission template (agentOf request.availableAgents template)]

/-- The plan of the selected templates. -/
def planOf (request : PlanningRequest) (selected : List PhaseTemplate) : PlanContract where
  planId := planId request.mission.missionId
  missionId := request.mission.missionId
  version := 1
  objectives := [.str request.mission.objective]
  phases := selected.map (phaseOf request)
  approvalGates := []
  fallbackBranches := []

/-- A template is required, and agents provide every capability of those that are. -/
structure Plannable (phaseTemplates : List PhaseTemplate) (tenantId : String)
    (request : PlanningRequest) : Prop where
  tenant : request.mission.tenantId = tenantId
  selected : selectedPhases phaseTemplates request ≠ []
  capable : ∀ template ∈ selectedPhases phaseTemplates request,
    ∃ agent ∈ request.availableAgents, template.capability ∈ agent.capabilities

section

variable {phaseTemplates : List PhaseTemplate} {tenantId : String} {request : PlanningRequest}

/-- A loop none of whose rounds throws. -/
theorem mapM_eq_ok {α β : Type} {f : α → Except String β} {g : α → β} :
    ∀ {xs : List α}, (∀ x ∈ xs, f x = .ok (g x)) → xs.mapM f = .ok (xs.map g) := by
  intro xs
  induction xs with
  | nil => exact fun _ => rfl
  | cons x xs ih =>
    intro h
    rw [List.mapM_cons, h x (.head _), ih fun x' hx' => h x' (.tail _ hx')]
    rfl

theorem selectAgent_isSome {agents : List AgentContract} {capability : String}
    (h : ∃ agent ∈ agents, capability ∈ agent.capabilities) :
    ∃ agent, selectAgent agents capability = some agent := by
  refine Option.isSome_iff_exists.mp (List.find?_isSome.mpr ?_)
  obtain ⟨agent, hagent, hcapability⟩ := h
  exact ⟨agent, hagent, by simpa using hcapability⟩

theorem missingCapabilities_eq_nil_iff {selected : List PhaseTemplate}
    {agents : List AgentContract} : missingCapabilities selected agents = [] ↔
      ∀ template ∈ selected, ∃ agent ∈ agents, template.capability ∈ agent.capabilities := by
  unfold missingCapabilities
  simp

theorem phase_eq_ok {template : PhaseTemplate}
    (h : ∃ agent ∈ request.availableAgents, template.capability ∈ agent.capabilities) :
    phase request template = .ok (phaseOf request template) := by
  obtain ⟨agent, hagent⟩ := selectAgent_isSome h
  unfold phase phaseOf agentOf
  rw [hagent]
  rfl

/-- **There is a plan iff a template is required and agents provide what the required ones need**,
and then it is that of the selected templates. -/
theorem plan_eq_ok_iff {result : PlanContract} : plan phaseTemplates tenantId request = .ok result ↔
    Plannable phaseTemplates tenantId request ∧
      result = planOf request (selectedPhases phaseTemplates request) := by
  unfold plan
  dsimp only
  split
  next htenant => exact iff_of_false nofun fun h => htenant h.1.tenant
  next htenant =>
    split
    next hempty => exact iff_of_false nofun fun h => h.1.selected (List.isEmpty_iff.mp hempty)
    next hempty =>
      split
      next hmissing =>
        exact iff_of_false nofun fun h => hmissing (missingCapabilities_eq_nil_iff.mpr h.1.capable)
      next hmissing =>
        have hcapable := missingCapabilities_eq_nil_iff.mp (not_not.mp hmissing)
        rw [mapM_eq_ok fun template h => phase_eq_ok (hcapable template h)]
        have hplannable : Plannable phaseTemplates tenantId request :=
          ⟨not_not.mp htenant, fun hnil => hempty (List.isEmpty_iff.mpr hnil), hcapable⟩
        constructor
        · intro h
          cases h
          exact ⟨hplannable, rfl⟩
        · rintro ⟨-, rfl⟩
          rfl

end

end MissionPlanner

end VegaRevenue
