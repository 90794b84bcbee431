import VegaRevenue.AiRuntime.MissionPlanner
import VegaRevenue.Shared.Casing

/-!
# The planner of outreach missions

`OutreachMissionPlanner` plans an outreach mission for the first agent that can plan outreach: four
phases of one task, each of which depends on the one before it.

* `plan_eq_ok_iff` — when there is a plan, and which
-/

namespace VegaRevenue

/-! ## A mission as the input of a task -/

namespace MissionContract

open Codec Json

def budgetJson (b : Mission.Budget) : Json := .object [
  ("maxAiCostUsd", some (rat.encode b.maxAiCostUsd)),
  ("maxOutreachCount", b.maxOutreachCount.map rat.encode)]

def constraintsJson (c : Mission.Constraints) : Json := .object [
  ("workingHours", c.workingHours.map string.encode),
  ("noContactDomains", c.noContactDomains.map string.list.encode),
  ("minimumCompanySize", c.minimumCompanySize.map rat.encode)]

def successCriteriaJson (c : Mission.SuccessCriteria) : Json := .object [
  ("targetMeetings", c.targetMeetings.map rat.encode),
  ("targetOpportunities", c.targetOpportunities.map rat.encode)]

def planJson (missionId : String) (plan : Mission.Plan) : Json := .object [
  ("planId", some (string.encode plan.planId)),
  ("missionId", some (string.encode missionId)),
  ("version", some (int.encode plan.version)),
  ("objectives", some (.arr plan.objectives)),
  ("phases", some (.arr plan.phases)),
  ("approvalGates", some (.arr plan.approvalGates)),
  ("fallbackBranches", some (.arr plan.fallbackBranches))]

def outcomesJson (o : Mission.Outcomes) : Json := .object [
  ("meetingsBooked", o.meetingsBooked.map rat.encode),
  ("opportunitiesCreated", o.opportunitiesCreated.map rat.encode)]

end MissionContract

open Codec in
/-- A task as it stands in a plan. -/
def TaskContract.toJson (t : TaskContract) : Json := .object [
  ("taskId", some (string.encode t.taskId)),
  ("missionId", some (string.encode t.missionId)),
  ("planId", some (string.encode t.planId)),
  ("agentId", some (string.encode t.agentId)),
  ("agentVersion", some (string.encode t.agentVersion)),
  ("taskType", some (string.encode t.taskType)),
  ("requiredCapability", t.requiredCapability.map string.encode),
  ("status", some (.str t.status.name)),
  ("input", some t.input),
  ("output", t.output),
  ("dependsOn", some (string.list.encode t.dependsOn)),
  ("deadline", t.deadline.map date.encode),
  ("approvalGateId", some ((t.approvalGateId.map string.encode).getD .null))]

open Codec in
def MissionContract.toJson (m : MissionContract) : Json := .object [
  ("missionId", some (string.encode m.missionId)),
  ("tenantId", some (string.encode m.tenantId)),
  ("name", some (string.encode m.name)),
  ("objective", some (string.encode m.objective)),
  ("icpId", some (string.encode m.icpId)),
  ("territory", some (string.list.encode m.territory)),
  ("channels", some (string.list.encode m.channels)),
  ("budget", some (budgetJson m.budget)),
  ("autonomyLevel", some (rat.encode m.autonomyLevel)),
  ("constraints", some (constraintsJson m.constraints)),
  ("successCriteria", some (successCriteriaJson m.successCriteria)),
  ("deadline", m.deadline.map date.encode),
  ("ownerUserId", some (string.encode m.ownerUserId)),
  ("status", some (.str m.status.name)),
  ("plan", some (planJson m.missionId m.plan)),
  ("tasks", some (.arr (m.tasks.map TaskContract.toJson))),
  ("approvals", some (.arr m.approvals)),
  ("outcomes", some (outcomesJson m.outcomes)),
  ("createdAt", some (date.encode m.createdAt)),
  ("updatedAt", some (date.encode m.updatedAt))]

/-! ## The planner -/

namespace OutreachMissionPlanner

def outreachChannels : List String := ["email", "linkedin", "calendar"]

def outreachObjectivePrefixes : List String := ["outreach", "sequence", "campaign", "prospect"]

def isOutreachMission (u : Casing) (mission : MissionContract) : Bool :=
  (mission.channels.any fun c => outreachChannels.contains (u.toLowerCase c)) ||
    outreachObjectivePrefixes.any fun p =>
      p.toList.isPrefixOf (u.toLowerCase mission.objective).toList

def planId (missionId : String) : String := "plan-" ++ missionId

def buildTask (mission : MissionContract) (agent : AgentContract) (taskType taskId : String)
    (dependsOn : List String) (input : Json) (approvalGateId : Option String) : TaskContract where
  taskId := taskId
  missionId := mission.missionId
  planId := planId mission.missionId
  agentId := agent.agentId
  agentVersion := agent.version
  taskType := taskType
  status := .pending
  input := input
  dependsOn := dependsOn
  deadline := mission.deadline
  approvalGateId := approvalGateId

def approvalGate : Json := .obj [("gateId", .str "outreach-approval"),
  ("actionType", .str "OUTREACH_EMAIL_SEND"), ("approverRole", .str "mission-owner")]

def planTaskId (missionId : String) : String := planId missionId ++ "-plan"
def draftTaskId (missionId : String) : String := planId missionId ++ "-draft"
def sendTaskId (missionId : String) : String := planId missionId ++ "-send"
def advanceTaskId (missionId : String) : String := planId missionId ++ "-advance"

def planTask (mission : MissionContract) (agent : AgentContract) : TaskContract :=
  buildTask mission agent "plan-outreach" (planTaskId mission.missionId) []
    (.obj [("mission", mission.toJson), ("leadId", .str mission.icpId), ("evidenceIds", .arr [])])
    none

def draftTask (mission : MissionContract) (agent : AgentContract) : TaskContract :=
  buildTask mission agent "draft-message" (draftTaskId mission.missionId)
    [planTaskId mission.missionId] (.obj [("stepInput", .str "plan-output")]) none

def sendTask (mission : MissionContract) (agent : AgentContract) : TaskContract :=
  buildTask mission agent "execute-send" (sendTaskId mission.missionId)
    [draftTaskId mission.missionId] (.obj [("stepInput", .str "draft-output")])
    (some "outreach-approval")

def advanceTask (mission : MissionContract) (agent : AgentContract) : TaskContract :=
  buildTask mission agent "advance-sequence" (advanceTaskId mission.missionId)
    [sendTaskId mission.missionId] (.obj [("stepInput", .str "send-output")]) none

def phases (mission : MissionContract) (agent : AgentContract) : List PlanPhase :=
  let planId := planId mission.missionId
  [{ phaseId := planId ++ "-planning", name := "Outreach Planning"
     tasks := [planTask mission agent] },
   { phaseId := planId ++ "-personalization", name := "Message Personalization"
     tasks := [draftTask mission agent] },
   { phaseId := planId ++ "-execution", name := "Execution"
     tasks := [sendTask mission agent], approvalGate := some approvalGate },
   { phaseId := planId ++ "-advance", name := "Sequence Advancement"
     tasks := [advanceTask mission agent] }]

/-- The plan for an agent. -/
def planOf (mission : MissionContract) (agent : AgentContract) : PlanContract where
  planId := planId mission.missionId
  missionId := mission.missionId
  version := 1
  objectives := [.obj [("objectiveId", .str "outreach-execution"),
    ("description",
      .str "Execute tenant-isolated outreach sequence with approval gates")]]
  phases := phases mission agent
  approvalGates := [approvalGate]
  fallbackBranches := []

/-- The first agent that can plan outreach. -/
def outreachAgent (agents : List AgentContract) : Option AgentContract :=
  MissionPlanner.selectAgent agents "plan-outreach"

/-- `OutreachMissionPlanner.plan`; the message it throws otherwise. -/
def plan (u : Casing) (request : PlanningRequest) : Except String PlanContract :=
  if !isOutreachMission u request.mission then
    .error "OutreachMissionPlanner can only plan outreach missions"
  else
    match outreachAgent request.availableAgents with
    | none => .error "No outreach agent available for mission planning"
    | some agent => .ok (planOf request.mission agent)

/-- **There is a plan iff the mission is one of outreach and an agent can plan it.** -/
theorem plan_eq_ok_iff {u : Casing} {request : PlanningRequest} {result : PlanContract} :
    plan u request = .ok result ↔ isOutreachMission u request.mission = true ∧
      ∃ agent, outreachAgent request.availableAgents = some agent ∧
        result = planOf request.mission agent := by
  unfold plan
  cases isOutreachMission u request.mission with
  | false => exact iff_of_false nofun nofun
  | true =>
    cases outreachAgent request.availableAgents with
    | none => exact iff_of_false nofun fun ⟨_, _, h, _⟩ => nomatch h
    | some agent =>
      constructor
      · intro h
        cases h
        exact ⟨rfl, agent, rfl, rfl⟩
      · rintro ⟨-, agent', h, rfl⟩
        cases h
        rfl

end OutreachMissionPlanner

end VegaRevenue
