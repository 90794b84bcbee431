import VegaRevenue.Domain.TaskGraph
import VegaRevenue.MissionExecution.Engine
import VegaRevenue.MissionOrchestrator.OutreachMissionPlanner

/-!
# Planner output and the mission

What `planMission` and `replanMission` make of the plan a planner returns. The version of every
plan is 1, and the tasks depend on what their templates depend on, whether that was selected or not.

* `addTasks_iff` — when the tasks of a plan can be added
* `taskGraph_iff` — when they form a graph with the tasks there are
* `accepted_iff_suits` — when the mission accepts what the planners return
* `not_accepted_unselected` — a template that depends on one the mission does not require
-/

namespace VegaRevenue

/-! ## Contracts and tasks -/

/-- `mapMissionTaskToContract`. -/
def mapMissionTaskToContract (t : MissionTask) : TaskContract where
  taskId := t.id
  missionId := t.missionId
  planId := t.planId
  agentId := t.agentId
  agentVersion := t.agentVersion
  taskType := t.taskType
  requiredCapability := t.requiredCapability
  status := t.status
  input := t.input
  output := t.output
  dependsOn := t.dependsOn
  deadline := t.deadline
  approvalGateId := t.approvalGateId

/-- `mapMissionToContract`. -/
def mapMissionToContract (m : Mission) : MissionContract where
  missionId := m.state.id
  tenantId := m.state.tenantId
  name := m.state.name
  objective := m.state.objective
  icpId := m.state.icpId
  territory := m.state.territory
  channels := m.state.channels
  budget := m.state.budget
  autonomyLevel := m.state.autonomyLevel
  constraints := m.state.constraints
  successCriteria := m.state.successCriteria
  deadline := m.state.deadline
  ownerUserId := m.state.ownerUserId
  status := m.state.status
  plan := m.state.plan
  tasks := m.state.tasks.map mapMissionTaskToContract
  approvals := []
  outcomes := m.state.outcomes
  createdAt := m.state.createdAt
  updatedAt := m.state.updatedAt

def flattenTasks (plan : PlanContract) : List TaskContract := plan.phases.flatMap (·.tasks)

open Codec in
def PlanPhase.toJson (p : PlanPhase) : Json := .object [
  ("phaseId", some (string.encode p.phaseId)),
  ("name", some (string.encode p.name)),
  ("tasks", some (.arr (p.tasks.map TaskContract.toJson))),
  ("approvalGate", p.approvalGate)]

/-- `plan as MissionPlan`. -/
def PlanContract.toPlan (plan : PlanContract) : Mission.Plan where
  planId := plan.planId
  version := plan.version
  objectives := plan.objectives
  phases := plan.phases.map PlanPhase.toJson
  approvalGates := plan.approvalGates
  fallbackBranches := plan.fallbackBranches

/-- The key a task is given, by the generator of the deployment. -/
def taskKey (generateIdempotencyKey : String → String) (taskId planId : String) : String :=
  generateIdempotencyKey ("task:" ++ taskId ++ ":" ++ planId)

/-- `mapTaskContractToProps`. -/
def mapTaskContractToProps (generateIdempotencyKey : String → String) (m : Mission)
    (planId correlationId : String) (t : TaskContract) : MissionTaskProps where
  id := t.taskId
  missionId := m.state.id
  planId := t.planId
  agentId := t.agentId
  agentVersion := t.agentVersion
  taskType := t.taskType
  requiredCapability := t.requiredCapability
  input := t.input
  dependsOn := t.dependsOn
  deadline := t.deadline
  approvalGateId := t.approvalGateId
  idempotencyKey := taskKey generateIdempotencyKey t.taskId planId
  correlationId := correlationId

/-- The tasks of a plan as the mission takes them. -/
def planProps (generateIdempotencyKey : String → String) (m : Mission) (correlationId : String)
    (plan : PlanContract) : List MissionTaskProps :=
  (flattenTasks plan).map (mapTaskContractToProps generateIdempotencyKey m plan.planId correlationId)

namespace MissionExecution

open Mission (Props Plan addTask planValid setPlan replan replanned Replannable replan_outcome
  addTask_outcome Addable isTerminal TaskGraph Named validateTaskGraph
  validateTaskGraph_eq_none_iff active canTransition)
open MissionPlanner (agentOf selectedPhases Plannable)

/-! ## Adding tasks -/

/-- The new tasks have ids and keys of their own, and no empty capability. -/
structure AllNew (old : List MissionTask) (new : List MissionTaskProps) : Prop where
  ids : (old.map (·.id)).Disjoint (new.map (·.id))
  ids_nodup : (new.map (·.id)).Nodup
  keys : (old.map (·.idempotencyKey)).Disjoint (new.map (·.idempotencyKey))
  keys_nodup : (new.map (·.idempotencyKey)).Nodup
  capable : ∀ props ∈ new, props.requiredCapability.any (trim · = "") = false

section

variable {m : Mission} {old : List MissionTask} {props : MissionTaskProps}
variable {new : List MissionTaskProps}

theorem allNew_cons : AllNew old (props :: new) ↔
    ((∀ t ∈ old, t.id ≠ props.id) ∧ (∀ t ∈ old, t.idempotencyKey ≠ props.idempotencyKey) ∧
      props.requiredCapability.any (trim · = "") = false) ∧
      AllNew (old ++ [.init props]) new := by
  constructor
  · rintro ⟨hids, hidsn, hkeys, hkeysn, hcapable⟩
    rw [List.map_cons, List.nodup_cons] at hidsn hkeysn
    rw [List.map_cons, List.disjoint_cons_right] at hids hkeys
    refine ⟨⟨fun t ht heq => hids.1 (heq ▸ List.mem_map_of_mem ht),
      fun t ht heq => hkeys.1 (heq ▸ List.mem_map_of_mem ht), hcapable props (.head _)⟩,
      ?_, hidsn.2, ?_, hkeysn.2, fun p hp => hcapable p (.tail _ hp)⟩
    · rw [List.map_append, List.disjoint_append_left]
      exact ⟨hids.2, List.singleton_disjoint.mpr hidsn.1⟩
    · rw [List.map_append, List.disjoint_append_left]
      exact ⟨hkeys.2, List.singleton_disjoint.mpr hkeysn.1⟩
  · rintro ⟨⟨hid, hkey, hcap⟩, hids, hidsn, hkeys, hkeysn, hcapable⟩
    rw [List.map_append, List.disjoint_append_left] at hids hkeys
    refine ⟨?_, ?_, ?_, ?_, ?_⟩
    · rw [List.map_cons, List.disjoint_cons_right]
      refine ⟨fun hmem => ?_, hids.1⟩
      obtain ⟨t, ht, heq⟩ := List.mem_map.mp hmem
      exact hid t ht heq
    · exact List.nodup_cons.mpr ⟨List.singleton_disjoint.mp hids.2, hidsn⟩
    · rw [List.map_cons, List.disjoint_cons_right]
      refine ⟨fun hmem => ?_, hkeys.1⟩
      obtain ⟨t, ht, heq⟩ := List.mem_map.mp hmem
      exact hkey t ht heq
    · exact List.nodup_cons.mpr ⟨List.singleton_disjoint.mp hkeys.2, hkeysn⟩
    · intro p hp
      rcases List.mem_cons.mp hp with rfl | hp
      · exact hcap
      · exact hcapable p hp

/-- **Tasks can be added iff they are all new**, and then the mission has them after its own. -/
theorem addTasks_iff (new : List MissionTaskProps) : ∀ {m : Mission},
    isTerminal m.state.status = false →
    ((addTasks m new).2 = .ok ↔ AllNew m.state.tasks new) ∧
      ((addTasks m new).2 = .ok → (addTasks m new).1.state =
        { m.state with tasks := m.state.tasks ++ new.map .init }) := by
  induction new with
  | nil =>
    intro m _
    refine ⟨iff_of_true rfl ⟨by simp, by simp, by simp, by simp, by simp⟩, fun _ => ?_⟩
    show m.state = _
    rw [List.map_nil, List.append_nil]
  | cons props new ih =>
    intro m hopen
    rcases addTask_outcome m props with ⟨hrefused, message, hr⟩ | ⟨hadd, hr⟩
    · have hfail : addTasks m (props :: new) = (m, .fail message) := by
        rw [addTasks, hr]
        rfl
      rw [hfail]
      refine ⟨iff_of_false nofun fun h => ?_, nofun⟩
      obtain ⟨⟨hid, hkey, hcap⟩, -⟩ := allNew_cons.mp h
      exact hrefused ⟨hopen, hid, hkey, hcap⟩
    · rw [addTasks, hr]
      dsimp only [andThen]
      obtain ⟨hiff, hstate⟩ := ih (m := (m.write { m.state with
        tasks := m.state.tasks ++ [.init props] }).applyEvent
          (.taskAdded m.state.id props.id props.taskType props.idempotencyKey)) hopen
      refine ⟨hiff.trans (allNew_cons.trans (and_iff_right ?_)).symm, fun hok => ?_⟩
      · exact ⟨hadd.newId, hadd.newKey, hadd.capable⟩
      · rw [hstate hok]
        show ({ m.state with tasks := (m.state.tasks ++ [.init props]) ++ new.map .init } : Props) = _
        rw [List.append_assoc]
        rfl

theorem planValid_ok_iff {now : Date} (hstatus : m.state.status = .planning) :
    (planValid m now).2 = .ok ↔ validateTaskGraph m.state.tasks m.state.plan.version = none := by
  unfold planValid Mission.transitionTo
  rw [hstatus]
  split
  next message h => simp [h]
  next h =>
    rw [if_pos (by decide)]
    simp [h]

/-- A mission in PLANNING takes a plan iff its tasks are new and form a graph with those it has. -/
theorem applyPlan_ok_iff {plan : Plan} {now : Date} (hstatus : m.state.status = .planning) :
    (applyPlan plan new now m).2 = .ok ↔ AllNew m.state.tasks new ∧
      validateTaskGraph (m.state.tasks ++ new.map .init) plan.version = none := by
  have hopen : isTerminal m.state.status = false := by
    rw [hstatus]
    rfl
  obtain ⟨hadds, hstate⟩ := addTasks_iff new hopen
  rw [← hadds]
  unfold applyPlan
  generalize addTasks m new = r at hstate
  obtain ⟨m', result⟩ := r
  cases result with
  | ok =>
    have hm' : m'.state = { m.state with tasks := m.state.tasks ++ new.map .init } := hstate rfl
    have hplanning : (setPlan m' plan).state.status = .planning := by
      show m'.state.status = .planning
      rw [hm']
      exact hstatus
    refine (planValid_ok_iff hplanning).trans (Iff.trans ?_ (and_iff_right rfl).symm)
    show validateTaskGraph m'.state.tasks plan.version = none ↔ _
    rw [hm']
  | fail message => exact iff_of_false nofun fun h => nomatch h.1
  | threw message => exact iff_of_false nofun fun h => nomatch h.1

end

/-! ## The graph of the planned tasks -/

/-- A path over two relations stays in the second, or takes a step of the first. -/
theorem transGen_or {α : Type*} {r q : α → α → Prop} {x y : α}
    (h : Relation.TransGen (fun a b => r a b ∨ q a b) x y) :
    Relation.TransGen q x y ∨ ∃ a b, r a b ∧
      Relation.ReflTransGen (fun a b => r a b ∨ q a b) x a ∧
      Relation.ReflTransGen (fun a b => r a b ∨ q a b) b y := by
  induction h with
  | single hxy =>
    rcases hxy with hr | hq
    · exact .inr ⟨_, _, hr, .refl, .refl⟩
    · exact .inl (.single hq)
  | tail hxy hyz ih =>
    rcases ih with hq | ⟨a, b, hab, hxa, hby⟩
    · rcases hyz with hr | hq'
      · exact .inr ⟨_, _, hr, hxy.to_reflTransGen, .refl⟩
      · exact .inl (hq.tail hq')
    · exact .inr ⟨a, b, hab, hxa, hby.tail hyz⟩

/-- A cycle over two relations stays in the second, or goes through a step of the first. -/
theorem cycle_or {α : Type*} {r q : α → α → Prop} {x : α}
    (h : Relation.TransGen (fun a b => r a b ∨ q a b) x x) :
    Relation.TransGen q x x ∨
      ∃ a b, r a b ∧ Relation.TransGen (fun a b => r a b ∨ q a b) a a := by
  rcases transGen_or h with hq | ⟨a, b, hab, hxa, hbx⟩
  · exact .inl hq
  · exact .inr ⟨a, b, hab, Relation.TransGen.head' (.inl hab) (hbx.trans hxa)⟩

/-- A template with the first id depends on the second. -/
def DependsOnPhase (templates : List PhaseTemplate) (phaseId dependency : String) : Prop :=
  ∃ template ∈ templates, template.phaseId = phaseId ∧ dependency ∈ template.dependencies

/-- The templates of a planner: distinct, with dependencies among them and no cycle. -/
structure MissionPlannerConfig where
  phaseTemplates : List PhaseTemplate
  ids : (phaseTemplates.map (·.phaseId)).Nodup
  named : ∀ template ∈ phaseTemplates, ∀ d ∈ template.dependencies,
    d ∈ phaseTemplates.map (·.phaseId)
  acyclic : ∀ phaseId, ¬ Relation.TransGen (DependsOnPhase phaseTemplates) phaseId phaseId

/-- The dependencies of the tasks there are and of those that are planned. -/
def Needs (missionId : String) (old : List MissionTask) (selected : List PhaseTemplate)
    (id dependency : String) : Prop :=
  Mission.DependsOn old id dependency ∨
    ∃ template ∈ selected, MissionPlanner.taskId missionId template.phaseId = id ∧
      dependency ∈ template.dependencies.map (MissionPlanner.taskId missionId)

/-- The selected templates have named agents and depend on each other, or on tasks there are; and
these are named, distinct from the planned ones, and neither short of a task nor in a circle. -/
structure Fits (missionId : String) (agents : List AgentContract) (old : List MissionTask)
    (selected : List PhaseTemplate) : Prop where
  named : ∀ template ∈ selected, trim (agentOf agents template).agentId ≠ ""
  closed : ∀ template ∈ selected, ∀ d ∈ template.dependencies,
    d ∈ selected.map (·.phaseId) ∨ MissionPlanner.taskId missionId d ∈ old.map (·.id)
  fresh : ∀ template ∈ selected,
    MissionPlanner.taskId missionId template.phaseId ∉ old.map (·.id)
  oldIds : (old.map (·.id)).Nodup
  oldNamed : ∀ t ∈ old, Named t
  oldClosed : ∀ t ∈ old, ∀ d ∈ t.dependsOn, d ∈ old.map (·.id) ∨
    d ∈ selected.map fun template => MissionPlanner.taskId missionId template.phaseId
  oldAcyclic : ∀ t ∈ old, ¬ Relation.TransGen (Needs missionId old selected) t.id t.id

/-- The task of a template. -/
def templateProps (generateIdempotencyKey : String → String) (agents : List AgentContract)
    (m : Mission) (correlationId : String) (template : PhaseTemplate) : MissionTaskProps :=
  mapTaskContractToProps generateIdempotencyKey m (MissionPlanner.planId m.state.id) correlationId
    (MissionPlanner.task (mapMissionToContract m) template (agentOf agents template))

section

variable {generateIdempotencyKey : String → String} {agents : List AgentContract} {m : Mission}
variable {correlationId : String} {config : MissionPlannerConfig} {p : MissionContract → Bool}
variable {old new : List MissionTask} {selected : List PhaseTemplate}

theorem taskId_injective (missionId : String) : Function.Injective (MissionPlanner.taskId missionId) := by
  intro a b h
  unfold MissionPlanner.taskId at h
  exact (String.append_right_inj _).mp ((String.append_left_inj _).mp h)

theorem taskIds_nodup (missionId : String) (h : selected.Sublist config.phaseTemplates) :
    (selected.map fun template => MissionPlanner.taskId missionId template.phaseId).Nodup := by
  have hphases := (config.ids.sublist (h.map _)).map (taskId_injective missionId)
  rw [List.map_map] at hphases
  exact hphases

theorem planProps_planOf : planProps generateIdempotencyKey m correlationId
      (MissionPlanner.planOf ⟨mapMissionToContract m, agents⟩ selected) =
    selected.map (templateProps generateIdempotencyKey agents m correlationId) := by
  unfold planProps flattenTasks MissionPlanner.planOf
  rw [List.flatMap_map]
  induction selected with
  | nil => rfl
  | cons template selected ih =>
    rw [List.flatMap_cons, List.map_append, ih]
    rfl

/-- A planned task depends on the tasks of what its template depends on. -/
theorem dependsOn_of_template {template : PhaseTemplate} {t : MissionTask}
    (h : templateProps generateIdempotencyKey agents m correlationId template =
      t.toMissionTaskProps) :
    t.dependsOn = template.dependencies.map (MissionPlanner.taskId m.state.id) :=
  (congrArg MissionTaskProps.dependsOn h).symm

/-- Planned tasks depend on each other as their templates do. -/
theorem cycle_of_templates (missionId : String) {id id' : String}
    (h : Relation.TransGen (fun a b => ∃ template ∈ selected,
      MissionPlanner.taskId missionId template.phaseId = a ∧
      b ∈ template.dependencies.map (MissionPlanner.taskId missionId)) id id') :
    ∃ a b, MissionPlanner.taskId missionId a = id ∧ MissionPlanner.taskId missionId b = id' ∧
      Relation.TransGen (DependsOnPhase selected) a b := by
  induction h with
  | single h =>
    obtain ⟨template, ht, hid, hmem⟩ := h
    obtain ⟨d, hd, rfl⟩ := List.mem_map.mp hmem
    exact ⟨_, d, hid, rfl, .single ⟨template, ht, rfl, hd⟩⟩
  | tail _ h ih =>
    obtain ⟨a, b, ha, hb, hab⟩ := ih
    obtain ⟨template, ht, hid, hmem⟩ := h
    obtain ⟨d, hd, rfl⟩ := List.mem_map.mp hmem
    have heq := taskId_injective missionId (hid.trans hb.symm)
    exact ⟨a, d, ha, rfl, hab.tail ⟨template, ht, heq, hd⟩⟩

/-- The dependencies of the tasks there are and of the planned ones are those of the graph. -/
theorem needs_iff (hnew : new.map (·.toMissionTaskProps) =
      selected.map (templateProps generateIdempotencyKey agents m correlationId))
    {id d : String} : Mission.DependsOn (old ++ new) id d ↔ Needs m.state.id old selected id d := by
  unfold Mission.DependsOn Needs
  constructor
  · rintro ⟨t, ht, rfl, hd⟩
    rcases List.mem_append.mp ht with ht | ht
    · exact .inl ⟨t, ht, rfl, hd⟩
    · obtain ⟨template, htemplate, hprops⟩ := List.mem_map.mp (hnew ▸ List.mem_map_of_mem ht)
      exact .inr ⟨template, htemplate, congrArg MissionTaskProps.id hprops,
        dependsOn_of_template hprops ▸ hd⟩
  · rintro (⟨t, ht, rfl, hd⟩ | ⟨template, htemplate, rfl, hd⟩)
    · exact ⟨t, List.mem_append_left _ ht, rfl, hd⟩
    · obtain ⟨t, ht, hprops⟩ := List.mem_map.mp (hnew.symm ▸ List.mem_map_of_mem htemplate)
      exact ⟨t, List.mem_append_right _ ht, congrArg MissionTaskProps.id hprops,
        dependsOn_of_template hprops.symm ▸ hd⟩

/-- **The planned tasks form a graph with the tasks there are iff the selection fits.** -/
theorem taskGraph_iff (config : MissionPlannerConfig) (old : List MissionTask)
    (hselected : selected.Sublist config.phaseTemplates)
    (hnew : new.map (·.toMissionTaskProps) =
      selected.map (templateProps generateIdempotencyKey agents m correlationId)) :
    (TaskGraph (old ++ new) ∧ ∀ t ∈ old ++ new, Named t) ↔
      Fits m.state.id agents old selected := by
  have hnewIds : new.map (·.id) =
      selected.map fun template => MissionPlanner.taskId m.state.id template.phaseId := by
    have h := congrArg (List.map MissionTaskProps.id) hnew
    rw [List.map_map, List.map_map] at h
    exact h
  have hids : (old ++ new).map (·.id) = old.map (·.id) ++
      selected.map fun template => MissionPlanner.taskId m.state.id template.phaseId := by
    rw [List.map_append, hnewIds]
  have htask : ∀ template ∈ selected, ∃ t ∈ new, t.toMissionTaskProps =
      templateProps generateIdempotencyKey agents m correlationId template := by
    intro template ht
    exact List.mem_map.mp (hnew.symm ▸ List.mem_map_of_mem ht)
  have htemplate : ∀ t ∈ new, ∃ template ∈ selected,
      templateProps generateIdempotencyKey agents m correlationId template =
        t.toMissionTaskProps := by
    intro t ht
    exact List.mem_map.mp (hnew ▸ List.mem_map_of_mem ht)
  have hagent : ∀ t : MissionTask, ∀ template,
      templateProps generateIdempotencyKey agents m correlationId template =
        t.toMissionTaskProps → (Named t ↔ trim (agentOf agents template).agentId ≠ "") := by
    intro t template hprops
    unfold Named
    rw [show t.agentId = (agentOf agents template).agentId from
      (congrArg MissionTaskProps.agentId hprops).symm,
      show t.requiredCapability = none from
      (congrArg MissionTaskProps.requiredCapability hprops).symm]
    simp
  have hedge : Mission.DependsOn (old ++ new) = Needs m.state.id old selected := by
    funext a b
    exact propext (needs_iff hnew)
  constructor
  · rintro ⟨hgraph, hnamed⟩
    have hnodup := hgraph.ids
    rw [hids, List.nodup_append'] at hnodup
    refine ⟨?_, ?_, ?_, hnodup.1, fun t ht => hnamed t (List.mem_append_left _ ht), ?_, ?_⟩
    · intro template ht
      obtain ⟨t, htnew, hprops⟩ := htask template ht
      exact (hagent t template hprops.symm).mp (hnamed t (List.mem_append_right _ htnew))
    · intro template ht d hd
      obtain ⟨t, htnew, hprops⟩ := htask template ht
      have hdeps : MissionPlanner.taskId m.state.id d ∈ t.dependsOn := by
        rw [dependsOn_of_template hprops.symm]
        exact List.mem_map_of_mem hd
      have hplanned := hgraph.planned t (List.mem_append_right _ htnew) _ hdeps
      rw [hids] at hplanned
      rcases List.mem_append.mp hplanned with hold | hnew'
      · exact .inr hold
      · obtain ⟨template', ht', heq⟩ := List.mem_map.mp hnew'
        exact .inl (List.mem_map.mpr ⟨template', ht', taskId_injective _ heq⟩)
    · exact fun template ht hold => hnodup.2.2 hold (List.mem_map_of_mem ht)
    · intro t ht d hd
      have hplanned := hgraph.planned t (List.mem_append_left _ ht) d hd
      rw [hids] at hplanned
      exact List.mem_append.mp hplanned
    · exact fun t _ => hedge ▸ hgraph.acyclic t.id
  · intro h
    refine ⟨⟨?_, ?_, ?_⟩, ?_⟩
    · rw [hids, List.nodup_append']
      refine ⟨h.oldIds, taskIds_nodup m.state.id hselected, fun id hold hmem => ?_⟩
      obtain ⟨template, ht, rfl⟩ := List.mem_map.mp hmem
      exact h.fresh template ht hold
    · intro t ht d hd
      rw [hids]
      rcases List.mem_append.mp ht with ht | ht
      · exact List.mem_append.mpr (h.oldClosed t ht d hd)
      · obtain ⟨template, htmem, hprops⟩ := htemplate t ht
        rw [dependsOn_of_template hprops] at hd
        obtain ⟨d', hd', rfl⟩ := List.mem_map.mp hd
        rcases h.closed template htmem d' hd' with hphase | hold
        · obtain ⟨template', ht', rfl⟩ := List.mem_map.mp hphase
          exact List.mem_append_right _ (List.mem_map_of_mem ht')
        · exact List.mem_append_left _ hold
    · intro x hcycle
      rw [hedge] at hcycle
      rcases cycle_or hcycle with htemplates | ⟨a, b, hold, ha⟩
      · obtain ⟨a, b, ha, hb, hab⟩ := cycle_of_templates m.state.id htemplates
        obtain rfl := taskId_injective m.state.id (ha.trans hb.symm)
        have hdepends : ∀ {a b}, DependsOnPhase selected a b →
            DependsOnPhase config.phaseTemplates a b := by
          rintro a b ⟨template, ht, hdep⟩
          exact ⟨template, hselected.subset ht, hdep⟩
        exact config.acyclic a (hab.lift id fun _ _ hdep => hdepends hdep)
      · obtain ⟨t, ht, rfl, -⟩ := hold
        exact h.oldAcyclic t ht ha
    · intro t ht
      rcases List.mem_append.mp ht with ht | ht
      · exact h.oldNamed t ht
      · obtain ⟨template, htmem, hprops⟩ := htemplate t ht
        exact (hagent t template hprops).mpr (h.named template htmem)

end

/-! ## The tasks of the outreach planner -/

section

variable {m : Mission} {new : List MissionTask} {agent : AgentContract} {mission : MissionContract}
variable {generateIdempotencyKey : String → String} {correlationId : String}

theorem taskGraph_nil : TaskGraph [] := by
  refine ⟨List.nodup_nil, fun t ht => absurd ht List.not_mem_nil, fun id hcycle => ?_⟩
  obtain ⟨b, ⟨t, ht, -⟩, -⟩ := Relation.TransGen.head'_iff.mp hcycle
  exact absurd ht List.not_mem_nil

theorem outreach_ids_ne (missionId : String) {a b : String} (h : a ≠ b) :
    OutreachMissionPlanner.planId missionId ++ a ≠ OutreachMissionPlanner.planId missionId ++ b :=
  fun heq => h ((String.append_right_inj _).mp heq)

/-- Each of the four tasks depends on the one before it. -/
theorem outreach_taskGraph (m : Mission) : TaskGraph (replanned m (planProps generateIdempotencyKey m
    correlationId (OutreachMissionPlanner.planOf mission agent))) := by
  let props := mapTaskContractToProps generateIdempotencyKey m
    (OutreachMissionPlanner.planId mission.missionId) correlationId
  let make := Mission.replanTask m.state.tasks
  have hmake : ∀ p, (make p).toMissionTaskProps = p := Mission.replanTask_props m.state.tasks
  have hid : ∀ p, (make p).id = p.id := fun p => congrArg MissionTaskProps.id (hmake p)
  -- a task that depends on one of the tasks before it
  have hadd : ∀ {tasks : List MissionTask} (contract : TaskContract), TaskGraph tasks →
      (∀ t ∈ tasks, t.id ≠ contract.taskId) →
      (∀ d ∈ contract.dependsOn, d ∈ tasks.map (·.id)) →
      TaskGraph (tasks ++ [make (props contract)]) := by
    intro tasks contract h hnew hdeps
    refine h.append ?_ ?_
    · rw [hid]
      exact hnew
    · rw [show (make (props contract)).dependsOn = contract.dependsOn from
        congrArg MissionTaskProps.dependsOn (hmake _)]
      exact hdeps
  have hne := @outreach_ids_ne mission.missionId
  have hplan := hadd (OutreachMissionPlanner.planTask mission agent) taskGraph_nil
    (fun t ht => absurd ht List.not_mem_nil) (fun d hd => absurd hd List.not_mem_nil)
  have hdraft := hadd (OutreachMissionPlanner.draftTask mission agent) hplan
    (by
      intro t ht
      rw [List.mem_singleton.mp ht, hid]
      exact hne (by decide))
    (by
      intro d hd
      rw [List.mem_singleton.mp hd]
      exact List.mem_map.mpr ⟨make (props (OutreachMissionPlanner.planTask mission agent)), by simp,
        hid _⟩)
  have hsend := hadd (OutreachMissionPlanner.sendTask mission agent) hdraft
    (by
      intro t ht
      rcases List.mem_cons.mp ht with rfl | ht
      · rw [hid]
        exact hne (by decide)
      · rw [List.mem_singleton.mp ht, hid]
        exact hne (by decide))
    (by
      intro d hd
      rw [List.mem_singleton.mp hd]
      exact List.mem_map.mpr ⟨make (props (OutreachMissionPlanner.draftTask mission agent)), by simp,
        hid _⟩)
  exact hadd (OutreachMissionPlanner.advanceTask mission agent) hsend
    (by
      intro t ht
      rcases List.mem_cons.mp ht with rfl | ht
      · rw [hid]
        exact hne (by decide)
      · rcases List.mem_cons.mp ht with rfl | ht
        · rw [hid]
          exact hne (by decide)
        · rw [List.mem_singleton.mp ht, hid]
          exact hne (by decide))
    (by
      intro d hd
      rw [List.mem_singleton.mp hd]
      exact List.mem_map.mpr ⟨make (props (OutreachMissionPlanner.sendTask mission agent)), by simp,
        hid _⟩)

theorem outreach_named_iff (m : Mission) :
    (∀ t ∈ replanned m (planProps generateIdempotencyKey m correlationId
      (OutreachMissionPlanner.planOf mission agent)), Named t) ↔ trim agent.agentId ≠ "" := by
  have hagent : ∀ contract ∈ flattenTasks (OutreachMissionPlanner.planOf mission agent),
      contract.agentId = agent.agentId ∧ contract.requiredCapability = none := by
    intro contract h
    rw [show flattenTasks (OutreachMissionPlanner.planOf mission agent) =
      [OutreachMissionPlanner.planTask mission agent, OutreachMissionPlanner.draftTask mission agent, OutreachMissionPlanner.sendTask mission agent,
        OutreachMissionPlanner.advanceTask mission agent] from rfl] at h
    simp only [List.mem_cons, List.not_mem_nil, or_false] at h
    rcases h with rfl | rfl | rfl | rfl <;> exact ⟨rfl, rfl⟩
  have htask : ∀ contract ∈ flattenTasks (OutreachMissionPlanner.planOf mission agent),
      (Named (Mission.replanTask m.state.tasks (mapTaskContractToProps generateIdempotencyKey m
        (OutreachMissionPlanner.planId mission.missionId) correlationId contract)) ↔
        trim agent.agentId ≠ "") := by
    intro contract h
    unfold Named
    rw [Mission.replanTask_props]
    show trim contract.agentId ≠ "" ∧ contract.requiredCapability.any _ = false ↔ _
    rw [(hagent contract h).1, (hagent contract h).2]
    simp
  constructor
  · intro h
    exact (htask (OutreachMissionPlanner.planTask mission agent) (.head _)).mp (h _ (.head _))
  · intro h t ht
    obtain ⟨props, hprops, rfl⟩ := List.mem_map.mp ht
    obtain ⟨contract, hcontract, rfl⟩ := List.mem_map.mp hprops
    exact (htask contract hcontract).mpr h

end

/-! ## What is promised -/

/-- The planners, what they are given, and the key generator of the engine. -/
structure Planners where
  config : MissionPlannerConfig
  availableAgents : List AgentContract
  casing : Casing
  generateIdempotencyKey : String → String

namespace Planners

variable (s : Planners)

def request (m : Mission) : PlanningRequest := ⟨mapMissionToContract m, s.availableAgents⟩

def selected (m : Mission) : List PhaseTemplate :=
  selectedPhases s.config.phaseTemplates (s.request m)

/-- `MissionPlanner.plan` for the mission. -/
def plan (tenantId : String) (m : Mission) : Except String PlanContract :=
  MissionPlanner.plan s.config.phaseTemplates tenantId (s.request m)

def outreachPlan (m : Mission) : Except String PlanContract :=
  OutreachMissionPlanner.plan s.casing (s.request m)

def props (m : Mission) (correlationId : String) (plan : PlanContract) : List MissionTaskProps :=
  planProps s.generateIdempotencyKey m correlationId plan

/-- The key the task of a template is given. -/
def key (m : Mission) (template : PhaseTemplate) : String :=
  taskKey s.generateIdempotencyKey (MissionPlanner.taskId m.state.id template.phaseId)
    (MissionPlanner.planId m.state.id)

/-- Whatever plan a planner returns, the mission accepts it. -/
structure Accepted (tenantId correlationId : String) (m : Mission) (now : Date) : Prop where
  /-- The tasks are added and the plan is valid. -/
  planned : m.state.status = .planning → ∀ plan, s.plan tenantId m = .ok plan →
    (applyPlan plan.toPlan (s.props m correlationId plan) now m).2 = .ok
  replanned : active m.state.status = true → ∀ plan, s.plan tenantId m = .ok plan →
    (replan m plan.toPlan (s.props m correlationId plan) now).2 = .ok
  outreach : active m.state.status = true → ∀ plan, s.outreachPlan m = .ok plan →
    (replan m plan.toPlan (s.props m correlationId plan) now).2 = .ok

/-- The keys of the planned tasks are new. -/
structure KeysNew (m : Mission) : Prop where
  nodup : ((s.selected m).map (s.key m)).Nodup
  fresh : ∀ template ∈ s.selected m, s.key m template ∉ m.state.tasks.map (·.idempotencyKey)

/-- The planners suit the mission: what is selected fits the tasks there are, and a plan that
replaces another finds none of version 1 or above. -/
structure Suits (tenantId : String) (m : Mission) : Prop where
  planned : m.state.status = .planning →
    Plannable s.config.phaseTemplates tenantId (s.request m) →
    s.KeysNew m ∧ Fits m.state.id s.availableAgents m.state.tasks (s.selected m)
  replanned : active m.state.status = true →
    Plannable s.config.phaseTemplates tenantId (s.request m) →
    m.state.plan.version < 1 ∧ Fits m.state.id s.availableAgents [] (s.selected m)
  outreach : active m.state.status = true →
    OutreachMissionPlanner.isOutreachMission s.casing (mapMissionToContract m) = true →
    ∀ agent, OutreachMissionPlanner.outreachAgent s.availableAgents = some agent →
    m.state.plan.version < 1 ∧ trim agent.agentId ≠ ""

variable {s} {tenantId correlationId : String} {m : Mission} {now : Date} {plan : PlanContract}

theorem plan_eq_ok_iff : s.plan tenantId m = .ok plan ↔
    Plannable s.config.phaseTemplates tenantId (s.request m) ∧
      plan = MissionPlanner.planOf (s.request m) (s.selected m) :=
  MissionPlanner.plan_eq_ok_iff

theorem selected_sublist : (s.selected m).Sublist s.config.phaseTemplates := List.filter_sublist

theorem props_planOf : s.props m correlationId (MissionPlanner.planOf (s.request m) (s.selected m)) =
    (s.selected m).map
      (templateProps s.generateIdempotencyKey s.availableAgents m correlationId) :=
  planProps_planOf

/-- The tasks of the selected templates are new iff their ids and keys are. -/
theorem allNew_iff : AllNew m.state.tasks (s.props m correlationId
      (MissionPlanner.planOf (s.request m) (s.selected m))) ↔
    s.KeysNew m ∧ ∀ template ∈ s.selected m,
      MissionPlanner.taskId m.state.id template.phaseId ∉ m.state.tasks.map (·.id) := by
  rw [props_planOf]
  constructor
  · rintro ⟨hids, -, hkeys, hkeysn, -⟩
    rw [List.map_map] at hids hkeys hkeysn
    exact ⟨⟨hkeysn, fun template ht hmem => hkeys hmem (List.mem_map_of_mem ht)⟩,
      fun template ht hmem => hids hmem (List.mem_map_of_mem ht)⟩
  · rintro ⟨⟨hkeysn, hkeys⟩, hids⟩
    refine ⟨?_, ?_, ?_, ?_, ?_⟩
    · rw [List.map_map]
      intro id hold hmem
      obtain ⟨template, ht, rfl⟩ := List.mem_map.mp hmem
      exact hids template ht hold
    · rw [List.map_map]
      exact taskIds_nodup m.state.id selected_sublist
    · rw [List.map_map]
      intro key hold hmem
      obtain ⟨template, ht, rfl⟩ := List.mem_map.mp hmem
      exact hkeys template ht hold
    · rw [List.map_map]
      exact hkeysn
    · intro props hprops
      obtain ⟨template, -, rfl⟩ := List.mem_map.mp hprops
      rfl

/-- A mission in PLANNING takes the plan iff the selection fits. -/
theorem planned_iff (hstatus : m.state.status = .planning) :
    (applyPlan (MissionPlanner.planOf (s.request m) (s.selected m)).toPlan (s.props m correlationId
      (MissionPlanner.planOf (s.request m) (s.selected m))) now m).2 = .ok ↔
    s.KeysNew m ∧ Fits m.state.id s.availableAgents m.state.tasks (s.selected m) := by
  have hinit : ((s.props m correlationId
      (MissionPlanner.planOf (s.request m) (s.selected m))).map MissionTask.init).map
      (·.toMissionTaskProps) = (s.selected m).map
        (templateProps s.generateIdempotencyKey s.availableAgents m correlationId) := by
    rw [props_planOf, List.map_map]
    exact List.map_id'' (fun _ => rfl) _
  rw [applyPlan_ok_iff hstatus, allNew_iff, validateTaskGraph_eq_none_iff,
    taskGraph_iff s.config m.state.tasks selected_sublist hinit]
  constructor
  · rintro ⟨⟨hkeys, -⟩, -, hfits⟩
    exact ⟨hkeys, hfits⟩
  · rintro ⟨hkeys, hfits⟩
    exact ⟨⟨hkeys, hfits.fresh⟩, Int.one_pos, hfits⟩

theorem not_terminal_of_active (h : active m.state.status = true) :
    isTerminal m.state.status = false := by
  revert h
  cases m.state.status <;> decide

/-- A replan is accepted iff its version is above the mission's and its tasks form a graph. -/
theorem replan_ok_iff {newPlan : Plan} {tasks : List MissionTaskProps}
    (hactive : active m.state.status = true) : (replan m newPlan tasks now).2 = .ok ↔
      m.state.plan.version < newPlan.version ∧
        validateTaskGraph (replanned m tasks) newPlan.version = none := by
  rcases replan_outcome m newPlan tasks now with ⟨hrefused, message, hr⟩ | ⟨hplan, hr⟩
  · rw [hr]
    refine iff_of_false nofun fun ⟨hnewer, hvalid⟩ => hrefused ?_
    exact ⟨not_terminal_of_active hactive, hnewer, hvalid⟩
  · rw [hr]
    exact iff_of_true rfl ⟨hplan.newer, hplan.valid⟩

/-- A mission in progress takes a plan of templates iff it has none of version 1 or above and the
selection fits on its own. -/
theorem replanned_iff (hactive : active m.state.status = true) :
    (replan m (MissionPlanner.planOf (s.request m) (s.selected m)).toPlan (s.props m correlationId
      (MissionPlanner.planOf (s.request m) (s.selected m))) now).2 = .ok ↔
    m.state.plan.version < 1 ∧ Fits m.state.id s.availableAgents [] (s.selected m) := by
  have hnew : (replanned m (s.props m correlationId
      (MissionPlanner.planOf (s.request m) (s.selected m)))).map (·.toMissionTaskProps) =
      (s.selected m).map
        (templateProps s.generateIdempotencyKey s.availableAgents m correlationId) := by
    rw [props_planOf]
    unfold replanned
    rw [List.map_map]
    exact List.map_id'' (Mission.replanTask_props m.state.tasks) _
  rw [replan_ok_iff hactive, validateTaskGraph_eq_none_iff, ← List.nil_append (replanned _ _),
    taskGraph_iff s.config [] selected_sublist hnew]
  exact and_congr_right fun _ => and_iff_right Int.one_pos

/-- It takes the plan of an outreach mission iff it has none of version 1 or above and the agent has
a name. -/
theorem outreach_iff {agent : AgentContract} (hactive : active m.state.status = true) :
    (replan m (OutreachMissionPlanner.planOf (mapMissionToContract m) agent).toPlan
      (s.props m correlationId (OutreachMissionPlanner.planOf (mapMissionToContract m) agent))
        now).2 = .ok ↔
    m.state.plan.version < 1 ∧ trim agent.agentId ≠ "" := by
  rw [replan_ok_iff hactive, validateTaskGraph_eq_none_iff, ← outreach_named_iff m]
  exact and_congr_right fun _ => (and_iff_right Int.one_pos).trans (and_iff_right (outreach_taskGraph m))

/-- **The mission accepts what the planners return iff they suit it.** -/
theorem accepted_iff_suits (s : Planners) (tenantId correlationId : String) (m : Mission) (now : Date) :
    s.Accepted tenantId correlationId m now ↔ s.Suits tenantId m := by
  constructor
  · intro h
    refine ⟨fun hstatus hplannable => ?_, fun hactive hplannable => ?_,
      fun hactive hmission agent hagent => ?_⟩
    · exact (planned_iff hstatus).mp (h.planned hstatus _ (plan_eq_ok_iff.mpr ⟨hplannable, rfl⟩))
    · exact (replanned_iff hactive).mp
        (h.replanned hactive _ (plan_eq_ok_iff.mpr ⟨hplannable, rfl⟩))
    · exact (outreach_iff hactive).mp (h.outreach hactive _
        (OutreachMissionPlanner.plan_eq_ok_iff.mpr ⟨hmission, agent, hagent, rfl⟩))
  · intro h
    refine ⟨fun hstatus plan hplan => ?_, fun hactive plan hplan => ?_,
      fun hactive plan hplan => ?_⟩
    · obtain ⟨hplannable, rfl⟩ := plan_eq_ok_iff.mp hplan
      exact (planned_iff hstatus).mpr (h.planned hstatus hplannable)
    · obtain ⟨hplannable, rfl⟩ := plan_eq_ok_iff.mp hplan
      exact (replanned_iff hactive).mpr (h.replanned hactive hplannable)
    · obtain ⟨hmission, agent, hagent, rfl⟩ := OutreachMissionPlanner.plan_eq_ok_iff.mp hplan
      exact (outreach_iff hactive).mpr (h.outreach hactive hmission agent hagent)

/-! ### A template the mission does not require -/

/-- `enrich` depends on `research`, which missions that do not ask for prospects do without. -/
def sampleTemplates : List PhaseTemplate := [
  { phaseId := "research", name := "Research Phase", capability := "research"
    requiredWhen := fun mission => mission.objective = "prospects"
    dependencies := [], taskType := "research" },
  { phaseId := "enrich", name := "Enrich Phase", capability := "enrich"
    requiredWhen := fun mission => mission.channels.contains "email"
    dependencies := ["research"], taskType := "enrich" }]

theorem dependsOnPhase_sampleTemplates {a b : String} (h : DependsOnPhase sampleTemplates a b) :
    a = "enrich" ∧ b = "research" := by
  obtain ⟨template, ht, rfl, hd⟩ := h
  simp only [sampleTemplates, List.mem_cons, List.not_mem_nil, or_false] at ht
  rcases ht with rfl | rfl
  · exact absurd hd List.not_mem_nil
  · exact ⟨rfl, List.mem_singleton.mp hd⟩

def samplePlanners : Planners where
  config := {
    phaseTemplates := sampleTemplates
    ids := by decide
    named := by
      intro template ht d hd
      rw [(dependsOnPhase_sampleTemplates ⟨template, ht, rfl, hd⟩).2]
      exact .head _
    acyclic := by
      intro id hcycle
      obtain ⟨b, hb, -⟩ := Relation.TransGen.head'_iff.mp hcycle
      obtain ⟨b', -, hb'⟩ := Relation.TransGen.tail'_iff.mp hcycle
      have heq := (dependsOnPhase_sampleTemplates hb).1.symm.trans
        (dependsOnPhase_sampleTemplates hb').2
      exact absurd heq (by decide) }
  availableAgents := [⟨"agent-research", "1", ["research"]⟩, ⟨"agent-enrich", "1", ["enrich"]⟩]
  casing := asciiCasing
  generateIdempotencyKey hint := hint

/-- The sample mission, approved and started. -/
def planningMission : Mission :=
  Machine.final Mission.step Mission.sampleCreated [(.approve "user", 0), (.start, 0)]

/-- The planner returns a plan for `enrich` alone, and `planValid` refuses it. -/
theorem unselected_refused : planningMission.state.status = .planning ∧
    ((samplePlanners.plan "tenant" planningMission).toOption.map fun plan =>
      (applyPlan plan.toPlan (samplePlanners.props planningMission "correlation" plan) 0
        planningMission).2) =
      some (.fail "Missing dependency mission-research-task in plan") := by
  decide +kernel

theorem not_accepted_unselected : ¬ ∀ (s : Planners) (tenantId correlationId : String) (m : Mission)
    (now : Date), s.Accepted tenantId correlationId m now := by
  intro h
  obtain ⟨hstatus, hrefused⟩ := unselected_refused
  obtain ⟨plan, hplan, hmissing⟩ := Option.map_eq_some_iff.mp hrefused
  have hok := (h samplePlanners "tenant" "correlation" planningMission 0).planned hstatus plan
    (eq_ok_of_toOption hplan)
  rw [hmissing] at hok
  cases hok

end Planners

end MissionExecution

end VegaRevenue
