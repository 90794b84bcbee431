import VegaRevenue.Domain.TaskGraph
import VegaRevenue.MissionExecution.Engine

/-!
# Replanning a mission in progress

A replan makes every task anew from its properties. A task that is COMPLETED under the id of a new
one hands on its status, its output and its times; any other starts over as PENDING, also where an
execution of it is under way.

* `neverRepeats_iff` — a replan repeats nothing iff no task it keeps is in progress
* `not_neverRepeats_running` — the result of a running task is refused, and the task is offered anew
-/

namespace VegaRevenue.Mission

open MissionExecution (selectNextTask)

/-- An execution of the task is under way. -/
def inProgress (s : TaskStatus) : Bool := s = .running || s = .awaitingApproval

/-- What a replan promises. -/
structure NeverRepeats (m : Mission) (newPlan : Plan) (newTasks : List MissionTaskProps)
    (now : Date) : Prop where
  /-- A replan that fails changes nothing. -/
  refused : (replan m newPlan newTasks now).2 ≠ .ok → (replan m newPlan newTasks now).1 = m
  version : (replan m newPlan newTasks now).2 = .ok →
    m.state.plan.version < (replan m newPlan newTasks now).1.state.plan.version
  /-- A completed task that is kept stays as it is. -/
  completed : (replan m newPlan newTasks now).2 = .ok →
    ∀ t ∈ m.state.tasks, t.status = .completed →
      ∀ t' ∈ (replan m newPlan newTasks now).1.state.tasks, t'.id = t.id →
        t'.status = .completed ∧ t'.output = t.output ∧ t'.startedAt = t.startedAt ∧
          t'.completedAt = t.completedAt
  /-- The execution that is under way ends the task, and there is no second one. -/
  inProgress : (replan m newPlan newTasks now).2 = .ok →
    ∀ t ∈ m.state.tasks, inProgress t.status = true →
      ∀ t' ∈ (replan m newPlan newTasks now).1.state.tasks, t'.id = t.id →
        (∀ output later,
          (completeTask (replan m newPlan newTasks now).1 t.id output later).2 = .ok) ∧
        (∀ reason later,
          (failTask (replan m newPlan newTasks now).1 t.id reason later).2 = .ok) ∧
        ∀ next, selectNextTask (replan m newPlan newTasks now).1.state.tasks = some next →
          next.id ≠ t.id

/-- The new plan has a task of this id. -/
def Keeps (newTasks : List MissionTaskProps) (id : String) : Prop := id ∈ newTasks.map (·.id)

/-- The plan keeps no task that is in progress, and of the tasks that are COMPLETED under one id
that it keeps, one is as the other. -/
structure Settled (m : Mission) (newTasks : List MissionTaskProps) : Prop where
  idle : ∀ t ∈ m.state.tasks, Keeps newTasks t.id → inProgress t.status = false
  alike : ∀ t ∈ m.state.tasks, ∀ t' ∈ m.state.tasks, t.status = .completed →
    t'.status = .completed → t.id = t'.id → Keeps newTasks t.id →
    t.output = t'.output ∧ t.startedAt = t'.startedAt ∧ t.completedAt = t'.completedAt

section

variable {m : Mission} {newPlan : Plan} {newTasks : List MissionTaskProps} {now : Date}
variable {tasks : List MissionTask} {t t' : MissionTask} {props : MissionTaskProps} {id : String}

/-! ## The new tasks -/

theorem mem_of_existingCompleted (h : existingCompleted tasks id = some t) :
    t ∈ tasks ∧ t.status = .completed ∧ t.id = id := by
  have hid := List.find?_some h
  have hmem := List.mem_reverse.mp (List.mem_of_find?_eq_some h)
  obtain ⟨ht, hstatus⟩ := List.mem_filter.mp hmem
  exact ⟨ht, by simpa using hstatus, by simpa using hid⟩

theorem existingCompleted_isSome (ht : t ∈ tasks) (hstatus : t.status = .completed) :
    ∃ existing, existingCompleted tasks t.id = some existing := by
  refine Option.isSome_iff_exists.mp (List.find?_isSome.mpr ⟨t, ?_, by simp⟩)
  exact List.mem_reverse.mpr (List.mem_filter.mpr ⟨ht, by simpa using hstatus⟩)

/-- A new task is COMPLETED as the one that is found under its id, or it is PENDING. -/
theorem replanTask_cases (tasks : List MissionTask) (props : MissionTaskProps) :
    (∃ existing, existingCompleted tasks props.id = some existing ∧
      (replanTask tasks props).status = .completed ∧
      (replanTask tasks props).output = existing.output ∧
      (replanTask tasks props).startedAt = existing.startedAt ∧
      (replanTask tasks props).completedAt = existing.completedAt) ∨
    existingCompleted tasks props.id = none ∧ replanTask tasks props = .init props := by
  unfold replanTask
  cases hfind : existingCompleted tasks props.id with
  | none => exact .inr ⟨rfl, rfl⟩
  | some existing =>
    obtain ⟨-, hstatus, -⟩ := mem_of_existingCompleted hfind
    exact .inl ⟨existing, rfl, hstatus, rfl, rfl, rfl⟩

/-- No execution of a new task is under way. -/
theorem status_of_mem_replanned (h : t ∈ replanned m newTasks) :
    t.status = .completed ∨ t.status = .pending := by
  obtain ⟨props, -, rfl⟩ := List.mem_map.mp h
  rcases replanTask_cases m.state.tasks props with ⟨_, -, hstatus, -⟩ | ⟨-, heq⟩
  · exact .inl hstatus
  · rw [heq]
    exact .inr rfl

theorem exists_mem_replanned (h : Keeps newTasks id) :
    ∃ t ∈ replanned m newTasks, t.id = id := by
  obtain ⟨props, hprops, rfl⟩ := List.mem_map.mp h
  refine ⟨replanTask m.state.tasks props, List.mem_map_of_mem hprops, ?_⟩
  exact congrArg MissionTaskProps.id (replanTask_props m.state.tasks props)

theorem keeps_of_mem_replanned (h : t ∈ replanned m newTasks) : Keeps newTasks t.id := by
  obtain ⟨props, hprops, rfl⟩ := List.mem_map.mp h
  rw [show (replanTask m.state.tasks props).id = props.id from
    congrArg MissionTaskProps.id (replanTask_props m.state.tasks props)]
  exact List.mem_map_of_mem hprops

/-- A completed task is kept as the completed task of its id that is found. -/
theorem completed_of_mem_replanned (ht : t ∈ m.state.tasks) (hstatus : t.status = .completed)
    (ht' : t' ∈ replanned m newTasks) (hid : t'.id = t.id) :
    ∃ existing ∈ m.state.tasks, existing.status = .completed ∧ existing.id = t.id ∧
      t'.status = .completed ∧ t'.output = existing.output ∧
      t'.startedAt = existing.startedAt ∧ t'.completedAt = existing.completedAt := by
  obtain ⟨props, -, rfl⟩ := List.mem_map.mp ht'
  have hprops : props.id = t.id := by
    rw [← hid]
    exact congrArg MissionTaskProps.id (replanTask_props m.state.tasks props).symm
  obtain ⟨found, hfound⟩ := existingCompleted_isSome ht hstatus
  rcases replanTask_cases m.state.tasks props with ⟨existing, hfind, hkept⟩ | ⟨hnone, -⟩
  · obtain ⟨hmem, hdone, hsame⟩ := mem_of_existingCompleted hfind
    exact ⟨existing, hmem, hdone, hsame.trans hprops, hkept⟩
  · rw [hprops, hfound] at hnone
    cases hnone

/-- What has ended or not begun does not end now. -/
theorem moveTask_refused {target : TaskStatus} {change : MissionTask → MissionTask}
    (hfind : findTask m.state.tasks id = some t)
    (hcan : canTransitionTask t.status target = false) (events : List Event) :
    (moveTask m id target change events now).2 ≠ .ok := by
  unfold moveTask MissionTask.transitionStatus
  rw [hfind]
  dsimp only
  rw [if_neg (by rw [hcan]; exact Bool.false_ne_true)]
  exact fun h => by cases h

/-! ## The law -/

/-- **A replan repeats nothing iff no task it keeps is in progress** and COMPLETED tasks of one id
are alike. -/
theorem neverRepeats_iff (m : Mission) (newPlan : Plan) (newTasks : List MissionTaskProps)
    (now : Date) :
    NeverRepeats m newPlan newTasks now ↔ (Replannable m newPlan newTasks → Settled m newTasks) := by
  rcases replan_outcome m newPlan newTasks now with ⟨hrefused, message, hr⟩ | ⟨hplan, hr⟩
  · refine iff_of_true ?_ fun hplan => absurd hplan hrefused
    refine ⟨fun _ => ?_, fun hok => ?_, fun hok => ?_, fun hok => ?_⟩
    · rw [hr]
    all_goals
      rw [hr] at hok
      cases hok
  · have hok : (replan m newPlan newTasks now).2 = .ok := congrArg Prod.snd hr
    have htasks : (replan m newPlan newTasks now).1.state.tasks = replanned m newTasks := by
      rw [hr]
      rfl
    constructor
    · intro h _
      constructor
      · -- a task that starts over takes no result
        intro t ht hkeeps
        by_contra hprogress
        obtain ⟨t', ht', hid⟩ := exists_mem_replanned (m := m) hkeeps
        obtain ⟨hcompletes, -, -⟩ := h.inProgress hok t ht (Bool.of_not_eq_false hprogress) t'
          (htasks ▸ ht') hid
        have hsome : (findTask (replan m newPlan newTasks now).1.state.tasks t.id).isSome := by
          rw [htasks]
          exact List.find?_isSome.mpr ⟨t', ht', by simpa using hid⟩
        obtain ⟨found, hfind⟩ := Option.isSome_iff_exists.mp hsome
        have hmem : found ∈ replanned m newTasks := htasks ▸ List.mem_of_find?_eq_some hfind
        refine moveTask_refused hfind ?_ [] (hcompletes .null now)
        rcases status_of_mem_replanned hmem with hstatus | hstatus <;> rw [hstatus] <;> rfl
      · intro t ht t₀ ht₀ hdone hdone₀ hid hkeeps
        obtain ⟨t', ht', hid'⟩ := exists_mem_replanned (m := m) hkeeps
        obtain ⟨-, houtput, hstarted, hcompleted⟩ := h.completed hok t ht hdone t' (htasks ▸ ht') hid'
        obtain ⟨-, houtput₀, hstarted₀, hcompleted₀⟩ := h.completed hok t₀ ht₀ hdone₀ t'
          (htasks ▸ ht') (hid'.trans hid)
        exact ⟨houtput.symm.trans houtput₀, hstarted.symm.trans hstarted₀,
          hcompleted.symm.trans hcompleted₀⟩
    · intro h
      have hsettled := h hplan
      refine ⟨fun hfailed => absurd hok hfailed, fun _ => ?_, fun _ t ht hdone t' ht' hid => ?_,
        fun _ t ht hprogress t' ht' hid => ?_⟩
      · rw [hr]
        exact hplan.newer
      · rw [htasks] at ht'
        obtain ⟨existing, hmem, hdone', hsame, hstatus, houtput, hstarted, hcompleted⟩ :=
          completed_of_mem_replanned ht hdone ht' hid
        obtain ⟨h₁, h₂, h₃⟩ := hsettled.alike existing hmem t ht hdone' hdone hsame
          (by rw [hsame, ← hid]; exact keeps_of_mem_replanned ht')
        exact ⟨hstatus, houtput.trans h₁, hstarted.trans h₂, hcompleted.trans h₃⟩
      · rw [htasks] at ht'
        have hidle := hsettled.idle t ht (hid ▸ keeps_of_mem_replanned ht')
        rw [hprogress] at hidle
        cases hidle

end

/-! ## A running task -/

/-- The mission executes, and its task runs. -/
def runningOps : List (Op × Date) := executingOps ++ [(.startTask "research", 0)]

def runningMission : Mission := Machine.final step sampleCreated runningOps

def newerPlan : Plan where
  planId := "plan"
  version := 2

/-- The same tasks under a newer plan. -/
def replannedMission : Mission :=
  (replan runningMission newerPlan [sampleTask "research" []] 1).1

theorem replannedMission_repeats :
    (replan runningMission newerPlan [sampleTask "research" []] 1).2 = .ok ∧
    (runningMission.state.tasks.map fun t => (t.id, t.status)) = [("research", .running)] ∧
    (completeTask replannedMission "research" .null 2).2 =
      .fail "Cannot transition task from PENDING to COMPLETED" ∧
    (selectNextTask replannedMission.state.tasks).map (·.id) = some "research" := by
  decide +kernel

/-- The task runs while the mission is replanned with it: its result is refused, and it is the next
task to execute. -/
theorem not_neverRepeats_running : ¬ ∀ (m : Mission) (newPlan : Plan)
    (newTasks : List MissionTaskProps) (now : Date), NeverRepeats m newPlan newTasks now := by
  intro h
  obtain ⟨hok, htasks, hrefused, hnext⟩ := replannedMission_repeats
  obtain ⟨t, ht, htask⟩ : ∃ t ∈ runningMission.state.tasks,
      (t.id, t.status) = ("research", .running) := by
    refine List.mem_map.mp ?_
    rw [htasks]
    exact List.mem_singleton.mpr rfl
  obtain ⟨hid, hstatus⟩ := Prod.mk.inj htask
  obtain ⟨next, hselected, hnext⟩ := Option.map_eq_some_iff.mp hnext
  have hprogress : inProgress t.status = true := by
    rw [hstatus]
    rfl
  have hmem : next ∈ replannedMission.state.tasks := by
    unfold selectNextTask at hselected
    exact List.mem_of_find?_eq_some hselected
  have hlaw := (h runningMission newerPlan [sampleTask "research" []] 1).inProgress hok t ht
    hprogress next hmem (hnext.trans hid.symm)
  have hcompletes := hlaw.1 .null 2
  rw [hid] at hcompletes
  exact absurd (hrefused.symm.trans hcompletes) (by decide)

end VegaRevenue.Mission
