import VegaRevenue.Domain.TaskGraph

/-!
# The dependencies of tasks that have begun

A task begins when its dependencies are completed. Only a replan can take that back: it carries
completed tasks over by their ids, whatever the new plan makes them depend on.

* `honoured_iff` — a run honours the dependencies iff its replans do
* `not_honoured_replan` — a completed task that a new plan makes wait for a pending one
-/

namespace VegaRevenue.Mission

/-- The task runs, waits for its approval, or is done. -/
def begun (s : TaskStatus) : Bool := s = .running || s = .awaitingApproval || s = .completed

/-- A task with this id is completed. -/
def Completed (tasks : List MissionTask) (id : String) : Prop :=
  ∃ t ∈ tasks, t.id = id ∧ t.status = .completed

/-- What a task that has begun depends on is completed. -/
def Honoured (tasks : List MissionTask) : Prop :=
  ∀ t ∈ tasks, begun t.status = true → ∀ d ∈ t.dependsOn, Completed tasks d

/-- A new plan makes no completed task depend on one that is not completed. -/
def keepsHonoured (m : Mission) : Op → Prop
  | .replan newPlan newTasks => Replannable m newPlan newTasks →
      ∀ props ∈ newTasks, Completed m.state.tasks props.id →
        ∀ d ∈ props.dependsOn, Completed m.state.tasks d
  | _ => True

section

variable {tasks : List MissionTask} {t t' : MissionTask} {id : String} {m : Mission} {now : Date}

theorem incompleteDependencies_eq_false (h : incompleteDependencies tasks t = false) {d : String}
    (hd : d ∈ t.dependsOn) : Completed tasks d := by
  unfold incompleteDependencies at h
  rw [List.any_eq_false] at h
  have hsome := h d hd
  simpa [Completed] using hsome

/-- Completed tasks stay when another task moves. -/
theorem Completed.setTask (h : Completed tasks id) {taskId : String}
    (hfind : findTask tasks taskId = some t) (ht : t.status ≠ .completed) :
    Completed (setTask taskId t' tasks) id := by
  obtain ⟨a, ha, hid, hstatus⟩ := h
  obtain ⟨l, r, rfl, hset⟩ := setTask_split hfind
  rw [hset]
  rcases List.mem_append.mp ha with ha | ha
  · exact ⟨a, List.mem_append_left _ ha, hid, hstatus⟩
  · rcases List.mem_cons.mp ha with rfl | ha
    · exact absurd hstatus ht
    · exact ⟨a, List.mem_append_right _ (List.mem_cons_of_mem _ ha), hid, hstatus⟩

/-- A task moves to a status it may begin in only if its dependencies are completed. -/
theorem honoured_moveTask (h : Honoured m.state.tasks) (target : TaskStatus)
    {change : MissionTask → MissionTask}
    (hchange : ∀ t, (change t).status = t.status ∧ (change t).dependsOn = t.dependsOn)
    (hdeps : ∀ t, findTask m.state.tasks id = some t → canTransitionTask t.status target = true →
      begun target = true → ∀ d ∈ t.dependsOn, Completed m.state.tasks d) (events : List Event) :
    Honoured (moveTask m id target change events now).1.state.tasks := by
  rcases moveTask_cases m id target change events now with hr | ⟨t, t', hfind, hok, hr⟩
  · rw [hr]
    exact h
  · obtain ⟨hcan, hprops, htarget⟩ := transitionStatus_ok hok
    have hopen : t.status ≠ .completed := by
      intro hdone
      rw [hdone] at hcan
      cases target <;> cases hcan
    rw [hr]
    dsimp only
    have hkeep : ∀ {d}, Completed m.state.tasks d →
        Completed (setTask id (change t') m.state.tasks) d := fun hd => hd.setTask hfind hopen
    intro a ha hbegun d hd
    refine hkeep ?_
    obtain ⟨l, r, hsplit, hset⟩ := setTask_split hfind
    rw [hset] at ha
    have hold : a ∈ m.state.tasks → Completed m.state.tasks d := fun ha => h a ha hbegun d hd
    rcases List.mem_append.mp ha with ha | ha
    · exact hold (hsplit ▸ List.mem_append_left _ ha)
    · rcases List.mem_cons.mp ha with rfl | ha
      · rw [(hchange t').1, htarget] at hbegun
        rw [(hchange t').2, show t'.dependsOn = t.dependsOn from
          congrArg MissionTaskProps.dependsOn hprops] at hd
        exact hdeps t hfind hcan hbegun d hd
      · exact hold (hsplit ▸ List.mem_append_right _ (List.mem_cons_of_mem _ ha))

/-- A task that moves on from RUNNING has its dependencies completed. -/
theorem Honoured.of_running (h : Honoured m.state.tasks) {target : TaskStatus}
    (htarget : ∀ s, canTransitionTask s target = true → begun target = true → s = .running) :
    ∀ t, findTask m.state.tasks id = some t → canTransitionTask t.status target = true →
      begun target = true → ∀ d ∈ t.dependsOn, Completed m.state.tasks d := by
  intro t hfind hcan hbegun
  have hrunning := htarget t.status hcan hbegun
  exact h t (List.mem_of_find?_eq_some hfind) (by rw [hrunning]; rfl)

theorem honoured_startTask (h : Honoured m.state.tasks) :
    Honoured (startTask m id now).1.state.tasks := by
  unfold startTask
  split
  · exact h
  next t hfind =>
    split
    · exact h
    · split
      · exact h
      next hcomplete =>
        refine honoured_moveTask h _ (fun _ => ⟨rfl, rfl⟩) (fun t' hfind' _ _ d hd => ?_) _
        obtain rfl : t = t' := Option.some.inj (hfind.symm.trans hfind')
        exact incompleteDependencies_eq_false (Bool.eq_false_iff.mpr hcomplete) hd

/-- A status of the mission moves no task. -/
theorem transitionTo_tasks (target : Status) (event : Event) :
    (transitionTo m target event now).1.state.tasks = m.state.tasks := by
  rcases transitionTo_cases m target event now with ⟨-, hr⟩ | ⟨-, hr⟩ <;> rw [hr]
  rfl

theorem planValid_tasks : (planValid m now).1.state.tasks = m.state.tasks := by
  unfold planValid
  split
  · rfl
  · exact transitionTo_tasks _ _

theorem complete_tasks (outcomes : Outcomes) :
    (complete m outcomes now).1.state.tasks = m.state.tasks := by
  have hmoves : (transitionTo m .completed (.completed m.state.id outcomes) now).1.state.tasks =
      m.state.tasks := transitionTo_tasks _ _
  unfold complete
  split
  next m' hr =>
    rw [hr] at hmoves
    exact hmoves
  · exact hmoves

theorem honoured_addTask (h : Honoured m.state.tasks) (props : MissionTaskProps) :
    Honoured (addTask m props).1.state.tasks := by
  rcases addTask_cases m props with ⟨-, hr⟩ | ⟨-, hr⟩ <;> rw [hr]
  · exact h
  · intro t ht hbegun d hd
    rcases List.mem_append.mp ht with ht | ht
    · obtain ⟨t', ht', hdone⟩ := h t ht hbegun d hd
      exact ⟨t', List.mem_append_left _ ht', hdone⟩
    · obtain rfl := List.mem_singleton.mp ht
      cases hbegun

/-- What is carried over is what was completed under the id. -/
theorem existingCompleted_cases (tasks : List MissionTask) (id : String) :
    (existingCompleted tasks id = none ∧ ¬ Completed tasks id) ∨
      ∃ t, existingCompleted tasks id = some t ∧ t.status = .completed ∧ Completed tasks id := by
  unfold existingCompleted Completed
  cases hfind : (tasks.filter (·.status = .completed)).reverse.find? (·.id = id) with
  | none =>
    refine .inl ⟨rfl, fun ⟨t, ht, hid, hstatus⟩ => ?_⟩
    rw [List.find?_eq_none] at hfind
    have hnot := hfind t (List.mem_reverse.mpr (List.mem_filter.mpr ⟨ht, by simpa using hstatus⟩))
    exact hnot (by simpa using hid)
  | some t =>
    obtain ⟨ht, hstatus⟩ := List.mem_filter.mp (List.mem_reverse.mp
      (List.mem_of_find?_eq_some hfind))
    have hid := List.find?_some hfind
    rw [decide_eq_true_eq] at hid hstatus
    exact .inr ⟨t, rfl, hstatus, t, ht, hid, hstatus⟩

theorem replanTask_status (tasks : List MissionTask) (props : MissionTaskProps) :
    (replanTask tasks props).status = .completed ∧ Completed tasks props.id ∨
      (replanTask tasks props).status = .pending ∧ ¬ Completed tasks props.id := by
  unfold replanTask
  rcases existingCompleted_cases tasks props.id with ⟨hnone, hnot⟩ | ⟨t, hsome, hstatus, hdone⟩
  · rw [hnone]
    exact .inr ⟨rfl, hnot⟩
  · rw [hsome]
    exact .inl ⟨hstatus, hdone⟩

/-- The completed tasks of a new plan are those of its tasks that were completed. -/
theorem completed_replanned_iff {newTasks : List MissionTaskProps} :
    Completed (replanned m newTasks) id ↔
      (∃ props ∈ newTasks, props.id = id) ∧ Completed m.state.tasks id := by
  unfold replanned
  constructor
  · rintro ⟨t, ht, hid, hstatus⟩
    obtain ⟨props, hprops, rfl⟩ := List.mem_map.mp ht
    have hid' : props.id = id := by
      rw [← hid, ← congrArg MissionTaskProps.id (replanTask_props m.state.tasks props)]
    refine ⟨⟨props, hprops, hid'⟩, ?_⟩
    rcases replanTask_status m.state.tasks props with ⟨-, hdone⟩ | ⟨hpending, -⟩
    · exact hid' ▸ hdone
    · rw [hpending] at hstatus
      cases hstatus
  · rintro ⟨⟨props, hprops, hid⟩, hdone⟩
    refine ⟨_, List.mem_map_of_mem hprops,
      (congrArg MissionTaskProps.id (replanTask_props m.state.tasks props)).trans hid, ?_⟩
    rcases replanTask_status m.state.tasks props with ⟨hcompleted, -⟩ | ⟨-, hnot⟩
    · exact hcompleted
    · exact absurd (hid ▸ hdone) hnot

theorem honoured_replan (h : Honoured m.state.tasks) (newPlan : Plan)
    (newTasks : List MissionTaskProps) :
    Honoured (replan m newPlan newTasks now).1.state.tasks ↔
      keepsHonoured m (.replan newPlan newTasks) := by
  rcases replan_cases m newPlan newTasks now with ⟨hrefused, hr⟩ | ⟨hplan, hr⟩ <;> rw [hr]
  · exact iff_of_true h fun hplan => absurd hplan hrefused
  · show Honoured (replanned m newTasks) ↔ _
    obtain ⟨-, hgraph, -⟩ := validateTaskGraph_eq_none_iff.mp hplan.valid
    constructor
    · intro hnew _ props hprops hdone d hd
      have hdeps := hnew (replanTask m.state.tasks props) (List.mem_map_of_mem hprops)
      rcases replanTask_status m.state.tasks props with ⟨hcompleted, -⟩ | ⟨-, hnot⟩
      · refine (completed_replanned_iff.mp (hdeps (by rw [hcompleted]; rfl) d ?_)).2
        rw [show (replanTask m.state.tasks props).dependsOn = props.dependsOn from
          congrArg MissionTaskProps.dependsOn (replanTask_props _ _)]
        exact hd
      · exact absurd hdone hnot
    · intro hkeeps t ht hbegun d hd
      have hplanned := hgraph.planned t ht d hd
      obtain ⟨props, hprops, rfl⟩ := List.mem_map.mp ht
      rw [show (replanTask m.state.tasks props).dependsOn = props.dependsOn from
        congrArg MissionTaskProps.dependsOn (replanTask_props _ _)] at hd
      rcases replanTask_status m.state.tasks props with ⟨-, hdone⟩ | ⟨hpending, -⟩
      · refine completed_replanned_iff.mpr ⟨?_, hkeeps hplan props hprops hdone d hd⟩
        obtain ⟨t', ht', rfl⟩ := List.mem_map.mp hplanned
        obtain ⟨props', hprops', rfl⟩ := List.mem_map.mp ht'
        exact ⟨props', hprops', (congrArg MissionTaskProps.id (replanTask_props _ _)).symm⟩
      · rw [hpending] at hbegun
        cases hbegun

/-- **An operation honours the dependencies iff it is no replan that makes a completed task depend
on one that is not.** -/
theorem honoured_step (m : Mission) (i : Op × Date) (h : Honoured m.state.tasks) :
    Honoured (step m i).1.state.tasks ↔ keepsHonoured m i.1 := by
  obtain ⟨op, now⟩ := i
  have hsame : ∀ {m' : Mission}, m'.state.tasks = m.state.tasks →
      (Honoured m'.state.tasks ↔ True) := by
    intro m' ht
    rw [ht]
    exact iff_of_true h trivial
  have hkept : ∀ {id : String} {target : TaskStatus} {change : MissionTask → MissionTask}
      {events : List Event},
      (∀ t, (change t).status = t.status ∧ (change t).dependsOn = t.dependsOn) →
      (∀ s, canTransitionTask s target = true → begun target = true → s = .running) →
      (Honoured (moveTask m id target change events now).1.state.tasks ↔ True) :=
    fun hchange htarget =>
      iff_of_true (honoured_moveTask h _ hchange (h.of_running htarget) _) trivial
  cases op with
  | replan newPlan newTasks => exact honoured_replan h newPlan newTasks
  | addTask props => exact iff_of_true (honoured_addTask h props) trivial
  | startTask id => exact iff_of_true (honoured_startTask h) trivial
  | planValid => exact hsame planValid_tasks
  | complete outcomes => exact hsame (complete_tasks outcomes)
  | setPlan plan => exact hsame rfl
  | completeTask id output =>
    exact hkept (by intro t; exact ⟨rfl, rfl⟩) (by intro s; cases s <;> decide)
  | failTask id reason =>
    exact hkept (by intro t; exact ⟨rfl, rfl⟩) (by intro s; cases s <;> decide)
  | timeoutTask id =>
    exact hkept (by intro t; exact ⟨rfl, rfl⟩) (by intro s; cases s <;> decide)
  | cancelTask id reason =>
    exact hkept (by intro t; exact ⟨rfl, rfl⟩) (by intro s; cases s <;> decide)
  | markTaskAwaitingApproval id gate =>
    exact hkept (by intro t; exact ⟨rfl, rfl⟩) (by intro s; cases s <;> decide)
  | _ => exact hsame (transitionTo_tasks _ _)

end

/-- **A new mission honours the dependencies through a run iff it is created so and no replan makes
a completed task depend on one that is not.** -/
theorem honoured_iff (props : Props) (now : Date) (m : Mission) (hcreate : create props now = .ok m)
    (ops : List (Op × Date)) :
    Machine.Throughout step (fun m => Honoured m.state.tasks) m ops ↔
      Honoured props.tasks ∧ Machine.Meets step (fun m i => keepsHonoured m i.1) m ops := by
  have hstate : m.state = props := by rw [create_ok hcreate]; rfl
  rw [Machine.throughout_iff_meets honoured_step ops, hstate]

/-- The one task of the mission is done. -/
def completedOps : List (Op × Date) :=
  executingOps ++ [(.startTask "research", 0), (.completeTask "research" .null, 0)]

theorem honoured_completed :
    Machine.Throughout step (fun m => Honoured m.state.tasks) sampleCreated completedOps := by
  refine (honoured_iff sampleMission 0 sampleCreated create_sampleMission completedOps).mpr
    ⟨List.forall_mem_nil _, ?_⟩
  simp only [completedOps, executingOps, List.cons_append, List.nil_append, Machine.Meets,
    keepsHonoured, and_self]

/-- The new plan makes the task that is done wait for another one. -/
def reorderedOps : List (Op × Date) :=
  completedOps ++ [(.replan { planId := "plan", version := 2 }
    [sampleTask "draft" [], sampleTask "research" ["draft"]], 0)]

theorem not_honoured_replan :
    ¬ ∀ (props : Props) (now : Date) (m : Mission), create props now = .ok m →
      ∀ ops : List (Op × Date),
        Machine.Throughout step (fun m => Honoured m.state.tasks) m ops := by
  intro h
  have hfinal := (h sampleMission 0 sampleCreated create_sampleMission reorderedOps).final
  obtain ⟨t, ht, hid, hstatus⟩ := hfinal _ (List.mem_cons_of_mem _ List.mem_cons_self) rfl "draft"
    List.mem_cons_self
  have hpending : ∀ t ∈ (Machine.final step sampleCreated reorderedOps).state.tasks,
      t.id = "draft" → t.status ≠ .completed := by decide +kernel
  exact hpending t ht hid hstatus

end VegaRevenue.Mission
