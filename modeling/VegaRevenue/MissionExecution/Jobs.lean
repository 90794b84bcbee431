import VegaRevenue.Domain.TaskGraph
import VegaRevenue.MissionExecution.Engine

/-!
# What the engine does to a copy of the mission

Every operation of the engine moves the version with the state, keeps the tasks apart and begins
no task but the one it starts.

* `Advances` — what an operation owes, with the tasks it begins
* `advances_reapply` — the operations of a job
-/

namespace VegaRevenue.MissionExecution

open Interleave
open Versioned
open Mission (Props Plan findTask setTask moveTask transitionTo addTask setPlan planValid startTask
  completeTask failTask markTaskAwaitingApproval pause block complete fail)

/-- The task has left PENDING. -/
def Begun (tasks : List MissionTask) (taskId : String) : Prop :=
  ∃ t, findTask tasks taskId = some t ∧ t.status ≠ .pending

/-- The tasks have ids of their own. -/
def Distinct (tasks : List MissionTask) : Prop := (tasks.map (·.id)).Nodup

/-- `m'` is `m` after operations that begin the tasks in `S`. -/
structure Advances (S : String → Prop) (m m' : Mission) : Prop where
  tracks : m.Tracks m' False
  begun : ∀ T, Begun m'.state.tasks T ↔ Begun m.state.tasks T ∨ S T
  distinct : Distinct m.state.tasks → Distinct m'.state.tasks

/-- Operations that begin no task. -/
abbrev Quiet : Mission → Mission → Prop := Advances fun _ => False

section

variable {tasks : List MissionTask} {t t' : MissionTask} {id : String} {m m' m₁ : Mission}
  {now : Date}

/-! ## Tasks that are found -/

theorem findTask_id (h : findTask tasks id = some t) : t.id = id := by
  unfold findTask at h
  simpa using List.find?_some h

theorem findTask_setTask_self (ht : t'.id = id) (hfind : findTask tasks id = some t) :
    findTask (setTask id t' tasks) id = some t' := by
  induction tasks with
  | nil => cases hfind
  | cons a tasks ih =>
    unfold findTask at hfind ih ⊢
    by_cases ha : a.id = id
    · simp [setTask, ha, ht]
    · rw [List.find?_cons_of_neg (by simpa using ha)] at hfind
      rw [setTask, if_neg ha, List.find?_cons_of_neg (by simpa using ha)]
      exact ih hfind

theorem findTask_setTask_ne {T : String} (ht : t'.id = id) (hT : T ≠ id) :
    findTask (setTask id t' tasks) T = findTask tasks T := by
  induction tasks with
  | nil => rfl
  | cons a tasks ih =>
    unfold findTask at ih ⊢
    by_cases ha : a.id = id
    · rw [setTask, if_pos ha, List.find?_cons_of_neg, List.find?_cons_of_neg]
      · simpa [ha] using Ne.symm hT
      · simpa [ht] using Ne.symm hT
    · rw [setTask, if_neg ha, List.find?_cons, List.find?_cons, ih]

/-- Where ids are distinct, a task of the list is the one that is found. -/
theorem findTask_of_mem (h : Distinct tasks) (ht : t ∈ tasks) : findTask tasks t.id = some t := by
  cases hfind : findTask tasks t.id with
  | none => simpa using List.find?_eq_none.mp hfind t ht
  | some a =>
    rw [Mission.eq_of_id h (List.mem_of_find?_eq_some hfind) ht (findTask_id hfind)]

/-! ## Operations -/

theorem Advances.refl (m : Mission) : Quiet m m := ⟨.refl m _, fun _ => by simp, id⟩

theorem Advances.trans {S S' : String → Prop} (h : Advances S m m₁) (h' : Advances S' m₁ m') :
    Advances (fun T => S T ∨ S' T) m m' :=
  ⟨h.tracks.trans h'.tracks, fun T => by rw [h'.begun, h.begun, or_assoc],
    fun hd => h'.distinct (h.distinct hd)⟩

theorem Quiet.trans {S : String → Prop} (h : Quiet m m₁) (h' : Advances S m₁ m') :
    Advances S m m' := by
  have hboth := Advances.trans h h'
  exact ⟨hboth.tracks, fun T => by simpa using hboth.begun T, hboth.distinct⟩

theorem Advances.of_ok {S : String → Prop} {r : Mission × OpResult} (hr : r = (m', .ok))
    (h : Advances S m r.1) : Advances S m m' := by
  rwa [hr] at h

/-- An operation that leaves the tasks alone. -/
theorem Advances.of_tasks (ht : m.Tracks m' False) (htasks : m'.state.tasks = m.state.tasks) :
    Quiet m m' :=
  ⟨ht, fun _ => by simp [htasks], fun hd => by rw [htasks]; exact hd⟩

theorem quiet_transitionTo (target : Mission.Status) (event : Mission.Event) :
    Quiet m (transitionTo m target event now).1 := by
  rcases Mission.transitionTo_cases m target event now with ⟨-, hr⟩ | ⟨-, hr⟩ <;> rw [hr]
  · exact .refl m
  · exact .of_tasks (.of_lt rfl (Nat.lt_succ_self _)) rfl

theorem quiet_complete (outcomes : Mission.Outcomes) : Quiet m (complete m outcomes now).1 := by
  unfold complete
  rcases Mission.transitionTo_cases m .completed (.completed m.state.id outcomes) now with
    ⟨hcan, -⟩ | ⟨hcan, -⟩
  · simp only [transitionTo, hcan]
    exact .refl m
  · simp only [transitionTo, hcan]
    exact .of_tasks (.of_lt rfl (Nat.lt_succ_self _)) rfl

theorem foldl_applyEvent_loadedVersion (events : List Mission.Event) (m : Mission) :
    (events.foldl Aggregate.applyEvent m).loadedVersion = m.loadedVersion ∧
      (events.foldl Aggregate.applyEvent m).version = m.version + events.length := by
  induction events generalizing m with
  | nil => exact ⟨rfl, rfl⟩
  | cons e events ih =>
    obtain ⟨hl, hv⟩ := ih (m.applyEvent e)
    refine ⟨hl, ?_⟩
    rw [List.foldl_cons, hv, List.length_cons, Aggregate.applyEvent_version]
    omega

/-- A task moves, the others stay. -/
theorem moveTask_ok {target : TaskStatus} {change : MissionTask → MissionTask}
    {events : List Mission.Event} (hchange : ∀ t, (change t).id = t.id ∧ (change t).status = t.status)
    (htarget : target ≠ .pending) (h : moveTask m id target change events now = (m', .ok)) :
    Advances (· = id) m m' ∧
      ∃ t, findTask m.state.tasks id = some t ∧ canTransitionTask t.status target = true := by
  unfold moveTask at h
  split at h
  · cases h
  next t hfind =>
    split at h
    · cases h
    next t' hok =>
      obtain ⟨hcan, hprops, hstatus⟩ := Mission.transitionStatus_ok hok
      have hid : (change t').id = id := by
        rw [(hchange t').1, show t'.id = t.id from congrArg MissionTaskProps.id hprops,
          findTask_id hfind]
      obtain ⟨rfl⟩ : _ = m' := (Prod.mk.injEq .. ▸ h).1
      refine ⟨⟨?_, ?_, ?_⟩, t, hfind, hcan⟩
      · obtain ⟨hl, hv⟩ := foldl_applyEvent_loadedVersion (.taskStatusChanged m.state.id id target ::
          events) (m.write { m.state with tasks := setTask id (change t') m.state.tasks })
        refine .of_lt hl ?_
        rw [hv, List.length_cons, Aggregate.write_version]
        omega
      · intro T
        rw [Mission.foldl_applyEvent_state]
        show Begun (setTask id (change t') m.state.tasks) T ↔ _
        by_cases hT : T = id
        · subst hT
          refine iff_of_true ⟨change t', findTask_setTask_self hid hfind, ?_⟩ (.inr rfl)
          rw [(hchange t').2, hstatus]
          exact htarget
        · unfold Begun
          rw [findTask_setTask_ne hid hT]
          simp [hT]
      · intro hd
        rw [Mission.foldl_applyEvent_state]
        show ((setTask id (change t') m.state.tasks).map (·.id)).Nodup
        rw [Mission.map_setTask hfind (by rw [hid, findTask_id hfind])]
        exact hd

/-- A task that moves on from RUNNING had begun. -/
theorem quiet_moveTask {target : TaskStatus} {change : MissionTask → MissionTask}
    {events : List Mission.Event} (hchange : ∀ t, (change t).id = t.id ∧ (change t).status = t.status)
    (htarget : target ≠ .pending) (hsource : canTransitionTask .pending target = false)
    (h : moveTask m id target change events now = (m', .ok)) : Quiet m m' := by
  obtain ⟨hadv, t, hfind, hcan⟩ := moveTask_ok hchange htarget h
  refine ⟨hadv.tracks, fun T => ?_, hadv.distinct⟩
  rw [hadv.begun, or_false]
  refine or_iff_left_of_imp ?_
  rintro rfl
  refine ⟨t, hfind, fun hpending => ?_⟩
  rw [hpending, hsource] at hcan
  cases hcan

theorem startTask_ok (h : startTask m id now = (m', .ok)) : Advances (· = id) m m' := by
  unfold startTask at h
  split at h
  · cases h
  · split at h
    · cases h
    · split at h
      · cases h
      · exact (moveTask_ok (fun _ => ⟨rfl, rfl⟩) (by decide) h).1

/-- A refusal leaves the mission alone. -/
theorem startTask_refused {r : OpResult} (h : startTask m id now = (m', r)) (hr : r ≠ .ok) :
    m' = m := by
  unfold startTask moveTask at h
  repeat' split at h
  all_goals first
    | exact absurd (congrArg Prod.snd h).symm hr
    | exact (congrArg Prod.fst h).symm

theorem quiet_addTask {props : MissionTaskProps} : Quiet m (addTask m props).1 := by
  rcases Mission.addTask_cases m props with ⟨-, hr⟩ | ⟨hadd, hr⟩ <;> rw [hr]
  · exact .refl m
  · refine ⟨.of_lt rfl (Nat.lt_succ_self _), fun T => ?_, fun hd => ?_⟩
    · show Begun (m.state.tasks ++ [.init props]) T ↔ _
      unfold Begun findTask
      rw [List.find?_append, or_false]
      cases hfind : m.state.tasks.find? fun t => decide (t.id = T) with
      | some t => rfl
      | none =>
        -- a task that is new is PENDING
        refine iff_of_false ?_ (by simp)
        rintro ⟨t, ht, hbegun⟩
        rw [Option.none_or] at ht
        obtain rfl : MissionTask.init props = t :=
          (List.mem_singleton.mp (List.mem_of_find?_eq_some ht)).symm
        exact hbegun rfl
    · show ((m.state.tasks ++ [MissionTask.init props]).map (·.id)).Nodup
      rw [List.map_append, List.map_singleton]
      refine List.nodup_append'.mpr ⟨hd, List.nodup_singleton _, ?_⟩
      simpa [MissionTask.init] using fun t ht => hadd.newId t ht

/-! ## Jobs -/

theorem andThen_ok {a : Mission × OpResult} {b : Mission → Mission × OpResult}
    (h : andThen a b = (m', .ok)) : ∃ m₁, a = (m₁, .ok) ∧ b m₁ = (m', .ok) := by
  obtain ⟨m₁, r⟩ := a
  cases r with
  | ok => exact ⟨m₁, rfl, h⟩
  | fail _ => cases h
  | threw _ => cases h

theorem quiet_addTasks (tasks : List MissionTaskProps) :
    ∀ {m}, addTasks m tasks = (m', .ok) → Quiet m m' := by
  induction tasks with
  | nil =>
    intro m h
    cases h
    exact .refl _
  | cons props tasks ih =>
    intro m h
    obtain ⟨m₁, hadd, hrest⟩ := andThen_ok h
    exact Quiet.trans (.of_ok hadd quiet_addTask) (ih hrest)

/-- The plan is written without an event; the transition that follows has one. -/
theorem quiet_setPlan {plan : Plan} (h : planValid (setPlan m plan) now = (m', .ok)) :
    Quiet m m' := by
  unfold planValid transitionTo at h
  split at h
  · cases h
  · split at h
    · obtain ⟨rfl⟩ : _ = m' := (Prod.mk.injEq .. ▸ h).1
      exact .of_tasks (.of_lt rfl (Nat.lt_succ_self _)) rfl
    · cases h

theorem quiet_applyPlan {plan : Plan} {tasks : List MissionTaskProps}
    (h : applyPlan plan tasks now m = (m', .ok)) : Quiet m m' := by
  obtain ⟨m₁, hadd, hvalid⟩ := andThen_ok h
  exact (quiet_addTasks tasks hadd).trans (quiet_setPlan hvalid)

theorem quiet_completeTask {output : Json} (h : completeTask m id output now = (m', .ok)) :
    Quiet m m' :=
  quiet_moveTask (by intro t; exact ⟨rfl, rfl⟩) (by decide) (by decide) h

theorem quiet_failTask {reason : String} (h : failTask m id reason now = (m', .ok)) :
    Quiet m m' :=
  quiet_moveTask (by intro t; exact ⟨rfl, rfl⟩) (by decide) (by decide) h

theorem quiet_markTaskAwaitingApproval {gate : String}
    (h : markTaskAwaitingApproval m id gate now = (m', .ok)) : Quiet m m' :=
  quiet_moveTask (by intro t; exact ⟨rfl, rfl⟩) (by decide) (by decide) h

theorem quiet_complete? : Quiet m (complete? now m).1 := by
  unfold complete?
  split
  · exact quiet_complete _
  · exact quiet_transitionTo _ _

theorem quiet_blockExecuting {result : AIExecutionResult} :
    Quiet m (blockExecuting id result now m).1 := by
  unfold blockExecuting
  split
  · exact quiet_transitionTo _ _
  · exact .refl m

/-- The tasks a job begins. -/
def Job.Starts : Job → String → Prop
  | .start task _, T => T = task.id
  | _, _ => False

/-- **A job begins the task it starts and no other, and moves the version with the state.** -/
theorem advances_reapply {job : Job} {input : Input}
    (h : job.reapply input m = (m', .ok)) : Advances job.Starts m m' := by
  cases job with
  | plan newPlan tasks =>
    unfold Job.reapply at h
    dsimp only at h
    split at h
    · exact quiet_applyPlan h
    · cases h
  | start task executionId => exact startTask_ok h
  | result task result =>
    unfold Job.reapply at h
    dsimp only at h
    split at h
    · exact quiet_completeTask h
    · obtain ⟨m₁, hmark, hpause⟩ := andThen_ok h
      exact (quiet_markTaskAwaitingApproval hmark).trans (.of_ok hpause (quiet_transitionTo _ _))
    all_goals first
      | cases h
        exact .refl _
      | obtain ⟨m₁, hfail, hblock⟩ := andThen_ok h
        exact (quiet_failTask hfail).trans (.of_ok hblock quiet_blockExecuting)
  | completion status => exact .of_ok h quiet_complete?

end

end VegaRevenue.MissionExecution
