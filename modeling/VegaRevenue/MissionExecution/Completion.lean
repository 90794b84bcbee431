import VegaRevenue.MissionExecution.Copies

/-!
# A mission fails only when no work is left

* `FailsWhenDone` — a completion check stores FAILED only over tasks that are all over
* `ExecutesApproved` — a step executes a task whose approval was granted
* `completes_of_meets` — both hold along a run in which no completion check looks at a task in
  progress and no step loads a task whose approval was granted
-/

namespace VegaRevenue.MissionExecution

open Interleave
open Versioned
open Mission (Props complete fail)

/-! ## What is promised -/

/-- The task is RUNNING, waits for an approval or is paused. -/
def inProgress (t : MissionTask) : Bool :=
  t.status = .running || t.status = .awaitingApproval || t.status = .paused

/-- The task is PENDING with its dependencies completed, or in progress. -/
def outstanding (tasks : List MissionTask) (t : MissionTask) : Bool :=
  inProgress t || t.status = .pending && !Mission.incompleteDependencies tasks t

/-- Nothing is outstanding. -/
def Settled (tasks : List MissionTask) : Prop := tasks.all (! outstanding tasks ·) = true

instance (tasks : List MissionTask) : Decidable (Settled tasks) :=
  inferInstanceAs (Decidable (_ = true))

/-- The tasks that wait for an approval which was granted. -/
def approvedTasks (w : World) : List MissionTask :=
  w.mission.payload.tasks.filter fun t => t.status = .awaitingApproval &&
    w.approvals.any fun p => p.2.payload.missionId = w.mission.payload.id &&
      p.2.payload.taskId = some t.id && p.2.payload.status = .approved

/-- A save of `evaluateCompletion` that stores FAILED finds no task outstanding. -/
def FailsWhenDone (c : Interleave.Config World Pc) (a : Tick Input) : Prop :=
  match c.pc a.call with
  | .saving _ (.completion _) m _ =>
    a.input.fault = false → (c.world.save m).isSome = true → m.state.status = .failed →
      Settled c.world.mission.payload.tasks
  | _ => True

/-- The call goes on to start this task. -/
def Pc.starts? (p : Pc) (t : MissionTask) : Bool :=
  match p with
  | saving _ (.start task _) _ _ => task.id = t.id
  | _ => false

/-- `executeMissionStep` on an executing mission goes on with a task whose approval was granted,
where there is one. -/
def ExecutesApproved (c : Interleave.Config World Pc) (a : Tick Input) : Prop :=
  match c.pc a.call with
  | .load .missionStep =>
    a.input.fault = false → c.world.mission.payload.status = .executing →
      approvedTasks c.world ≠ [] →
      (approvedTasks c.world).any ((c.step next a).pc a.call).starts? = true
  | _ => True

/-! ## The condition -/

/-- A completion check finds no task in progress; one that is made again finds none to select
either. -/
def Settles (c : Interleave.Config World Pc) (a : Tick Input) : Prop :=
  let mission := c.world.mission.payload
  match c.pc a.call with
  | .load call =>
    a.input.fault = false → call.looks = true → mission.status = .executing →
      (selectNextTask mission.tasks).isNone = true → mission.tasks.any inProgress = false
  | .reloading _ (.completion _) _ =>
    a.input.fault = false → Mission.canTransition mission.status .failed = true →
      mission.tasks.all (·.status = .completed) = false →
      (selectNextTask mission.tasks).isNone = true ∧ mission.tasks.any inProgress = false
  | _ => True

/-- No step loads an executing mission with a task whose approval was granted. -/
def LoadsNoApproved (c : Interleave.Config World Pc) (a : Tick Input) : Prop :=
  match c.pc a.call with
  | .load .missionStep =>
    a.input.fault = false → c.world.mission.payload.status = .executing →
      (approvedTasks c.world).isEmpty = true
  | _ => True

instance (c : Interleave.Config World Pc) (a : Tick Input) : Decidable (FailsWhenDone c a) := by
  unfold FailsWhenDone
  split <;> infer_instance

instance (c : Interleave.Config World Pc) (a : Tick Input) : Decidable (ExecutesApproved c a) := by
  unfold ExecutesApproved
  split <;> infer_instance

instance (c : Interleave.Config World Pc) (a : Tick Input) : Decidable (Settles c a) := by
  unfold Settles
  dsimp only
  split <;> infer_instance

instance (c : Interleave.Config World Pc) (a : Tick Input) : Decidable (LoadsNoApproved c a) := by
  unfold LoadsNoApproved
  split <;> infer_instance

section

variable {w : World} {p : Pc} {i : Nat} {input : Input} {m : Mission}
  {c : Interleave.Config World Pc} {a : Tick Input}

/-! ## Where a completion check comes from -/

/-- A mission that completes is COMPLETED. -/
theorem complete_ok {outcomes : Mission.Outcomes} {now : Date} {m₀ : Mission}
    (h : complete m₀ outcomes now = (m, .ok)) : m.state.status = .completed := by
  unfold complete at h
  cases hcan : Mission.canTransition m₀.state.status .completed with
  | false =>
    simp only [Mission.transitionTo, hcan] at h
    cases h
  | true =>
    simp only [Mission.transitionTo, hcan] at h
    obtain rfl := congrArg Prod.fst h
    rfl

theorem complete?_ok {now : Date} (h : complete? now w.load = (m, .ok))
    (hfailed : m.state.status = .failed) :
    Mission.canTransition w.mission.payload.status .failed = true ∧
      w.mission.payload.tasks.all (·.status = .completed) = false := by
  unfold complete? at h
  split at h
  · rw [complete_ok h] at hfailed
    cases hfailed
  next hall =>
    unfold fail Mission.transitionTo at h
    split at h
    next hcan => exact ⟨hcan, Bool.eq_false_iff.mpr hall⟩
    · cases h

/-! ## The invariant -/

/-- A completion check that is about to store FAILED on a fresh copy found nothing outstanding. -/
def Decided (r : Row Props) (p : Pc) : Prop :=
  ∀ m, p.checks = true → p.held = some m → Fresh r m → m.state.status = .failed →
    Settled r.payload.tasks

/-- Completed dependencies are those `selectNextTask` looks for. -/
theorem incompleteDependencies_eq (tasks : List MissionTask) (t : MissionTask) :
    Mission.incompleteDependencies tasks t =
      !t.dependsOn.all (· ∈ (tasks.filter (·.status = .completed)).map (·.id)) := by
  unfold Mission.incompleteDependencies
  rw [List.not_all_eq_any_not]
  refine congrArg _ (funext fun d => congrArg _ ?_)
  rw [Bool.eq_iff_iff, List.any_eq_true, decide_eq_true_eq, List.mem_map]
  refine exists_congr fun t' => ?_
  simp only [List.mem_filter, Bool.and_eq_true, decide_eq_true_eq]
  exact ⟨fun h => ⟨⟨h.1, h.2.2⟩, h.2.1⟩, fun h => ⟨h.1.1, h.2, h.1.2⟩⟩

/-- Where nothing can be selected and nothing is in progress, nothing is outstanding. -/
theorem settled_of {tasks : List MissionTask} (hselect : selectNextTask tasks = none)
    (hprogress : tasks.any inProgress = false) : Settled tasks := by
  unfold Settled
  rw [List.all_eq_true]
  intro t ht
  have hidle := List.any_eq_false.mp hprogress t ht
  have hnext := List.find?_eq_none.mp hselect t ht
  unfold outstanding
  rw [Bool.not_eq_true', Bool.or_eq_false_iff, incompleteDependencies_eq, Bool.not_not]
  exact ⟨Bool.eq_false_iff.mpr hidle, Bool.eq_false_iff.mpr hnext⟩

theorem Decided.evolve {r r' : Row Props} (h : Decided r p) (hp : Copied r p)
    (he : Evolves r r') : Decided r' p := by
  intro m hchecks hm hfresh hfailed
  obtain ⟨hold, hv⟩ := Fresh.of_evolves (hp m hm) he hfresh
  rw [show r'.payload = r.payload from he.same hv]
  exact h m hchecks hm hold hfailed

theorem decided_of_not_checks {r : Row Props} (h : p.checks = false) : Decided r p := by
  intro m hchecks
  rw [h] at hchecks
  cases hchecks

/-- A completion check that meets its condition found nothing outstanding. -/
theorem Settles.decided (h : Settles c a) (hfault : a.input.fault = false)
    (hstatus : Mission.canTransition c.world.mission.payload.status .failed = true)
    (hall : c.world.mission.payload.tasks.all (·.status = .completed) = false)
    (hfrom : (∃ call, c.pc a.call = .load call ∧ call.looks = true ∧
        c.world.mission.payload.status = .executing ∧
        selectNextTask c.world.mission.payload.tasks = none) ∨
      ∃ call status attempt, c.pc a.call = .reloading call (.completion status) attempt) :
    Settled c.world.mission.payload.tasks := by
  unfold Settles at h
  rcases hfrom with ⟨call, hp, hlooks, hexecuting, hselect⟩ | ⟨call, status, attempt, hp⟩
  · rw [hp] at h
    exact settled_of hselect
      (h hfault hlooks hexecuting (Option.isNone_iff_eq_none.mpr hselect))
  · rw [hp] at h
    obtain ⟨hselect, hprogress⟩ := h hfault hstatus hall
    exact settled_of (Option.isNone_iff_eq_none.mp hselect) hprogress

structure Checked (c : Interleave.Config World Pc) : Prop where
  copied : EachCopied c
  decided : Each (fun _ w p => Decided w.mission p) c

theorem checked_init (mission : StoredMission) (approvals : Table String Approval.Props)
    (calls : Nat → Start) : Checked (init mission approvals calls) := by
  have hheld : ∀ i, (calls i).pc.held = none := fun i => by cases calls i <;> rfl
  exact ⟨fun i => copied_of_not_held (hheld i),
    fun i => decided_of_not_checks (saves_nothing (hheld i)).2⟩

theorem checked_step (c : Interleave.Config World Pc) (a : Tick Input) (h : Checked c)
    (hsettles : Settles c a) : Checked (c.step next a) := by
  refine ⟨copied_step a h.copied, ?_⟩
  have hboth : Each (fun _ w p => Copied w.mission p ∧ Decided w.mission p) c :=
    fun i => ⟨h.copied i, h.decided i⟩
  refine Each.step hboth ?_ fun j q _ hq => hq.2.evolve hq.1 (evolves_step a h.copied)
  have heff := effect_next a.call a.input c.world (c.pc a.call)
  rw [Config.step_world]
  generalize hp : c.pc a.call = p at heff
  generalize hnext : next a.call a.input c.world p = r at heff
  obtain ⟨w', p'⟩ := r
  cases heff with
  | drops _ _ _ hi => exact decided_of_not_checks hi.checks
  | works _ _ _ _ _ _ hi => exact decided_of_not_checks hi.checks
  | loads _ _ hi => exact decided_of_not_checks hi.checks
  | begins => exact decided_of_not_checks rfl
  | checks hcheck hfrom =>
    intro m' _ hm' _ hfailed
    obtain rfl := Option.some.inj hm'
    obtain ⟨hstatus, hall⟩ := complete?_ok hcheck hfailed
    have hfault : a.input.fault = false := by
      refine Bool.eq_false_iff.mpr fun hf => ?_
      unfold next at hnext
      rw [if_pos hf] at hnext
      cases hnext
    exact hsettles.decided hfault hstatus hall (by rw [hp]; exact hfrom)
  | loses => exact decided_of_not_checks rfl
  | saves _ _ hheld => exact decided_of_not_checks (saves_nothing hheld).2
  | resolves => exact decided_of_not_checks rfl
  | executes _ hi => exact decided_of_not_checks hi.checks

/-- A save of a completion check that takes was decided on the mission as it is. -/
theorem Checked.failsWhenDone (h : Checked c) : FailsWhenDone c a := by
  unfold FailsWhenDone
  split
  next call status m attempt hp =>
    intro _ hsave hfailed
    obtain ⟨w', hw'⟩ := Option.isSome_iff_exists.mp hsave
    have hfresh := (save_copy (h.copied a.call m (by rw [hp]; rfl)) hw').2.1
    exact h.decided a.call m (by rw [hp]; rfl) (by rw [hp]; rfl) hfresh hfailed
  · trivial

theorem executesApproved_of_none (h : LoadsNoApproved c a) : ExecutesApproved c a := by
  unfold LoadsNoApproved at h
  unfold ExecutesApproved
  split
  next hp =>
    rw [hp] at h
    intro hfault hstatus happroved
    exact absurd (List.isEmpty_iff.mp (h hfault hstatus)) happroved
  · trivial

end

/-- **Where no completion check finds a task in progress, and none that is made again finds one to
select, a mission fails only over tasks that are all over. Where no step loads an executing
mission with an approved task, no approved task is passed over.** -/
theorem completes_of_meets (mission : StoredMission) (approvals : Table String Approval.Props)
    (calls : Nat → Start) (schedule : List (Tick Input))
    (h : Meets next (fun c a => Settles c a ∧ LoadsNoApproved c a)
      (init mission approvals calls) schedule) :
    Meets next (fun c a => FailsWhenDone c a ∧ ExecutesApproved c a)
      (init mission approvals calls) schedule :=
  Meets.of_invariant
    (fun _ _ hc h => ⟨hc.failsWhenDone, executesApproved_of_none h.2⟩)
    (fun c a hc h => checked_step c a hc h.1) (checked_init mission approvals calls) h

/-! ## Runs -/

def answer (status : AIExecutionStatus) : AIExecutionResult where
  executionId := "execution"
  status := status
  outcome := { summary := "answer" }

/-- A step of this call, with what the agent answers. -/
def agentTick (status : AIExecutionStatus) (call : Nat) : Tick Input :=
  ⟨call, { now := 0, result := some (answer status) }⟩

/-- The task is completed, then the mission. -/
def completedSchedule : List (Tick Input) :=
  [0, 0, 0, 0, 0, 0, 0, 1, 1].map (agentTick .completed)

theorem completes_completed :
    (run next (init executingMission [] fun _ => .executeMissionStep)
        completedSchedule).world.mission.payload.status = .completed ∧
      Meets next (fun c a => FailsWhenDone c a ∧ ExecutesApproved c a)
        (init executingMission [] fun _ => .executeMissionStep) completedSchedule :=
  ⟨by decide +kernel, completes_of_meets executingMission [] (fun _ => .executeMissionStep)
    completedSchedule (by decide +kernel)⟩

/-- The task asks for an approval, which is granted, and the mission is resumed. -/
def approvedCalls : Nat → Start
  | 1 => .decide "approval" (.approve "owner" "fine")
  | 2 => .control .resume
  | _ => .executeMissionStep

def approvedSchedule : List (Tick Input) :=
  [0, 0, 0, 0, 0, 0, 0, 0, 0, 0, 1, 1, 2, 2, 3, 3].map (agentTick .awaitingApproval)

/-- The next step fails the mission over the task that was approved. -/
theorem not_completes_approved :
    (run next (init executingMission [] approvedCalls)
        approvedSchedule).world.mission.payload.status = .failed ∧
      ¬ Meets next FailsWhenDone (init executingMission [] approvedCalls) approvedSchedule ∧
      ¬ Meets next ExecutesApproved (init executingMission [] approvedCalls) approvedSchedule := by
  decide +kernel

end VegaRevenue.MissionExecution
