import VegaRevenue.MissionExecution.ResultHandling

/-!
# Handling a task result, all or nothing

The copies a call stores contain the transition of the result, the approval and the compensation go
with it, and the published events are those of what was stored.

* `AllOrNothing` — what a call owes in every state of it
* `Clean` — when a step keeps it
* `allOrNothing_iff_clean` — a whole run
-/

namespace VegaRevenue.MissionExecution.ResultHandling

open Versioned
open Mission (Props findTask setTask moveTask canTransition completeTask failTask
  markTaskAwaitingApproval pause block)

/-! ## The transition of a result -/

inductive Transition where
  | complete
  | askApproval
  | fail
  | none
deriving DecidableEq

def transitionOf : AIExecutionStatus → Transition
  | .completed => .complete
  | .awaitingApproval => .askApproval
  | .failed | .timedOut | .cancelled => .fail
  | .pending | .running | .paused | .requiresReconciliation => .none

def taskStatus (p : Props) (id : String) : Option TaskStatus := (findTask p.tasks id).map (·.status)

/-- The mission contains the transition of the result. -/
def Contains (task : MissionTask) (result : AIExecutionResult) (p : Props) : Prop :=
  match transitionOf result.status with
  | .complete => taskStatus p task.id = some .completed
  | .askApproval => taskStatus p task.id = some .awaitingApproval ∧ p.status = .paused
  | .fail => taskStatus p task.id = some .failed ∧ p.status = .blocked
  | .none => True

/-- The result has an effect outside of the mission: an approval or a compensation. -/
def Outside (result : AIExecutionResult) : Prop :=
  transitionOf result.status = .askApproval ∨ transitionOf result.status = .fail

/-- The transition can be made on the mission. -/
def Possible (task : MissionTask) (result : AIExecutionResult) (p : Props) : Prop :=
  match transitionOf result.status with
  | .complete | .fail => taskStatus p task.id = some .running
  | .askApproval =>
    taskStatus p task.id = some .running ∧ canTransition p.status .paused = true
  | .none => True

/-! ## The law -/

/-- What the call has done goes together. -/
structure AllOrNothing (task : MissionTask) (result : AIExecutionResult) (s : State) : Prop where
  /-- What the call stores contains the transition. -/
  stored : ∀ m ∈ s.stored, Contains task result m.state
  /-- So does the mission it has seen last when it returns. -/
  returned : s.pc = .returned → Contains task result s.seen
  /-- An approval was requested for a task that awaits it. -/
  requested : s.pc.isOver = true → s.requested ≠ [] →
    taskStatus s.seen task.id = some .awaitingApproval
  /-- A task that is stored to await an approval has one. -/
  awaited : transitionOf result.status = .askApproval → s.stored ≠ [] →
    ∃ approval ∈ s.requested, approval.state.taskId = some task.id
  compensated : s.pc.isOver = true → s.compensated ≠ [] →
    taskStatus s.seen task.id = some .failed
  /-- The events of what was stored are published, or still to be published. -/
  published : s.published ++ s.pc.pending = s.stored.flatMap (·.domainEvents)

/-- When a step keeps the law. -/
def Clean (task : MissionTask) (result : AIExecutionResult) (s : State) : Event → Prop
  | .other _ => True
  | .step a =>
    match s.pc with
    | .saveApproval _ approval =>
      -- an approval that is stored is not followed by an error
      a.ending = .failsLate → (s.approvals.find approval.state.id).isSome
    | .notify m => a.ending = .done ∧ canTransition m.state.status .paused = true
    | .compensate _ => a.ending ≠ .failsLate
    | .saving m attempt =>
      if a.ending.effective = true ∧ m.loadedVersion = some s.row.version then
        (a.ending = .done ∨ m.domainEvents = []) ∧
          (transitionOf result.status = .fail →
            s.seen.status = .executing ∨ s.seen.status = .blocked)
      else a.ending = .fails ∨ 2 ≤ attempt → ¬ Outside result
    | .publishing _ _ rest _ => a.ending = .done ∨ a.ending = .failsLate ∧ rest = []
    | .reloading _ =>
      if a.ending = .done then
        Possible task result s.row.payload ∨ Contains task result s.row.payload
      else ¬ Outside result
    | .called _ | .requestApproval _ | .returned | .threw => True

section

variable {task : MissionTask} {result : AIExecutionResult} {s : State} {m m' : Mission} {p : Props}
  {id : String} {now : Date}

/-! ## Operations on a copy -/

/-- The task is RUNNING in `p` and has left for `target` in `m`; the mission has not moved. -/
structure Moved (id : String) (target : TaskStatus) (p : Props) (m : Mission) : Prop where
  running : taskStatus p id = some .running
  moved : taskStatus m.state id = some target
  status : m.state.status = p.status

/-- The statuses the result of a task gives it. -/
def Ends (target : TaskStatus) : Prop :=
  target = .completed ∨ target = .awaitingApproval ∨ target = .failed

theorem canTransitionTask_ends {source target : TaskStatus} (h : Ends target) :
    canTransitionTask source target = true ↔ source = .running := by
  rcases h with rfl | rfl | rfl <;> cases source <;> decide

theorem moveTask_snd {target : TaskStatus} {change : MissionTask → MissionTask}
    {events : List Mission.Event} (htarget : Ends target) :
    (moveTask m id target change events now).2 = .ok ↔
      taskStatus m.state id = some .running := by
  unfold moveTask taskStatus
  cases hfind : findTask m.state.tasks id with
  | none => simp
  | some t =>
    have hiff : some t.status = some TaskStatus.running ↔ t.status = .running := by simp
    rw [Option.map_some, hiff, ← canTransitionTask_ends htarget]
    unfold MissionTask.transitionStatus
    by_cases hcan : canTransitionTask t.status target = true
    · simp [hcan]
    · simp [hcan]

theorem moved_of_moveTask {target : TaskStatus} {change : MissionTask → MissionTask}
    {events : List Mission.Event} (hchange : ∀ t, (change t).id = t.id ∧ (change t).status = t.status)
    (htarget : Ends target) (h : moveTask m id target change events now = (m', .ok)) :
    Moved id target m.state m' := by
  have hrunning := (moveTask_snd htarget).mp (congrArg Prod.snd h)
  unfold moveTask at h
  split at h
  · cases h
  next t hfind =>
    split at h
    · cases h
    next t' hok =>
      obtain ⟨-, hprops, hstatus⟩ := Mission.transitionStatus_ok hok
      have hid : (change t').id = id := by
        rw [(hchange t').1, show t'.id = t.id from congrArg MissionTaskProps.id hprops,
          findTask_id hfind]
      obtain rfl : _ = m' := congrArg Prod.fst h
      refine ⟨hrunning, ?_, by rw [Mission.foldl_applyEvent_state]; rfl⟩
      rw [Mission.foldl_applyEvent_state]
      show (findTask (setTask id (change t') m.state.tasks) id).map (·.status) = _
      rw [findTask_setTask_self hid hfind, Option.map_some, (hchange t').2, hstatus]

/-- `m` is `p` with the transition of the result, as far as it goes there. -/
structure Applied (task : MissionTask) (result : AIExecutionResult) (p : Props) (m : Mission) :
    Prop where
  running : Outside result → taskStatus p task.id = some .running
  contains : Contains task result m.state ↔
    (transitionOf result.status = .fail → p.status = .executing ∨ p.status = .blocked)

theorem applied_complete (h : transitionOf result.status = .complete)
    (hmoved : Moved task.id .completed p m) : Applied task result p m := by
  refine ⟨fun _ => hmoved.running, ?_⟩
  unfold Contains
  simp [h, hmoved.moved]

theorem applied_none (h : transitionOf result.status = .none) : Applied task result p m := by
  refine ⟨fun ho => by simp [Outside, h] at ho, ?_⟩
  unfold Contains
  simp [h]

/-- The task of a mission that is paused or blocked stays where it is. -/
theorem transitionTo_ok (id : String) {target : Mission.Status} {event : Mission.Event}
    (h : Mission.transitionTo m target event now = (m', .ok)) :
    m'.state.status = target ∧ taskStatus m'.state id = taskStatus m.state id := by
  unfold Mission.transitionTo at h
  split at h
  · obtain rfl : _ = m' := congrArg Prod.fst h
    exact ⟨rfl, rfl⟩
  · cases h

theorem applied_pause {reason : String} (h : transitionOf result.status = .askApproval)
    (hmoved : Moved task.id .awaitingApproval p m) (hpause : pause m reason now = (m', .ok)) :
    Applied task result p m' := by
  obtain ⟨hstatus, htask⟩ := transitionTo_ok task.id hpause
  refine ⟨fun _ => hmoved.running, ?_⟩
  unfold Contains
  simp [h, hstatus, htask, hmoved.moved]

theorem blockExecuting_ok (taskId : String) (result : AIExecutionResult) (now : Date) (m : Mission) :
    ∃ m', blockExecuting taskId result now m = (m', .ok) := by
  unfold blockExecuting
  split
  next h => simp [block, Mission.transitionTo, canTransition, Mission.Status.transitions, h]
  · exact ⟨m, rfl⟩

theorem applied_block (h : transitionOf result.status = .fail)
    (hmoved : Moved task.id .failed p m)
    (hblock : blockExecuting task.id result now m = (m', .ok)) : Applied task result p m' := by
  refine ⟨fun _ => hmoved.running, ?_⟩
  unfold Contains
  unfold blockExecuting at hblock
  simp only [h]
  split at hblock
  next hexecuting =>
    obtain ⟨hstatus, htask⟩ := transitionTo_ok task.id hblock
    simp [hstatus, htask, hmoved.moved, ← hmoved.status, hexecuting]
  next hother =>
    obtain rfl : m = m' := congrArg Prod.fst hblock
    simp [hmoved.moved, ← hmoved.status, hother]

theorem moved_complete {output : Json} (h : completeTask m id output now = (m', .ok)) :
    Moved id .completed m.state m' :=
  moved_of_moveTask (by intro t; exact ⟨rfl, rfl⟩) (.inl rfl) h

theorem moved_await {gate : String} (h : markTaskAwaitingApproval m id gate now = (m', .ok)) :
    Moved id .awaitingApproval m.state m' :=
  moved_of_moveTask (by intro t; exact ⟨rfl, rfl⟩) (.inr (.inl rfl)) h

theorem moved_fail {reason : String} (h : failTask m id reason now = (m', .ok)) :
    Moved id .failed m.state m' :=
  moved_of_moveTask (by intro t; exact ⟨rfl, rfl⟩) (.inr (.inr rfl)) h

/-! ## The callback -/

theorem reapply_eq (task : MissionTask) (result : AIExecutionResult) (input : Input) (m : Mission) :
    (Job.result task result).reapply input m =
      match transitionOf result.status with
      | .complete => completeTask m task.id result.outcome.toJson input.now
      | .askApproval =>
        andThen (markTaskAwaitingApproval m task.id (approvalGate task.id) input.now) fun m =>
          pause m (awaitingApproval task.id) input.now
      | .fail =>
        andThen (failTask m task.id result.outcome.summary input.now)
          (blockExecuting task.id result input.now)
      | .none => (m, .ok) := by
  obtain ⟨executionId, status, outcome⟩ := result
  cases status <;> rfl

theorem reapply_applied {input : Input} (h : (Job.result task result).reapply input m = (m', .ok)) :
    Applied task result m.state m' := by
  rw [reapply_eq] at h
  cases htransition : transitionOf result.status with
  | complete =>
    rw [htransition] at h
    exact applied_complete htransition (moved_complete h)
  | askApproval =>
    rw [htransition] at h
    obtain ⟨m₁, hmark, hpause⟩ := andThen_ok h
    exact applied_pause htransition (moved_await hmark) hpause
  | fail =>
    rw [htransition] at h
    obtain ⟨m₁, hfail, hblock⟩ := andThen_ok h
    exact applied_block htransition (moved_fail hfail) hblock
  | none => exact applied_none htransition

theorem pause_snd (m : Mission) (reason : String) (now : Date) :
    (pause m reason now).2 = .ok ↔ canTransition m.state.status .paused = true := by
  unfold pause Mission.transitionTo
  split
  next h => simp [h]
  next h => simp [h]

theorem moveTask_status (m : Mission) (id : String) (target : TaskStatus)
    (change : MissionTask → MissionTask) (events : List Mission.Event) (now : Date) :
    (moveTask m id target change events now).1.state.status = m.state.status := by
  rcases Mission.moveTask_cases m id target change events now with h | ⟨t, t', -, -, h⟩
  · rw [h]
  · rw [h]

theorem andThen_snd {a : Mission × OpResult} {b : Mission → Mission × OpResult} :
    (andThen a b).2 = .ok ↔ a.2 = .ok ∧ (b a.1).2 = .ok := by
  obtain ⟨m, r⟩ := a
  cases r <;> simp [andThen]

theorem reapply_snd (task : MissionTask) (result : AIExecutionResult) (input : Input) (m : Mission) :
    ((Job.result task result).reapply input m).2 = .ok ↔ Possible task result m.state := by
  rw [reapply_eq]
  unfold Possible
  cases transitionOf result.status with
  | complete => exact moveTask_snd (.inl rfl)
  | askApproval =>
    dsimp only
    rw [andThen_snd, pause_snd]
    rw [show (markTaskAwaitingApproval m task.id (approvalGate task.id) input.now).1.state.status =
      m.state.status from moveTask_status _ _ _ _ _ _]
    exact and_congr_left' (moveTask_snd (.inr (.inl rfl)))
  | fail =>
    dsimp only
    obtain ⟨m', hblock⟩ := blockExecuting_ok task.id result input.now
      (failTask m task.id result.outcome.summary input.now).1
    rw [andThen_snd, hblock]
    exact (and_iff_left rfl).trans (moveTask_snd (.inr (.inr rfl)))
  | none => simp

theorem handle_eq (task : MissionTask) (result : AIExecutionResult) (m : Mission) (now : Date) :
    handle task result m now =
      match transitionOf result.status with
      | .complete => goOn (completeTask m task.id result.outcome.toJson now) fun m => .saving m 0
      | .askApproval =>
        goOn (markTaskAwaitingApproval m task.id (approvalGate task.id) now) .requestApproval
      | .fail => goOn (failTask m task.id result.outcome.summary now) .compensate
      | .none => .saving m 0 := by
  obtain ⟨executionId, status, outcome⟩ := result
  cases status <;> rfl

theorem goOn_cases (r : Mission × OpResult) (pc : Mission → Pc) :
    (r.2 ≠ .ok ∧ goOn r pc = .threw) ∨ ∃ m, r = (m, .ok) ∧ goOn r pc = pc m := by
  obtain ⟨m, result⟩ := r
  cases result with
  | ok => exact .inr ⟨m, rfl, rfl⟩
  | fail _ => exact .inl ⟨by simp, rfl⟩
  | threw _ => exact .inl ⟨by simp, rfl⟩

/-! ## What holds at each point of the call -/

/-- The call has not stored a mission. -/
def Unsaved (s : State) : Prop := s.stored = [] ∧ s.published = []

/-- The call has done nothing yet. -/
def Untouched (s : State) : Prop := Unsaved s ∧ s.requested = [] ∧ s.compensated = []

/-- The effects of the result outside of the mission have been had. -/
structure Effects (task : MissionTask) (result : AIExecutionResult) (requested : List Approval)
    (compensated : List CompensationRecord) : Prop where
  asking : requested ≠ [] → transitionOf result.status = .askApproval
  asked : transitionOf result.status = .askApproval →
    ∃ approval ∈ requested, approval.state.taskId = some task.id
  failing : compensated ≠ [] ↔ transitionOf result.status = .fail

def Inv (task : MissionTask) (result : AIExecutionResult) (s : State) : Prop :=
  match s.pc with
  | .called m => Untouched s ∧ s.seen = m.state
  | .requestApproval m =>
    Untouched s ∧ transitionOf result.status = .askApproval ∧
      Moved task.id .awaitingApproval s.seen m
  | .saveApproval m approval =>
    Untouched s ∧ transitionOf result.status = .askApproval ∧
      Moved task.id .awaitingApproval s.seen m ∧
      approval.loadedVersion = none ∧ approval.state.taskId = some task.id
  | .notify m =>
    Unsaved s ∧ Effects task result s.requested s.compensated ∧
      transitionOf result.status = .askApproval ∧ Moved task.id .awaitingApproval s.seen m
  | .compensate m =>
    Untouched s ∧ transitionOf result.status = .fail ∧ Moved task.id .failed s.seen m
  | .saving m _ =>
    Unsaved s ∧ Effects task result s.requested s.compensated ∧ Applied task result s.seen m
  | .publishing m _ _ _ =>
    s.stored = [m] ∧ s.seen = m.state ∧ Effects task result s.requested s.compensated
  | .reloading _ =>
    Unsaved s ∧ Effects task result s.requested s.compensated ∧
      (Outside result → taskStatus s.seen task.id = some .running)
  | .returned | .threw => True

theorem effects_quiet (h : ¬ Outside result) : Effects task result [] [] where
  asking := by simp
  asked := fun htransition => (h (.inl htransition)).elim
  failing := by simpa using fun htransition => h (.inr htransition)

theorem Effects.outside_iff (he : Effects task result s.requested s.compensated) :
    Outside result ↔ s.requested ≠ [] ∨ s.compensated ≠ [] := by
  refine or_congr ⟨fun h => ?_, he.asking⟩ he.failing.symm
  obtain ⟨approval, hmem, -⟩ := he.asked h
  exact List.ne_nil_of_mem hmem

/-! ## The law at each point of the call -/

theorem law_open (h : Unsaved s) (hpending : s.pc.pending = []) (hover : s.pc.isOver = false) :
    AllOrNothing task result s where
  stored := by simp [h.1]
  returned := fun hpc => by simp [hpc, Pc.isOver] at hover
  requested := fun ho => by simp [hover] at ho
  awaited := fun _ hstored => (hstored h.1).elim
  compensated := fun ho => by simp [hover] at ho
  published := by simp [h.1, h.2, hpending]

theorem law_untouched_threw (h : Untouched s) (hpc : s.pc = .threw) :
    AllOrNothing task result s where
  stored := by simp [h.1.1]
  returned := fun hreturned => by simp [hpc] at hreturned
  requested := fun _ hrequested => (hrequested h.2.1).elim
  awaited := fun _ hstored => (hstored h.1.1).elim
  compensated := fun _ hcompensated => (hcompensated h.2.2).elim
  published := by simp [h.1.1, h.1.2, hpc, Pc.pending]

/-- A call that throws before it has stored anything. -/
theorem law_threw_iff (h : Unsaved s) (he : Effects task result s.requested s.compensated)
    (hrunning : Outside result → taskStatus s.seen task.id = some .running)
    (hpc : s.pc = .threw) : AllOrNothing task result s ↔ ¬ Outside result := by
  constructor
  · intro hlaw houtside
    have hover : s.pc.isOver = true := by rw [hpc]; rfl
    have hseen := hrunning houtside
    rcases he.outside_iff.mp houtside with hrequested | hcompensated
    · simp [hlaw.requested hover hrequested] at hseen
    · simp [hlaw.compensated hover hcompensated] at hseen
  · intro houtside
    rw [he.outside_iff, not_or, not_not, not_not] at houtside
    exact law_untouched_threw ⟨h, houtside⟩ hpc

/-- What an effect of the result owes follows from the transition. -/
theorem Effects.owed (he : Effects task result s.requested s.compensated)
    (hcontains : Contains task result s.seen) :
    (s.requested ≠ [] → taskStatus s.seen task.id = some .awaitingApproval) ∧
      (s.compensated ≠ [] → taskStatus s.seen task.id = some .failed) := by
  unfold Contains at hcontains
  constructor
  · intro h
    rw [he.asking h] at hcontains
    exact hcontains.1
  · intro h
    rw [he.failing.mp h] at hcontains
    exact hcontains.1

theorem law_returned_iff (h : Unsaved s) (he : Effects task result s.requested s.compensated)
    (hpc : s.pc = .returned) : AllOrNothing task result s ↔ Contains task result s.seen := by
  constructor
  · intro hlaw
    exact hlaw.returned hpc
  · intro hcontains
    obtain ⟨hrequested, hcompensated⟩ := he.owed hcontains
    exact
      { stored := by simp [h.1]
        returned := fun _ => hcontains
        requested := fun _ => hrequested
        awaited := fun _ hstored => (hstored h.1).elim
        compensated := fun _ => hcompensated
        published := by simp [h.1, h.2, hpc, Pc.pending] }

/-- A call that has stored its copy. -/
theorem law_stored_iff (hstored : s.stored = [m]) (hseen : s.seen = m.state)
    (he : Effects task result s.requested s.compensated) :
    AllOrNothing task result s ↔
      Contains task result m.state ∧ s.published ++ s.pc.pending = m.domainEvents := by
  constructor
  · intro hlaw
    have hpublished := hlaw.published
    rw [hstored, List.flatMap_singleton] at hpublished
    exact ⟨hlaw.stored m (by rw [hstored]; exact List.mem_singleton_self m), hpublished⟩
  · rintro ⟨hcontains, hpublished⟩
    obtain ⟨hrequested, hcompensated⟩ := he.owed (by rwa [hseen])
    exact
      { stored := by simpa [hstored] using hcontains
        returned := fun _ => by rwa [hseen]
        requested := fun _ => hrequested
        awaited := fun htransition _ => he.asked htransition
        compensated := fun _ => hcompensated
        published := by rw [hstored, List.flatMap_singleton, hpublished] }

/-! ## One step -/

/-- A step keeps the law iff it is clean, and with the law what holds at the point it reaches. -/
def Kept (task : MissionTask) (result : AIExecutionResult) (s : State) (e : Event) : Prop :=
  (AllOrNothing task result (step task result s e).1 ↔ Clean task result s e) ∧
    (AllOrNothing task result (step task result s e).1 → Inv task result (step task result s e).1)

/-- A step that goes on, and must be clean. -/
theorem kept_of_law {e : Event} (hlaw : AllOrNothing task result (step task result s e).1)
    (hclean : Clean task result s e) (hinv : Inv task result (step task result s e).1) :
    Kept task result s e := ⟨iff_of_true hlaw hclean, fun _ => hinv⟩

theorem inv_of_over (h : s.pc.isOver = true) : Inv task result s := by
  unfold Inv
  cases hpc : s.pc <;> first | trivial | simp [hpc, Pc.isOver] at h

/-- A call that throws after it has had the effects of its result. -/
theorem kept_thrown {e : Event} (s' : State) (hstep : (step task result s e).1 = s')
    (hunsaved : Unsaved s') (he : Effects task result s'.requested s'.compensated)
    (hrunning : Outside result → taskStatus s'.seen task.id = some .running)
    (hpc : s'.pc = .threw) (hclean : Clean task result s e ↔ ¬ Outside result) :
    Kept task result s e := by
  unfold Kept
  rw [hstep, hclean]
  exact ⟨law_threw_iff hunsaved he hrunning hpc, fun _ => inv_of_over (by rw [hpc]; rfl)⟩

/-- A call that throws before it has done anything. -/
theorem kept_threw {e : Event} (huntouched : Untouched s)
    (hstep : (step task result s e).1 = { s with pc := .threw }) (hclean : Clean task result s e) :
    Kept task result s e :=
  kept_of_law (by rw [hstep]; exact law_untouched_threw huntouched rfl) hclean
    (by rw [hstep]; trivial)

theorem kept_called {a : Answer} (hpc : s.pc = .called m) (hs : Inv task result s) :
    Kept task result s (.step a) := by
  unfold Inv at hs
  rw [hpc] at hs
  obtain ⟨huntouched, hseen⟩ := hs
  have hstep : (step task result s (.step a)).1 = { s with pc := handle task result m a.now } := by
    simp [step, proceedCall, hpc]
  have hclean : Clean task result s (.step a) := by simp [Clean, hpc]
  suffices hgoal : AllOrNothing task result { s with pc := handle task result m a.now } ∧
      Inv task result { s with pc := handle task result m a.now } from
    kept_of_law (by rw [hstep]; exact hgoal.1) hclean (by rw [hstep]; exact hgoal.2)
  have hthrew : AllOrNothing task result { s with pc := .threw } ∧
      Inv task result { s with pc := .threw } := ⟨law_untouched_threw huntouched rfl, trivial⟩
  have heffects : ¬ Outside result → Effects task result s.requested s.compensated := fun h => by
    rw [huntouched.2.1, huntouched.2.2]
    exact effects_quiet h
  rw [handle_eq]
  cases htransition : transitionOf result.status with
  | complete =>
    dsimp only
    rcases goOn_cases (completeTask m task.id result.outcome.toJson a.now) fun m => .saving m 0 with
      ⟨-, hgo⟩ | ⟨m', hr, hgo⟩ <;> rw [hgo]
    · exact hthrew
    · refine ⟨law_open huntouched.1 rfl rfl, huntouched.1, heffects (by simp [Outside, htransition]), ?_⟩
      exact applied_complete htransition (hseen ▸ moved_complete hr)
  | askApproval =>
    dsimp only
    rcases goOn_cases (markTaskAwaitingApproval m task.id (approvalGate task.id) a.now)
      .requestApproval with ⟨-, hgo⟩ | ⟨m', hr, hgo⟩ <;> rw [hgo]
    · exact hthrew
    · exact ⟨law_open huntouched.1 rfl rfl, huntouched, htransition, hseen ▸ moved_await hr⟩
  | fail =>
    dsimp only
    rcases goOn_cases (failTask m task.id result.outcome.summary a.now) .compensate with
      ⟨-, hgo⟩ | ⟨m', hr, hgo⟩ <;> rw [hgo]
    · exact hthrew
    · exact ⟨law_open huntouched.1 rfl rfl, huntouched, htransition, hseen ▸ moved_fail hr⟩
  | none =>
    exact ⟨law_open huntouched.1 rfl rfl, huntouched.1, heffects (by simp [Outside, htransition]),
      applied_none htransition⟩

/-- An approval that is created is new and names its task. -/
theorem create_approval {input : Input} {approval : Approval}
    (h : Approval.create (approvalProps p task result input) = .ok approval) :
    approval.loadedVersion = none ∧ approval.state.taskId = some task.id := by
  unfold Approval.create at h
  split at h
  · cases h
  · obtain rfl := Except.ok.inj h
    exact ⟨rfl, rfl⟩

theorem kept_requestApproval {a : Answer} (hpc : s.pc = .requestApproval m)
    (hs : Inv task result s) : Kept task result s (.step a) := by
  unfold Inv at hs
  rw [hpc] at hs
  obtain ⟨huntouched, htransition, hmoved⟩ := hs
  have hclean : Clean task result s (.step a) := by simp [Clean, hpc]
  by_cases hending : a.ending = .done
  · cases hcreate : Approval.create (approvalProps s.row.payload task result a.input) with
    | error message =>
      exact kept_threw huntouched (by simp [step, proceedCall, hpc, hcreate, Pc.after]) hclean
    | ok approval =>
      have hstep : (step task result s (.step a)).1 = { s with pc := .saveApproval m approval } := by
        simp [step, proceedCall, hpc, hcreate, Pc.after, hending]
      exact kept_of_law (by rw [hstep]; exact law_open huntouched.1 rfl rfl) hclean
        (by rw [hstep]; exact ⟨huntouched, htransition, hmoved, create_approval hcreate⟩)
  · exact kept_threw huntouched (by simp [step, proceedCall, hpc, Pc.after, hending]) hclean

/-- A new approval is stored where its id is free. -/
theorem save_new (approvals : Table String Approval.Props) {approval : Approval}
    (hnew : approval.loadedVersion = none) :
    approvals.save approval.state.id approval = none ↔
      (approvals.find approval.state.id).isSome := by
  unfold Table.save
  rw [hnew]
  cases approvals.find approval.state.id <;> simp

theorem kept_saveApproval {a : Answer} {approval : Approval} (hpc : s.pc = .saveApproval m approval)
    (hs : Inv task result s) : Kept task result s (.step a) := by
  unfold Inv at hs
  rw [hpc] at hs
  obtain ⟨huntouched, htransition, hmoved, hnew, htaskId⟩ := hs
  by_cases heffective : a.ending.effective = true
  · cases hsave : s.approvals.save approval.state.id approval with
    | none =>
      refine kept_threw huntouched
        (by simp [step, proceedCall, hpc, saveApproval, heffective, hsave]) ?_
      simpa [Clean, hpc] using fun _ => (save_new s.approvals hnew).mp hsave
    | some approvals =>
      have hfree : (s.approvals.find approval.state.id).isSome = false := by
        rw [← Bool.not_eq_true, ← save_new s.approvals hnew, hsave]
        simp
      have hclean : Clean task result s (.step a) ↔ a.ending = .done := by
        cases hending : a.ending <;> simp [Clean, hpc, hfree, hending, Ending.effective] at heffective ⊢
      let s' : State :=
        { s with
          approvals
          requested := s.requested ++ [approval]
          pc := .after a.ending (.notify m) }
      have hstep : (step task result s (.step a)).1 = s' := by
        simp [step, proceedCall, hpc, saveApproval, heffective, hsave, s']
      have heffects : Effects task result s'.requested s'.compensated :=
        ⟨fun _ => htransition, fun _ => ⟨approval, by simp [s'], htaskId⟩,
          by simp [s', huntouched.2.2, htransition]⟩
      by_cases hending : a.ending = .done
      · have hnext : s'.pc = .notify m := by simp [s', Pc.after, hending]
        refine kept_of_law ?_ (hclean.mpr hending) ?_ <;> rw [hstep]
        · exact law_open huntouched.1 (by rw [hnext]; rfl) (by rw [hnext]; rfl)
        · unfold Inv
          rw [hnext]
          exact ⟨huntouched.1, heffects, htransition, hmoved⟩
      · refine kept_thrown s' hstep huntouched.1 heffects (fun _ => hmoved.running)
          (by simp [s', Pc.after, hending]) ?_
        rw [hclean]
        exact iff_of_false hending (not_not.mpr (.inl htransition))
  · refine kept_threw huntouched (by simp [step, proceedCall, hpc, saveApproval, heffective]) ?_
    simp only [Clean, hpc]
    intro hending
    simp [hending, Ending.effective] at heffective

theorem kept_notify {a : Answer} (hpc : s.pc = .notify m) (hs : Inv task result s) :
    Kept task result s (.step a) := by
  unfold Inv at hs
  rw [hpc] at hs
  obtain ⟨hunsaved, heffects, htransition, hmoved⟩ := hs
  have hclean : Clean task result s (.step a) ↔
      a.ending = .done ∧ canTransition m.state.status .paused = true := by simp [Clean, hpc]
  -- an approval was requested, so a throw breaks the law
  have hthrown : (step task result s (.step a)).1 = { s with pc := .threw } →
      ¬ Clean task result s (.step a) → Kept task result s (.step a) := fun hstep hnot =>
    kept_thrown _ hstep hunsaved heffects (fun _ => hmoved.running) rfl
      (iff_of_false hnot (not_not.mpr (.inl htransition)))
  by_cases hending : a.ending = .done
  · rcases goOn_cases (pause m (awaitingApproval task.id) a.now) fun m => .saving m 0 with
      ⟨hrefused, hgo⟩ | ⟨m', hr, hgo⟩
    · refine hthrown (by simp [step, proceedCall, hpc, Pc.after, hgo]) ?_
      rw [hclean, ← pause_snd m (awaitingApproval task.id) a.now]
      exact fun h => hrefused h.2
    · have hstep : (step task result s (.step a)).1 = { s with pc := .saving m' 0 } := by
        simp [step, proceedCall, hpc, Pc.after, hgo, hending]
      refine kept_of_law ?_ (hclean.mpr ⟨hending, ?_⟩) ?_
      · rw [hstep]
        exact law_open hunsaved rfl rfl
      · rw [← pause_snd m (awaitingApproval task.id) a.now, hr]
      · rw [hstep]
        exact ⟨hunsaved, heffects, applied_pause htransition hmoved hr⟩
  · exact hthrown (by simp [step, proceedCall, hpc, Pc.after, hending])
      fun h => hending (hclean.mp h).1

theorem kept_compensate {a : Answer} (hpc : s.pc = .compensate m) (hs : Inv task result s) :
    Kept task result s (.step a) := by
  unfold Inv at hs
  rw [hpc] at hs
  obtain ⟨huntouched, htransition, hmoved⟩ := hs
  have hclean : Clean task result s (.step a) ↔ a.ending ≠ .failsLate := by simp [Clean, hpc]
  by_cases heffective : a.ending.effective = true
  · obtain ⟨m', hblock⟩ := blockExecuting_ok task.id result a.now m
    let s' : State :=
      { s with
        compensated := s.compensated ++ [compensation m task]
        pc := .after a.ending (.saving m' 0) }
    have hstep : (step task result s (.step a)).1 = s' := by
      simp [step, proceedCall, hpc, compensate, heffective, hblock, goOn, s']
    have heffects : Effects task result s'.requested s'.compensated :=
      ⟨fun h => (h huntouched.2.1).elim, fun h => by simp [htransition] at h,
        iff_of_true (by simp [s']) htransition⟩
    by_cases hending : a.ending = .done
    · have hnext : s'.pc = .saving m' 0 := by simp [s', Pc.after, hending]
      refine kept_of_law ?_ (hclean.mpr (by simp [hending])) ?_ <;> rw [hstep]
      · exact law_open huntouched.1 (by rw [hnext]; rfl) (by rw [hnext]; rfl)
      · unfold Inv
        rw [hnext]
        exact ⟨huntouched.1, heffects, applied_block htransition hmoved hblock⟩
    · have hlate : a.ending = .failsLate := by
        cases h : a.ending <;> simp [h, Ending.effective] at heffective hending ⊢
      refine kept_thrown s' hstep huntouched.1 heffects (fun _ => hmoved.running)
        (by simp [s', Pc.after, hending]) ?_
      rw [hclean]
      exact iff_of_false (not_not.mpr hlate) (not_not.mpr (.inr htransition))
  · refine kept_threw huntouched (by simp [step, proceedCall, hpc, compensate, heffective]) ?_
    rw [hclean]
    intro hlate
    simp [hlate, Ending.effective] at heffective

/-- What a save or a publication that throws leads to, where nothing was stored. -/
theorem kept_caught {a : Answer} (attempt : Nat) (ending : Ending)
    (hstep : (step task result s (.step a)).1 = { s with pc := caught attempt ending })
    (hunsaved : Unsaved s) (he : Effects task result s.requested s.compensated)
    (hrunning : Outside result → taskStatus s.seen task.id = some .running)
    (hclean : Clean task result s (.step a) ↔
      (ending ≠ .conflicts ∨ 2 ≤ attempt → ¬ Outside result)) :
    Kept task result s (.step a) := by
  by_cases hagain : ending = .conflicts ∧ attempt < 2
  · have hnot : ¬ (ending ≠ .conflicts ∨ 2 ≤ attempt) := by
      rintro (h | h)
      · exact h hagain.1
      · omega
    rw [caught, if_pos hagain] at hstep
    refine kept_of_law ?_ (hclean.mpr fun h => (hnot h).elim) ?_ <;> rw [hstep]
    · exact law_open hunsaved rfl rfl
    · exact ⟨hunsaved, he, hrunning⟩
  · have hends : ending ≠ .conflicts ∨ 2 ≤ attempt := by
      by_cases h : ending = .conflicts
      · exact .inr (by by_contra hlt; exact hagain ⟨h, by omega⟩)
      · exact .inl h
    rw [caught, if_neg hagain] at hstep
    refine kept_thrown _ hstep hunsaved he hrunning rfl (hclean.trans ?_)
    exact ⟨fun h => h hends, fun h _ => h⟩

theorem kept_saving {a : Answer} {attempt : Nat} (hpc : s.pc = .saving m attempt)
    (hs : Inv task result s) : Kept task result s (.step a) := by
  unfold Inv at hs
  rw [hpc] at hs
  obtain ⟨hunsaved, heffects, happlied⟩ := hs
  by_cases heffective : a.ending.effective = true
  · by_cases hversion : m.loadedVersion = some s.row.version
    · let s' : State :=
        { s with
          row := ⟨m.state, m.version⟩
          seen := m.state
          stored := s.stored ++ [m]
          pc := .after a.ending (publish m m.domainEvents attempt) }
      have hstep : (step task result s (.step a)).1 = s' := by
        simp [step, proceedCall, hpc, save, heffective, Row.swap, hversion, s']
      have hstored : s'.stored = [m] := by simp [s', hunsaved.1]
      have hpublished : s'.published = [] := hunsaved.2
      have hclean : Clean task result s (.step a) ↔
          (a.ending = .done ∨ m.domainEvents = []) ∧
            (transitionOf result.status = .fail →
              s.seen.status = .executing ∨ s.seen.status = .blocked) := by
        simp [Clean, hpc, heffective, hversion]
      have hpending : s'.pc.pending = m.domainEvents ↔ a.ending = .done ∨ m.domainEvents = [] := by
        by_cases hending : a.ending = .done
        · simp only [s', Pc.after, hending, if_true, true_or, iff_true]
          cases m.domainEvents <;> rfl
        · simp [s', Pc.after, hending, Pc.pending, eq_comm]
      unfold Kept
      rw [hstep, law_stored_iff (s := s') hstored rfl heffects, hclean, happlied.contains, hpublished,
        List.nil_append, hpending]
      refine ⟨and_comm, fun _ => ?_⟩
      by_cases hending : a.ending = .done
      · have hnext : s'.pc = publish m m.domainEvents attempt := by simp [s', Pc.after, hending]
        cases hevents : m.domainEvents with
        | nil => exact inv_of_over (by rw [hnext, hevents]; rfl)
        | cons event rest =>
          unfold Inv
          rw [hnext, hevents]
          exact ⟨hstored, rfl, heffects⟩
      · exact inv_of_over (by simp [s', Pc.after, hending, Pc.isOver])
    · refine kept_caught attempt .conflicts ?_ hunsaved heffects
        happlied.running ?_
      · simp [step, proceedCall, hpc, save, heffective, Row.swap, hversion]
      · have hnot : a.ending ≠ .fails := by
          intro h
          simp [h, Ending.effective] at heffective
        simp [Clean, hpc, hversion, hnot]
  · refine kept_caught attempt a.ending ?_ hunsaved heffects
      happlied.running ?_
    · simp [step, proceedCall, hpc, save, heffective]
    · have hfails : a.ending = .fails ↔ a.ending ≠ .conflicts := by
        cases h : a.ending <;> simp [h, Ending.effective] at heffective ⊢
      simp [Clean, hpc, heffective, hfails]

theorem kept_publishing {a : Answer} {event : Mission.Event} {rest : List Mission.Event}
    {attempt : Nat} (hpc : s.pc = .publishing m event rest attempt) (hs : Inv task result s)
    (hlaw : AllOrNothing task result s) : Kept task result s (.step a) := by
  unfold Inv at hs
  rw [hpc] at hs
  obtain ⟨hstored, hseen, heffects⟩ := hs
  obtain ⟨hcontains, hpublished⟩ := (law_stored_iff hstored hseen heffects).mp hlaw
  rw [hpc] at hpublished
  have hclean : Clean task result s (.step a) ↔
      a.ending = .done ∨ a.ending = .failsLate ∧ rest = [] := by simp [Clean, hpc]
  by_cases heffective : a.ending.effective = true
  · let s' : State :=
      { s with
        published := s.published ++ [event]
        pc := .after a.ending (publish m rest attempt) }
    have hstep : (step task result s (.step a)).1 = s' := by
      simp [step, proceedCall, hpc, publishEvent, heffective, s']
    have hrest : (publish m rest attempt).pending = rest := by cases rest <;> rfl
    have hpending : s'.pc.pending = rest ↔ a.ending = .done ∨ a.ending = .failsLate ∧ rest = [] := by
      cases hending : a.ending <;> simp [hending, Ending.effective] at heffective
      · simp [s', Pc.after, hending, hrest]
      · simp [s', Pc.after, hending, Pc.pending, eq_comm]
    have hsplit : s'.published ++ s'.pc.pending = m.domainEvents ↔ s'.pc.pending = rest := by
      rw [← hpublished]
      simp [s', Pc.pending]
    unfold Kept
    rw [hstep, law_stored_iff (s := s') hstored hseen heffects, hclean, hsplit, hpending]
    refine ⟨and_iff_right hcontains, fun _ => ?_⟩
    by_cases hending : a.ending = .done
    · have hnext : s'.pc = publish m rest attempt := by simp [s', Pc.after, hending]
      cases hrest' : rest with
      | nil => exact inv_of_over (by rw [hnext, hrest']; rfl)
      | cons event' rest' =>
        unfold Inv
        rw [hnext, hrest']
        exact ⟨hstored, hseen, heffects⟩
    · exact inv_of_over (by simp [s', Pc.after, hending, Pc.isOver])
  · -- the event that was not published is dropped
    have hstep : (step task result s (.step a)).1 = { s with pc := caught attempt a.ending } := by
      simp [step, proceedCall, hpc, publishEvent, heffective]
    have hlost : ¬ AllOrNothing task result (step task result s (.step a)).1 := by
      rw [hstep, law_stored_iff (s := { s with pc := caught attempt a.ending }) hstored hseen heffects]
      rintro ⟨-, hall⟩
      have hnone : (caught attempt a.ending).pending = [] := by
        unfold caught
        split <;> rfl
      rw [← hpublished, hnone] at hall
      simp [Pc.pending] at hall
    refine ⟨iff_of_false hlost ?_, fun h => (hlost h).elim⟩
    rw [hclean]
    rintro (h | ⟨h, -⟩) <;> simp [h, Ending.effective] at heffective

theorem kept_reloading {a : Answer} {attempt : Nat} (hpc : s.pc = .reloading attempt)
    (hs : Inv task result s) : Kept task result s (.step a) := by
  unfold Inv at hs
  rw [hpc] at hs
  obtain ⟨hunsaved, heffects, hrunning⟩ := hs
  by_cases hending : a.ending = .done
  · have hclean : Clean task result s (.step a) ↔
        Possible task result s.row.payload ∨ Contains task result s.row.payload := by
      simp [Clean, hpc, hending]
    have hpossible := reapply_snd task result a.input (.reconstitute s.row.payload s.row.version)
    by_cases hok : ((Job.result task result).reapply a.input
        (.reconstitute s.row.payload s.row.version)).2 = .ok
    · obtain ⟨m', hr⟩ : ∃ m', (Job.result task result).reapply a.input
          (.reconstitute s.row.payload s.row.version) = (m', .ok) := ⟨_, Prod.ext rfl hok⟩
      have hstep : (step task result s (.step a)).1 =
          { s with seen := s.row.payload, pc := .saving m' (attempt + 1) } := by
        simp [step, proceedCall, hpc, reload, hending, hr]
      refine kept_of_law ?_ (hclean.mpr (.inl (hpossible.mp hok))) ?_ <;> rw [hstep]
      · exact law_open hunsaved rfl rfl
      · exact ⟨hunsaved, heffects, reapply_applied hr⟩
    · have hstep : (step task result s (.step a)).1 =
          { s with seen := s.row.payload, pc := .returned } := by
        cases hr : (Job.result task result).reapply a.input
          (.reconstitute s.row.payload s.row.version) with
        | mk m' r =>
          rw [hr] at hok
          cases r with
          | ok => exact (hok rfl).elim
          | fail _ => simp [step, proceedCall, hpc, reload, hending, hr]
          | threw _ => simp [step, proceedCall, hpc, reload, hending, hr]
      have hnot : ¬ Possible task result s.row.payload := fun h => hok (hpossible.mpr h)
      unfold Kept
      rw [hstep, hclean, or_iff_right hnot]
      exact ⟨law_returned_iff hunsaved heffects rfl, fun _ => trivial⟩
  · refine kept_thrown { s with pc := .threw } ?_ hunsaved heffects hrunning rfl ?_
    · simp [step, proceedCall, hpc, reload, hending]
    · simp [Clean, hpc, hending]

theorem kept_over {a : Answer} (hover : s.pc.isOver = true) (hlaw : AllOrNothing task result s) :
    Kept task result s (.step a) := by
  have hstep : (step task result s (.step a)).1 = s := by
    cases hpc : s.pc <;> simp [hpc, Pc.isOver] at hover <;> simp [step, proceedCall, hpc]
  have hclean : Clean task result s (.step a) := by
    cases hpc : s.pc <;> simp [hpc, Pc.isOver] at hover <;> simp [Clean, hpc]
  exact kept_of_law (by rwa [hstep]) hclean (by rw [hstep]; exact inv_of_over hover)

/-- Other writers change nothing the call has seen or done. -/
theorem kept_other (m : Mission) (hs : Inv task result s) (hlaw : AllOrNothing task result s) :
    Kept task result s (.other m) := by
  refine kept_of_law ?_ trivial ?_
  · exact ⟨hlaw.stored, hlaw.returned, hlaw.requested, hlaw.awaited, hlaw.compensated,
      hlaw.published⟩
  · exact hs

theorem kept (e : Event) (hs : Inv task result s) (hlaw : AllOrNothing task result s) :
    Kept task result s e := by
  cases e with
  | other m => exact kept_other m hs hlaw
  | step a =>
    cases hpc : s.pc with
    | called m => exact kept_called hpc hs
    | requestApproval m => exact kept_requestApproval hpc hs
    | saveApproval m approval => exact kept_saveApproval hpc hs
    | notify m => exact kept_notify hpc hs
    | compensate m => exact kept_compensate hpc hs
    | saving m attempt => exact kept_saving hpc hs
    | publishing m event rest attempt => exact kept_publishing hpc hs hlaw
    | reloading attempt => exact kept_reloading hpc hs
    | returned => exact kept_over (by rw [hpc]; rfl) hlaw
    | threw => exact kept_over (by rw [hpc]; rfl) hlaw

end

/-! ## Runs -/

/-- **The handling of a result is all or nothing throughout a run iff every step of it is clean.** -/
theorem allOrNothing_iff_clean (task : MissionTask) (result : AIExecutionResult) (m : Mission)
    (row : Row Props) (approvals : Table String Approval.Props) (events : List Event) :
    Machine.Throughout (step task result) (AllOrNothing task result) (start m row approvals) events ↔
      Machine.Meets (step task result) (Clean task result) (start m row approvals) events := by
  have hinv : Inv task result (start m row approvals) := ⟨⟨⟨rfl, rfl⟩, rfl, rfl⟩, rfl⟩
  have hlaw : AllOrNothing task result (start m row approvals) := law_open ⟨rfl, rfl⟩ rfl rfl
  have hiff := Machine.throughout_iff_meets_of_kept (m := step task result)
    (P := AllOrNothing task result) (fun _ e hs hlaw => (kept e hs hlaw).2)
    (fun _ e hs hlaw => (kept e hs hlaw).1) events hinv
  exact hiff.trans (and_iff_right hlaw)

/-- The mission while the agent works on its task. -/
def researching : Row Props :=
  ⟨{ Mission.sampleMission with
      status := .executing
      tasks := [{ Mission.sampleTask "research" [] with status := .running }] }, 3⟩

def researchTask : MissionTask := { Mission.sampleTask "research" [] with status := .running }

/-- The agent asks for an approval. -/
def asking : AIExecutionResult := ⟨"execution", .awaitingApproval, { summary := "Review" }⟩

/-- An operator pauses the mission while the approval is stored. -/
def pausedMeanwhile : List Event :=
  let copy : Mission := .reconstitute researching.payload researching.version
  [.step { now := 1 }, .step { now := 2 }, .step { now := 3 }, .other (pause copy "operator" 3).1,
    .step { now := 4 }, .step { now := 5 }, .step { now := 6 }]

/-- The call returns without an error, the task is still RUNNING, and its approval is stored. -/
theorem pause_during_approval :
    ¬ Machine.Throughout (step researchTask asking) (AllOrNothing researchTask asking)
      (start (.reconstitute researching.payload researching.version) researching [])
      pausedMeanwhile := by
  intro hall
  have hlaw := hall.final.returned rfl
  exact absurd hlaw.1 (by decide +kernel)

end VegaRevenue.MissionExecution.ResultHandling
