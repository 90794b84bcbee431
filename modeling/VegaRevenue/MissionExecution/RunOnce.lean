import VegaRevenue.MissionExecution.Copies

/-!
# A task runs once per RUNNING period

* `executors` — the calls that executed a task since it was last stored as PENDING
* `runsOnce_of_meets` — there is at most one where a call that lost the race for a task finds it
  PENDING, or finds the mission stopped and the task not RUNNING
* `not_runsOnce` — two calls that race for one task both execute it
-/

namespace VegaRevenue.MissionExecution

open Interleave
open Versioned
open Mission (Props findTask startTask incompleteDependencies)

/-! ## What is promised -/

/-- The task is among these, and PENDING. -/
def storedPending (tasks : List MissionTask) (taskId : String) : Bool :=
  (findTask tasks taskId).any (·.status = .pending)

/-- The calls that executed the task since it was last stored as PENDING. -/
def executors (taskId : String) : List Entry → List Nat
  | [] => []
  | .stored tasks :: log => if storedPending tasks taskId then [] else executors taskId log
  | .executed call id :: log =>
    if id = taskId then call :: executors taskId log else executors taskId log

/-- The mission is stopped and the task is not RUNNING, or the mission is executing and the task
can be started as it was when it was selected. -/
def retriable (m : Props) (taskId : String) : Bool :=
  if m.status = .executing then
    (findTask m.tasks taskId).any fun t => t.status = .pending && !incompleteDependencies m.tasks t
  else (findTask m.tasks taskId).all (·.status ≠ .running)

/-- A call that lost the race for a task finds it as it was, or finds the mission stopped. -/
def Retries (c : Interleave.Config World Pc) (a : Tick Input) : Prop :=
  match c.pc a.call with
  | .reloading _ (.start task _) _ =>
    a.input.fault = false → retriable c.world.mission.payload task.id = true
  | _ => True

/-- The task that a call looks at again before it tries to start it a second time. -/
def Pc.restarting : Pc → Option MissionTask
  | .reloading _ (.start task _) _ => some task
  | _ => none

theorem retries_iff (c : Interleave.Config World Pc) (a : Tick Input) :
    Retries c a ↔ a.input.fault = false →
      (c.pc a.call).restarting.all (fun t => retriable c.world.mission.payload t.id) = true := by
  unfold Retries Pc.restarting
  cases c.pc a.call with
  | reloading call job attempt =>
    cases job with
    | start => rfl
    | _ => exact ⟨fun _ _ => rfl, fun _ => trivial⟩
  | _ => exact ⟨fun _ _ => rfl, fun _ => trivial⟩

instance (c : Interleave.Config World Pc) (a : Tick Input) : Decidable (Retries c a) :=
  decidable_of_iff _ (retries_iff c a).symm

/-- A call that lost the race for a task and cannot start it again does not execute it. -/
def LoserStops (c : Interleave.Config World Pc) (a : Tick Input) : Prop :=
  ∀ call task executionId attempt,
    c.pc a.call = .reloading call (.start task executionId) attempt →
    (startTask c.world.load task.id a.input.now).2 ≠ .ok → ((c.step next a).pc a.call).ready = none

section

variable {w w' : World} {p p' : Pc} {i : Nat} {T : String} {tasks : List MissionTask} {m : Mission}

/-! ## Observations -/

theorem executors_stored_sublist (tasks : List MissionTask) (log : List Entry) :
    executors T (.stored tasks :: log) = [] ∨
      executors T (.stored tasks :: log) = executors T log := by
  rw [executors]
  split
  · exact .inl rfl
  · exact .inr rfl

theorem executors_stored_nil {log : List Entry} (h : executors T log = []) :
    executors T (.stored tasks :: log) = [] := by
  rcases executors_stored_sublist tasks log with he | he
  · exact he
  · exact he.trans h

/-! ## The assertion of one call -/

/-- What the copy of a call says of the mission while it is fresh. -/
structure Faithful (r : Row Props) (p : Pc) : Prop where
  begun : ∀ m, p.held = some m → Fresh r m →
    ∀ T, Begun m.state.tasks T ↔ Begun r.payload.tasks T ∨ p.Starts T
  new : ∀ m, p.held = some m → Fresh r m → ∀ T, p.Starts T → ¬ Begun r.payload.tasks T
  distinct : ∀ m, p.held = some m → Distinct m.state.tasks

theorem faithful_of_not_held {r : Row Props} (h : p.held = none) : Faithful r p := by
  have hno : ∀ {m}, p.held ≠ some m := fun hm => by rw [h] at hm; cases hm
  exact ⟨fun _ hm => absurd hm hno, fun _ hm => absurd hm hno, fun _ hm => absurd hm hno⟩

theorem Faithful.evolve {r r' : Row Props} (h : Faithful r p) (hp : Copied r p)
    (he : Evolves r r') : Faithful r' p := by
  have hsame : ∀ m, p.held = some m → Fresh r' m → Fresh r m ∧ r'.payload = r.payload := by
    intro m hm hf
    obtain ⟨hold, hv⟩ := Fresh.of_evolves (hp m hm) he hf
    exact ⟨hold, he.same hv⟩
  refine ⟨fun m hm hf => ?_, fun m hm hf => ?_, h.distinct⟩
  · obtain ⟨hold, hpay⟩ := hsame m hm hf
    rw [hpay]
    exact h.begun m hm hold
  · obtain ⟨hold, hpay⟩ := hsame m hm hf
    rw [hpay]
    exact h.new m hm hold

/-- A call that holds a copy of the mission as it is, with the tasks it begins. -/
theorem faithful_of_held {r : Row Props} {S : String → Prop} {m₀ m : Mission}
    (hheld : p'.held = some m) (hadv : Advances S m₀ m) (hS : ∀ T, p'.Starts T ↔ S T)
    (hfresh : Fresh r m → ∀ T, Begun m₀.state.tasks T ↔ Begun r.payload.tasks T)
    (hnew : ∀ T, S T → ¬ Begun r.payload.tasks T) (hd : Distinct m₀.state.tasks) :
    Faithful r p' := by
  have hown : ∀ m', p'.held = some m' → m' = m := fun m' hm' =>
    Option.some.inj (hm'.symm.trans hheld)
  refine ⟨fun m' hm' hf T => ?_, fun m' hm' hf T hT => hnew T ((hS T).mp hT), fun m' hm' => ?_⟩
  · obtain rfl := hown m' hm'
    rw [hadv.begun, hfresh hf, hS]
  · obtain rfl := hown m' hm'
    exact hadv.distinct hd

/-- A selected task is PENDING. -/
theorem not_begun_of_selected {task : MissionTask} (hd : Distinct tasks)
    (h : selectNextTask tasks = some task) : ¬ Begun tasks task.id := by
  rintro ⟨t, hfind, hbegun⟩
  obtain rfl : task = t := Option.some.inj
    ((findTask_of_mem hd (List.mem_of_find?_eq_some h)).symm.trans hfind)
  have hpending := List.find?_some h
  simp only [Bool.and_eq_true, decide_eq_true_eq] at hpending
  exact hbegun hpending.1

/-- A task that is started again after a lost race is PENDING. -/
theorem not_begun_of_retriable {task : MissionTask} {now : Date}
    (h : retriable w.mission.payload task.id = true)
    (hstart : startTask w.load task.id now = (m, .ok)) :
    ¬ Begun w.mission.payload.tasks task.id := by
  rintro ⟨t, hfind, hbegun⟩
  unfold retriable at h
  split at h
  · rw [hfind] at h
    simp [hbegun] at h
  next hstatus =>
    unfold startTask at hstart
    rw [show findTask w.load.state.tasks task.id = some t from hfind] at hstart
    dsimp only at hstart
    rw [if_pos (show w.load.state.status ≠ .executing from hstatus)] at hstart
    cases hstart

/-- Where the loser's condition holds, a refused start ends with the mission stopped. -/
theorem aborted_of_retriable {task : MissionTask} {now : Date}
    (h : retriable w.mission.payload task.id = true)
    (hrefused : (startTask w.load task.id now).2 ≠ .ok) : aborted w.load task.id = true := by
  unfold retriable at h
  split at h
  next hstatus =>
    obtain ⟨t, hfind, ht⟩ := (Option.any_eq_true _ _).mp h
    simp only [Bool.and_eq_true, decide_eq_true_eq, Bool.not_eq_true'] at ht
    -- the task is PENDING in an executing mission, so its start is not refused
    refine absurd ?_ hrefused
    have hload : findTask w.load.state.tasks task.id = some t := hfind
    have hdeps : incompleteDependencies w.load.state.tasks t = false := ht.2
    have hexecuting : w.load.state.status = .executing := hstatus
    unfold startTask Mission.moveTask MissionTask.transitionStatus
    simp only [hload, hexecuting, hdeps, ht.1]
    rfl
  next hstatus =>
    unfold aborted notRunning
    rw [Bool.and_eq_true]
    refine ⟨decide_eq_true hstatus, ?_⟩
    exact h

end

/-! ## The invariant -/

structure Inv (c : Interleave.Config World Pc) : Prop where
  distinct : Distinct c.world.mission.payload.tasks
  copied : EachCopied c
  faithful : Each (fun _ w p => Faithful w.mission p) c
  /-- A task that has not begun was not executed. -/
  untouched : ∀ T, ¬ Begun c.world.mission.payload.tasks T → executors T c.world.log = []
  once : ∀ T, (executors T c.world.log).length ≤ 1
  /-- A call that is about to execute a task is the first. -/
  ready : ∀ i T, (c.pc i).ready = some T →
    Begun c.world.mission.payload.tasks T ∧ executors T c.world.log = []
  alone : ∀ i j T, (c.pc i).ready = some T → (c.pc j).ready = some T → i = j

theorem inv_init (mission : StoredMission) (approvals : Table String Approval.Props)
    (calls : Nat → Start) : Inv (init mission approvals calls) := by
  have hheld : ∀ i, (calls i).pc.held = none := fun i => by cases calls i <;> rfl
  have hready : ∀ i T, (calls i).pc.ready ≠ some T := fun i T => by cases calls i <;> nofun
  refine ⟨mission.distinct, fun i => copied_of_not_held (hheld i),
    fun i => faithful_of_not_held (hheld i), fun _ _ => rfl, fun _ => Nat.zero_le 1,
    fun i T h => absurd h (hready i T), fun i _ T h => absurd h (hready i T)⟩

section

variable {c : Interleave.Config World Pc} {a : Tick Input}

/-- The copies of all calls stay faithful when the one of the call that moves does. -/
theorem Inv.faithful_step (h : Inv c)
    (hown : Faithful (c.step next a).world.mission
      (next a.call a.input c.world (c.pc a.call)).2) :
    Each (fun _ w p => Faithful w.mission p) (c.step next a) := by
  have hboth : Each (fun _ w p => Copied w.mission p ∧ Faithful w.mission p) c :=
    fun i => ⟨h.copied i, h.faithful i⟩
  refine Each.step hboth hown ?_
  intro j q _ hq
  exact hq.2.evolve hq.1 (evolves_step a h.copied)

/-- Who is about to execute a task after a step. -/
theorem ready_step {i : Nat} {T : String} (h : ((c.step next a).pc i).ready = some T) :
    (i = a.call ∧ (next a.call a.input c.world (c.pc a.call)).2.ready = some T) ∨
      i ≠ a.call ∧ (c.pc i).ready = some T := by
  by_cases hi : i = a.call
  · subst hi
    rw [Config.step_pc_self] at h
    exact .inl ⟨rfl, h⟩
  · rw [Config.step_pc_ne next c hi] at h
    exact .inr ⟨hi, h⟩

/-- A step that changes neither the mission nor the log, and readies no call. -/
theorem Inv.frame (h : Inv c) (hmission : (c.step next a).world.mission = c.world.mission)
    (hlog : (c.step next a).world.log = c.world.log)
    (hready : ∀ T, (next a.call a.input c.world (c.pc a.call)).2.ready = some T →
      (c.pc a.call).ready = some T)
    (hown : Faithful c.world.mission (next a.call a.input c.world (c.pc a.call)).2) :
    Inv (c.step next a) := by
  have hbefore : ∀ i T, ((c.step next a).pc i).ready = some T → (c.pc i).ready = some T := by
    intro i T hi
    rcases ready_step hi with ⟨rfl, hr⟩ | ⟨-, hr⟩
    · exact hready T hr
    · exact hr
  refine ⟨?_, copied_step a h.copied, h.faithful_step (by rw [hmission]; exact hown), ?_, ?_, ?_,
    ?_⟩
  · rw [hmission]
    exact h.distinct
  · rw [hmission, hlog]
    exact h.untouched
  · rw [hlog]
    exact h.once
  · intro i T hi
    rw [hmission, hlog]
    exact h.ready i T (hbefore i T hi)
  · intro i j T hi hj
    exact h.alone i j T (hbefore i T hi) (hbefore j T hj)

/-- A step that saves a copy. Where it begins a task, the task had not begun. -/
theorem Inv.save (h : Inv c) {m : Mission} (hfrom : (c.pc a.call).held = some m)
    (hsave : c.world.save m = some (c.step next a).world)
    (hheld : (next a.call a.input c.world (c.pc a.call)).2.held = none)
    (hready : ∀ T, (next a.call a.input c.world (c.pc a.call)).2.ready = some T →
      (c.pc a.call).Starts T) : Inv (c.step next a) := by
  obtain ⟨-, hfresh, hpay, hlog⟩ := save_copy (h.copied a.call m hfrom) hsave
  have hbegun := (h.faithful a.call).begun m hfrom hfresh
  have hnew := (h.faithful a.call).new m hfrom hfresh
  have hnil : ∀ {T}, executors T c.world.log = [] →
      executors T (c.step next a).world.log = [] := by
    intro T hT
    rw [hlog]
    exact executors_stored_nil hT
  -- a call that is ready after the save either was, or begins a task nobody was ready for
  have hother : ∀ {T} i, (c.pc a.call).Starts T → (c.pc i).ready ≠ some T := fun i hT hi =>
    hnew _ hT (h.ready i _ hi).1
  refine ⟨?_, copied_step a h.copied, h.faithful_step (faithful_of_not_held hheld), ?_, ?_, ?_, ?_⟩
  · rw [hpay]
    exact (h.faithful a.call).distinct m hfrom
  · intro T hT
    rw [hpay, hbegun] at hT
    exact hnil (h.untouched T fun hb => hT (.inl hb))
  · intro T
    rw [hlog]
    rcases executors_stored_sublist (T := T) m.state.tasks c.world.log with he | he
    · rw [he]
      exact Nat.zero_le 1
    · rw [he]
      exact h.once T
  · intro i T hi
    rw [hpay, hbegun]
    rcases ready_step hi with ⟨-, hr⟩ | ⟨-, hr⟩
    · have hT := hready T hr
      exact ⟨.inr hT, hnil (h.untouched T (hnew T hT))⟩
    · obtain ⟨hb, hnone⟩ := h.ready i T hr
      exact ⟨.inl hb, hnil hnone⟩
  · intro i j T hi hj
    rcases ready_step hi with ⟨rfl, hri⟩ | ⟨-, hri⟩
    · rcases ready_step hj with ⟨rfl, -⟩ | ⟨-, hrj⟩
      · rfl
      · exact absurd hrj (hother j (hready T hri))
    · rcases ready_step hj with ⟨rfl, hrj⟩ | ⟨-, hrj⟩
      · exact absurd hri (hother i (hready T hrj))
      · exact h.alone i j T hri hrj

/-- A step that executes a task. -/
theorem Inv.execute (h : Inv c) {T : String} (hfrom : (c.pc a.call).ready = some T)
    (hmission : (c.step next a).world.mission = c.world.mission)
    (hlog : (c.step next a).world.log = .executed a.call T :: c.world.log)
    (hheld : (next a.call a.input c.world (c.pc a.call)).2.held = none)
    (hready : (next a.call a.input c.world (c.pc a.call)).2.ready = none) :
    Inv (c.step next a) := by
  obtain ⟨hbegun, hnone⟩ := h.ready a.call T hfrom
  have hne : ∀ {U}, U ≠ T →
      executors U (c.step next a).world.log = executors U c.world.log := by
    intro U hU
    rw [hlog, executors, if_neg (Ne.symm hU)]
  have hbefore : ∀ i U, ((c.step next a).pc i).ready = some U →
      (c.pc i).ready = some U ∧ U ≠ T := by
    intro i U hi
    rcases ready_step hi with ⟨-, hr⟩ | ⟨hia, hr⟩
    · rw [hready] at hr
      cases hr
    · refine ⟨hr, ?_⟩
      rintro rfl
      exact hia (h.alone i a.call U hr hfrom)
  refine ⟨?_, copied_step a h.copied, h.faithful_step (faithful_of_not_held hheld), ?_, ?_, ?_, ?_⟩
  · rw [hmission]
    exact h.distinct
  · intro U hU
    rw [hmission] at hU
    have hUT : U ≠ T := by
      rintro rfl
      exact hU hbegun
    rw [hne hUT]
    exact h.untouched U hU
  · intro U
    by_cases hU : U = T
    · subst hU
      rw [hlog, executors, if_pos rfl, hnone]
      exact Nat.le_refl 1
    · rw [hne hU]
      exact h.once U
  · intro i U hi
    obtain ⟨hr, hU⟩ := hbefore i U hi
    rw [hmission, hne hU]
    exact h.ready i U hr
  · intro i j U hi hj
    exact h.alone i j U (hbefore i U hi).1 (hbefore j U hj).1

/-- A call that lost the race for a task and goes on meets the condition. -/
theorem Retries.retriable (h : Retries c a) {call : Call} {task : MissionTask}
    {executionId : String} {attempt : Nat}
    (hp : c.pc a.call = .reloading call (.start task executionId) attempt)
    (hgoes : (next a.call a.input c.world (c.pc a.call)).2 ≠ .threw) :
    retriable c.world.mission.payload task.id = true := by
  unfold Retries at h
  rw [hp] at h
  refine h (Bool.eq_false_iff.mpr fun hfault => hgoes ?_)
  unfold next
  rw [if_pos hfault]

/-- Every step in which the loser of a race finds the task as it was keeps the invariant. -/
theorem inv_step (c : Interleave.Config World Pc) (a : Tick Input) (h : Inv c)
    (hretries : Retries c a) : Inv (c.step next a) := by
  have heff := effect_next a.call a.input c.world (c.pc a.call)
  have hfaithful := h.faithful a.call
  generalize hp : c.pc a.call = p at heff hfaithful
  generalize hnext : next a.call a.input c.world p = r at heff
  obtain ⟨w', p'⟩ := r
  have hw : (c.step next a).world = w' := by rw [Config.step_world, hp, hnext]
  have hp' : (next a.call a.input c.world (c.pc a.call)).2 = p' := by rw [hp, hnext]
  have hloaded : Fresh c.world.mission c.world.load := rfl
  have hidle : p'.Idle → ∀ T, p'.ready = some T → p.ready = some T := fun hi T hT => by
    rw [hi.ready] at hT
    cases hT
  cases heff with
  | drops hmission hlog hheld hi =>
    exact h.frame (by rw [hw, hmission]) (by rw [hw, hlog]) (by rw [hp', hp]; exact hidle hi)
      (by rw [hp']; exact faithful_of_not_held hheld)
  | works hmission hlog hfrom hnone hheld hquiet hi =>
    refine h.frame (by rw [hw, hmission]) (by rw [hw, hlog]) (by rw [hp', hp]; exact hidle hi) ?_
    rw [hp']
    refine faithful_of_held hheld hquiet (fun T => iff_of_false (hi.starts T) id) ?_
      (fun _ => False.elim) (hfaithful.distinct _ hfrom)
    intro hfresh T
    have hold := hfaithful.begun _ hfrom (hquiet.tracks.1.symm.trans hfresh) T
    rwa [or_iff_left (hnone T)] at hold
  | loads hheld hquiet hi =>
    refine h.frame (by rw [hw]) (by rw [hw]) (by rw [hp', hp]; exact hidle hi) ?_
    rw [hp']
    exact faithful_of_held hheld hquiet (fun T => iff_of_false (hi.starts T) id)
      (fun _ _ => Iff.rfl) (fun _ => False.elim) h.distinct
  | @begins _ call task executionId m attempt now hstart hfrom =>
    refine h.frame (by rw [hw]) (by rw [hw]) (by rw [hp']; exact fun T => nofun) ?_
    rw [hp']
    refine faithful_of_held rfl (startTask_ok hstart) (fun T => Iff.rfl) (fun _ _ => Iff.rfl) ?_
      h.distinct
    rintro T rfl
    rcases hfrom with ⟨-, hselect⟩ | ⟨b, rfl⟩
    · exact not_begun_of_selected h.distinct hselect
    · exact not_begun_of_retriable (hretries.retriable hp (by rw [hp']; nofun)) hstart
  | checks hcheck hfrom =>
    refine h.frame (by rw [hw]) (by rw [hw]) (by rw [hp']; exact fun T => nofun) ?_
    rw [hp']
    exact faithful_of_held rfl (.of_ok hcheck quiet_complete?) (fun T => Iff.rfl)
      (fun _ _ => Iff.rfl) (fun _ => False.elim) h.distinct
  | loses hrefused hgoes =>
    -- the loser that goes on is what the condition excludes
    have habort := aborted_of_retriable (hretries.retriable hp (by rw [hp']; nofun)) hrefused
    rw [hgoes] at habort
    cases habort
  | saves hfrom hsave hheld hready =>
    refine h.save (by rw [hp]; exact hfrom) (by rw [hw]; exact hsave) (by rw [hp']; exact hheld) ?_
    rw [hp', hp]
    exact hready
  | resolves =>
    exact h.frame (by rw [hw]) (by rw [hw]) (by rw [hp', hp]; exact fun _ => id)
      (by rw [hp']; exact faithful_of_not_held rfl)
  | executes hheld hi =>
    exact h.execute (by rw [hp]; rfl) (by rw [hw]) (by rw [hw]) (by rw [hp']; exact hheld)
      (by rw [hp']; exact hi.ready)

/-- A loser that stops meets its condition. -/
theorem loserStops (hretries : Retries c a) : LoserStops c a := by
  intro call task executionId attempt hp hrefused
  rw [Config.step_pc_self]
  by_cases hthrew : (next a.call a.input c.world (c.pc a.call)).2 = .threw
  · rw [hthrew]
    rfl
  · have habort := aborted_of_retriable (hretries.retriable hp hthrew) hrefused
    have hstop : ∀ b, next a.call a.input c.world
        (.reloading call (.start task executionId) attempt) = b → b.2.ready = none := by
      rintro b rfl
      unfold next
      split
      · rfl
      · unfold proceed reloadAndReapply
        dsimp only
        split
        next hok => exact absurd (congrArg Prod.snd hok) hrefused
        next m r hne hr =>
          obtain rfl : m = c.world.load := startTask_refused hr hne
          rw [Job.next, if_pos habort]
          rfl
    exact hp ▸ hstop _ rfl

end

/-- **Where every call that lost the race for a task finds it as it was, or finds the mission
stopped, a task runs at most once between two moments at which it is stored as PENDING, and no
loser executes it.** -/
theorem runsOnce_of_meets (mission : StoredMission) (approvals : Table String Approval.Props)
    (calls : Nat → Start) (schedule : List (Tick Input))
    (h : Meets next Retries (init mission approvals calls) schedule) :
    (∀ T, (executors T (run next (init mission approvals calls) schedule).world.log).length ≤ 1) ∧
      Meets next LoserStops (init mission approvals calls) schedule := by
  have hinv := inv_init mission approvals calls
  exact ⟨(run_invariant_of_meets inv_step hinv h).once,
    Meets.of_invariant (fun _ _ _ => loserStops) inv_step hinv h⟩

/-! ## Runs -/

/-- A step of this call. -/
def tick (call : Nat) : Tick Input := ⟨call, { now := 0 }⟩

/-- An operator pauses the mission between the load and the save of the first call and resumes it
before another call. -/
def pausedCalls : Nat → Start
  | 1 => .control (.pause "lunch")
  | 2 => .control .resume
  | _ => .executeMissionStep

def pausedSchedule : List (Tick Input) :=
  [0, 1, 1, 0, 0, 0, 0, 2, 2, 3, 3, 3, 3].map tick

theorem runsOnce_paused :
    executors "research"
        (run next (init executingMission [] pausedCalls) pausedSchedule).world.log = [3] ∧
      ∀ T, (executors T
        (run next (init executingMission [] pausedCalls) pausedSchedule).world.log).length ≤ 1 :=
  ⟨by decide +kernel,
    (runsOnce_of_meets executingMission [] pausedCalls pausedSchedule (by decide +kernel)).1⟩

/-- Two calls load the mission before either saves the start of the task. -/
def raceSchedule : List (Tick Input) := [0, 1, 0, 1, 0, 0, 1, 1, 1].map tick

theorem executors_race :
    executors "research" (run next (init executingMission [] fun _ => .executeMissionStep)
      raceSchedule).world.log = [1, 0] := by
  decide +kernel

/-- The loser of a race executes the task too. -/
theorem not_runsOnce :
    ¬ ∀ (mission : StoredMission) (approvals : Table String Approval.Props) (calls : Nat → Start)
      (schedule : List (Tick Input)) (T : String), mission.row.payload.status = .executing →
      ∀ i ∈ executors T (run next (init mission approvals calls) schedule).world.log,
      ∀ j ∈ executors T (run next (init mission approvals calls) schedule).world.log, i = j := by
  intro h
  have hrace := h executingMission [] (fun _ => .executeMissionStep) raceSchedule "research" rfl
  rw [executors_race] at hrace
  exact absurd (hrace 1 (by simp) 0 (by simp)) (by decide)

end VegaRevenue.MissionExecution
