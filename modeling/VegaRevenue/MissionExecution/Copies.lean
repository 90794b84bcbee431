import VegaRevenue.Lib.Copies
import VegaRevenue.MissionExecution.Jobs

/-!
# What a step of the engine does

* `Effect` — the ways a step changes the mission, the log and the copy its call holds
* `effect_next` — every step is one of them
* `copied_step` — what a call holds is a copy of the stored mission, maybe an old one
-/

namespace VegaRevenue.MissionExecution

open Interleave
open Versioned
open Mission (Props findTask startTask)

/-! ## What a call holds -/

/-- The copy a call has yet to save. -/
def Pc.held : Pc → Option Mission
  | saving _ _ m _ | requestApproval _ _ _ m | saveApproval _ _ _ m _ | notify _ _ _ m
  | compensate _ _ _ m | saveControl _ m _ => some m
  | _ => none

/-- The task a call is about to execute. -/
def Pc.ready : Pc → Option String
  | resolve _ task _ | execute _ task _ => some task.id
  | _ => none

/-- The tasks the save a call waits for begins. -/
def Pc.Starts : Pc → String → Prop
  | saving _ job _ _, T => job.Starts T
  | _, _ => False

/-- The call is about to save a completion check. -/
def Pc.checks : Pc → Bool
  | saving _ (.completion _) _ _ => true
  | _ => false

/-- The call is not about to execute anything, nor to save the start of a task or a completion
check. -/
structure Pc.Idle (p : Pc) : Prop where
  ready : p.ready = none
  starts : ∀ T, ¬ p.Starts T
  checks : p.checks = false

/-- The call looks at the mission it loads. -/
def Call.looks : Call → Bool
  | missionStep => true
  | mission iterations => iterations < maxIterations

/-! ## Effects -/

/-- The ways a step of call `i` from `p` changes the world and moves on. -/
inductive Effect (i : Nat) (w : World) : Pc → World → Pc → Prop where
  /-- Nothing is held after the step. -/
  | drops {p p' : Pc} {w' : World} (hmission : w'.mission = w.mission) (hlog : w'.log = w.log)
      (hheld : p'.held = none) (hidle : p'.Idle) : Effect i w p w' p'
  /-- What is held is worked on. -/
  | works {p p' : Pc} {w' : World} {m m' : Mission} (hmission : w'.mission = w.mission)
      (hlog : w'.log = w.log) (hfrom : p.held = some m) (hnone : ∀ T, ¬ p.Starts T)
      (hheld : p'.held = some m') (hquiet : Quiet m m') (hidle : p'.Idle) : Effect i w p w' p'
  /-- The mission is loaded and worked on. -/
  | loads {p p' : Pc} {m' : Mission} (hheld : p'.held = some m') (hquiet : Quiet w.load m')
      (hidle : p'.Idle) : Effect i w p w p'
  /-- A task is started on the mission that was loaded. -/
  | begins {p : Pc} {call : Call} {task : MissionTask} {executionId : String} {m : Mission}
      {attempt : Nat} {now : Date} (hstart : startTask w.load task.id now = (m, .ok))
      (hfrom : ((∃ c, p = .load c) ∧
          selectNextTask w.mission.payload.tasks = some task) ∨
        ∃ a, p = .reloading call (.start task executionId) a) :
      Effect i w p w (.saving call (.start task executionId) m attempt)
  /-- It is decided whether the mission completes or fails. -/
  | checks {p : Pc} {call : Call} {status : Mission.Status} {m : Mission} {attempt : Nat}
      {now : Date} (hcheck : complete? now w.load = (m, .ok))
      (hfrom : (∃ c, p = .load c ∧ c.looks = true ∧ w.mission.payload.status = .executing ∧
          selectNextTask w.mission.payload.tasks = none) ∨
        ∃ c s a, p = .reloading c (.completion s) a) :
      Effect i w p w (.saving call (.completion status) m attempt)
  /-- Another call won the race, and this one goes on. -/
  | loses {call : Call} {task : MissionTask} {executionId : String} {attempt : Nat} {now : Date}
      (hrefused : (startTask w.load task.id now).2 ≠ .ok)
      (hgoes : aborted w.load task.id = false) :
      Effect i w (.reloading call (.start task executionId) attempt) w
        (.resolve call task executionId)
  /-- What is held is saved. -/
  | saves {p p' : Pc} {w' : World} {m : Mission} (hfrom : p.held = some m)
      (hsave : w.save m = some w') (hheld : p'.held = none)
      (hready : ∀ T, p'.ready = some T → p.Starts T) : Effect i w p w' p'
  | resolves {call : Call} {task : MissionTask} {executionId : String} :
      Effect i w (.resolve call task executionId) w (.execute call task executionId)
  | executes {p' : Pc} {call : Call} {task : MissionTask} {executionId : String}
      (hheld : p'.held = none) (hidle : p'.Idle) :
      Effect i w (.execute call task executionId)
        { w with log := .executed i task.id :: w.log } p'

section

variable {i : Nat} {w : World} {p : Pc} {input : Input}

/-- A call that goes on only where the operation succeeds. -/
theorem orThrow_cases (r : Mission × OpResult) (pc : Mission → Pc) :
    orThrow r pc = .threw ∨ ∃ m, r = (m, .ok) ∧ orThrow r pc = pc m := by
  obtain ⟨m, res⟩ := r
  cases res with
  | ok => exact .inr ⟨m, rfl, rfl⟩
  | fail _ => exact .inl rfl
  | threw _ => exact .inl rfl

theorem Effect.threw : Effect i w p w .threw := .drops rfl rfl rfl ⟨rfl, fun _ => nofun, rfl⟩

/-- A step that loads the mission and works on it, or throws. -/
theorem Effect.of_load {r : Mission × OpResult} {pc : Mission → Pc}
    (hquiet : ∀ m, r = (m, .ok) → Quiet w.load m) (hheld : ∀ m, (pc m).held = some m)
    (hidle : ∀ m, (pc m).Idle) : Effect i w p w (orThrow r pc) := by
  rcases orThrow_cases r pc with h | ⟨m, hr, h⟩ <;> rw [h]
  · exact .threw
  · exact .loads (hheld m) (hquiet m hr) (hidle m)

/-- A step that works on what is held, or throws. -/
theorem Effect.of_held {m : Mission} {r : Mission × OpResult} {pc : Mission → Pc}
    (hfrom : p.held = some m) (hnone : ∀ T, ¬ p.Starts T) (hquiet : Quiet m r.1)
    (hheld : ∀ m, (pc m).held = some m) (hidle : ∀ m, (pc m).Idle) : Effect i w p w (orThrow r pc) := by
  rcases orThrow_cases r pc with h | ⟨m', hr, h⟩ <;> rw [h]
  · exact .threw
  · exact .works rfl rfl hfrom hnone (hheld m') (by rwa [hr] at hquiet) (hidle m')

theorem idle_result (call : Call) (task : MissionTask) (result : AIExecutionResult) (m : Mission)
    (attempt : Nat) : (Pc.saving call (.result task result) m attempt).Idle := ⟨rfl, fun _ => nofun, rfl⟩

theorem effect_handleTaskResult (call : Call) (task : MissionTask) (result : AIExecutionResult) :
    Effect i w p w (handleTaskResult call w.load task result input.now) := by
  unfold handleTaskResult
  split
  · exact .of_load (fun _ h => quiet_completeTask h) (fun _ => rfl)
      (fun _ => idle_result call task result _ 0)
  · exact .of_load (fun _ h => quiet_markTaskAwaitingApproval h) (fun _ => rfl)
      (fun _ => ⟨rfl, fun _ => nofun, rfl⟩)
  all_goals first
    | exact .of_load (fun _ h => quiet_failTask h) (fun _ => rfl) (fun _ => ⟨rfl, fun _ => nofun, rfl⟩)
    | exact .loads rfl (.refl _) (idle_result call task result _ 0)

theorem effect_executeLoaded (call : Call) {c : Call} (hlooks : c.looks = true) :
    Effect i w (.load c) w (executeLoaded call w.load input) := by
  unfold executeLoaded
  split
  · cases call with
    | missionStep => exact .drops rfl rfl rfl ⟨rfl, fun _ => nofun, rfl⟩
    | mission iterations => exact .drops rfl rfl rfl ⟨rfl, fun _ => nofun, rfl⟩
  next hstatus =>
    split
    next hselect =>
      unfold evaluateCompletion
      rcases orThrow_cases (complete? input.now w.load)
        fun m => .saving call (.completion m.state.status) m 0 with h | ⟨m, hr, h⟩ <;> rw [h]
      · exact .threw
      · exact .checks hr (.inl ⟨c, rfl, hlooks, not_not.mp hstatus, hselect⟩)
    next task hselect =>
      unfold runTask
      split
      · exact .drops rfl rfl rfl ⟨rfl, fun _ => nofun, rfl⟩
      · rcases orThrow_cases (startTask w.load task.id input.now) fun m =>
          .saving call (.start task input.executionId) m 0 with h | ⟨m, hr, h⟩ <;> rw [h]
        · exact .threw
        · exact .begins hr (.inl ⟨⟨c, rfl⟩, hselect⟩)

theorem effect_planMission : Effect i w p w (planMission w.load input) := by
  unfold planMission
  split
  · exact .threw
  · split
    · exact .threw
    · exact .of_load (fun _ h => quiet_applyPlan h) (fun _ => rfl) (fun _ => ⟨rfl, fun _ => nofun, rfl⟩)

theorem effect_control (c : Control) (attempt : Nat) (now : Date) :
    Effect i w p w (c.decide w.load attempt now) := by
  have hreturned : Effect i w p w (.returned none none) := .drops rfl rfl rfl ⟨rfl, fun _ => nofun, rfl⟩
  have hsave : ∀ {target event}, Effect i w p w
      (orThrow (Mission.transitionTo w.load target event now) fun m => .saveControl c m attempt) :=
    .of_load (fun _ h => .of_ok h (quiet_transitionTo _ _)) (fun _ => rfl)
       (fun _ => ⟨rfl, fun _ => nofun, rfl⟩)
  unfold Control.decide
  cases c with
  | pause reason =>
    dsimp only
    split
    · exact hreturned
    · split
      · exact .threw
      · exact hsave
  | resume =>
    dsimp only
    split
    · exact hreturned
    · split
      · exact .threw
      · exact hsave
  | cancel reason =>
    dsimp only
    split
    · exact hreturned
    · exact hsave

/-- A call that holds nothing saves nothing. -/
theorem saves_nothing (h : p.held = none) : (∀ T, ¬ p.Starts T) ∧ p.checks = false := by
  cases p <;> first | exact ⟨fun _ => nofun, rfl⟩ | cases h

/-- What follows a save that took: a started task is executed, everything else lets go. -/
theorem next_saved (call : Call) (job : Job) (m : Mission) :
    (job.next call m).held = none ∧
      ∀ T, (job.next call m).ready = some T → job.Starts T := by
  cases job with
  | plan newPlan tasks => exact ⟨rfl, fun _ => nofun⟩
  | start task executionId =>
    unfold Job.next
    dsimp only
    split
    · exact ⟨rfl, fun _ => nofun⟩
    · exact ⟨rfl, fun T h => (Option.some.inj h).symm⟩
  | result task result =>
    cases call with
    | missionStep => exact ⟨rfl, fun _ => nofun⟩
    | mission iterations => exact ⟨rfl, fun _ => nofun⟩
  | completion status =>
    cases call with
    | missionStep => exact ⟨rfl, fun _ => nofun⟩
    | mission iterations => exact ⟨rfl, fun _ => nofun⟩

theorem effect_saveAndPublish (call : Call) (job : Job) (m : Mission) (attempt : Nat) :
    Effect i w (.saving call job m attempt) (saveAndPublish call job m attempt input w).1
      (saveAndPublish call job m attempt input w).2 := by
  unfold saveAndPublish
  split
  next w' hsave =>
    dsimp only
    split
    · exact .saves rfl hsave rfl (fun _ => nofun)
    · obtain ⟨hheld, hready⟩ := next_saved call job (m.setVersion m.version)
      exact .saves rfl hsave hheld hready
  · dsimp only
    split
    · exact .drops rfl rfl rfl ⟨rfl, fun _ => nofun, rfl⟩
    · exact .threw

theorem effect_reload (call : Call) (job : Job) (attempt : Nat) :
    Effect i w (.reloading call job attempt) w (reloadAndReapply call job attempt input w) := by
  unfold reloadAndReapply
  split
  next m hr =>
    have hadv := advances_reapply hr
    cases job with
    | start task executionId => exact .begins hr (.inr ⟨attempt, rfl⟩)
    | plan newPlan tasks => exact .loads rfl hadv ⟨rfl, fun _ => nofun, rfl⟩
    | result task result => exact .loads rfl hadv ⟨rfl, fun _ => nofun, rfl⟩
    | completion status => exact .checks hr (.inr ⟨call, status, attempt, rfl⟩)
  next m r hne hr =>
    obtain ⟨hheld, hready⟩ := next_saved call job m
    obtain ⟨hstarts, hchecks⟩ := saves_nothing hheld
    have hdrops : (∀ T, ¬ job.Starts T) →
        Effect i w (.reloading call job attempt) w (job.next call m) := fun h =>
      .drops rfl rfl hheld
        ⟨Option.eq_none_iff_forall_ne_some.mpr fun T hT => h T (hready T hT), hstarts, hchecks⟩
    cases job with
    | start task executionId =>
      have hrefused : r ≠ .ok := hne
      obtain rfl : m = w.load := startTask_refused (m := w.load) hr hrefused
      unfold Job.next
      dsimp only
      split
      · exact .drops rfl rfl rfl ⟨rfl, fun _ => nofun, rfl⟩
      next hgoes =>
        have hrefused' : (startTask w.load task.id input.now).2 ≠ .ok := by
          rw [show startTask w.load task.id input.now = _ from hr]
          exact hrefused
        exact .loses hrefused' (Bool.eq_false_iff.mpr hgoes)
    | plan newPlan tasks => exact hdrops fun _ => nofun
    | result task result => exact hdrops fun _ => nofun
    | completion status => exact hdrops fun _ => nofun

/-- **Every step of a call is an effect.** -/
theorem effect_next (i : Nat) (input : Input) (w : World) (p : Pc) :
    Effect i w p (next i input w p).1 (next i input w p).2 := by
  have hdrops : ∀ {p p' : Pc}, p'.held = none → p'.Idle → Effect i w p w p' :=
    fun h hidle => .drops rfl rfl h hidle
  unfold next
  split
  · exact .threw
  · cases p with
    | plan => exact effect_planMission
    | load call =>
      cases call with
      | missionStep => exact effect_executeLoaded _ rfl
      | mission iterations =>
        unfold proceed
        dsimp only
        split
        next hlt => exact effect_executeLoaded _ (decide_eq_true hlt)
        · exact hdrops rfl ⟨rfl, fun _ => nofun, rfl⟩
    | saving call job m attempt => exact effect_saveAndPublish call job m attempt
    | reloading call job attempt => exact effect_reload call job attempt
    | resolve call task executionId => exact .resolves
    | execute call task executionId =>
      unfold proceed
      dsimp only
      split
      · exact .executes rfl ⟨rfl, fun _ => nofun, rfl⟩
      · exact .executes rfl ⟨rfl, fun _ => nofun, rfl⟩
    | loadResult call task result => exact effect_handleTaskResult call _ result
    | requestApproval call task result m =>
      unfold proceed
      dsimp only
      split
      · exact .works rfl rfl rfl (fun _ => nofun) rfl (.refl m) ⟨rfl, fun _ => nofun, rfl⟩
      · exact .threw
    | saveApproval call task result m approval =>
      unfold proceed
      dsimp only
      split
      · exact .works rfl rfl rfl (fun _ => nofun) rfl (.refl m) ⟨rfl, fun _ => nofun, rfl⟩
      · exact .threw
    | notify call task result m =>
      exact Effect.of_held (p := .notify call task result m) rfl (fun _ => nofun)
        (quiet_transitionTo _ _) (fun _ => rfl) (fun _ => idle_result call task result _ 0)
    | compensate call task result m =>
      exact Effect.of_held (p := .compensate call task result m) rfl (fun _ => nofun)
        quiet_blockExecuting (fun _ => rfl) (fun _ => idle_result call task result _ 0)
    | loadStatus taskId => exact hdrops rfl ⟨rfl, fun _ => nofun, rfl⟩
    | control c attempt => exact effect_control c attempt input.now
    | saveControl c m attempt =>
      unfold proceed
      dsimp only
      split
      next w' hsave =>
        dsimp only
        split
        · exact .saves rfl hsave rfl (fun _ => nofun)
        · exact .saves rfl hsave rfl (fun _ => nofun)
      · dsimp only
        split
        · exact hdrops rfl ⟨rfl, fun _ => nofun, rfl⟩
        · exact .threw
    | decide approvalId d =>
      unfold proceed
      dsimp only
      split
      · exact .threw
      · split
        · exact hdrops rfl ⟨rfl, fun _ => nofun, rfl⟩
        · exact .threw
    | saveDecision a =>
      unfold proceed
      dsimp only
      split
      · exact .drops rfl rfl rfl ⟨rfl, fun _ => nofun, rfl⟩
      · exact .threw
    | returned status taskId => exact hdrops rfl ⟨rfl, fun _ => nofun, rfl⟩
    | threw => exact hdrops rfl ⟨rfl, fun _ => nofun, rfl⟩

/-! ## Copies -/

/-- The mission moved on by saves of copies; its version moves with its state. -/
abbrev Evolves (r r' : Row Props) : Prop := r.Evolves id (fun _ => ()) (fun _ _ => True) r'

/-- What the call holds was loaded from the mission, maybe long ago. -/
def Copied (r : Row Props) (p : Pc) : Prop :=
  ∀ m, p.held = some m → Copy id (fun _ => ()) r m

variable {w' : World} {p' : Pc}

theorem evolves_refl (r : Row Props) : Evolves r r := .refl (fun _ => trivial) r

/-- Work on a copy leaves a copy. -/
theorem copy_advances {S : String → Prop} {r : Row Props} {m m' : Mission}
    (h : Copy id (fun _ => ()) r m) (hadv : Advances S m m') : Copy id (fun _ => ()) r m' := by
  refine h.op hadv.tracks.1 hadv.tracks.version_le (fun hv => ?_) rfl
  rcases hadv.tracks.2 with hlt | ⟨-, hs | hf⟩
  · omega
  · exact hs
  · exact hf.elim

theorem copy_load (w : World) : Copy id (fun _ => ()) w.mission w.load := .load rfl rfl

theorem save_swap {m : Mission} (h : w.save m = some w') :
    w.mission.swap m = some w'.mission ∧ w'.log = .stored m.state.tasks :: w.log := by
  obtain ⟨row, hrow, rfl⟩ := Option.map_eq_some_iff.mp h
  exact ⟨hrow, rfl⟩

/-- A save by a copy stores its state. -/
theorem save_copy {m : Mission} (h : Copy id (fun _ => ()) w.mission m)
    (hsave : w.save m = some w') : Evolves w.mission w'.mission ∧ Fresh w.mission m ∧
      w'.mission.payload = m.state ∧ w'.log = .stored m.state.tasks :: w.log := by
  obtain ⟨hswap, hlog⟩ := save_swap hsave
  have hmoved : Evolves w.mission w'.mission ∧ _ := h.swap (fun _ => trivial) hswap
  obtain ⟨hev, -, hrow, hfresh⟩ := hmoved
  exact ⟨hev, hfresh, congrArg Row.payload hrow, hlog⟩

theorem Effect.evolves (h : Effect i w p w' p') (hp : Copied w.mission p) :
    Evolves w.mission w'.mission := by
  cases h with
  | drops hmission => rw [hmission]; exact evolves_refl _
  | works hmission => rw [hmission]; exact evolves_refl _
  | loads => exact evolves_refl _
  | begins => exact evolves_refl _
  | checks => exact evolves_refl _
  | loses => exact evolves_refl _
  | saves hfrom hsave => exact (save_copy (hp _ hfrom) hsave).1
  | resolves => exact evolves_refl _
  | executes => exact evolves_refl _

theorem copied_of_not_held {r : Row Props} (h : p'.held = none) : Copied r p' := by
  intro m hm
  rw [h] at hm
  cases hm

theorem copied_of_held {r : Row Props} {m : Mission} (h : p'.held = some m)
    (hm : Copy id (fun _ => ()) r m) : Copied r p' := by
  intro m' hm'
  obtain rfl : m = m' := Option.some.inj (h.symm.trans hm')
  exact hm

theorem Effect.copied (h : Effect i w p w' p') (hp : Copied w.mission p) :
    Copied w'.mission p' := by
  cases h with
  | drops _ _ hheld => exact copied_of_not_held hheld
  | works hmission _ hfrom _ hheld hquiet =>
    rw [hmission]
    exact copied_of_held hheld (copy_advances (hp _ hfrom) hquiet)
  | loads hheld hquiet => exact copied_of_held hheld (copy_advances (copy_load w) hquiet)
  | begins hstart =>
    exact copied_of_held rfl (copy_advances (copy_load w) (startTask_ok hstart))
  | checks hcheck =>
    exact copied_of_held rfl (copy_advances (copy_load w) (.of_ok hcheck quiet_complete?))
  | loses => exact copied_of_not_held rfl
  | saves _ _ hheld => exact copied_of_not_held hheld
  | resolves => exact copied_of_not_held rfl
  | executes hheld => exact copied_of_not_held hheld

/-- What every call holds. -/
abbrev EachCopied (c : Interleave.Config World Pc) : Prop :=
  Each (fun _ w p => Copied w.mission p) c

theorem evolves_step {c : Interleave.Config World Pc} (a : Tick Input) (h : EachCopied c) :
    Evolves c.world.mission (c.step next a).world.mission :=
  (effect_next a.call a.input c.world (c.pc a.call)).evolves (h a.call)

theorem copied_step {c : Interleave.Config World Pc} (a : Tick Input) (h : EachCopied c) :
    EachCopied (c.step next a) := by
  refine Each.step h ((effect_next a.call a.input c.world (c.pc a.call)).copied (h a.call)) ?_
  intro j q _ hq m hm
  exact (hq m hm).evolve (evolves_step a h)

end

end VegaRevenue.MissionExecution
