import VegaRevenue.Domain.Mission
import VegaRevenue.Lib.Interleave
import VegaRevenue.MissionOrchestrator.ApprovalService

/-!
# Starting a mission

Any number of calls that start one mission, interleaved: each loads it, moves it to PLANNING, saves
it, publishes its events and starts the workflow.

* `next` — one step of a call
* `restartable_iff` — the calls start and report the mission as they should iff none of them finds
  it running before a workflow was started
* `not_restartable_after_failure` — after a start that failed, the next call reports it as running
-/

namespace VegaRevenue.StartMission

open Interleave Versioned
open Mission (Props Status canTransition)
open ApprovalService (WorkflowIdFactory.forMission)

structure StartMissionCommand where
  missionId : String

structure Call where
  ctx : Context
  cmd : StartMissionCommand

/-- What is observed: the attempts to start the workflow, and how the calls end that get past their
load, with the stored status at the time. -/
inductive Entry where
  | attempted (call : Nat) (workflowId : String) (started : Bool)
  | returned (call : Nat) (workflowId : String) (status : Status)
  | refused (call : Nat) (message : String)
deriving DecidableEq

/-- The stored mission, and what was observed, the latest first. -/
structure World where
  mission : Row Props
  log : List Entry := []

structure Input where
  now : Date
  /-- The operation that is awaited throws and does nothing. -/
  fault : Option String := none
  /-- It does what it has to, then throws. -/
  unanswered : Option String := none

/-- What a call waits for. -/
inductive Pc where
  | load (call : Call)
  | save (call : Call) (mission : Mission)
  | publish (call : Call)
  | start (call : Call)
  | returned
  | threw (message : String)

/-- `findById`. -/
def findById (row : Row Props) (ctx : Context) (missionId : String) : Option Mission :=
  let p := row.payload
  if ctx.workspaceId ≠ "" ∧ p.workspaceBindingState = .workspaceBound ∧
      p.workspaceId = some ctx.workspaceId ∧ p.tenantId = ctx.tenantId ∧ p.id = missionId then
    some (.reconstitute p row.version)
  else none

def Call.workflowId (call : Call) : String :=
  WorkflowIdFactory.forMission call.ctx.tenantId call.cmd.missionId

def alreadyRunning (status : Status) : Bool := status = .planning || status = .executing

/-- What `startMission` does with what it loaded. -/
def startLoaded (i : Nat) (call : Call) (now : Date) (w : World) : World × Pc :=
  match findById w.mission call.ctx call.cmd.missionId with
  | none => (w, .threw ("Mission " ++ call.cmd.missionId ++ " not found"))
  | some mission =>
    if alreadyRunning mission.state.status then
      ({ w with log := .returned i call.workflowId mission.state.status :: w.log }, .returned)
    else
      match mission.start now with
      | (mission, .ok) => (w, .save call mission)
      | (_, .fail message) | (_, .threw message) =>
        let text := "Cannot start mission: " ++ message
        ({ w with log := .refused i text :: w.log }, .threw text)

/-- One step that is not refused at once. -/
def proceed (i : Nat) (input : Input) (w : World) : Pc → World × Pc
  | .load call => startLoaded i call input.now w
  | .save call mission =>
    match w.mission.swap mission with
    | none => (w, .threw "Concurrency conflict")
    | some row =>
      ({ w with mission := row },
        match input.unanswered with
        | some message => .threw message
        | none => .publish call)
  | .publish call =>
    (w, match input.unanswered with
      | some message => .threw message
      | none => .start call)
  | .start call =>
    let log := .attempted i call.workflowId true :: w.log
    match input.unanswered with
    | some message => ({ w with log }, .threw message)
    | none =>
      ({ w with log := .returned i call.workflowId w.mission.payload.status :: log }, .returned)
  | p => (w, p)

/-- A step whose operation throws and does nothing. -/
def fail (i : Nat) (message : String) (w : World) : Pc → World × Pc
  | .start call =>
    ({ w with log := .attempted i call.workflowId false :: w.log }, .threw message)
  | .returned => (w, .returned)
  | .threw message => (w, .threw message)
  | _ => (w, .threw message)

def next : Stepper World Pc Input := fun i input w p =>
  match input.fault with
  | some message => fail i message w p
  | none => proceed i input w p

/-- Nothing has run yet. -/
def init (mission : Row Props) (calls : Nat → Call) : Interleave.Config World Pc :=
  ⟨{ mission }, fun i => .load (calls i)⟩

/-! ## The law -/

/-- A workflow was started. -/
def Started (log : List Entry) : Prop := ∃ i workflowId, .attempted i workflowId true ∈ log

instance (log : List Entry) : Decidable (Started log) :=
  decidable_of_iff (log.any fun e => match e with | .attempted _ _ started => started | _ => false)
    (by
      rw [List.any_eq_true]
      constructor
      · rintro ⟨e, he, h⟩
        cases e with
        | attempted i workflowId started =>
          cases started with
          | true => exact ⟨i, workflowId, he⟩
          | false => cases h
        | returned i workflowId status => cases h
        | refused i message => cases h
      · rintro ⟨i, workflowId, he⟩
        exact ⟨_, he, rfl⟩)

/-- A call reports success only when a workflow was started and the mission is past its approval;
and before that, no call that loaded the mission ends without an attempt to start it. -/
def Restartable : List Entry → Prop
  | [] => True
  | .attempted _ _ _ :: log => Restartable log
  | .returned _ _ status :: log =>
    Started log ∧ status ≠ .draft ∧ status ≠ .approved ∧ Restartable log
  | .refused _ _ :: log => Started log ∧ Restartable log

/-- A call finds the mission running before any workflow was started. -/
def FindsUnstarted (c : Interleave.Config World Pc) (a : Tick Input) : Prop :=
  match c.pc a.call with
  | .load call =>
    a.input.fault = none ∧ (findById c.world.mission call.ctx call.cmd.missionId).isSome = true ∧
      alreadyRunning c.world.mission.payload.status = true ∧ ¬ Started c.world.log
  | _ => False

instance (c : Interleave.Config World Pc) (a : Tick Input) : Decidable (FindsUnstarted c a) := by
  unfold FindsUnstarted
  cases c.pc a.call <;> infer_instance

/-! ## What the calls know -/

/-- The mission can be started, or it was. -/
def Startable (status : Status) : Prop := canTransition status .planning = true ∨ status = .planning

/-- A call saves PLANNING, and finds it stored after its save. -/
def Knows (_ : Nat) (w : World) : Pc → Prop
  | .save _ mission => mission.state.status = .planning
  | .publish _ | .start _ => w.mission.payload.status = .planning
  | _ => True

structure Inv (c : Interleave.Config World Pc) : Prop where
  startable : Startable c.world.mission.payload.status
  knows : Each Knows c

theorem findById_some {row : Row Props} {ctx : Context} {missionId : String} {m : Mission}
    (h : findById row ctx missionId = some m) : m = .reconstitute row.payload row.version := by
  unfold findById at h
  dsimp only at h
  split at h
  · exact (Option.some.inj h).symm
  · cases h

theorem start_ok {m : Mission} (h : canTransition m.state.status .planning = true) (now : Date) :
    ∃ m', m.start now = (m', .ok) ∧ m'.state.status = .planning := by
  unfold Mission.start Mission.transitionTo
  rw [if_pos h]
  exact ⟨_, rfl, rfl⟩

/-- A startable mission that is not running is started. -/
theorem Startable.canTransition {status : Status} (h : Startable status)
    (hnot : alreadyRunning status = false) : Mission.canTransition status .planning = true := by
  rcases h with h | rfl
  · exact h
  · cases hnot

/-- What a step does to the world, and where the call goes. -/
inductive Effect (i : Nat) (input : Input) (w : World) (p : Pc) : World × Pc → Prop where
  | silent {p' : Pc} (hquiet : ∀ call, p = .load call → input.fault = none →
        (findById w.mission call.ctx call.cmd.missionId).isSome = true →
          alreadyRunning w.mission.payload.status = false)
      (hp' : Knows i w p') : Effect i input w p (w, p')
  | reports (call : Call) (hp : p = .load call) (hfault : input.fault = none)
      (hfound : (findById w.mission call.ctx call.cmd.missionId).isSome = true)
      (hrunning : alreadyRunning w.mission.payload.status = true) :
      Effect i input w p
        ({ w with log := .returned i call.workflowId w.mission.payload.status :: w.log }, .returned)
  | saves (call : Call) (mission : Mission) (hp : p = .save call mission) (row : Row Props)
      (hrow : w.mission.swap mission = some row) {p' : Pc}
      (hp' : Knows i { w with mission := row } p') : Effect i input w p ({ w with mission := row }, p')
  | attempts (call : Call) (hp : p = .start call) (started : Bool) (message : String) :
      Effect i input w p
        ({ w with log := .attempted i call.workflowId started :: w.log }, .threw message)
  | starts (call : Call) (hp : p = .start call) :
      Effect i input w p ({ w with
        log := .returned i call.workflowId w.mission.payload.status ::
          .attempted i call.workflowId true :: w.log }, .returned)

theorem swap_some {row row' : Row Props} {m : Mission} (h : row.swap m = some row') :
    row' = ⟨m.state, m.version⟩ := by
  unfold Row.swap at h
  split at h
  · exact (Option.some.inj h).symm
  · cases h

theorem effect_startLoaded {i : Nat} {input : Input} {w : World} (call : Call)
    (hfault : input.fault = none) (hstartable : Startable w.mission.payload.status) :
    Effect i input w (.load call) (startLoaded i call input.now w) := by
  unfold startLoaded
  cases hfind : findById w.mission call.ctx call.cmd.missionId with
  | none =>
    refine .silent (fun call' hcall _ hsome => ?_) trivial
    cases hcall
    rw [hfind] at hsome
    cases hsome
  | some mission =>
    obtain rfl := findById_some hfind
    dsimp only
    cases hrunning : alreadyRunning w.mission.payload.status with
    | true =>
      rw [if_pos (by exact hrunning)]
      exact .reports call rfl hfault (by rw [hfind]; rfl) hrunning
    | false =>
      obtain ⟨m', hm', hstatus⟩ := start_ok (m := .reconstitute w.mission.payload w.mission.version)
        (hstartable.canTransition hrunning) input.now
      split
      next hyes => cases hrunning.symm.trans hyes
      · rw [hm']
        exact .silent (fun _ _ _ _ => hrunning) hstatus

theorem effect_next {c : Interleave.Config World Pc} (h : Inv c) (a : Tick Input) :
    Effect a.call a.input c.world (c.pc a.call)
      (next a.call a.input c.world (c.pc a.call)) := by
  have hknows := h.knows a.call
  unfold next
  cases hfault : a.input.fault with
  | some message =>
    have hquiet : ∀ call, c.pc a.call = .load call → a.input.fault = none →
        (findById c.world.mission call.ctx call.cmd.missionId).isSome = true →
          alreadyRunning c.world.mission.payload.status = false := by
      intro call _ hnone
      rw [hfault] at hnone
      cases hnone
    cases hp : c.pc a.call with
    | start call => exact .attempts call rfl false message
    | load call => exact .silent (hp ▸ hquiet) trivial
    | save call mission => exact .silent (hp ▸ hquiet) trivial
    | publish call => exact .silent (hp ▸ hquiet) trivial
    | returned => exact .silent (hp ▸ hquiet) trivial
    | threw message => exact .silent (hp ▸ hquiet) trivial
  | none =>
    cases hp : c.pc a.call with
    | load call => exact effect_startLoaded call hfault h.startable
    | save call mission =>
      rw [hp] at hknows
      simp only [proceed]
      split
      · exact .silent (by simp) trivial
      next row hrow =>
        refine .saves call mission rfl row hrow ?_
        obtain rfl := swap_some hrow
        cases a.input.unanswered with
        | some message => trivial
        | none => exact hknows
    | publish call =>
      rw [hp] at hknows
      refine .silent (by simp) ?_
      cases a.input.unanswered with
      | some message => trivial
      | none => exact hknows
    | start call =>
      simp only [proceed]
      cases a.input.unanswered with
      | some message => exact .attempts call rfl true message
      | none => exact .starts call rfl
    | returned => exact .silent (by simp) trivial
    | threw message => exact .silent (by simp) trivial

theorem Knows.of_status {i : Nat} {w w' : World} {p : Pc} (h : Knows i w p)
    (hstatus : w'.mission.payload.status = w.mission.payload.status ∨
      w'.mission.payload.status = .planning) : Knows i w' p := by
  cases p with
  | save call mission => exact h
  | publish call =>
    rcases hstatus with heq | heq
    · exact heq.trans h
    · exact heq
  | start call =>
    rcases hstatus with heq | heq
    · exact heq.trans h
    · exact heq
  | load call => trivial
  | returned => trivial
  | threw message => trivial

/-- The stored status stays or becomes PLANNING. -/
theorem Effect.status {i : Nat} {input : Input} {w : World} {p : Pc} {r : World × Pc}
    (h : Effect i input w p r) (hknows : Knows i w p) :
    r.1.mission.payload.status = w.mission.payload.status ∨
      r.1.mission.payload.status = .planning := by
  cases h with
  | saves call mission hp row hrow hp' =>
    subst hp
    obtain rfl := swap_some hrow
    exact .inr hknows
  | _ => exact .inl rfl

theorem Effect.knows {i : Nat} {input : Input} {w : World} {p : Pc} {r : World × Pc}
    (h : Effect i input w p r) : Knows i r.1 r.2 := by
  cases h with
  | silent hquiet hp' => exact hp'
  | saves call mission hp row hrow hp' => exact hp'
  | reports call hp hfault hfound hrunning => trivial
  | attempts call hp started message => trivial
  | starts call hp => trivial

theorem inv_step {c : Interleave.Config World Pc} (h : Inv c) (a : Tick Input) :
    Inv (c.step next a) := by
  have heffect := effect_next h a
  have hstatus := heffect.status (h.knows a.call)
  refine ⟨?_, h.knows.step heffect.knows fun j p _ hp => hp.of_status hstatus⟩
  rw [Config.step_world]
  rcases hstatus with heq | heq
  · rw [heq]
    exact h.startable
  · exact .inr heq

/-! ## Runs -/

theorem not_findsUnstarted {c : Interleave.Config World Pc} {a : Tick Input}
    (h : ∀ call, c.pc a.call = .load call → a.input.fault = none →
      (findById c.world.mission call.ctx call.cmd.missionId).isSome = true →
        alreadyRunning c.world.mission.payload.status = false) : ¬ FindsUnstarted c a := by
  unfold FindsUnstarted
  split
  next call hp =>
    rintro ⟨hfault, hfound, hrunning, -⟩
    rw [h call hp hfault hfound] at hrunning
    cases hrunning
  · exact not_false

/-- **A step keeps the law iff its call does not find the mission running before any workflow was
started.** -/
theorem restartable_step {c : Interleave.Config World Pc} (hinv : Inv c) (a : Tick Input) :
    Restartable (c.step next a).world.log ↔
      Restartable c.world.log ∧ ¬ FindsUnstarted c a := by
  have heffect := effect_next hinv a
  have hknows := hinv.knows a.call
  rw [Config.step_world]
  generalize next a.call a.input c.world (c.pc a.call) = r at heffect
  cases heffect with
  | silent hquiet hp' => simp [not_findsUnstarted hquiet]
  | reports call hp hfault hfound hrunning =>
    have hpast : c.world.mission.payload.status ≠ .draft ∧
        c.world.mission.payload.status ≠ .approved := by
      constructor
      · intro h
        rw [h] at hrunning
        cases hrunning
      · intro h
        rw [h] at hrunning
        cases hrunning
    have hfinds : FindsUnstarted c a ↔ ¬ Started c.world.log := by
      unfold FindsUnstarted
      rw [hp]
      simp [hfault, hfound, hrunning]
    rw [Restartable, hfinds, not_not]
    exact ⟨fun h => ⟨h.2.2.2, h.1⟩, fun h => ⟨h.2, hpast.1, hpast.2, h.1⟩⟩
  | saves call mission hp row hrow hp' =>
    simp [not_findsUnstarted (c := c) (a := a) fun _ hp' => by simp [hp] at hp']
  | attempts call hp started message =>
    simp [Restartable, not_findsUnstarted (c := c) (a := a) fun _ hp' => by simp [hp] at hp']
  | starts call hp =>
    rw [hp] at hknows
    have hplanning : c.world.mission.payload.status = .planning := hknows
    have hstarted : Started (.attempted a.call call.workflowId true :: c.world.log) :=
      ⟨a.call, call.workflowId, List.mem_cons_self⟩
    simp [Restartable, hplanning, hstarted,
      not_findsUnstarted (c := c) (a := a) fun _ hp' => by simp [hp] at hp']

theorem restartable_run (s : List (Tick Input)) {c : Interleave.Config World Pc} (hinv : Inv c) :
    Restartable (run next c s).world.log ↔
      Restartable c.world.log ∧ Meets next (fun c a => ¬ FindsUnstarted c a) c s := by
  induction s generalizing c with
  | nil => simp [Meets]
  | cons a s ih => rw [run_cons, Meets, ih (inv_step hinv a), restartable_step hinv, and_assoc]

/-- **In every run of any calls on a mission that can be started, the calls start and report it as
they should iff none of them finds it running before a workflow was started.** -/
theorem restartable_iff (mission : Row Props)
    (hstartable : canTransition mission.payload.status .planning = true) (calls : Nat → Call)
    (s : List (Tick Input)) :
    Restartable (run next (init mission calls) s).world.log ↔
      Meets next (fun c a => ¬ FindsUnstarted c a) (init mission calls) s := by
  have hinv : Inv (init mission calls) := ⟨.inl hstartable, fun _ => trivial⟩
  rw [restartable_run s hinv]
  exact and_iff_right trivial

/-! ## A start that fails -/

/-- An approved mission. -/
def approvedMission : Row Props := ⟨{ Mission.sampleMission with status := .approved }, 1⟩

def startCall : Call := ⟨⟨"tenant", "workspace"⟩, ⟨"mission"⟩⟩

/-- One call from its load to its end, with a fault at the start of the workflow or none. -/
def wholeCall (i : Nat) (fault : Option String) : List (Tick Input) :=
  List.replicate 3 ⟨i, { now := 1 }⟩ ++ [⟨i, { now := 1, fault }⟩]

/-- A second call after a start that went through finds the mission running. -/
theorem restartable_started :
    Restartable (run next (init approvedMission fun _ => startCall)
      (wholeCall 0 none ++ [⟨1, { now := 2 }⟩])).world.log :=
  (restartable_iff approvedMission (by decide) _ _).mpr (by decide +kernel)

/-- **After a start that failed, the next call reports the mission as running.** -/
theorem not_restartable_after_failure :
    let c := run next (init approvedMission fun _ => startCall)
      (wholeCall 0 (some "Temporal is unavailable") ++ [⟨1, { now := 2 }⟩])
    c.world.log = [.returned 1 "mission-v1-tenant-mission" .planning,
      .attempted 0 "mission-v1-tenant-mission" false] ∧ ¬ Restartable c.world.log := by
  refine ⟨by decide +kernel, fun h => ?_⟩
  have hinv : Inv (init approvedMission fun _ => startCall) :=
    ⟨.inl (by decide), fun _ => trivial⟩
  exact absurd ((restartable_run _ hinv).mp h).2 (by decide +kernel)

end VegaRevenue.StartMission
