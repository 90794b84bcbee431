import VegaRevenue.Lib.Interleave

/-!
# The command executor

Any number of idempotent calls with one tenant, scope and idempotency key, interleaved: each asks
the store, runs the handler where nothing is stored, publishes the events, stores the outcome and
writes the audit log.

* `next` — one step of a call
* `onceOnly_iff` — the handler completes once and all calls return what it returned iff no handler
  completes beside another call that is past its own
* `not_onceOnly_after_publish_failure` — after a publication that failed, the handler runs again
-/

namespace VegaRevenue.CommandExecutor

open Interleave

variable {α : Type*}

structure CommandOutcome (α : Type*) where
  value : α
  domainEvents : List String
  resourceType : String
  resourceId : String
deriving DecidableEq

structure CommandExecutorOptions where
  auditAction : Option String := none
  telemetryName : Option String := none

structure Call where
  /-- `handler.constructor.name`. -/
  handlerName : String
  options : CommandExecutorOptions := {}

/-- The action of the audit entry. -/
def Call.action (call : Call) : String :=
  call.options.auditAction.getD (call.options.telemetryName.getD ("command." ++ call.handlerName))

/-- `Result<CommandOutcome<T>, DomainError>`, the error by its code. -/
inductive CommandResult (α : Type*) where
  | success (outcome : CommandOutcome α)
  | failure (code : String)

structure AuditEntry where
  action : String
  resourceType : String
  resourceId : String
  result : String
  reason : Option String
deriving DecidableEq

def auditEntry (call : Call) : CommandResult α → AuditEntry
  | .success outcome => ⟨call.action, outcome.resourceType, outcome.resourceId, "success", none⟩
  | .failure code => ⟨call.action, "command", "unknown", "denied", some code⟩

/-- What the calls did. -/
inductive Entry (α : Type*) where
  | completed (call : Nat) (outcome : CommandOutcome α)
  | published (call : Nat) (domainEvents : List String)
  | audited (call : Nat) (entry : AuditEntry)
  | returned (call : Nat) (outcome : CommandOutcome α)
deriving DecidableEq

/-- What is stored under the key, and what the calls did, the latest first. -/
structure World (α : Type*) where
  record : Option (CommandOutcome α) := none
  log : List (Entry α) := []

/-- What the environment hands a step. -/
structure Input (α : Type*) where
  /-- What the handler answers, `none` where it throws. -/
  answer : Option (CommandResult α) := none
  /-- The operation that is awaited throws and does nothing. -/
  fault : Bool := false
  /-- It does what it has to, then throws. -/
  unanswered : Bool := false

/-- What a call waits for. -/
inductive Pc (α : Type*) where
  | get
  | handle
  | publish (outcome : CommandOutcome α)
  | set (outcome : CommandOutcome α)
  | audit (result : CommandResult α)
  | returned
  /-- `lost`: the handler had completed, and nothing was stored. -/
  | threw (lost : Bool)

/-- The handler of the call has completed, and the call has stored nothing. -/
def Pc.past : Pc α → Bool
  | publish _ | set _ => true
  | threw lost => lost
  | _ => false

/-- One step whose operation does what it has to. `readBack` is what the store gives back of a
result: the result itself, or what JSON makes of it. -/
def proceed (readBack : CommandOutcome α → CommandOutcome α) (call : Call) (i : Nat)
    (input : Input α) (w : World α) : Pc α → World α × Pc α
  | .get =>
    match w.record with
    | some outcome => ({ w with log := .returned i (readBack outcome) :: w.log }, .returned)
    | none => (w, .handle)
  | .handle =>
    match input.answer with
    | none => (w, .threw false)
    | some (.failure code) => (w, .audit (.failure code))
    | some (.success outcome) =>
      ({ w with log := .completed i outcome :: w.log }, .publish outcome)
  | .publish outcome =>
    ({ w with log := .published i outcome.domainEvents :: w.log }, .set outcome)
  | .set outcome => ({ w with record := some outcome }, .audit (.success outcome))
  | .audit result =>
    let log := .audited i (auditEntry call result) :: w.log
    match result with
    | .success outcome => ({ w with log := .returned i outcome :: log }, .returned)
    | .failure _ => ({ w with log }, .returned)
  | p => (w, p)

/-- The step whose operation does what it has to, then throws: nothing is answered. -/
def throwAfter (call : Call) (i : Nat) (w : World α) : Pc α → World α × Pc α
  | .publish outcome =>
    ({ w with log := .published i outcome.domainEvents :: w.log }, .threw true)
  | .set outcome => ({ w with record := some outcome }, .threw false)
  | .audit result => ({ w with log := .audited i (auditEntry call result) :: w.log }, .threw false)
  | .get => (w, .threw false)
  | .handle => (w, .threw false)
  | p => (w, p)

/-- The step whose operation throws and does nothing. -/
def throwBefore (w : World α) : Pc α → World α × Pc α
  | .returned => (w, .returned)
  | p => (w, .threw p.past)

def next (readBack : CommandOutcome α → CommandOutcome α) (calls : Nat → Call) :
    Stepper (World α) (Pc α) (Input α) := fun i input w p =>
  if input.fault then throwBefore w p
  else if input.unanswered then throwAfter (calls i) i w p
  else proceed readBack (calls i) i input w p

/-- Nothing is stored, and nothing has run yet. -/
def start : Interleave.Config (World α) (Pc α) := ⟨{}, fun _ => .get⟩

/-! ## The law -/

/-- The completions of the handler. -/
def completions : List (Entry α) → List (CommandOutcome α)
  | [] => []
  | .completed _ outcome :: log => outcome :: completions log
  | _ :: log => completions log

/-- The handler completed at most once, and every success is its result. -/
structure OnceOnly (readBack : CommandOutcome α → CommandOutcome α) (log : List (Entry α)) :
    Prop where
  once : (completions log).length ≤ 1
  results : ∀ i outcome, .returned i outcome ∈ log →
    ∃ result ∈ completions log, outcome = result ∨ outcome = readBack result

/-- A handler that completes does so while nothing is stored under the key, and no other call is
past its handler: on its way to the store, or failed before it. -/
def Undisturbed (c : Interleave.Config (World α) (Pc α)) (a : Tick (Input α)) : Prop :=
  match c.pc a.call, a.input.answer with
  | .handle, some (.success _) =>
    a.input.fault = false → a.input.unanswered = false →
      c.world.record = none ∧ ∀ j, (c.pc j).past = false
  | _, _ => True

/-! ## What a step does -/

section

variable {readBack : CommandOutcome α → CommandOutcome α} {calls : Nat → Call}

/-- The outcome of the handler that the call holds. -/
def Pc.held : Pc α → Option (CommandOutcome α)
  | publish outcome | set outcome | audit (.success outcome) => some outcome
  | _ => none

/-- Nothing completed or returned a success since `log`. -/
structure Silent (log' log : List (Entry α)) : Prop where
  completions : completions log' = completions log
  returned : ∀ j outcome, Entry.returned j outcome ∈ log' → Entry.returned j outcome ∈ log

theorem Silent.refl (log : List (Entry α)) : Silent log log := ⟨rfl, fun _ _ h => h⟩

theorem Silent.published (i : Nat) (events : List String) (log : List (Entry α)) :
    Silent (.published i events :: log) log := by
  refine ⟨rfl, fun j outcome h => ?_⟩
  simpa using h

theorem Silent.audited (i : Nat) (entry : AuditEntry) (log : List (Entry α)) :
    Silent (.audited i entry :: log) log := by
  refine ⟨rfl, fun j outcome h => ?_⟩
  simpa using h

/-- What a step does to the record, the completions and the results, and where the call goes. -/
inductive Effect (readBack : CommandOutcome α → CommandOutcome α) (i : Nat) (input : Input α)
    (w : World α) (p : Pc α) : World α × Pc α → Prop where
  | quiet (log : List (Entry α)) (p' : Pc α) (silent : Silent log w.log) (past : p'.past = p.past)
      (held : ∀ outcome, p'.held = some outcome → p.held = some outcome)
      (answer : p = .handle → input.fault = true ∨ input.unanswered = true ∨
        ∀ outcome, input.answer ≠ some (.success outcome)) :
      Effect readBack i input w p ({ w with log }, p')
  | completes (outcome : CommandOutcome α) (hp : p = .handle) (hfault : input.fault = false)
      (hunanswered : input.unanswered = false) (hanswer : input.answer = some (.success outcome)) :
      Effect readBack i input w p
        ({ w with log := .completed i outcome :: w.log }, .publish outcome)
  | stores (outcome : CommandOutcome α) (p' : Pc α) (hp : p = .set outcome)
      (past : p'.past = false) (held : ∀ o, p'.held = some o → o = outcome) :
      Effect readBack i input w p ({ w with record := some outcome }, p')
  | returns (outcome : CommandOutcome α) (log : List (Entry α)) (hp : p ≠ .handle)
      (past : p.past = false) (silent : Silent log w.log)
      (source : p.held = some outcome ∨ ∃ r, w.record = some r ∧ outcome = readBack r) :
      Effect readBack i input w p ({ w with log := .returned i outcome :: log }, .returned)

theorem effect_throwBefore {i : Nat} {input : Input α} {w : World α} {p : Pc α}
    (hfault : input.fault = true) : Effect readBack i input w p (throwBefore w p) := by
  unfold throwBefore
  split
  · exact .quiet w.log _ (.refl _) rfl (by simp) fun _ => .inl hfault
  · exact .quiet w.log _ (.refl _) rfl (by simp [Pc.held]) fun _ => .inl hfault

theorem effect_throwAfter {call : Call} {i : Nat} {input : Input α} {w : World α} {p : Pc α}
    (hunanswered : input.unanswered = true) :
    Effect readBack i input w p (throwAfter call i w p) := by
  have hanswer : p = .handle → input.fault = true ∨ input.unanswered = true ∨
      ∀ outcome, input.answer ≠ some (.success outcome) := fun _ => .inr (.inl hunanswered)
  cases p with
  | get => exact .quiet w.log _ (.refl _) rfl (by simp [Pc.held]) hanswer
  | handle => exact .quiet w.log _ (.refl _) rfl (by simp [Pc.held]) hanswer
  | publish outcome =>
    exact .quiet _ _ (.published i outcome.domainEvents w.log) rfl (by simp [Pc.held]) hanswer
  | set outcome => exact .stores outcome _ rfl rfl (by simp [Pc.held])
  | audit result => exact .quiet _ _ (.audited i _ w.log) rfl (by simp [Pc.held]) hanswer
  | returned => exact .quiet w.log _ (.refl _) rfl (by simp) hanswer
  | threw lost => exact .quiet w.log _ (.refl _) rfl (by simp) hanswer

theorem effect_proceed {call : Call} {i : Nat} {input : Input α} {w : World α} {p : Pc α}
    (hfault : input.fault = false) (hunanswered : input.unanswered = false) :
    Effect readBack i input w p (proceed readBack call i input w p) := by
  cases p with
  | get =>
    simp only [proceed]
    split
    next r hr =>
      refine .returns (readBack r) w.log ?_ ?_ (.refl _) (.inr ⟨r, hr, rfl⟩)
      · simp
      · rfl
    · exact .quiet w.log _ (.refl _) rfl (by simp [Pc.held]) (by simp)
  | handle =>
    simp only [proceed]
    cases hanswer : input.answer with
    | none => exact .quiet w.log _ (.refl _) rfl (by simp [Pc.held]) (by simp [hanswer])
    | some result =>
      cases result with
      | success outcome => exact .completes outcome rfl hfault hunanswered hanswer
      | failure code =>
        exact .quiet w.log _ (.refl _) rfl (by simp [Pc.held]) (by simp [hanswer])
  | publish outcome =>
    exact .quiet _ _ (.published i outcome.domainEvents w.log) rfl (by simp [Pc.held]) (by simp)
  | set outcome => exact .stores outcome _ rfl rfl (by simp [Pc.held])
  | audit result =>
    cases result with
    | success outcome =>
      exact .returns outcome _ (by simp) rfl (.audited i _ w.log) (.inl rfl)
    | failure code =>
      exact .quiet _ _ (.audited i _ w.log) rfl (by simp [Pc.held]) (by simp)
  | returned => exact .quiet w.log _ (.refl _) rfl (by simp) (by simp)
  | threw lost => exact .quiet w.log _ (.refl _) rfl (by simp) (by simp)

variable (readBack calls) in
theorem effect_next (i : Nat) (input : Input α) (w : World α) (p : Pc α) :
    Effect readBack i input w p (next readBack calls i input w p) := by
  unfold next
  cases hfault : input.fault with
  | true => exact effect_throwBefore hfault
  | false =>
    cases hunanswered : input.unanswered with
    | true => exact effect_throwAfter hunanswered
    | false => exact effect_proceed hfault hunanswered

/-! ## Where the completions are -/

/-- A completion is stored under the key, or with a call that is past its handler. -/
structure Inv (readBack : CommandOutcome α → CommandOutcome α)
    (c : Interleave.Config (World α) (Pc α)) : Prop where
  record : ∀ outcome, c.world.record = some outcome → outcome ∈ completions c.world.log
  held : ∀ j outcome, (c.pc j).held = some outcome → outcome ∈ completions c.world.log
  past : ∀ j, (c.pc j).past = true → completions c.world.log ≠ []
  source : completions c.world.log ≠ [] →
    c.world.record.isSome = true ∨ ∃ j, (c.pc j).past = true
  results : ∀ i outcome, .returned i outcome ∈ c.world.log →
    ∃ result ∈ completions c.world.log, outcome = result ∨ outcome = readBack result

/-- Nothing has completed iff nothing is stored and no call is past its handler. -/
theorem Inv.completions_eq_nil {c : Interleave.Config (World α) (Pc α)} (h : Inv readBack c) :
    completions c.world.log = [] ↔
      c.world.record = none ∧ ∀ j, (c.pc j).past = false := by
  constructor
  · intro hnil
    constructor
    · cases hr : c.world.record with
      | none => rfl
      | some outcome =>
        have hmem := h.record outcome hr
        rw [hnil] at hmem
        cases hmem
    · intro j
      cases hpast : (c.pc j).past with
      | false => rfl
      | true => exact absurd hnil (h.past j hpast)
  · rintro ⟨hrecord, hpast⟩
    by_contra hne
    rcases h.source hne with hsome | ⟨j, hj⟩
    · rw [hrecord] at hsome
      cases hsome
    · rw [hpast j] at hj
      cases hj

/-! ## One step -/

/-- A step that leaves its call past its handler, or not, leaves all calls so. -/
theorem past_step {f : Stepper (World α) (Pc α) (Input α)}
    {c : Interleave.Config (World α) (Pc α)} {a : Tick (Input α)}
    (hpast : (f a.call a.input c.world (c.pc a.call)).2.past = (c.pc a.call).past) (j : Nat) :
    ((c.step f a).pc j).past = (c.pc j).past := by
  by_cases hj : j = a.call
  · subst hj
    rw [Config.step_pc_self]
    exact hpast
  · rw [Config.step_pc_ne f c hj]

/-- The outcomes held after a step were held before, or are the mover's. -/
theorem held_step {f : Stepper (World α) (Pc α) (Input α)}
    {c : Interleave.Config (World α) (Pc α)} {a : Tick (Input α)} {P : CommandOutcome α → Prop}
    (hothers : ∀ j outcome, (c.pc j).held = some outcome → P outcome)
    (hmover : ∀ outcome, (f a.call a.input c.world (c.pc a.call)).2.held = some outcome → P outcome)
    (j : Nat) (outcome : CommandOutcome α) (h : ((c.step f a).pc j).held = some outcome) :
    P outcome := by
  by_cases hj : j = a.call
  · subst hj
    rw [Config.step_pc_self] at h
    exact hmover outcome h
  · rw [Config.step_pc_ne f c hj] at h
    exact hothers j outcome h

theorem inv_step {c : Interleave.Config (World α) (Pc α)} (h : Inv readBack c)
    (a : Tick (Input α)) : Inv readBack (c.step (next readBack calls) a) := by
  have heffect := effect_next readBack calls a.call a.input c.world (c.pc a.call)
  have hheld := fun P => held_step (f := next readBack calls) (c := c) (a := a) (P := P)
  have hpast := past_step (f := next readBack calls) (c := c) (a := a)
  have hself := Config.step_pc_self (next readBack calls) c a
  have hworld := Config.step_world (next readBack calls) c a
  generalize next readBack calls a.call a.input c.world (c.pc a.call) = r at *
  cases heffect with
  | quiet log p' silent past held answer =>
    have hsame := hpast past
    refine ⟨?_, ?_, ?_, ?_, ?_⟩ <;> rw [hworld] <;> dsimp only
    · rw [silent.completions]
      exact h.record
    · rw [silent.completions]
      exact hheld _ h.held fun outcome ho => h.held a.call outcome (held outcome ho)
    · intro j hj
      rw [silent.completions]
      exact h.past j ((hsame j).symm.trans hj)
    · rw [silent.completions]
      intro hne
      rcases h.source hne with hsome | ⟨j, hj⟩
      · exact .inl hsome
      · exact .inr ⟨j, (hsame j).trans hj⟩
    · rw [silent.completions]
      exact fun i outcome hmem => h.results i outcome (silent.returned i outcome hmem)
  | completes outcome hp hfault hunanswered hanswer =>
    refine ⟨?_, ?_, ?_, ?_, ?_⟩ <;> rw [hworld] <;> dsimp only [completions]
    · exact fun o ho => List.mem_cons_of_mem _ (h.record o ho)
    · refine hheld _ (fun j o ho => List.mem_cons_of_mem _ (h.held j o ho)) fun o ho => ?_
      obtain rfl := Option.some.inj ho
      exact List.mem_cons_self
    · exact fun j _ => List.cons_ne_nil _ _
    · exact fun _ => .inr ⟨a.call, by rw [hself]; rfl⟩
    · intro i o hmem
      rcases List.mem_cons.mp hmem with he | hmem
      · cases he
      · obtain ⟨result, hresult, heq⟩ := h.results i o hmem
        exact ⟨result, List.mem_cons_of_mem _ hresult, heq⟩
  | stores outcome p' hp past held =>
    have hmem : outcome ∈ completions c.world.log := h.held a.call outcome (by rw [hp]; rfl)
    refine ⟨?_, ?_, ?_, ?_, ?_⟩ <;> rw [hworld] <;> dsimp only
    · intro o ho
      obtain rfl := Option.some.inj ho
      exact hmem
    · exact hheld _ h.held fun o ho => held o ho ▸ hmem
    · exact fun j _ => List.ne_nil_of_mem hmem
    · exact fun _ => .inl rfl
    · exact h.results
  | returns outcome log hp past silent source =>
    have hsame := hpast past.symm
    refine ⟨?_, ?_, ?_, ?_, ?_⟩ <;> rw [hworld] <;>
      dsimp only [completions] <;> rw [silent.completions]
    · exact h.record
    · exact hheld _ h.held fun o ho => by cases ho
    · exact fun j hj => h.past j ((hsame j).symm.trans hj)
    · intro hne
      rcases h.source hne with hsome | ⟨j, hj⟩
      · exact .inl hsome
      · exact .inr ⟨j, (hsame j).trans hj⟩
    · intro i o hmem
      rcases List.mem_cons.mp hmem with he | hmem
      · cases he
        rcases source with ho | ⟨r, hr, rfl⟩
        · exact ⟨outcome, h.held _ outcome ho, .inl rfl⟩
        · exact ⟨r, h.record r hr, .inr rfl⟩
      · exact h.results i o (silent.returned i o hmem)

/-- **A step completes the handler at most once iff it is undisturbed.** -/
theorem once_step {c : Interleave.Config (World α) (Pc α)} (h : Inv readBack c)
    (a : Tick (Input α)) :
    (completions (c.step (next readBack calls) a).world.log).length ≤ 1 ↔
      (completions c.world.log).length ≤ 1 ∧ Undisturbed c a := by
  have heffect := effect_next readBack calls a.call a.input c.world (c.pc a.call)
  have hnil := h.completions_eq_nil
  rw [Config.step_world]
  generalize next readBack calls a.call a.input c.world (c.pc a.call) = r at heffect
  cases heffect with
  | quiet log p' silent past held answer =>
    have hok : Undisturbed c a := by
      unfold Undisturbed
      split
      next outcome hp hanswer =>
        intro hfault hunanswered
        rcases answer hp with hbad | hbad | hbad
        · rw [hfault] at hbad
          cases hbad
        · rw [hunanswered] at hbad
          cases hbad
        · exact absurd hanswer (hbad outcome)
      · trivial
    rw [silent.completions, and_iff_left hok]
  | completes outcome hp hfault hunanswered hanswer =>
    have hok : Undisturbed c a ↔ completions c.world.log = [] := by
      rw [hnil]
      simp [Undisturbed, hp, hanswer, hfault, hunanswered]
    show (outcome :: completions c.world.log).length ≤ 1 ↔ _
    rw [hok, List.length_cons]
    constructor
    · intro hle
      have hzero : completions c.world.log = [] := List.eq_nil_of_length_eq_zero (by omega)
      exact ⟨by omega, hzero⟩
    · rintro ⟨-, hempty⟩
      rw [hempty]
      exact Nat.le_refl 1
  | stores outcome p' hp past held => simp [Undisturbed, hp]
  | returns outcome log hp past silent source =>
    have hok : Undisturbed c a := by
      unfold Undisturbed
      split
      next hhandle _ => exact absurd hhandle hp
      · trivial
    show (completions log).length ≤ 1 ↔ _
    rw [silent.completions, and_iff_left hok]

theorem once_run (s : List (Tick (Input α))) {c : Interleave.Config (World α) (Pc α)}
    (h : Inv readBack c) :
    (completions (run (next readBack calls) c s).world.log).length ≤ 1 ↔
      (completions c.world.log).length ≤ 1 ∧ Meets (next readBack calls) Undisturbed c s := by
  induction s generalizing c with
  | nil => simp [Meets]
  | cons a s ih => rw [run_cons, Meets, ih (inv_step h a), once_step h, and_assoc]

theorem inv_start : Inv readBack (start : Interleave.Config (World α) (Pc α)) where
  record := nofun
  held := nofun
  past := nofun
  source h := absurd rfl h
  results := nofun

variable (readBack calls) in
/-- **In every run of any number of calls with one key, the handler completes at most once and every
success is its result, iff no handler completes after one whose outcome is stored, is on its way to
the store or was lost on it.** -/
theorem onceOnly_iff (s : List (Tick (Input α))) :
    OnceOnly readBack (run (next readBack calls) start s).world.log ↔
      Meets (next readBack calls) Undisturbed start s := by
  have hstep : ∀ (c : Interleave.Config (World α) (Pc α)) a, Inv readBack c →
      Inv readBack (c.step (next readBack calls) a) := fun c a h => inv_step h a
  have hinv : Inv readBack (run (next readBack calls) start s) := run_invariant hstep inv_start
  have hstart : Inv readBack (start : Interleave.Config (World α) (Pc α)) := inv_start
  have honce : (completions (run (next readBack calls) start s).world.log).length ≤ 1 ↔ _ :=
    once_run s hstart
  constructor
  · intro h
    exact (honce.mp h.once).2
  · intro hmeets
    exact ⟨honce.mpr ⟨Nat.zero_le 1, hmeets⟩, hinv.results⟩

end

/-! ## A publication that fails -/

def createMission : Call := ⟨"CreateMissionHandler", {}⟩

/-- The handler creates this mission. -/
def created (missionId : String) : Input String :=
  { answer := some (.success ⟨missionId, ["MissionCreated"], "mission", missionId⟩) }

/-- The first call creates a mission, and its events are not published; it is tried again. -/
def retried : List (Tick (Input String)) :=
  [⟨0, {}⟩, ⟨0, created "m1"⟩, ⟨0, { fault := true }⟩] ++
    [⟨1, {}⟩, ⟨1, created "m2"⟩, ⟨1, {}⟩, ⟨1, {}⟩, ⟨1, {}⟩]

/-- **The second call creates another one.** -/
theorem not_onceOnly_after_publish_failure :
    let log := (run (next id fun _ => createMission) start retried).world.log
    (completions log).map (·.value) = ["m2", "m1"] ∧ ¬ OnceOnly id log := by
  have htwo : (completions
      (run (next id fun _ => createMission) start retried).world.log).map (·.value) =
        ["m2", "m1"] := by decide +kernel
  refine ⟨htwo, fun h => ?_⟩
  have honce : (completions (run (next id fun _ => createMission) start retried).world.log).length
      ≤ 1 := h.once
  rw [← List.length_map (·.value), htwo] at honce
  exact absurd honce (by decide)

end VegaRevenue.CommandExecutor
