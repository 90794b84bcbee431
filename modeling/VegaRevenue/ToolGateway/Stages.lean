import VegaRevenue.ToolGateway.AtMostOnce

/-!
# How far the calls of the gateway have come

An invariant of every interleaving of every number of calls, under any faults: what a call has
executed, what its result is made of, and what it has stored under its key.

* `stage_next` — one step of a call
* `inv_run` — a whole run
-/

namespace VegaRevenue.ToolGateway

open Interleave
open Idempotency (Triple)
open Idempotency.Postgres (Record)

/-! ## What a call did -/

def Observed.isExecution : Observed → Bool
  | executed _ _ _ => true
  | _ => false

/-- The call executed its provider so. -/
def executedAs (i : Nat) (w : World) (definition : ToolDefinition) (execution : Execution) : Prop :=
  .executed i definition execution ∈ w.log

def Succeeds (definition : ToolDefinition) (execution : Execution) : Prop :=
  mapOutcomeStatus (execution.outcome definition).1 (execution.outcome definition).2 = .success

/-- The result of an attempt that ended with this execution. -/
def executionResult (request : ToolCallRequest) (definition : ToolDefinition) (attempt : Nat)
    (execution : Execution) : ToolCallResult :=
  attemptResult request definition attempt (execution.outcome definition).1
    (execution.outcome definition).2

/-- The result is that of the last execution: no other one was a success. -/
def FromLast (request : ToolCallRequest) (definition : ToolDefinition)
    (executed : ToolDefinition → Execution → Prop) (result : ToolCallResult) : Prop :=
  ∃ attempt execution, executed definition execution ∧
    result = executionResult request definition attempt execution ∧
    ∀ d e, executed d e → Succeeds definition e → e = execution

/-- What step 14 makes of a result. -/
def Accepts (deps : Deps) (request : ToolCallRequest) (definition : ToolDefinition)
    (result r : ToolCallResult) : Prop :=
  match outputViolations deps definition result with
  | some violations =>
    r = buildResult request definition .validationError
      ⟨"OUTPUT_SCHEMA_VIOLATION", String.intercalate "; " violations, false⟩ result.retryCount none
  | none => ∃ auditId, r = result.audited auditId

section

variable (deps : Deps) (requests : Nat → ToolCallRequest) (answers : Nat → Answers)

def granted (i : Nat) : ToolCallResult ⊕ Grant := gates deps (requests i) (answers i)

/-- The key is settled with the outcome of this result. -/
def Completed (c : Config World Pc) (key : Triple) (result : ToolCallResult) : Prop :=
  ∃ record : Record, record.status = .completed ∧ record.result = StoredOutcome result ∧
    Lease.Settled Record.reclaimable World.store (fun i => phase (requests i)) key record c

/-- The result of a call that got to accept it: what was executed, and what was stored. -/
def Finished (executed : ToolDefinition → Execution → Prop)
    (completed : Triple → ToolCallResult → Prop) (i : Nat) (grant : Grant)
    (result : ToolCallResult) : Prop :=
  granted deps requests answers i = .inr grant ∧
    FromLast (requests i) grant.definition executed result ∧
    (result.status = .success → ∀ key, claimTriple? (requests i) grant.definition = some key →
      completed key result)

/-- How far call `i` has come. -/
def Stage (executed : ToolDefinition → Execution → Prop)
    (completed : Triple → ToolCallResult → Prop) (i : Nat) : Pc → Prop
  | .start => ∀ d e, ¬ executed d e
  | .createInvocation grant | .claim grant =>
    granted deps requests answers i = .inr grant ∧ ∀ d e, ¬ executed d e
  | .readExisting grant key =>
    granted deps requests answers i = .inr grant ∧
      claimTriple? (requests i) grant.definition = some key ∧ ∀ d e, ¬ executed d e
  | .handleExistingClaim grant _ =>
    granted deps requests answers i = .inr grant ∧
      claimTriple? (requests i) grant.definition ≠ none ∧ ∀ d e, ¬ executed d e
  | .attempt grant attempts last =>
    granted deps requests answers i = .inr grant ∧
      ((attempts = 0 ∧ ∀ d e, ¬ executed d e) ∨
        ∃ result, last = some result ∧ FromLast (requests i) grant.definition executed result ∧
          result.status ≠ .success)
  | .execute grant _ =>
    granted deps requests answers i = .inr grant ∧
      ∀ d e, executed d e → ¬ Succeeds grant.definition e
  | .completeAttempt grant _ outcome threw =>
    granted deps requests answers i = .inr grant ∧
      ∃ execution, executed grant.definition execution ∧
        execution.outcome grant.definition = (outcome, threw) ∧
        ∀ d e, executed d e → Succeeds grant.definition e → e = execution
  | .completeInvocation grant result | .persist grant result =>
    granted deps requests answers i = .inr grant ∧
      FromLast (requests i) grant.definition executed result
  | .accept grant result => Finished deps requests answers executed completed i grant result
  | .returned r =>
    (granted deps requests answers i = .inl r ∧ ∀ d e, ¬ executed d e) ∨
      (∃ grant, granted deps requests answers i = .inr grant ∧
        claimTriple? (requests i) grant.definition ≠ none ∧
        r = duplicateInFlight (requests i) grant.definition ∧ ∀ d e, ¬ executed d e) ∨
      ∃ grant result, Finished deps requests answers executed completed i grant result ∧
        Accepts deps (requests i) grant.definition result r
  | .replayed _ =>
    (∃ grant, granted deps requests answers i = .inr grant ∧
      claimTriple? (requests i) grant.definition ≠ none) ∧ ∀ d e, ¬ executed d e
  | .threw => True

end

section

variable {deps : Deps} {requests : Nat → ToolCallRequest} {answers : Nat → Answers}

/-- What is completed stays so. -/
theorem Stage.mono {executed : ToolDefinition → Execution → Prop}
    {completed completed' : Triple → ToolCallResult → Prop}
    (h : ∀ key result, completed key result → completed' key result) {i : Nat} {p : Pc}
    (hp : Stage deps requests answers executed completed i p) :
    Stage deps requests answers executed completed' i p := by
  have hfinished : ∀ {grant result},
      Finished deps requests answers executed completed i grant result →
      Finished deps requests answers executed completed' i grant result :=
    fun hf => ⟨hf.1, hf.2.1, fun hstatus key hkey => h key _ (hf.2.2 hstatus key hkey)⟩
  cases p with
  | accept grant result => exact hfinished hp
  | returned r =>
    refine hp.imp_right fun hp => hp.imp_right ?_
    rintro ⟨grant, result, hf, haccepts⟩
    exact ⟨grant, result, hfinished hf, haccepts⟩
  | _ => exact hp

/-! ## One step -/

variable {i : Nat} {input : Input} {w : World}

/-- What is recorded beside executions executes nothing. -/
theorem executedAs_record {o : Observed} (h : o.isExecution = false) (j : Nat) :
    executedAs j (w.record o) = executedAs j w := by
  funext d e
  have hne : Observed.executed j d e ≠ o := by
    rintro rfl
    cases h
  unfold executedAs
  rw [World.record_log, List.mem_cons, eq_iff_iff, or_iff_right hne]

/-- Only the step that calls the provider executes. -/
theorem executedAs_next {p : Pc} (hp : ∀ grant attempt, p ≠ .execute grant attempt) (j : Nat) :
    executedAs j (next deps (requests i) i input w p).1 = executedAs j w := by
  cases p with
  | execute grant attempt => exact absurd rfl (hp grant attempt)
  | start =>
    simp only [next]
    split <;> rfl
  | createInvocation grant => exact executedAs_record rfl j
  | claim grant =>
    simp only [next]
    split <;> rfl
  | readExisting grant key =>
    simp only [next]
    split <;> rfl
  | handleExistingClaim grant existing =>
    simp only [next]
    split <;> exact executedAs_record rfl j
  | attempt grant attempts last =>
    simp only [next]
    split
    · exact executedAs_record rfl j
    · rfl
  | completeAttempt grant attempt outcome threw => exact executedAs_record rfl j
  | completeInvocation grant result => exact executedAs_record rfl j
  | persist grant result =>
    simp only [next]
    split <;> rfl
  | accept grant result =>
    simp only [next]
    split
    · exact executedAs_record rfl j
    · rfl
  | returned result => rfl
  | replayed result => rfl
  | threw => rfl

/-- No step executes for another call. -/
theorem executedAs_next_ne {j : Nat} (hj : j ≠ i) (p : Pc) :
    executedAs j (next deps (requests i) i input w p).1 = executedAs j w := by
  by_cases hp : ∃ grant attempt, p = .execute grant attempt
  · obtain ⟨grant, attempt, rfl⟩ := hp
    funext d e
    unfold executedAs
    simp [next, hj]
  · exact executedAs_next (fun grant attempt h => hp ⟨grant, attempt, h⟩) j

/-- What the loop goes on with is no success. -/
theorem unsuccessful_of_fromLast {request : ToolCallRequest} {definition : ToolDefinition}
    {executed : ToolDefinition → Execution → Prop} {result : ToolCallResult}
    (h : FromLast request definition executed result) (hstatus : result.status ≠ .success) :
    ∀ d e, executed d e → ¬ Succeeds definition e := by
  obtain ⟨attempt, execution, -, rfl, hlast⟩ := h
  intro d e hexecuted hsucceeds
  obtain rfl := hlast d e hexecuted hsucceeds
  exact hstatus hsucceeds

/-- The call that moves, where nothing is persisted. -/
theorem stage_next {completed : Triple → ToolCallResult → Prop}
    (hanswers : input.answers = answers i) {p : Pc}
    (hp : ∀ grant result, p ≠ .persist grant result)
    (h : Stage deps requests answers (executedAs i w) completed i p) :
    Stage deps requests answers (executedAs i (next deps (requests i) i input w p).1) completed i
      (next deps (requests i) i input w p).2 := by
  by_cases hexecute : ∃ grant attempt, p = .execute grant attempt
  · obtain ⟨grant, attempt, rfl⟩ := hexecute
    obtain ⟨hgranted, hunsuccessful⟩ := h
    refine ⟨hgranted, input.execution, List.mem_cons_self, rfl, fun d e hexecuted hsucceeds => ?_⟩
    rcases List.mem_cons.mp hexecuted with heq | hbefore
    · injection heq
    · exact absurd hsucceeds (hunsuccessful d e hbefore)
  rw [executedAs_next (fun grant attempt heq => hexecute ⟨grant, attempt, heq⟩)]
  cases p with
  | execute grant attempt => exact absurd ⟨grant, attempt, rfl⟩ hexecute
  | persist grant result => exact absurd rfl (hp grant result)
  | start =>
    simp only [next]
    split
    next refusal hgates =>
      rw [hanswers] at hgates
      exact .inl ⟨hgates, h⟩
    next grant hgates =>
      rw [hanswers] at hgates
      exact ⟨hgates, h⟩
  | createInvocation grant => exact h
  | claim grant =>
    simp only [next]
    cases hkey : claimTriple? (requests i) grant.definition with
    | none => exact ⟨h.1, .inl ⟨rfl, h.2⟩⟩
    | some key =>
      dsimp only
      split
      · exact ⟨h.1, .inl ⟨rfl, h.2⟩⟩
      · exact ⟨h.1, hkey, h.2⟩
      · trivial
  | readExisting grant key =>
    simp only [next]
    split
    · exact ⟨h.1, by rw [h.2.1]; simp, h.2.2⟩
    · trivial
  | handleExistingClaim grant existing =>
    simp only [next]
    split
    · exact ⟨⟨grant, h.1, h.2.1⟩, h.2.2⟩
    · exact .inr (.inl ⟨grant, h.1, h.2.1, rfl, h.2.2⟩)
  | attempt grant attempts last =>
    obtain ⟨hgranted, hlast⟩ := h
    simp only [next]
    split
    next hlt =>
      refine ⟨hgranted, ?_⟩
      rcases hlast with ⟨-, hnone⟩ | ⟨result, -, hfrom, hstatus⟩
      · exact fun d e hexecuted => absurd hexecuted (hnone d e)
      · exact unsuccessful_of_fromLast hfrom hstatus
    next hmax =>
      rcases hlast with ⟨rfl, -⟩ | ⟨result, rfl, hfrom, -⟩
      · -- there is always a first attempt
        exact absurd (Int.lt_of_lt_of_le Int.one_pos (le_max_left _ _)) hmax
      · exact ⟨hgranted, hfrom⟩
  | completeAttempt grant attempt outcome threw =>
    obtain ⟨hgranted, execution, hexecuted, houtcome, hlast⟩ := h
    have hfrom : FromLast (requests i) grant.definition (executedAs i w)
        (attemptResult (requests i) grant.definition attempt outcome threw) := by
      refine ⟨attempt, execution, hexecuted, ?_, hlast⟩
      unfold executionResult
      rw [houtcome]
    simp only [next]
    split
    next hretry => exact ⟨hgranted, .inr ⟨_, rfl, hfrom, hretry.1⟩⟩
    next => exact ⟨hgranted, hfrom⟩
  | completeInvocation grant result => exact h
  | accept grant result =>
    simp only [next]
    split
    next violations hviolations =>
      refine .inr (.inr ⟨grant, result, h, ?_⟩)
      unfold Accepts
      rw [hviolations]
    next hviolations =>
      refine .inr (.inr ⟨grant, result, h, ?_⟩)
      unfold Accepts
      rw [hviolations]
      exact ⟨_, rfl⟩
  | returned result => exact h
  | replayed result => exact h
  | threw => exact h

/-! ## Runs -/

/-- The leases are accounted for, and every call is at its stage. -/
structure Inv (deps : Deps) (requests : Nat → ToolCallRequest) (answers : Nat → Answers)
    (c : Config World Pc) : Prop where
  account : Lease.Account Record.reclaimable World.store (uses requests)
    (fun i => phase (requests i)) c
  stage : ∀ i, Stage deps requests answers (executedAs i c.world) (Completed requests c) i (c.pc i)

/-- The ports answer each call as `answers` says. -/
def AnsweredBy (answers : Nat → Answers) (s : List (Tick Input)) : Prop :=
  ∀ t ∈ s, t.input.answers = answers t.call

variable {c : Config World Pc} {t : Tick Input}

theorem config_effect (c : Config World Pc) (t : Tick Input) :
    Lease.Effect Record.reclaimable c.world.store (c.step (step deps requests) t).world.store
      (uses requests c.world) (uses requests (c.step (step deps requests) t).world)
      (phase (requests t.call) (c.pc t.call))
      (phase (requests t.call) ((c.step (step deps requests) t).pc t.call)) := by
  rw [Config.step_pc_self]
  exact step_effect deps requests t.call t.input c.world (c.pc t.call)

/-- What is completed stays so under every step. -/
theorem Completed.step {key : Triple} {result : ToolCallResult}
    (h : Completed requests c key result) :
    Completed requests (c.step (step deps requests) t) key result := by
  obtain ⟨record, hstatus, hresult, hsettled⟩ := h
  exact ⟨record, hstatus, hresult, hsettled.step (config_effect c t)⟩

/-- A fault ends the call, or finds it ended. -/
theorem stage_faulted {completed : Triple → ToolCallResult → Prop} (hfault : t.input.fault ≠ none)
    (h : Stage deps requests answers (executedAs t.call c.world) completed t.call (c.pc t.call)) :
    Stage deps requests answers (executedAs t.call (c.step (step deps requests) t).world) completed
      t.call ((c.step (step deps requests) t).pc t.call) := by
  rw [Config.step_pc_self, Config.step_world]
  unfold VegaRevenue.ToolGateway.step
  generalize c.pc t.call = p at h ⊢
  split
  next hnone => exact absurd hnone hfault
  all_goals
    cases p with
    | returned r => exact h
    | replayed result => exact h
    | _ => trivial

/-- No step executes for a call that does not move. -/
theorem executedAs_step_ne {j : Nat} (hj : j ≠ t.call) :
    executedAs j (c.step (step deps requests) t).world = executedAs j c.world := by
  rw [Config.step_world]
  unfold VegaRevenue.ToolGateway.step
  split
  · exact executedAs_next_ne hj _
  · rfl
  · exact executedAs_next_ne hj _

/-- The step that stores a success completes its key. -/
theorem stage_persist (h : Inv deps requests answers c) (hfault : t.input.fault = none)
    {grant : Grant} {result : ToolCallResult} (hpc : c.pc t.call = .persist grant result) :
    Stage deps requests answers (executedAs t.call (c.step (step deps requests) t).world)
      (Completed requests (c.step (step deps requests) t)) t.call
      ((c.step (step deps requests) t).pc t.call) := by
  have hstage := h.stage t.call
  rw [hpc] at hstage
  obtain ⟨hgranted, hfrom⟩ := hstage
  have hstep : step deps requests t.call t.input c.world (c.pc t.call) =
      next deps (requests t.call) t.call t.input c.world (.persist grant result) := by
    unfold VegaRevenue.ToolGateway.step
    rw [hfault, hpc]
  have hexecuted : executedAs t.call (c.step (step deps requests) t).world =
      executedAs t.call c.world := by
    rw [Config.step_world, hstep]
    exact executedAs_next (fun _ _ heq => by cases heq) t.call
  rw [hexecuted]
  have hpc' := Config.step_pc_self (step deps requests) c t
  rw [hstep] at hpc'
  cases hkey : claimTriple? (requests t.call) grant.definition with
  | none =>
    simp only [next, hkey] at hpc'
    rw [hpc']
    refine ⟨hgranted, hfrom, fun _ key hkey' => ?_⟩
    rw [hkey] at hkey'
    cases hkey'
  | some key =>
    cases hstatus : persistedStatus result with
    | none =>
      simp only [next, hkey, hstatus] at hpc'
      rw [hpc']
      refine ⟨hgranted, hfrom, fun hsuccess => ?_⟩
      unfold persistedStatus at hstatus
      rw [hsuccess] at hstatus
      cases hstatus
    | some status =>
      have hworld := Config.step_world (step deps requests) c t
      rw [hstep] at hworld
      simp only [next, hkey, hstatus] at hpc' hworld
      rcases Idempotency.Postgres.set_cases deps.store c.world.store key (StoredOutcome result)
          { status := some status } t.input.now with
        ⟨hanswer, -, record, hrecord, hresult, hset⟩ | ⟨hanswer, -, -⟩
      · rw [hanswer] at hpc'
        rw [hpc']
        refine ⟨hgranted, hfrom, fun hsuccess key' hkey' => ?_⟩
        obtain rfl : key = key' := Option.some.inj (hkey.symm.trans hkey')
        have hcompleted : record.status = .completed := by
          unfold persistedStatus at hstatus
          rw [hsuccess] at hstatus
          obtain rfl := Option.some.inj hstatus
          exact hrecord
        have hheld : phase (requests t.call) (c.pc t.call) =
            .holding key (seals grant.definition result) := by
          rw [hpc]
          exact lease_of_key hkey _
        refine ⟨record, hcompleted, hresult, h.account.settles hheld ?_ ?_ ?_⟩
        · unfold Record.reclaimable
          rw [hcompleted]
          rfl
        · rw [hworld, World.keep_store, hset]
        · rw [hpc']
          rfl
      · rw [hanswer] at hpc'
        rw [hpc']
        trivial

/-- **Every step keeps every call at its stage.** -/
theorem inv_step (h : Inv deps requests answers c) (hanswers : t.input.answers = answers t.call) :
    Inv deps requests answers (c.step (step deps requests) t) := by
  refine ⟨h.account.step (config_effect c t), fun j => ?_⟩
  have hmono : ∀ key result, Completed requests c key result →
      Completed requests (c.step (step deps requests) t) key result :=
    fun _ _ hcompleted => hcompleted.step
  by_cases hj : j = t.call
  · subst hj
    by_cases hfault : t.input.fault = none
    · by_cases hpersist : ∃ grant result, c.pc t.call = .persist grant result
      · obtain ⟨grant, result, hpc⟩ := hpersist
        exact stage_persist h hfault hpc
      · rw [Config.step_pc_self, Config.step_world]
        unfold VegaRevenue.ToolGateway.step
        rw [hfault]
        refine Stage.mono hmono (stage_next hanswers (fun grant result heq => ?_) (h.stage t.call))
        exact hpersist ⟨grant, result, heq⟩
    · exact (stage_faulted hfault (h.stage t.call)).mono hmono
  · rw [executedAs_step_ne hj, Config.step_pc_ne _ c hj]
    exact (h.stage j).mono hmono

theorem inv_run {s : List (Tick Input)} (h : Inv deps requests answers c)
    (hs : AnsweredBy answers s) : Inv deps requests answers (run (step deps requests) c s) := by
  induction s generalizing c with
  | nil => exact h
  | cons t s ih =>
    exact ih (inv_step h (hs t List.mem_cons_self)) fun t ht => hs t (List.mem_cons_of_mem _ ht)

end

end VegaRevenue.ToolGateway
