import Mathlib.Data.Nat.Find
import VegaRevenue.ToolGateway.Gateway

/-!
# The retry loop of the gateway

`executeWithRetry` over a supply of outcomes and exceptions that never ends: attempt `k + 1` is
given `supply k`. Attempts are counted from 1, the supply from 0.

* `after_attempts` — where the loop is after attempts that were all retried
* `executeWithRetry_ends` — the loop ends, with one record for each attempt and the answer of the
  last
-/

namespace VegaRevenue.ToolGateway

/-! ## One call on its own -/

/-- The world and the call after the first `n` of infinitely many inputs. -/
def after (deps : Deps) (request : ToolCallRequest) (i : Nat) (inputs : Nat → Input)
    (x : World × Pc) : Nat → World × Pc
  | 0 => x
  | n + 1 =>
    next deps request i (inputs n) (after deps request i inputs x n).1
      (after deps request i inputs x n).2

theorem after_succ (deps : Deps) (request : ToolCallRequest) (i : Nat) (inputs : Nat → Input)
    (x : World × Pc) (n : Nat) :
    after deps request i inputs x (n + 1) =
      next deps request i (inputs n) (after deps request i inputs x n).1
        (after deps request i inputs x n).2 := rfl

/-- The first `n` inputs and then the others. -/
theorem after_add (deps : Deps) (request : ToolCallRequest) (i : Nat) (inputs : Nat → Input)
    (x : World × Pc) (n m : Nat) :
    after deps request i inputs x (n + m) =
      after deps request i (fun k => inputs (n + k)) (after deps request i inputs x n) m := by
  induction m with
  | zero => rfl
  | succ m ih =>
    rw [← Nat.add_assoc, after_succ, ih]
    rfl

/-- The call has ended. -/
def Pc.ended : Pc → Bool
  | .returned _ | .replayed _ | .threw => true
  | _ => false

/-- A call that has ended does nothing more. -/
theorem after_of_ended {deps : Deps} {request : ToolCallRequest} {i : Nat} {inputs : Nat → Input}
    {x : World × Pc} {n : Nat} (h : (after deps request i inputs x n).2.ended = true) (m : Nat) :
    after deps request i inputs x (n + m) = after deps request i inputs x n := by
  induction m with
  | zero => rfl
  | succ m ih =>
    rw [← Nat.add_assoc, after_succ, ih]
    generalize after deps request i inputs x n = y at h
    obtain ⟨w, p⟩ := y
    cases p with
    | returned result => rfl
    | replayed result => rfl
    | threw => rfl
    | _ => cases h

/-- There is one end. -/
theorem after_eq_of_ended {deps : Deps} {request : ToolCallRequest} {i : Nat}
    {inputs : Nat → Input} {x : World × Pc} {n m : Nat}
    (hn : (after deps request i inputs x n).2.ended = true)
    (hm : (after deps request i inputs x m).2.ended = true) :
    after deps request i inputs x n = after deps request i inputs x m := by
  rcases Nat.le_total n m with hle | hle
  · obtain ⟨k, rfl⟩ := Nat.exists_eq_add_of_le hle
    exact (after_of_ended hn k).symm
  · obtain ⟨k, rfl⟩ := Nat.exists_eq_add_of_le hle
    exact after_of_ended hm k

/-- The world after several records, the first one first. -/
def World.recordAll (w : World) (os : List Observed) : World :=
  { w with log := os.reverse ++ w.log }

/-! ## Attempts -/

section

variable (definition : ToolDefinition) (supply : Nat → Execution)

/-- The outcome of attempt `k + 1`. -/
def outcomeOf (k : Nat) : ToolProviderOutcome := ((supply k).outcome definition).1

def statusOf (k : Nat) : ToolCallStatus :=
  mapOutcomeStatus (outcomeOf definition supply k) ((supply k).outcome definition).2

def resultOf (request : ToolCallRequest) (k : Nat) : ToolCallResult :=
  attemptResult request definition (k + 1) (outcomeOf definition supply k)
    ((supply k).outcome definition).2

/-- Attempt `k + 1` is followed by another one. -/
def retried (k : Nat) : Bool :=
  statusOf definition supply k ≠ .success && canRetry (outcomeOf definition supply k) definition (k + 1)

/-- The result the loop holds before attempt `k + 1`. -/
def lastResult (request : ToolCallRequest) : Nat → Option ToolCallResult
  | 0 => none
  | k + 1 => some (resultOf definition supply request k)

/-- What attempt `k + 1` of call `i` leaves in the log. -/
def attemptTrace (i k : Nat) : List Observed :=
  [.attemptStarted i (k + 1), .executed i definition (supply k),
    .attemptCompleted i (k + 1) (attemptStatus (statusOf definition supply k))
      (outcomeOf definition supply k)]

/-- What the first `n` attempts leave. -/
def trace (i n : Nat) : List Observed := (List.range n).flatMap (attemptTrace definition supply i)

/-- The completion of the invocation with a result. -/
def completion (i : Nat) (result : ToolCallResult) : Observed :=
  .invocationCompleted i (some (.str result.status.text))
    (result.error.map fun e => ⟨e.code, [e.message]⟩)

variable {definition supply} {k : Nat}

theorem trace_succ (i n : Nat) : trace definition supply i (n + 1) =
    trace definition supply i n ++ attemptTrace definition supply i n := by
  unfold trace
  rw [List.range_succ, List.flatMap_append, List.flatMap_singleton]

/-- A call is repeated only if nothing was submitted, or it only reads. -/
theorem retried_spec (h : retried definition supply k = true) :
    statusOf definition supply k ≠ .success ∧ (outcomeOf definition supply k).retryable = true ∧
      (definition.sideEffectClass = .readOnly ∨
        (outcomeOf definition supply k).submitted = false) ∧
      ((k + 1 : Nat) : Int) < maxAttempts definition := by
  unfold retried canRetry at h
  rw [Bool.and_eq_true, decide_eq_true_eq] at h
  obtain ⟨hstatus, hretry⟩ := h
  refine ⟨hstatus, ?_⟩
  split at hretry
  · cases hretry
  next hmax =>
    split at hretry
    · cases hretry
    next hretryable =>
      refine ⟨by simpa using hretryable, ?_, Int.not_le.mp hmax⟩
      split at hretry
      next hclass => exact .inl hclass
      next => exact .inr (by simpa using hretry)

variable (definition supply)

/-- After the attempts there may be, none is retried. -/
theorem exists_not_retried : ∃ k, retried definition supply k = false := by
  refine ⟨(maxAttempts definition).toNat, ?_⟩
  by_contra h
  obtain ⟨-, -, -, hlt⟩ := retried_spec (Bool.of_not_eq_false h)
  have hle := Int.self_le_toNat (maxAttempts definition)
  omega

/-- The number of attempts: the first one that is not retried is the last. -/
def attempts : Nat := Nat.find (exists_not_retried definition supply) + 1

theorem retried_of_lt_attempts (h : k + 1 < attempts definition supply) :
    retried definition supply k = true := by
  have hmin := Nat.find_min (exists_not_retried definition supply) (m := k)
    (by unfold attempts at h; omega)
  exact Bool.of_not_eq_false hmin

theorem not_retried_last : retried definition supply (attempts definition supply - 1) = false :=
  Nat.find_spec (exists_not_retried definition supply)

theorem attempts_pos : 0 < attempts definition supply := Nat.succ_pos _

/-- There is one attempt, and no more than the definition grants. -/
theorem attempts_le : (attempts definition supply : Int) ≤ max 1 (definition.maxRetries + 1) := by
  by_cases hone : attempts definition supply = 1
  · rw [hone]
    exact le_max_left _ _
  · have hpos := attempts_pos definition supply
    obtain ⟨k, hk⟩ : ∃ k, attempts definition supply = k + 2 :=
      ⟨attempts definition supply - 2, by omega⟩
    obtain ⟨-, -, -, hlt⟩ := retried_spec
      (retried_of_lt_attempts definition supply (k := k) (by omega))
    have hmax : ((k + 1 : Nat) : Int) < max 1 (definition.maxRetries + 1) := hlt
    rw [hk]
    omega

end

/-! ## The loop -/

section

variable (deps : Deps) (request : ToolCallRequest) (i : Nat) (grant : Grant) (w : World)
variable (inputs : Nat → Input)

/-- The outcomes the attempts of a loop are given: an attempt takes three steps, and the second one
calls the provider. -/
def supplyOf (inputs : Nat → Input) (k : Nat) : Execution := (inputs (3 * k + 1)).execution

theorem lt_maxAttempts {definition : ToolDefinition} {supply : Nat → Execution} {n : Nat}
    (h : ∀ k < n, retried definition supply k = true) : (n : Int) < maxAttempts definition := by
  cases n with
  | zero => exact Int.lt_of_lt_of_le Int.one_pos (le_max_left _ _)
  | succ n =>
    obtain ⟨-, -, -, hlt⟩ := retried_spec (h n n.lt_succ_self)
    exact hlt

/-- One attempt: its record, the call of the provider, and what the outcome leads to. -/
theorem after_attempt {n : Nat} {w' : World} {last : Option ToolCallResult} {x : World × Pc}
    (hbefore : after deps request i inputs x (3 * n) = (w', .attempt grant n last))
    (hlt : (n : Int) < maxAttempts grant.definition) :
    after deps request i inputs x (3 * n + 3) =
      (w'.recordAll (attemptTrace grant.definition (supplyOf inputs) i n),
        if retried grant.definition (supplyOf inputs) n = true then
          .attempt grant (n + 1) (some (resultOf grant.definition (supplyOf inputs) request n))
        else .completeInvocation grant (resultOf grant.definition (supplyOf inputs) request n)) := by
  have hstarted : after deps request i inputs x (3 * n + 1) =
      (w'.record (.attemptStarted i (n + 1)), .execute grant (n + 1)) := by
    rw [after_succ, hbefore]
    exact if_pos hlt
  have hexecuted : after deps request i inputs x (3 * n + 2) =
      ((w'.record (.attemptStarted i (n + 1))).record
          (.executed i grant.definition (supplyOf inputs n)),
        .completeAttempt grant (n + 1) (outcomeOf grant.definition (supplyOf inputs) n)
          ((supplyOf inputs n).outcome grant.definition).2) := by
    rw [after_succ, hstarted]
    rfl
  rw [after_succ, hexecuted]
  refine Prod.ext rfl ?_
  show (if _ then _ else _) = _
  refine if_congr ?_ rfl rfl
  unfold retried
  rw [Bool.and_eq_true, decide_eq_true_eq]
  exact Iff.rfl

theorem recordAll_append (os os' : List Observed) :
    (w.recordAll os).recordAll os' = w.recordAll (os ++ os') := by
  unfold World.recordAll
  rw [List.reverse_append, List.append_assoc]

/-- **Where the loop is after attempts that were all retried.** -/
theorem after_attempts {n : Nat}
    (h : ∀ k < n, retried grant.definition (supplyOf inputs) k = true) :
    after deps request i inputs (w, .attempt grant 0 none) (3 * n) =
      (w.recordAll (trace grant.definition (supplyOf inputs) i n),
        .attempt grant n (lastResult grant.definition (supplyOf inputs) request n)) := by
  induction n with
  | zero => rfl
  | succ n ih =>
    have hearlier : ∀ k < n, retried grant.definition (supplyOf inputs) k = true :=
      fun k hk => h k (Nat.lt_succ_of_lt hk)
    rw [show 3 * (n + 1) = 3 * n + 3 from rfl,
      after_attempt deps request i grant inputs (ih hearlier) (lt_maxAttempts hearlier),
      if_pos (h n n.lt_succ_self), recordAll_append, ← trace_succ]
    rfl

/-- The number of attempts of a loop, and the result of the last. -/
def loopAttempts : Nat := attempts grant.definition (supplyOf inputs)

def loopResult : ToolCallResult :=
  resultOf grant.definition (supplyOf inputs) request (loopAttempts grant inputs - 1)

/-- The loop ends when its last attempt is completed, and completes the invocation. -/
theorem after_loop :
    after deps request i inputs (w, .attempt grant 0 none) (3 * loopAttempts grant inputs + 1) =
      (w.recordAll (trace grant.definition (supplyOf inputs) i (loopAttempts grant inputs) ++
          [completion i (loopResult request grant inputs)]),
        .persist grant (loopResult request grant inputs)) := by
  have hpos := attempts_pos grant.definition (supplyOf inputs)
  obtain ⟨n, hn⟩ : ∃ n, loopAttempts grant inputs = n + 1 := ⟨_, rfl⟩
  have hearlier : ∀ k < n, retried grant.definition (supplyOf inputs) k = true := by
    intro k hk
    refine retried_of_lt_attempts _ _ ?_
    show k + 1 < loopAttempts grant inputs
    omega
  have hlast : retried grant.definition (supplyOf inputs) n = false := by
    have hnot := not_retried_last grant.definition (supplyOf inputs)
    rw [show attempts grant.definition (supplyOf inputs) = n + 1 from hn] at hnot
    exact hnot
  have hattempt := after_attempt deps request i grant inputs
    (after_attempts deps request i grant w inputs hearlier) (lt_maxAttempts hearlier)
  rw [hlast, if_neg Bool.false_ne_true, recordAll_append, ← trace_succ] at hattempt
  have hresult : loopResult request grant inputs =
      resultOf grant.definition (supplyOf inputs) request n := by
    unfold loopResult
    rw [hn]
    rfl
  rw [after_succ, hn, show 3 * (n + 1) = 3 * n + 3 from rfl, hattempt, hresult, ← recordAll_append]
  rfl

/-- **The retry loop is bounded, recorded, and repeats no ambiguous side effect.** -/
theorem executeWithRetry_ends :
    ∃ n : Nat, 1 ≤ n ∧ (n : Int) ≤ max 1 (grant.definition.maxRetries + 1) ∧
      -- after `n` calls of the provider, with a record for each that was started before it and
      -- completed after it, the loop completes the invocation with the result of the last
      after deps request i inputs (w, .attempt grant 0 none) (3 * n + 1) =
        (w.recordAll ((List.range n).flatMap (fun k =>
            [.attemptStarted i (k + 1), .executed i grant.definition (supplyOf inputs k),
              .attemptCompleted i (k + 1)
                (attemptStatus (statusOf grant.definition (supplyOf inputs) k))
                (outcomeOf grant.definition (supplyOf inputs) k)]) ++
            [completion i (resultOf grant.definition (supplyOf inputs) request (n - 1))]),
          .persist grant (resultOf grant.definition (supplyOf inputs) request (n - 1))) ∧
      -- every call but the last is repeated for a reason
      (∀ k, k + 1 < n → statusOf grant.definition (supplyOf inputs) k ≠ .success ∧
        (outcomeOf grant.definition (supplyOf inputs) k).retryable = true ∧
        (grant.definition.sideEffectClass = .readOnly ∨
          (outcomeOf grant.definition (supplyOf inputs) k).submitted = false)) ∧
      (resultOf grant.definition (supplyOf inputs) request (n - 1)).status =
        statusOf grant.definition (supplyOf inputs) (n - 1) ∧
      (resultOf grant.definition (supplyOf inputs) request (n - 1)).retryCount = n - 1 := by
  refine ⟨loopAttempts grant inputs, attempts_pos _ _, attempts_le _ _,
    after_loop deps request i grant w inputs, fun k hk => ?_, rfl, rfl⟩
  obtain ⟨hstatus, hretryable, hsubmitted, -⟩ := retried_spec (retried_of_lt_attempts _ _ hk)
  exact ⟨hstatus, hretryable, hsubmitted⟩

end

end VegaRevenue.ToolGateway
