import VegaRevenue.Lib.Lease
import VegaRevenue.ToolGateway.Gateway

/-!
# One side effect for each idempotency key

A call holds the record of its key from the claim it wins until it sets the outcome, and while it
holds the record it executes the provider. An execution that may have submitted leaves an outcome
that keeps the record PENDING, COMPLETED, or FAILED with `submitted` true.

* `next_effect` — what one step does to the leases
* `sideEffectAtMostOnce` — no key is submitted twice, whatever the calls and the faults
* `not_sideEffectAtMostOnce_empty` — the empty key is never claimed
-/

namespace VegaRevenue.ToolGateway

open Interleave
open Idempotency (Triple)
open Idempotency.Postgres (Record)
open Lease (Phase Effect)

/-- The execution submitted, or may have submitted, a request of a tool that needs a key and does
more than read, under this tenant, tool, action and key. -/
def submission (requests : Nat → ToolCallRequest) (tenantId toolId action key : String) :
    Observed → Bool
  | .executed i definition execution =>
    (requests i).tenantId = tenantId && definition.toolId = toolId &&
      (requests i).action.getD "execute" = action && (requests i).idempotencyKey = some key &&
      definition.idempotencyRequired && definition.sideEffectClass ≠ .readOnly &&
      execution.maySubmit
  | _ => false

/-- Among all calls of the run, one execution at most is such a submission. -/
def SideEffectAtMostOnce (deps : Deps) (requests : Nat → ToolCallRequest)
    (store : Idempotency.Postgres.Store) (s : List (Tick Input))
    (tenantId toolId action key : String) : Prop :=
  (run (step deps requests) (initial store) s).world.log.countP
    (submission requests tenantId toolId action key) ≤ 1

/-! ## Leases -/

/-- The attempt may have submitted, as far as its outcome tells. -/
def spends (definition : ToolDefinition) (outcome : ToolProviderOutcome) : Bool :=
  definition.sideEffectClass ≠ .readOnly && outcome.submitted &&
    outcome.errorCode ≠ some "NOT_SUBMITTED"

/-- The record of the result will not be free. -/
def seals (definition : ToolDefinition) (result : ToolCallResult) : Bool :=
  definition.sideEffectClass ≠ .readOnly && storedSubmitted result

/-- The lease on the record of a call. -/
def lease (request : ToolCallRequest) (definition : ToolDefinition) (spent : Bool) :
    Phase Triple :=
  match claimTriple? request definition with
  | none => .outside
  | some key => .holding key spent

/-- Where a call stands towards the record of its key. -/
def phase (request : ToolCallRequest) : Pc → Phase Triple
  | .attempt grant _ _ | .execute grant _ => lease request grant.definition false
  | .completeAttempt grant _ outcome _ =>
    lease request grant.definition (spends grant.definition outcome)
  | .completeInvocation grant result | .persist grant result =>
    lease request grant.definition (seals grant.definition result)
  | _ => .outside

/-- The execution is a possible submission under the record `k`. -/
def submitsUnder (requests : Nat → ToolCallRequest) (k : Triple) : Observed → Bool
  | .executed i definition execution =>
    claimTriple? (requests i) definition = some k &&
      definition.sideEffectClass ≠ .readOnly && execution.maySubmit
  | _ => false

def uses (requests : Nat → ToolCallRequest) (w : World) (k : Triple) : Nat :=
  w.log.countP (submitsUnder requests k)

/-! ## What an outcome tells -/

/-- An execution that may have submitted is spent. -/
theorem spends_of_maySubmit {definition : ToolDefinition} {execution : Execution}
    (hclass : definition.sideEffectClass ≠ .readOnly) (h : execution.maySubmit = true) :
    spends definition (execution.outcome definition).1 = true := by
  cases execution with
  | answered answer =>
    obtain ⟨hsub, hcode⟩ := answer.honest h
    have hsub' : ((Execution.answered answer).outcome definition).1.submitted = true := hsub
    have hcode' : ((Execution.answered answer).outcome definition).1.errorCode ≠
      some "NOT_SUBMITTED" := hcode
    simp [spends, hclass, hsub', hcode']
  | threw message => simp [spends, hclass, Execution.outcome, exceptionOutcome]

/-- Where an attempt may have submitted, the record of its result is not free. -/
theorem seals_of_spends {request : ToolCallRequest} {definition : ToolDefinition} {attempt : Nat}
    {outcome : ToolProviderOutcome} {threw : Bool} (h : spends definition outcome = true) :
    seals definition (attemptResult request definition attempt outcome threw) = true := by
  unfold spends at h
  simp only [Bool.and_eq_true, decide_eq_true_eq] at h
  obtain ⟨⟨hclass, -⟩, hcode⟩ := h
  unfold seals storedSubmitted attemptResult buildResult
  cases hs : mapOutcomeStatus outcome threw with
  | success => simp [hclass]
  | _ => cases hc : outcome.errorCode <;> simp_all

/-- An attempt that is retried cannot have submitted. -/
theorem not_spends_of_canRetry {definition : ToolDefinition} {outcome : ToolProviderOutcome}
    {attempt : Nat} (h : canRetry outcome definition attempt = true) :
    spends definition outcome = false := by
  unfold canRetry at h
  unfold spends
  split at h
  · cases h
  split at h
  · cases h
  split at h
  next hclass => simp [hclass]
  · simp_all

/-- A record that is free is that of a result that says nothing was submitted. -/
theorem not_seals_of_reclaimable {definition : ToolDefinition} {result : ToolCallResult}
    {r : Record} (hr : r.result = StoredOutcome result) (hfree : r.reclaimable = true) :
    seals definition result = false := by
  unfold Record.reclaimable Record.submitted at hfree
  rw [Bool.and_eq_true, decide_eq_true_eq, decide_eq_true_eq, hr] at hfree
  have hsub : storedSubmitted result = false := by
    simpa [StoredOutcome, Json.memberBoolean, Json.member?, Json.toSqlBoolean] using hfree.2
  simp [seals, hsub]

/-! ## One step -/

section

variable {deps : Deps} {requests : Nat → ToolCallRequest} {i : Nat} {input : Input} {w : World}

/-- What is recorded beside executions uses no key. -/
theorem uses_record {o : Observed} (h : ∀ k, submitsUnder requests k o = false) :
    uses requests (w.record o) = uses requests w := by
  funext k
  simp [uses, h k]

theorem lease_follows (request : ToolCallRequest) (definition : ToolDefinition) {b d : Bool}
    (h : b = true → d = true) : (lease request definition b).Follows (lease request definition d) := by
  unfold lease
  cases claimTriple? request definition with
  | none => exact .same _
  | some key =>
    cases b with
    | true =>
      rw [h rfl]
      exact .same _
    | false =>
      cases d with
      | false => exact .same _
      | true => exact .spends key

theorem lease_of_key {request : ToolCallRequest} {definition : ToolDefinition} {key : Triple}
    (h : claimTriple? request definition = some key) (spent : Bool) :
    lease request definition spent = .holding key spent := by
  unfold lease
  rw [h]

/-- A claim that is won takes the record. -/
theorem effect_claim (grant : Grant) :
    Effect Record.reclaimable w.store (next deps (requests i) i input w (.claim grant)).1.store
      (uses requests w) (uses requests (next deps (requests i) i input w (.claim grant)).1)
      .outside (phase (requests i) (next deps (requests i) i input w (.claim grant)).2) := by
  simp only [next]
  cases hk : claimTriple? (requests i) grant.definition with
  | none =>
    refine .quiet rfl rfl ?_
    simp only [phase, lease, hk]
    exact .same _
  | some key =>
    rcases Idempotency.Postgres.claim_cases w.store key input.now with
      ⟨hwon, hwins, r, hr, hstore⟩ | ⟨hlost, hstore⟩
    · refine .takes key r rfl hwins ?_ hstore rfl (.inl ?_)
      · simp [Record.reclaimable, hr]
      · simp only [hwon]
        exact lease_of_key hk false
    · refine .quiet hstore rfl ?_
      cases hanswer : (Idempotency.Postgres.claim w.store key input.now).2 with
      | claimed won =>
        cases won with
        | true => exact absurd hanswer hlost
        | false =>
          simp only [hanswer]
          exact .same _
      | _ =>
        simp only [hanswer]
        exact .same _

/-- An execution uses the record where it may have submitted. -/
theorem effect_execute (grant : Grant) (attempt : Nat) :
    Effect Record.reclaimable w.store
      (next deps (requests i) i input w (.execute grant attempt)).1.store
      (uses requests w) (uses requests (next deps (requests i) i input w (.execute grant attempt)).1)
      (lease (requests i) grant.definition false)
      (phase (requests i) (next deps (requests i) i input w (.execute grant attempt)).2) := by
  show Effect Record.reclaimable w.store w.store _
    (uses requests (w.record (.executed i grant.definition input.execution))) _
    (lease (requests i) grant.definition
      (spends grant.definition (input.execution.outcome grant.definition).1))
  by_cases hsub : ∃ key, claimTriple? (requests i) grant.definition = some key ∧
      grant.definition.sideEffectClass ≠ .readOnly ∧ input.execution.maySubmit = true
  · obtain ⟨key, hkey, hclass, hmay⟩ := hsub
    rw [spends_of_maySubmit hclass hmay, lease_of_key hkey, lease_of_key hkey]
    refine .acts key rfl rfl ?_ (.inl rfl)
    funext k
    by_cases hk : k = key
    · subst hk
      simp [uses, submitsUnder, hkey, hclass, hmay]
    · have hne : key ≠ k := Ne.symm hk
      simp [uses, submitsUnder, hkey, hk, hne]
  · refine .quiet rfl (uses_record fun k => ?_) (lease_follows _ _ nofun)
    rw [← Bool.not_eq_true]
    intro h
    simp only [submitsUnder, Bool.and_eq_true, decide_eq_true_eq] at h
    exact hsub ⟨k, h.1.1, h.1.2, h.2⟩

/-- After an attempt, the lease is as spent as the outcome tells. -/
theorem effect_completeAttempt (grant : Grant) (attempt : Nat) (outcome : ToolProviderOutcome)
    (threw : Bool) :
    (lease (requests i) grant.definition (spends grant.definition outcome)).Follows
      (phase (requests i)
        (next deps (requests i) i input w (.completeAttempt grant attempt outcome threw)).2) := by
  simp only [next]
  split
  next hretry =>
    rw [not_spends_of_canRetry hretry.2]
    exact .same _
  · exact lease_follows _ _ seals_of_spends

/-- The record of the outcome is put back, free only if nothing was submitted. -/
theorem effect_persist (grant : Grant) (result : ToolCallResult) :
    Effect Record.reclaimable w.store
      (next deps (requests i) i input w (.persist grant result)).1.store
      (uses requests w) (uses requests (next deps (requests i) i input w (.persist grant result)).1)
      (lease (requests i) grant.definition (seals grant.definition result))
      (phase (requests i) (next deps (requests i) i input w (.persist grant result)).2) := by
  simp only [next]
  split
  next key status hkey hstatus =>
    rw [lease_of_key hkey]
    rcases Idempotency.Postgres.set_cases deps.store w.store key (StoredOutcome result)
        { status := some status } input.now with
      ⟨hanswer, -, r, -, hr, hstore⟩ | ⟨hanswer, -, hstore⟩
    · refine .puts key _ r rfl (not_seals_of_reclaimable hr) hstore rfl ?_
      simp only [hanswer]
      rfl
    · refine .quiet hstore rfl ?_
      simp only [hanswer]
      exact .ends _
  · exact .quiet rfl rfl (.ends _)

/-- **What one step does to the leases.** -/
theorem next_effect (p : Pc) :
    Effect Record.reclaimable w.store (next deps (requests i) i input w p).1.store
      (uses requests w) (uses requests (next deps (requests i) i input w p).1)
      (phase (requests i) p) (phase (requests i) (next deps (requests i) i input w p).2) := by
  cases p with
  | start =>
    simp only [next]
    split <;> exact .quiet rfl rfl (.same _)
  | createInvocation grant => exact .quiet rfl (uses_record fun _ => rfl) (.same _)
  | claim grant => exact effect_claim grant
  | readExisting grant key =>
    simp only [next]
    split <;> exact .quiet rfl rfl (.same _)
  | handleExistingClaim grant existing =>
    simp only [next]
    split <;> exact .quiet rfl (uses_record fun _ => rfl) (.same _)
  | attempt grant attempts last =>
    simp only [next]
    split
    · exact .quiet rfl (uses_record fun _ => rfl) (.same _)
    · exact .quiet rfl rfl (lease_follows _ _ fun h => absurd h Bool.false_ne_true)
  | execute grant attempt => exact effect_execute grant attempt
  | completeAttempt grant attempt outcome threw =>
    exact .quiet rfl (uses_record fun _ => rfl) (effect_completeAttempt grant attempt outcome threw)
  | completeInvocation grant result => exact .quiet rfl (uses_record fun _ => rfl) (.same _)
  | persist grant result => exact effect_persist grant result
  | accept grant result =>
    simp only [next]
    split
    · exact .quiet rfl (uses_record fun _ => rfl) (.same _)
    · exact .quiet rfl rfl (.same _)
  | returned result => exact .quiet rfl rfl (.same _)
  | replayed result => exact .quiet rfl rfl (.same _)
  | threw => exact .quiet rfl rfl (.same _)

theorem phase_faulted (request : ToolCallRequest) (p : Pc) :
    phase request p.faulted = .outside := by
  cases p <;> rfl

/-- A fault ends the lease of its call. -/
theorem step_effect (deps : Deps) (requests : Nat → ToolCallRequest) (i : Nat) (input : Input)
    (w : World) (p : Pc) :
    Effect Record.reclaimable w.store (step deps requests i input w p).1.store
      (uses requests w) (uses requests (step deps requests i input w p).1)
      (phase (requests i) p) (phase (requests i) (step deps requests i input w p).2) := by
  unfold step
  split
  · exact next_effect p
  · rw [phase_faulted]
    exact .quiet rfl rfl (.ends _)
  · rw [phase_faulted]
    exact (next_effect p).ends

end

/-! ## Runs -/

/-- What is submitted under a key that is not empty is submitted under its record. -/
theorem submitsUnder_of_submission {requests : Nat → ToolCallRequest}
    {tenantId toolId action key : String} (hkey : key ≠ "") {o : Observed}
    (h : submission requests tenantId toolId action key o = true) :
    submitsUnder requests ⟨tenantId, s!"tool:{toolId}:{action}", key⟩ o = true := by
  cases o with
  | executed i definition execution =>
    simp only [submission, Bool.and_eq_true, decide_eq_true_eq] at h
    obtain ⟨⟨⟨⟨⟨⟨htenant, htool⟩, haction⟩, hkey'⟩, hrequired⟩, hclass⟩, hmay⟩ := h
    simp [submitsUnder, claimTriple?, idempotencyScope, htenant, htool, haction, hkey', hrequired,
      hclass, hmay, hkey]
  | _ => simp [submission] at h

/-- **A side effect happens at most once under a key that is not empty**, over any table, any
calls, any interleaving of their steps and any faults. -/
theorem sideEffectAtMostOnce (deps : Deps) (requests : Nat → ToolCallRequest)
    (store : Idempotency.Postgres.Store) (s : List (Tick Input)) (tenantId toolId action : String)
    {key : String} (hkey : key ≠ "") :
    SideEffectAtMostOnce deps requests store s tenantId toolId action key := by
  have huses := Lease.uses_le_one (step_effect deps requests) s (c := initial store)
    (fun _ => rfl) (fun _ => rfl) ⟨tenantId, s!"tool:{toolId}:{action}", key⟩
  exact le_trans (List.countP_mono_left fun o _ => submitsUnder_of_submission hkey) huses

/-! ## Two calls with one key -/

def mailTool : ToolDefinition where
  toolDefinitionId := "d1"
  toolId := "mail"
  version := "1"
  inputSchema := none
  outputSchema := none
  requiredCapabilities := []
  sideEffectClass := .irreversibleExternal
  riskCategory := "HIGH"
  requiredApproval := false
  providerId := "p1"
  maxRetries := 0
  idempotencyRequired := true

def mailRequest (key : String) : ToolCallRequest where
  toolCallId := "c1"
  tenantId := "t1"
  missionId := some "m1"
  executionId := some "e1"
  agentId := some "a1"
  agentVersion := none
  capabilities := ["email"]
  idempotencyKey := some key
  action := none
  autonomyLevel := none
  input := none

def mailDeps : Deps where
  validate := fun _ _ => ⟨true, []⟩
  store := {}

/-- Everything is allowed, and the provider accepts. -/
def accepted : Input where
  answers := ⟨.resolved mailTool, ⟨.allow, [], true, none⟩, ⟨true, none⟩, true, true⟩
  execution := .answered ⟨⟨true, true, false, none, none, none, none, none⟩, true, by decide⟩
  auditId := "a1"
  now := .epoch
  fault := none

/-- Two calls in turn, up to their executions. -/
def twoCalls : List (Tick Input) :=
  (List.range 10).map fun n => ⟨n % 2, accepted⟩

theorem sideEffectAtMostOnce_mail :
    (run (step mailDeps fun _ => mailRequest "k1") (initial Idempotency.Postgres.empty)
      twoCalls).world.log.countP (submission (fun _ => mailRequest "k1") "t1" "mail" "execute" "k1")
        = 1 ∧
      SideEffectAtMostOnce mailDeps (fun _ => mailRequest "k1") Idempotency.Postgres.empty twoCalls
        "t1" "mail" "execute" "k1" :=
  ⟨by decide +kernel, sideEffectAtMostOnce mailDeps (fun _ => mailRequest "k1")
    Idempotency.Postgres.empty twoCalls "t1" "mail" "execute" (by decide)⟩

/-- **The empty key is no key to the gateway: both calls submit.** -/
theorem not_sideEffectAtMostOnce_empty :
    ¬ SideEffectAtMostOnce mailDeps (fun _ => mailRequest "") Idempotency.Postgres.empty twoCalls
      "t1" "mail" "execute" "" := by
  unfold SideEffectAtMostOnce
  decide +kernel

end VegaRevenue.ToolGateway
