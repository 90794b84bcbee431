import VegaRevenue.AiRuntime.Governance
import VegaRevenue.MissionExecution.Engine

/-!
# The approvals of the engine and the executor

The engine stores the approval of a task under a key that begins with `approval:`; the executions
it builds have keys that begin with `exec:`. The binding of the executor looks for an approval under
the key of the execution.

* `resolveValidApproval` — the query of the binding over the stored approvals
* `run_requested` — the approvals of every run of the engine have keys of the first kind
* `never_honoured` — the binding finds none of them
* `no_model_call` — an execution that the policy sends to approval makes no model call
-/

namespace VegaRevenue.MissionExecution

open Interleave Versioned
open Mission (Props)
open AiRuntime (AIExecutionRequest ExecutionApprovalBinding ExecutionApprovalEvidence ApprovalBinding
  PolicyDecision AgentExecutorDeps approvalKeys)

/-! ## The keys -/

/-- The generator of the worker and of the api: a hint with a new id. -/
def generateIdempotencyKey (id hint : String) : String := s!"{hint}:{id}"

def executionHint (executionId : String) : String := "exec:" ++ executionId

theorem generateIdempotencyKey_ne (id id' taskId executionId : String) :
    generateIdempotencyKey id (approvalGate taskId) ≠
      generateIdempotencyKey id' (executionHint executionId) := by
  intro h
  have hchars : ("approval:" ++ taskId ++ ":" ++ id).toList =
      ("exec:" ++ executionId ++ ":" ++ id').toList := congrArg String.toList h
  simp [String.toList_append] at hchars

/-! ## The execution of a task -/

def buildExecutionRequest (tenantId : String) (mission : Props) (task : MissionTask)
    (executionId id : String) (timeoutSeconds : Rat) : AIExecutionRequest where
  executionId := executionId
  tenantId := tenantId
  missionId := mission.id
  agentId := task.agentId
  agentVersion := task.agentVersion
  taskId := task.id
  taskType := task.taskType
  capabilities := if blank task.requiredCapability then ["research"] else task.requiredCapability.toList
  autonomyLevel := .finite mission.autonomyLevel
  riskCategory := "MEDIUM"
  toolId := none
  budget := ⟨10000, mission.budget.maxAiCostUsd, timeoutSeconds⟩
  deadline := task.deadline.or mission.deadline
  idempotencyKey := generateIdempotencyKey id (executionHint executionId)

/-! ## The query of the binding -/

/-- `(payload->>'timeoutSeconds')::int`; a text with a fraction is no integer. -/
def castSeconds (timeoutSeconds : Rat) : Option Int :=
  if timeoutSeconds.den = 1 ∧ -2147483648 ≤ timeoutSeconds.num ∧ timeoutSeconds.num ≤ 2147483647 then
    some timeoutSeconds.num
  else none

/-- The approval is bound to the keys, in the tenant the session may see. -/
def boundTo (tenantId : String) (keys : ExecutionApprovalBinding) (payload : Approval.Props) : Bool :=
  payload.tenantId = tenantId && payload.executionId = some keys.executionId &&
    payload.idempotencyKey = keys.idempotencyKey && payload.status = .approved &&
    keys.actionType.all (payload.actionType = ·)

/-- The first row that has not expired. -/
def firstUnexpired (now : Date) :
    Table String Approval.Props → Except String (Option ExecutionApprovalEvidence)
  | [] => .ok none
  | (id, row) :: rows =>
    match castSeconds row.payload.timeoutSeconds with
    | none => .error "invalid input syntax for type integer"
    | some seconds =>
      if now < row.payload.createdAt + seconds * 1000 then
        .ok (some ⟨id, row.payload.status.name, "valid"⟩)
      else firstUnexpired now rows

def resolveValidApproval (tenantId : String) (now : Date) (approvals : Table String Approval.Props)
    (keys : ExecutionApprovalBinding) : Except String (Option ExecutionApprovalEvidence) :=
  firstUnexpired now (approvals.filter fun p => boundTo tenantId keys p.2.payload)

def hasValidApproval (tenantId : String) (now : Date) (approvals : Table String Approval.Props)
    (keys : ExecutionApprovalBinding) : Except String Bool :=
  (resolveValidApproval tenantId now approvals keys).map (·.isSome)

/-- `PostgresExecutionApprovalBinding`. -/
def postgresBinding (tenantId : String) (now : Date) (approvals : Table String Approval.Props) :
    ApprovalBinding where
  hasValidApproval := hasValidApproval tenantId now approvals
  resolveValidApproval := some (resolveValidApproval tenantId now approvals)

/-! ## What the engine stores -/

/-- The step with the key that is generated for the approval of its task. -/
def generated (input : Input) : Pc → Input
  | .requestApproval _ task _ _ =>
    { input with idempotencyKey := generateIdempotencyKey input.idempotencyKey (approvalGate task.id) }
  | _ => input

/-- A step of the engine as it is wired; the key of an input is the new id. -/
def wiredNext : Stepper World Pc Input := fun i input w p => next i (generated input p) w p

/-- The approval was requested for a task, under a key generated for it. -/
def Requested (payload : Approval.Props) : Prop :=
  ∃ taskId id, payload.taskId = some taskId ∧
    payload.idempotencyKey = generateIdempotencyKey id (approvalGate taskId)

/-- The approval a call holds. -/
def Pc.approval : Pc → Option Approval
  | .saveApproval _ _ _ _ a | .saveDecision a => some a
  | _ => none

/-- Every approval that is stored or held was requested. -/
structure AllRequested (c : Config World Pc) : Prop where
  stored : ∀ p ∈ c.world.approvals, Requested p.2.payload
  held : ∀ i, ∀ a ∈ (c.pc i).approval, Requested a.state

/-! ## What a step does to the approvals -/

theorem orThrow_approval {r : Mission × OpResult} {pc : Mission → Pc}
    (h : ∀ m, (pc m).approval = none) : (orThrow r pc).approval = none := by
  unfold orThrow
  split
  · exact h _
  · rfl

theorem planMission_approval (m : Mission) (input : Input) :
    (planMission m input).approval = none := by
  unfold planMission
  split
  · rfl
  · split
    · rfl
    · exact orThrow_approval fun _ => rfl

theorem executeLoaded_approval (call : Call) (m : Mission) (input : Input) :
    (executeLoaded call m input).approval = none := by
  unfold executeLoaded evaluateCompletion runTask
  split
  · rfl
  · split
    · exact orThrow_approval fun _ => rfl
    · split
      · rfl
      · exact orThrow_approval fun _ => rfl

theorem handleTaskResult_approval (call : Call) (m : Mission) (task : MissionTask)
    (result : AIExecutionResult) (now : Date) :
    (handleTaskResult call m task result now).approval = none := by
  unfold handleTaskResult
  cases result.status <;> first | rfl | exact orThrow_approval fun _ => rfl

theorem jobNext_approval (call : Call) (m : Mission) (job : Job) :
    (job.next call m).approval = none := by
  unfold Job.next
  cases job with
  | start task executionId =>
    dsimp only
    split <;> rfl
  | result task answer => cases call <;> rfl
  | _ => rfl

theorem control_approval (control : Control) (m : Mission) (attempt : Nat) (now : Date) :
    (control.decide m attempt now).approval = none := by
  unfold Control.decide
  cases control with
  | pause reason =>
    dsimp only
    split
    · rfl
    · split
      · rfl
      · exact orThrow_approval fun _ => rfl
  | resume =>
    dsimp only
    split
    · rfl
    · split
      · rfl
      · exact orThrow_approval fun _ => rfl
  | cancel reason =>
    dsimp only
    split
    · rfl
    · exact orThrow_approval fun _ => rfl

/-- The approvals stay as they are, or the one that is held is saved. -/
theorem proceed_approvals (i : Nat) (input : Input) (w : World) (p : Pc) :
    (proceed i input w p).1.approvals = w.approvals ∨ ∃ a ∈ p.approval,
      w.approvals.save a.state.id a = some (proceed i input w p).1.approvals := by
  have hmission : ∀ {m : Mission} {w' : World}, w.save m = some w' → w'.approvals = w.approvals := by
    intro m w' h
    obtain ⟨row, -, rfl⟩ := Option.map_eq_some_iff.mp h
    rfl
  cases p with
  | load call => cases call <;> exact .inl rfl
  | saving call job current attempt =>
    left
    simp only [proceed, saveAndPublish]
    cases hsaved : w.save current with
    | none => rfl
    | some w' => exact hmission hsaved
  | saveControl c m attempt =>
    left
    simp only [proceed]
    cases hsaved : w.save m with
    | none => rfl
    | some w' => exact hmission hsaved
  | saveApproval call task result m a =>
    simp only [proceed]
    cases hsaved : w.approvals.save a.state.id a with
    | none => exact .inl rfl
    | some approvals => exact .inr ⟨a, rfl, hsaved⟩
  | saveDecision a =>
    simp only [proceed]
    cases hsaved : w.approvals.save a.state.id a with
    | none => exact .inl rfl
    | some approvals => exact .inr ⟨a, rfl, hsaved⟩
  | _ => exact .inl rfl

/-- An approval that a call takes up was created for its task, or read from the table. -/
theorem proceed_approval (i : Nat) (input : Input) (w : World) (p : Pc) (a : Approval)
    (h : a ∈ (proceed i input w p).2.approval) :
    (∃ call task result m, p = .requestApproval call task result m ∧
      Approval.create (approvalProps w.mission.payload task result input) = .ok a) ∨
    ∃ approvalId d row, p = .decide approvalId d ∧ w.approvals.find approvalId = some row ∧
      a = (d.apply (.reconstitute row.payload row.version) input.now).1 := by
  have hnone : ∀ {pc : Pc}, pc.approval = none → a ∉ pc.approval := by
    intro pc hpc ha
    rw [hpc] at ha
    cases ha
  cases p with
  | plan => exact absurd h (hnone (planMission_approval _ _))
  | load call =>
    cases call with
    | missionStep => exact absurd h (hnone (executeLoaded_approval _ _ _))
    | mission iterations =>
      refine absurd h (hnone ?_)
      simp only [proceed]
      split
      · exact executeLoaded_approval _ _ _
      · rfl
  | saving call job current attempt =>
    refine absurd h (hnone ?_)
    simp only [proceed, saveAndPublish]
    split
    · dsimp only
      split
      · rfl
      · exact jobNext_approval _ _ _
    · dsimp only
      split <;> rfl
  | reloading call job attempt =>
    refine absurd h (hnone ?_)
    simp only [proceed, reloadAndReapply]
    split
    · rfl
    · exact jobNext_approval _ _ _
  | execute call task executionId =>
    refine absurd h (hnone ?_)
    simp only [proceed]
    split <;> rfl
  | loadResult call task result =>
    exact absurd h (hnone (handleTaskResult_approval _ _ _ _ _))
  | requestApproval call task result m =>
    simp only [proceed] at h
    cases hcreate : Approval.create (approvalProps w.mission.payload task result input) with
    | error message =>
      rw [hcreate] at h
      cases h
    | ok approval =>
      rw [hcreate] at h
      cases h
      exact .inl ⟨call, task, result, m, rfl, hcreate⟩
  | saveApproval call task result m approval =>
    refine absurd h (hnone ?_)
    simp only [proceed]
    split <;> rfl
  | notify call task result m => exact absurd h (hnone (orThrow_approval fun _ => rfl))
  | compensate call task result m => exact absurd h (hnone (orThrow_approval fun _ => rfl))
  | control c attempt => exact absurd h (hnone (control_approval _ _ _ _))
  | saveControl c m attempt =>
    refine absurd h (hnone ?_)
    simp only [proceed]
    split
    · dsimp only
      split <;> rfl
    · dsimp only
      split <;> rfl
  | decide approvalId d =>
    simp only [proceed] at h
    cases hfind : w.approvals.find approvalId with
    | none =>
      rw [hfind] at h
      cases h
    | some row =>
      rw [hfind] at h
      dsimp only at h
      split at h
      next a' hdecided =>
        cases h
        exact .inr ⟨approvalId, d, row, rfl, hfind, by rw [hdecided]⟩
      · cases h
  | saveDecision approval =>
    refine absurd h (hnone ?_)
    simp only [proceed]
    split <;> rfl
  | _ => cases h

/-! ## Every approval was requested -/

theorem mem_of_find {approvals : Table String Approval.Props} {approvalId : String}
    {row : Row Approval.Props} (h : approvals.find approvalId = some row) :
    ∃ p ∈ approvals, p.2 = row := by
  obtain ⟨p, hp, rfl⟩ := Option.map_eq_some_iff.mp h
  exact ⟨p, List.mem_of_find?_eq_some hp, rfl⟩

/-- A decision keeps the task and the key of an approval. -/
theorem requested_apply (d : Decision) (a : Approval) (now : Date) (h : Requested a.state) :
    Requested (d.apply a now).1.state := by
  have htransition : ∀ status decidedBy reason,
      Requested (Approval.transition a status decidedBy reason now).1.state := by
    intro status decidedBy reason
    unfold Approval.transition
    split <;> exact h
  cases d with
  | approve actorId reason => exact htransition _ _ _
  | reject actorId reason => exact htransition _ _ _
  | expire => exact htransition _ _ _

theorem requested_create {mission : Props} {task : MissionTask} {result : AIExecutionResult}
    {input : Input} {a : Approval}
    (hkey : ∃ id, input.idempotencyKey = generateIdempotencyKey id (approvalGate task.id))
    (h : Approval.create (approvalProps mission task result input) = .ok a) :
    Requested a.state := by
  unfold Approval.create at h
  split at h
  · cases h
  · cases h
    obtain ⟨id, hid⟩ := hkey
    exact ⟨task.id, id, rfl, hid⟩

theorem requested_save {approvals approvals' : Table String Approval.Props} {a : Approval}
    (hstored : ∀ p ∈ approvals, Requested p.2.payload) (ha : Requested a.state)
    (h : approvals.save a.state.id a = some approvals') :
    ∀ p ∈ approvals', Requested p.2.payload := by
  rcases Table.save_eq_some_iff.mp h with ⟨-, -, rfl⟩ | ⟨version, row, -, -, -, rfl⟩
  · intro p hp
    rcases List.mem_append.mp hp with hp | hp
    · exact hstored p hp
    · rw [List.mem_singleton.mp hp]
      exact ha
  · intro p hp
    obtain ⟨q, hq, rfl⟩ := List.mem_map.mp hp
    split
    · exact ha
    · exact hstored q hq

/-- What is stored and held after a step was requested, if it was before. -/
theorem requested_next (i : Nat) (input : Input) {w : World} {p : Pc}
    (hstored : ∀ q ∈ w.approvals, Requested q.2.payload)
    (hheld : ∀ a ∈ p.approval, Requested a.state) :
    (∀ q ∈ (wiredNext i input w p).1.approvals, Requested q.2.payload) ∧
      ∀ a ∈ (wiredNext i input w p).2.approval, Requested a.state := by
  unfold wiredNext next
  split
  · exact ⟨hstored, fun a ha => absurd ha (by simp [Pc.approval])⟩
  constructor
  · rcases proceed_approvals i (generated input p) w p with hkept | ⟨a, ha, hsaved⟩
    · rw [hkept]
      exact hstored
    · exact requested_save hstored (hheld a ha) hsaved
  · intro a ha
    rcases proceed_approval i (generated input p) w p a ha with
      ⟨call, task, result, m, rfl, hcreate⟩ | ⟨approvalId, d, row, rfl, hfind, rfl⟩
    · exact requested_create ⟨input.idempotencyKey, rfl⟩ hcreate
    · obtain ⟨q, hq, rfl⟩ := mem_of_find hfind
      exact requested_apply d _ _ (hstored q hq)

theorem allRequested_step (c : Config World Pc) (a : Tick Input) (h : AllRequested c) :
    AllRequested (c.step wiredNext a) := by
  have hmoved := requested_next a.call a.input h.stored (h.held a.call)
  refine ⟨hmoved.1, fun i b hb => ?_⟩
  by_cases hi : i = a.call
  · subst hi
    rw [Config.step_pc_self] at hb
    exact hmoved.2 b hb
  · rw [Config.step_pc_ne _ _ hi] at hb
    exact h.held i b hb

/-- The mission after a run in which every approval was asked for by the engine. -/
def approvalRun (mission : StoredMission) (calls : Nat → Start) (s : List (Tick Input)) : World :=
  (run wiredNext (init mission [] calls) s).world

/-- **Every approval of a run of the engine was requested for a task.** -/
theorem run_requested (mission : StoredMission) (calls : Nat → Start) (s : List (Tick Input)) :
    ∀ p ∈ (approvalRun mission calls s).approvals, Requested p.2.payload := by
  have hinit : AllRequested (init mission [] calls) := by
    refine ⟨fun p hp => absurd hp List.not_mem_nil, fun i a ha => ?_⟩
    cases hstart : calls i <;> simp [init, hstart, Start.pc, Pc.approval] at ha
  exact (run_invariant allRequested_step hinit).stored

/-! ## No execution finds them -/

theorem resolveValidApproval_requested {approvals : Table String Approval.Props}
    (h : ∀ p ∈ approvals, Requested p.2.payload) (tenantId : String) (now : Date)
    (keys : ExecutionApprovalBinding) {id executionId : String}
    (hkeys : keys.idempotencyKey = generateIdempotencyKey id (executionHint executionId)) :
    resolveValidApproval tenantId now approvals keys = .ok none := by
  have hnone : (approvals.filter fun p => boundTo tenantId keys p.2.payload) = [] := by
    rw [List.filter_eq_nil_iff]
    intro p hp hbound
    obtain ⟨taskId, id', -, hkey⟩ := h p hp
    have hsame : p.2.payload.idempotencyKey = keys.idempotencyKey := by
      unfold boundTo at hbound
      simp only [Bool.and_eq_true, decide_eq_true_eq] at hbound
      exact hbound.1.1.2
    rw [hkey, hkeys] at hsame
    exact generateIdempotencyKey_ne _ _ _ _ hsame
  unfold resolveValidApproval
  rw [hnone]
  rfl

/-- After a run of the engine, the binding finds no approval for an execution that the engine
builds. -/
theorem approvalRun_resolves (mission : StoredMission) (calls : Nat → Start) (s : List (Tick Input))
    (tenantId : String) (now : Date) (m : Props) (task : MissionTask) (executionId id : String)
    (timeoutSeconds : Rat) (decision : PolicyDecision) :
    resolveValidApproval tenantId now (approvalRun mission calls s).approvals
      (approvalKeys (buildExecutionRequest tenantId m task executionId id timeoutSeconds) decision) =
        .ok none :=
  resolveValidApproval_requested (run_requested mission calls s) tenantId now _ rfl

/-- The approval lets the executions of its task through the binding, and no other ones. -/
def Honoured (approvals : Table String Approval.Props) (now : Date) (approvalId : String)
    (payload : Approval.Props) : Prop :=
  ∀ (mission : Props) (task : MissionTask) (executionId id : String) (timeoutSeconds : Rat)
    (decision : PolicyDecision), decision.action = some task.taskType →
    ((∃ evidence, resolveValidApproval payload.tenantId now approvals
        (approvalKeys (buildExecutionRequest payload.tenantId mission task executionId id
          timeoutSeconds) decision) = .ok (some evidence) ∧ evidence.approvalId = approvalId) ↔
      mission.id = payload.missionId ∧ payload.taskId = some task.id)

/-- **No approval of the engine is honoured**: the binding finds no approval for any execution that
the engine builds. -/
theorem never_honoured (mission : StoredMission) (calls : Nat → Start) (s : List (Tick Input))
    (now : Date) :
    (∀ tenantId m task executionId id timeoutSeconds decision,
      resolveValidApproval tenantId now (approvalRun mission calls s).approvals
        (approvalKeys (buildExecutionRequest tenantId m task executionId id timeoutSeconds)
          decision) = .ok none) ∧
    ∀ approvalId row, (approvalRun mission calls s).approvals.find approvalId = some row →
      ¬Honoured (approvalRun mission calls s).approvals now approvalId row.payload := by
  have hnone := fun tenantId m task executionId id timeoutSeconds decision =>
    approvalRun_resolves mission calls s tenantId now m task executionId id timeoutSeconds decision
  refine ⟨hnone, fun approvalId row hfind hhonoured => ?_⟩
  obtain ⟨p, hp, rfl⟩ := mem_of_find hfind
  obtain ⟨taskId, id, htask, -⟩ := run_requested mission calls s p hp
  -- the task of the approval is executed again
  let m : Props := { mission.row.payload with id := p.2.payload.missionId }
  let task : MissionTask := .init { Mission.sampleTask taskId [] with taskType := "research" }
  let decision : PolicyDecision := ⟨"decision", .requireApproval, some "research", []⟩
  obtain ⟨evidence, hfound, -⟩ :=
    (hhonoured m task "execution" "id" 60 decision rfl).mpr ⟨rfl, htask⟩
  rw [hnone] at hfound
  cases hfound

/-- **An execution that the policy sends to approval makes no model call**, whatever the engine
stored and the approvers decided. -/
theorem no_model_call (mission : StoredMission) (calls : Nat → Start) (s : List (Tick Input))
    (tenantId : String) (now : Date) {deps : AgentExecutorDeps} {request : AIExecutionRequest}
    {m : Props} {task : MissionTask} {executionId id : String} {timeoutSeconds : Rat}
    (hrequest : request = buildExecutionRequest tenantId m task executionId id timeoutSeconds)
    (hbinding : deps.approvalBinding =
      some (postgresBinding tenantId now (approvalRun mission calls s).approvals))
    {decision : PolicyDecision} (hpolicy : deps.evaluate request = .ok decision)
    (houtcome : decision.outcome = .requireApproval) :
    ∀ e ∈ (AiRuntime.execute deps request).1.effects, e.callsModel = false := by
  intro e he
  rw [← Bool.not_eq_true]
  intro hmodel
  obtain ⟨g, hg⟩ := AiRuntime.governed_of_execute he hmodel
  obtain rfl : g.policyDecision = decision := Except.ok.inj (hg.evaluate.symm.trans hpolicy)
  rcases hg.policy with ⟨hallow, -⟩ | ⟨-, evidence, -, hresolve⟩
  · rw [houtcome] at hallow
    cases hallow
  · have hnone : AiRuntime.resolveApproval deps.approvalBinding
        (approvalKeys request g.policyDecision) = .ok none := by
      rw [hbinding, hrequest]
      exact approvalRun_resolves mission calls s tenantId now m task executionId id timeoutSeconds
        g.policyDecision
    rw [hnone] at hresolve
    cases hresolve

/-! ### An approval that is not found -/

/-- One call executes a step of the mission, the other one approves what it asks for. -/
def approvalCalls : Nat → Start
  | 0 => .executeMissionStep
  | _ => .decide "approval" (.approve "owner" "go ahead")

/-- The agent answers that it awaits an approval. -/
def awaitingInput : Input where
  now := 0
  result := some ⟨"execution", .awaitingApproval, { summary := "Policy requires approval" }⟩

/-- The step up to the stored approval, and the decision on it. -/
def approvalSchedule : List (Tick Input) :=
  List.replicate 8 ⟨0, awaitingInput⟩ ++ List.replicate 2 ⟨1, { now := 1000 }⟩

def approvedWorld : World := approvalRun executingMission approvalCalls approvalSchedule

/-- The next execution of the task. -/
def secondExecution : AIExecutionRequest :=
  buildExecutionRequest "tenant" executingMission.row.payload (.init (Mission.sampleTask "research" []))
    "execution-2" "id-2" 3600

/-- **The approval of the task was approved and has not expired, and its next execution does not
find it.** -/
theorem approved_not_honoured :
    (approvedWorld.approvals.find "approval").map (fun row =>
        (row.payload.status, row.payload.missionId, row.payload.taskId, row.payload.idempotencyKey)) =
      some (.approved, "mission", some "research", "approval:research:key") ∧
    (approvedWorld.approvals.find "approval").any (fun row =>
      (castSeconds row.payload.timeoutSeconds).any fun seconds =>
        (2000 : Int) < row.payload.createdAt + seconds * 1000) = true ∧
    secondExecution.idempotencyKey = "exec:execution-2:id-2" ∧
    ∀ row, approvedWorld.approvals.find "approval" = some row →
      ¬Honoured approvedWorld.approvals 2000 "approval" row.payload := by
  have hfields : (approvedWorld.approvals.find "approval").map (fun row =>
      (row.payload.tenantId, row.payload.missionId, row.payload.taskId)) =
        some ("tenant", "mission", some "research") := by decide +kernel
  have hnone : (resolveValidApproval "tenant" 2000 approvedWorld.approvals (approvalKeys
      secondExecution ⟨"decision", .requireApproval, some "research", []⟩)).toOption.map
        (·.isSome) = some false := by decide +kernel
  refine ⟨by decide +kernel, by decide +kernel, by decide, fun row hrow hhonoured => ?_⟩
  rw [hrow] at hfields
  simp only [Option.map_some, Option.some.injEq, Prod.mk.injEq] at hfields
  obtain ⟨evidence, hfound, -⟩ := (hhonoured executingMission.row.payload
    (.init (Mission.sampleTask "research" [])) "execution-2" "id-2" 3600
    ⟨"decision", .requireApproval, some "research", []⟩ rfl).mpr ⟨hfields.2.1.symm, hfields.2.2⟩
  rw [hfields.1] at hfound
  rw [show resolveValidApproval "tenant" 2000 approvedWorld.approvals (approvalKeys
    secondExecution ⟨"decision", .requireApproval, some "research", []⟩) = _ from hfound] at hnone
  cases hnone

theorem never_honoured_approved : ∃ row, approvedWorld.approvals.find "approval" = some row ∧
    ¬Honoured approvedWorld.approvals 2000 "approval" row.payload := by
  have hsome : (approvedWorld.approvals.find "approval").isSome := by decide +kernel
  obtain ⟨row, hrow⟩ := Option.isSome_iff_exists.mp hsome
  exact ⟨row, hrow,
    (never_honoured executingMission approvalCalls approvalSchedule 2000).2 "approval" row hrow⟩

end VegaRevenue.MissionExecution
