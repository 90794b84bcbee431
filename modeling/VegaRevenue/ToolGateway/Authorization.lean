import VegaRevenue.AiRuntime.AgentExecutor
import VegaRevenue.ControlPlane.Policy
import VegaRevenue.ToolGateway.Gateway

/-!
# The authorization of tool calls

`buildGovernedToolGateway` asks the control plane for the policy of a call and the approval binding
of the executor for its approval.

* `evaluate`, `verify` — the two adapters
* `authorization` — steps 2 and 3 of the gateway with them
* `not_executed` — a call that is refused at its start executes no provider in any run
* `approvalGoverns_iff` — a call that the policy sends to approval never runs with one
-/

namespace VegaRevenue.ToolGateway

open Interleave
open AiRuntime (ApprovalBinding ExecutionApprovalBinding ExecutionApprovalEvidence)
open ControlPlane (PolicyOutcome PolicyRow AutonomyRule StopAnswer)

/-! ## The adapters -/

/-- What the gateway is built with: the stored rules, the answers of the other repositories of the
control plane, and the binding. -/
structure Governance where
  collation : String → String → Bool
  stop : StopAnswer
  table : List PolicyRow
  autonomyRule : Option AutonomyRule
  defaultAutonomyLevel : JsNumber := .finite 0
  approvalBinding : ApprovalBinding
  /-- The digest of `JSON.stringify(input ?? null)`. -/
  hashInput : Option Json → String

section

variable (g : Governance) (request : ToolCallRequest) (definition : ToolDefinition)

/-- The tool call as an execution. -/
def aiRequest : ControlPlane.AIExecutionRequest where
  executionId := request.executionId.getD request.toolCallId
  tenantId := request.tenantId
  missionId := request.missionId.getD ""
  agentId := request.agentId.getD ""
  agentVersion := request.agentVersion.getD "0.0.0"
  taskType := request.action.getD definition.toolId
  capabilities := request.capabilities
  autonomyLevel := request.autonomyLevel.getD g.defaultAutonomyLevel
  riskCategory := definition.riskCategory
  toolId := some definition.toolId

def toDecision : PolicyOutcome → Decision
  | .allow => .allow
  | .requireApproval => .requireApproval
  | .deny => .deny

/-- `ControlPlaneToolPolicyEvaluator`. -/
def evaluate : Except String ToolPolicyDecision :=
  (ControlPlane.evaluate g.collation request.tenantId {
    request := aiRequest g request definition
    stop := g.stop
    table := g.table
    autonomyRule := g.autonomyRule }).map fun decision => {
      decision := toDecision decision.outcome
      capabilities := decision.capabilities
      autonomyAllowed := decision.outcome = .allow
      reason := some decision.policyVersion }

/-- The action an approval of the call is for. -/
def actionType (inputHash : String) : String :=
  s!"{definition.toolId}@{definition.version}#{inputHash.take 16}"

/-- `ExecutionToolApprovalBinding`. -/
def verify : Except String ToolApproval :=
  if blank request.executionId || blank request.idempotencyKey then
    .ok ⟨false, some "missing executionId/idempotencyKey for approval binding"⟩
  else do
    let keys : ExecutionApprovalBinding := {
      executionId := request.executionId.getD ""
      idempotencyKey := request.idempotencyKey.getD ""
      actionType := some (actionType definition (g.hashInput request.input)) }
    let evidence ← match g.approvalBinding.resolveValidApproval with
      | some resolveValidApproval => resolveValidApproval keys
      | none => .ok none
    match evidence with
    | some _ => .ok ⟨true, none⟩
    | none =>
      let valid ← g.approvalBinding.hasValidApproval keys
      .ok (if valid then ⟨true, none⟩ else ⟨false, some "no bound approval for tool action"⟩)

/-- Step 3 asks for an approval. -/
def needsApproval (policy : ToolPolicyDecision) : Bool :=
  definition.requiredApproval || policy.decision = .requireApproval

/-- Steps 2 and 3: the refusal, or none. -/
def authorization : Except String (Option ToolCallResult) := do
  let policy ← evaluate g request definition
  match authorize request definition policy with
  | some refusal => .ok (some refusal)
  | none =>
    if needsApproval definition policy then
      let approval ← verify g request definition
      .ok (bindApproval request definition policy approval)
    else .ok none

/-! ## What is claimed of a call -/

/-- The decision of the control plane on the call. -/
def Decided (decision : Decision) : Prop :=
  ∃ policy, evaluate g request definition = .ok policy ∧ policy.decision = decision

/-- The granted capabilities cover those the tool requires. -/
def Covered : Prop :=
  ∀ policy, evaluate g request definition = .ok policy →
    ∀ c ∈ definition.requiredCapabilities, c ∈ policy.capabilities

/-- There is an approval for this tool, version and input. -/
def Bound : Prop := ∃ approval, verify g request definition = .ok approval ∧ approval.approved = true

/-- The answers of a step that starts the call are those of the adapters; an adapter that throws is
a fault of the step. -/
structure Wired (input : Input) : Prop where
  resolution : ∀ d, input.answers.resolution = .resolved d → d = definition
  policy : input.fault ≠ some .before → evaluate g request definition = .ok input.answers.policy
  approval : input.fault ≠ some .before →
    authorize request definition input.answers.policy = none →
    needsApproval definition input.answers.policy = true →
      verify g request definition = .ok input.answers.approval

end

/-- The step starts call `i`. -/
def Starts (i : Nat) (c : Config World Pc) (a : Tick Input) : Prop :=
  a.call = i ∧ c.pc i = .start

/-- Call `i` executed a provider. -/
def ExecutedBy (i : Nat) (log : List Observed) : Prop :=
  ∃ definition execution, .executed i definition execution ∈ log

/-- An approved call is authorized, and one that is denied or not approved executes nothing. -/
structure ApprovalGoverns (g : Governance) (request : ToolCallRequest)
    (definition : ToolDefinition) : Prop where
  runs : Decided g request definition .requireApproval → Covered g request definition →
    Bound g request definition → authorization g request definition = .ok none
  refuses : Decided g request definition .deny ∨
      Decided g request definition .requireApproval ∧ ¬Bound g request definition →
    ∀ (deps : Deps) (requests : Nat → ToolCallRequest) (store : Idempotency.Postgres.Store)
      (s : List (Tick Input)) (i : Nat), requests i = request →
      Meets (step deps requests) (fun c a => Starts i c a → Wired g request definition a.input)
        (initial store) s →
      ¬ExecutedBy i (run (step deps requests) (initial store) s).world.log

/-! ## Calls that are refused -/

/-- The call that observed. -/
def Observed.call : Observed → Nat
  | .invocationCreated call _ _ | .attemptStarted call _ | .executed call _ _
  | .attemptCompleted call _ _ _ | .invocationCompleted call _ _ => call

/-- The grant a call goes on with. -/
def Pc.grant : Pc → Option Grant
  | .createInvocation grant | .claim grant | .readExisting grant _ | .handleExistingClaim grant _
  | .attempt grant _ _ | .execute grant _ | .completeAttempt grant _ _ _
  | .completeInvocation grant _ | .persist grant _ | .accept grant _ => some grant
  | _ => none

section

variable {deps : Deps} {request : ToolCallRequest} {i : Nat} {input : Input} {w : World}

/-- A step records at most one observation, of its own call. -/
theorem next_log (p : Pc) : (next deps request i input w p).1.log = w.log ∨
    ∃ o, o.call = i ∧ (next deps request i input w p).1.log = o :: w.log := by
  cases p with
  | start =>
    left
    simp only [next]
    split <;> rfl
  | claim grant =>
    left
    simp only [next]
    split <;> rfl
  | readExisting grant key =>
    left
    simp only [next]
    split <;> rfl
  | handleExistingClaim grant existing =>
    right
    simp only [next]
    split
    · exact ⟨_, rfl, rfl⟩
    · exact ⟨_, rfl, rfl⟩
  | attempt grant attempts last =>
    simp only [next]
    split
    · exact .inr ⟨_, rfl, rfl⟩
    · exact .inl rfl
  | persist grant result =>
    left
    simp only [next]
    split <;> rfl
  | accept grant result =>
    simp only [next]
    split
    · exact .inr ⟨_, rfl, rfl⟩
    · exact .inl rfl
  | createInvocation grant => exact .inr ⟨_, rfl, rfl⟩
  | execute grant attempt => exact .inr ⟨_, rfl, rfl⟩
  | completeAttempt grant attempt outcome threw => exact .inr ⟨_, rfl, rfl⟩
  | completeInvocation grant result => exact .inr ⟨_, rfl, rfl⟩
  | returned result => exact .inl rfl
  | replayed result => exact .inl rfl
  | threw => exact .inl rfl

theorem step_log {requests : Nat → ToolCallRequest} (p : Pc) :
    (step deps requests i input w p).1.log = w.log ∨
      ∃ o, o.call = i ∧ (step deps requests i input w p).1.log = o :: w.log := by
  unfold step
  cases input.fault with
  | none => exact next_log p
  | some fault =>
    cases fault with
    | before => exact .inl rfl
    | lost => exact next_log p

theorem faulted_grant (p : Pc) : p.faulted.grant = none := by
  cases p <;> rfl

/-- The step fails at once, or a gate refuses the call. -/
def Refuses (deps : Deps) (request : ToolCallRequest) (input : Input) : Prop :=
  input.fault = some .before ∨ ∃ refusal, gates deps request input.answers = .inl refusal

/-- A call without a grant that is refused where it starts records nothing and gets none. -/
theorem step_ungranted (requests : Nat → ToolCallRequest) (i : Nat) (input : Input) (w : World)
    {p : Pc} (hp : p.grant = none) (h : p = .start → Refuses deps (requests i) input) :
    (step deps requests i input w p).1 = w ∧ (step deps requests i input w p).2.grant = none := by
  have hnext : input.fault ≠ some .before → (next deps (requests i) i input w p).1 = w ∧
      (next deps (requests i) i input w p).2.grant = none := by
    intro hfault
    cases p with
    | start =>
      obtain ⟨refusal, hrefused⟩ := (h rfl).resolve_left hfault
      have hreturned : next deps (requests i) i input w .start = (w, .returned refusal) := by
        simp only [next, hrefused]
      rw [hreturned]
      exact ⟨rfl, rfl⟩
    | returned result => exact ⟨rfl, rfl⟩
    | replayed result => exact ⟨rfl, rfl⟩
    | threw => exact ⟨rfl, rfl⟩
    | _ => cases hp
  unfold step
  cases hfault : input.fault with
  | none => exact hnext (by simp [hfault])
  | some fault =>
    cases fault with
    | before => exact ⟨rfl, faulted_grant p⟩
    | lost => exact ⟨(hnext (by simp [hfault])).1, faulted_grant p⟩

end

/-- **A call that is refused where it starts executes no provider**, whatever the other calls do. -/
theorem not_executed {deps : Deps} {requests : Nat → ToolCallRequest} {i : Nat}
    (store : Idempotency.Postgres.Store) {s : List (Tick Input)}
    (h : Meets (step deps requests)
      (fun c a => Starts i c a → Refuses deps (requests i) a.input) (initial store) s) :
    ¬ExecutedBy i (run (step deps requests) (initial store) s).world.log := by
  let Inv (c : Config World Pc) : Prop :=
    (c.pc i).grant = none ∧ ∀ o ∈ c.world.log, o.call ≠ i
  have hstep : ∀ c a, Inv c → (Starts i c a → Refuses deps (requests i) a.input) →
      Inv (c.step (step deps requests) a) := by
    intro c a hinv hrefuses
    by_cases hi : a.call = i
    · subst hi
      have hkept := step_ungranted requests a.call a.input c.world hinv.1 fun hstart =>
        hrefuses ⟨rfl, hstart⟩
      refine ⟨?_, ?_⟩
      · rw [Config.step_pc_self]
        exact hkept.2
      · rw [Config.step_world, hkept.1]
        exact hinv.2
    · refine ⟨?_, ?_⟩
      · rw [Config.step_pc_ne _ _ (Ne.symm hi)]
        exact hinv.1
      · rw [Config.step_world]
        rcases step_log (c.pc a.call) with hlog | ⟨o, ho, hlog⟩
        · rw [hlog]
          exact hinv.2
        · rw [hlog]
          intro o' ho'
          rcases List.mem_cons.mp ho' with rfl | ho'
          · rw [ho]
            exact hi
          · exact hinv.2 o' ho'
  have hend := run_invariant_of_meets hstep (c := initial store)
    ⟨rfl, fun o ho => absurd ho List.not_mem_nil⟩ h
  rintro ⟨definition, execution, hexecuted⟩
  exact hend.2 _ hexecuted rfl

/-! ## The adapters and the gates -/

section

variable {g : Governance} {request : ToolCallRequest} {definition : ToolDefinition}
  {policy : ToolPolicyDecision}

theorem toDecision_eq_allow_iff (outcome : PolicyOutcome) :
    toDecision outcome = .allow ↔ outcome = .allow := by
  cases outcome <;> simp [toDecision]

/-- The adapter allows an autonomous call where the decision is ALLOW, and only there. -/
theorem autonomyAllowed_iff (h : evaluate g request definition = .ok policy) :
    policy.autonomyAllowed = true ↔ policy.decision = .allow := by
  unfold evaluate at h
  generalize ControlPlane.evaluate _ _ _ = decided at h
  cases decided with
  | error message => cases h
  | ok decision =>
    cases h
    rw [decide_eq_true_eq]
    exact (toDecision_eq_allow_iff decision.outcome).symm

/-- **A call whose decision is not ALLOW is refused before its approval is looked up.** -/
theorem authorize_of_not_allow (h : evaluate g request definition = .ok policy)
    (hdecision : policy.decision ≠ .allow) :
    ∃ refusal, authorize request definition policy = some refusal := by
  have hautonomy : policy.autonomyAllowed = false := by
    rw [← Bool.not_eq_true, autonomyAllowed_iff h]
    exact hdecision
  unfold authorize
  by_cases hdeny : policy.decision = .deny
  · exact ⟨_, if_pos hdeny⟩
  · rw [if_neg hdeny, hautonomy]
    dsimp only
    split
    · exact ⟨_, rfl⟩
    · exact ⟨_, rfl⟩

/-- The gates refuse what the policy refuses. -/
theorem gates_of_authorize {deps : Deps} {answers : Answers}
    (hresolution : ∀ d, answers.resolution = .resolved d → d = definition)
    (h : ∃ refusal, authorize request definition answers.policy = some refusal) :
    ∃ refusal, gates deps request answers = .inl refusal := by
  obtain ⟨refusal, hrefusal⟩ := h
  unfold gates
  cases hresolved : answers.resolution with
  | unresolved kind reason => exact ⟨_, rfl⟩
  | resolved d =>
    obtain rfl := hresolution d hresolved
    dsimp only
    rw [hrefusal]
    exact ⟨refusal, rfl⟩

/-- A wired step refuses a call whose decision is not ALLOW. -/
theorem refuses_of_wired {deps : Deps} {input : Input} (h : Wired g request definition input)
    {decision : Decision} (hdecided : Decided g request definition decision)
    (hdecision : decision ≠ .allow) : Refuses deps request input := by
  by_cases hfault : input.fault = some .before
  · exact .inl hfault
  · obtain ⟨policy, hpolicy, rfl⟩ := hdecided
    obtain rfl : policy = input.answers.policy :=
      Except.ok.inj (hpolicy.symm.trans (h.policy hfault))
    exact .inr (gates_of_authorize h.resolution (authorize_of_not_allow hpolicy hdecision))

/-- A call whose decision is not ALLOW is not authorized, approved or not. -/
theorem authorization_of_not_allow {decision : Decision}
    (hdecided : Decided g request definition decision) (hdecision : decision ≠ .allow) :
    authorization g request definition ≠ .ok none := by
  obtain ⟨policy, hpolicy, rfl⟩ := hdecided
  obtain ⟨refusal, hrefusal⟩ := authorize_of_not_allow hpolicy hdecision
  have hrefused : authorization g request definition = .ok (some refusal) := by
    unfold authorization
    rw [hpolicy]
    simp only [bind, Except.bind, hrefusal]
  rw [hrefused]
  exact nofun

end

/-- **The approval of a call governs it exactly where it changes nothing**: where the policy does
not send the call to approval, a required capability is missing, or no approval is bound. -/
theorem approvalGoverns_iff (g : Governance) (request : ToolCallRequest)
    (definition : ToolDefinition) :
    ApprovalGoverns g request definition ↔
      ¬(Decided g request definition .requireApproval ∧ Covered g request definition ∧
        Bound g request definition) := by
  constructor
  · rintro h ⟨hdecided, hcovered, hbound⟩
    exact authorization_of_not_allow hdecided nofun (h.runs hdecided hcovered hbound)
  · intro h
    refine ⟨fun hdecided hcovered hbound => absurd ⟨hdecided, hcovered, hbound⟩ h, ?_⟩
    rintro hcase deps requests store s i rfl hwired
    obtain ⟨decision, hdecided, hdecision⟩ : ∃ decision,
        Decided g (requests i) definition decision ∧ decision ≠ .allow := by
      rcases hcase with hdenied | ⟨hdecided, -⟩
      · exact ⟨.deny, hdenied, nofun⟩
      · exact ⟨.requireApproval, hdecided, nofun⟩
    exact not_executed store (hwired.mono fun c a hok hstarts =>
      refuses_of_wired (hok hstarts) hdecided hdecision)

/-! ## An approved call -/

/-- Risky calls need an approval, and every approval is there. -/
def approvingGovernance : Governance where
  collation _ _ := true
  stop := .stopped false
  table := []
  autonomyRule := some ⟨"r1", "t1", 3, "HIGH", .requireApproval, 1 / 2⟩
  approvalBinding := { hasValidApproval := fun _ => .ok true }
  hashInput _ := "e3b0c44298fc1c149afbf4c8996fb924"

def mailCall : ToolCallRequest where
  toolCallId := "c1"
  tenantId := "t1"
  missionId := some "m1"
  executionId := some "e1"
  agentId := some "a1"
  agentVersion := some "1.0.0"
  capabilities := ["email"]
  idempotencyKey := some "k1"
  action := none
  autonomyLevel := some (.finite 3)
  input := none

def mailDefinition : ToolDefinition where
  toolDefinitionId := "d1"
  toolId := "mail"
  version := "1"
  inputSchema := none
  outputSchema := none
  requiredCapabilities := ["email"]
  sideEffectClass := .irreversibleExternal
  riskCategory := "HIGH"
  requiredApproval := false
  providerId := "p1"
  maxRetries := 0
  idempotencyRequired := true

/-- **A call that is sent to approval and approved is denied.** -/
theorem mail_not_governed :
    (∃ policy, evaluate approvingGovernance mailCall mailDefinition = .ok policy ∧
      policy.decision = .requireApproval) ∧
    verify approvingGovernance mailCall mailDefinition = .ok ⟨true, none⟩ ∧
    authorization approvingGovernance mailCall mailDefinition = .ok (some (terminal mailCall
      .policyDenied ⟨"AUTONOMY_DENIED", "autonomous invocation not permitted", false⟩)) ∧
    ¬ApprovalGoverns approvingGovernance mailCall mailDefinition := by
  have hpolicy : evaluate approvingGovernance mailCall mailDefinition =
      .ok ⟨.requireApproval, ["email"], false, some "1.0.0"⟩ := by
    have hbase : ControlPlane.tightenOutcome .allow (ControlPlane.tightenOutcome
        (ControlPlane.evaluateAutonomy (.finite 3) "HIGH" (.finite 1) .allow) .requireApproval) =
          .requireApproval := by decide +kernel
    simp only [evaluate, aiRequest, ControlPlane.evaluate, approvingGovernance,
      ControlPlane.findRules, List.filter_nil, List.mergeSort_nil, List.map_nil, List.length_nil,
      if_true, mailCall, mailDefinition, Option.getD_some, ne_eq, not_true_eq_false, if_false, hbase]
    rfl
  have hverify : verify approvingGovernance mailCall mailDefinition = .ok ⟨true, none⟩ := rfl
  have hrefused : authorization approvingGovernance mailCall mailDefinition =
      .ok (some (terminal mailCall .policyDenied
        ⟨"AUTONOMY_DENIED", "autonomous invocation not permitted", false⟩)) := by
    unfold authorization
    rw [hpolicy]
    rfl
  refine ⟨⟨_, hpolicy, rfl⟩, hverify, hrefused, fun h => ?_⟩
  have hruns := h.runs ⟨_, hpolicy, rfl⟩ ?_ ⟨_, hverify, rfl⟩
  · rw [hrefused] at hruns
    cases hruns
  · intro policy hother c hc
    obtain rfl := Except.ok.inj (hpolicy.symm.trans hother)
    exact hc

end VegaRevenue.ToolGateway
