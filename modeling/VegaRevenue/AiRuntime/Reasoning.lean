import VegaRevenue.AiRuntime.AgentExecutor
import VegaRevenue.LlmGateway.Router

/-!
# The reasoning engine

`ProductionReasoningEngine.reason` asks the router for a structured output and lets the model
repair what its validator refuses. The router, the validator and the store of the artifacts answer
by what they are asked; the request comes from the executor, so its key is the key of the execution
and its tenant that of the context.

* `attemptLoop` — the attempts; the answers that were refused are kept beside what the code keeps
* `reason` — what the attempts come to
* `reason_usage` — the usage that is reported is the one of the last answer
-/

namespace VegaRevenue.AiRuntime

open LlmGateway (LLMProviderRequest LLMProviderResult Thrown Charge)

/-! ## What the engine asks and is answered -/

structure LLMMessage where
  role : String
  content : String
deriving DecidableEq

structure LLMRequest extends LLMProviderRequest where
  missionId : String
  agentId : String
  agentVersion : String
  messages : List LLMMessage
  temperature : Rat
  deadline : Option Date
  idempotencyKey : String

structure OutputValidationResult where
  valid : Bool
  schemaViolations : Option (List String) := none
  policyViolations : Option (List String) := none

structure ReasoningArtifact where
  tenantId : String
  missionId : String
  executionId : String
  agentId : String
  agentVersion : String
  capability : Option String
  idempotencyKey : String
  rationale : String
  conclusion : String
  confidence : Rat
  evidence : List String
  requiredApprovals : Option (List String)
  proposedActions : Option (List ProposedAction)
  assumptions : Option (List String)
  modelUsage : ModelUsage
  providerId : String
  modelId : String
  providerRequestId : String
  latencyMs : Rat

structure ProductionReasoningEngineDeps where
  invoke : LLMRequest → Except Thrown LLMProviderResult
  validate : AIExecutionRequest → (proposedOutput : Json) → Except String OutputValidationResult
  /-- The message a save throws with. -/
  save : ReasoningArtifact → Option String
  maxRetries : Option Int := none
  /-- `JSON.parse`, none where it throws. -/
  parse : String → Option Json
  /-- `JSON.stringify`. -/
  stringify : Json → String
  /-- `String` of a number. -/
  numberText : Rat → String

/-! ## Values as text -/

section Text

variable (numberText : Rat → String)

mutual

/-- `String(v)`. -/
def jsonText : Json → String
  | .null => "null"
  | .bool b => if b then "true" else "false"
  | .num q => numberText q
  | .str s => s
  | .arr elements => ",".intercalate (elementTexts elements)
  | .obj _ => "[object Object]"

/-- The texts that `join` puts together: nothing for a `null`. -/
def elementTexts : List Json → List String
  | [] => []
  | .null :: vs => "" :: elementTexts vs
  | v :: vs => jsonText v :: elementTexts vs

end

/-- `v[name] ?? …`. -/
def given (v : Json) (name : String) : Option Json :=
  match v.member? name with
  | some .null => none
  | found => found

/-- `String(v[name] ?? default)`. -/
def textOr (v : Json) (name default : String) : String :=
  ((given v name).map (jsonText numberText)).getD default

/-- `Array.isArray(v[name]) ? v[name].map(String) : []`. -/
def textsOf (v : Json) (name : String) : List String :=
  match v.member? name with
  | some (.arr elements) => elements.map (jsonText numberText)
  | _ => []

/-! ## Outputs -/

def riskCategories : List String := ["LOW", "MEDIUM", "HIGH", "CRITICAL"]

def parseProposedAction (a : Json) (i : Nat) : Except String ProposedAction :=
  match a with
  | .null => .error "Cannot read properties of null (reading 'actionId')"
  | a => .ok {
      actionId := textOr numberText a "actionId" s!"action-{i}"
      capability := textOr numberText a "capability" "unknown"
      toolId := textOr numberText a "toolId" "unknown"
      toolVersion := textOr numberText a "toolVersion" "1.0.0"
      input := (given a "input").getD (.obj [])
      rationale := textOr numberText a "rationale" ""
      riskCategory :=
        match a.member? "riskCategory" with
        | some (.str s) => if riskCategories.contains s then s else "MEDIUM"
        | _ => "MEDIUM" }

def parseProposedActions (raw : Json) : Except String (Option (List ProposedAction)) :=
  match raw.member? "proposedActions" with
  | some (.arr elements) =>
    (elements.zipIdx.mapM fun p => parseProposedAction numberText p.1 p.2).map some
  | _ => .ok none

def toModelUsage (result : LLMProviderResult) : ModelUsage where
  model := result.modelId
  inputTokens := result.inputTokens
  outputTokens := result.outputTokens
  costUsd := result.costUsd
  provider := some result.providerId
  latencyMs := some result.latencyMs

/-- A `null` has no members, and reading one throws. -/
def toReasoningOutput (raw : Json) (result : LLMProviderResult) : Except String ReasoningOutput :=
  match raw with
  | .null => .error "Cannot read properties of null (reading 'rationale')"
  | raw => (parseProposedActions numberText raw).map fun proposedActions => {
      rationale := textOr numberText raw "rationale" ""
      conclusion := textOr numberText raw "conclusion" "unknown"
      confidence :=
        match raw.member? "confidence" with
        | some (.num q) => max 0 (min 1 q)
        | _ => 1 / 2
      evidence := textsOf numberText raw "evidence"
      requiredApprovals := some (textsOf numberText raw "requiredApprovals")
      proposedActions := proposedActions
      assumptions := some (textsOf numberText raw "assumptions")
      modelUsage := some (toModelUsage result) }

theorem toReasoningOutput_modelUsage {raw : Json} {result : LLMProviderResult}
    {output : ReasoningOutput} (h : toReasoningOutput numberText raw result = .ok output) :
    output.modelUsage = some (toModelUsage result) := by
  unfold toReasoningOutput at h
  cases raw with
  | null => cases h
  | _ =>
    dsimp only at h
    cases hactions : parseProposedActions numberText _ with
    | error message =>
      rw [hactions] at h
      cases h
    | ok proposedActions =>
      rw [hactions] at h
      cases h
      rfl

end Text

/-! ## The request -/

def toMessages (promptContext : PromptContext) (observations : List String) : List LLMMessage :=
  (if promptContext.userMessage ≠ "" then [⟨"system", promptContext.userMessage⟩] else []) ++
  (match promptContext.memoryContext with
    | some (m :: ms) => [⟨"user", "\n".intercalate (m :: ms)⟩]
    | _ => []) ++
  (match promptContext.knowledgeContext with
    | some (k :: ks) => [⟨"user", "\n".intercalate (k :: ks)⟩]
    | _ => []) ++
  (if promptContext.toolsAvailable ≠ [] then
    [⟨"user", "Authorized capabilities: " ++ ", ".intercalate promptContext.toolsAvailable⟩]
    else []) ++
  (if observations ≠ [] then [⟨"user", "Observations:\n" ++ "\n".intercalate observations⟩]
    else [])

def inferMaxTokens (promptContext : PromptContext) : Rat := promptContext.maxTokens.getD 1000

def buildLLMRequest (request : ReasoningRequest) : LLMRequest where
  tenantId := request.execution.tenantId
  missionId := request.execution.missionId
  executionId := request.execution.executionId
  agentId := request.execution.agentId
  agentVersion := request.execution.agentVersion
  capability := "reasoning"
  modelFamily := request.promptContext.modelFamily
  messages := toMessages request.promptContext request.observations
  structuredOutput := true
  maxTokens := min (inferMaxTokens request.promptContext) request.remainingBudget.maxTokens
  temperature := 1 / 5
  deadline := request.execution.deadline
  idempotencyKey := request.execution.idempotencyKey
  budget := some ⟨request.remainingBudget.maxCostUsd, request.remainingBudget.maxTokens⟩
  latencyClass := some "background"

def buildCorrectionMessage (validation : OutputValidationResult) : String :=
  let reasons := validation.schemaViolations.getD [] ++ validation.policyViolations.getD []
  "Your previous response failed validation. Fix it and reply with only the corrected JSON " ++
    "object. Violations: " ++ "; ".intercalate reasons

/-! ## The attempts -/

/-- What the loop keeps. -/
structure Repair where
  llmRequest : LLMRequest
  lastValidation : Option OutputValidationResult := none
  accumulatedCostUsd : Rat := 0
  accumulatedTokens : Rat := 0
  /-- The answers that were refused; the code forgets them. -/
  rejected : List LLMProviderResult := []

/-- How the loop ends. -/
inductive AttemptsEnd where
  | accepted (raw : Json) (result : LLMProviderResult)
  | stoppedByBudget
  | exhausted
  /-- With the answer that was not validated. -/
  | threw (message : String) (unvalidated : Option LLMProviderResult)

def AttemptsEnd.last : AttemptsEnd → Option LLMProviderResult
  | accepted _ result => some result
  | threw _ unvalidated => unvalidated
  | _ => none

/-- The accumulated spend leaves no room in the budget. -/
def Repair.exhausts (s : Repair) (budget : ExecutionBudget) : Bool :=
  budget.maxCostUsd ≤ s.accumulatedCostUsd || budget.maxTokens ≤ s.accumulatedTokens

def Repair.charged (s : Repair) (result : LLMProviderResult) : Repair :=
  { s with
    accumulatedCostUsd := s.accumulatedCostUsd + result.costUsd
    accumulatedTokens := s.accumulatedTokens + result.totalTokens }

section Engine

variable (deps : ProductionReasoningEngineDeps)

def rawText (raw : Json) : String :=
  match raw with
  | .str s => s
  | raw => deps.stringify raw

/-- The next attempt is given the answer and what is wrong with it. -/
def Repair.corrected (s : Repair) (llmRequest : LLMRequest) (raw : Json)
    (validation : OutputValidationResult) (result : LLMProviderResult) : Repair :=
  { s with
    lastValidation := some validation
    llmRequest := { llmRequest with messages := llmRequest.messages ++
      [⟨"assistant", rawText deps raw⟩, ⟨"user", buildCorrectionMessage validation⟩] }
    rejected := s.rejected ++ [result] }

/-- What does not parse is the text. -/
def tryParse (text : String) : Json := (deps.parse text).getD (.str text)

/-- A structured answer that is `null` counts as none. -/
def extractRaw (result : LLMProviderResult) : Json :=
  match result.structured with
  | some .null | none => tryParse deps result.content
  | some structured => structured

def attemptLoop (request : ReasoningRequest) :
    (remaining attempt : Nat) → Repair → Repair × AttemptsEnd
  | 0, _, s => (s, .exhausted)
  | remaining + 1, attempt, s =>
    if 0 < attempt ∧ s.exhausts request.remainingBudget then (s, .stoppedByBudget)
    else
      let llmRequest := { s.llmRequest with
        llmCallId := some s!"{request.execution.idempotencyKey}:reasoning:{attempt}" }
      match deps.invoke llmRequest with
      | .error (.providerError err) =>
        if err.code = "BUDGET_EXHAUSTED" then (s, .stoppedByBudget)
        else (s, .threw err.message none)
      | .error thrown => (s, .threw thrown.message none)
      | .ok result =>
        let raw := extractRaw deps result
        match deps.validate request.execution raw with
        | .error message => (s.charged result, .threw message (some result))
        | .ok validation =>
          if validation.valid then (s.charged result, .accepted raw result)
          else attemptLoop request remaining (attempt + 1)
            ((s.charged result).corrected deps llmRequest raw validation result)

def maxAttempts : Int := deps.maxRetries.getD 2 + 1

def runAttempts (request : ReasoningRequest) : Repair × AttemptsEnd :=
  attemptLoop deps request (maxAttempts deps).toNat 0 { llmRequest := buildLLMRequest request }

/-! ## Reasoning -/

def toArtifact (request : ReasoningRequest) (reasoning : ReasoningOutput)
    (result : Option LLMProviderResult) : ReasoningArtifact where
  tenantId := request.execution.tenantId
  missionId := request.execution.missionId
  executionId := request.execution.executionId
  agentId := request.execution.agentId
  agentVersion := request.execution.agentVersion
  capability := request.execution.capabilities.head?
  idempotencyKey := request.execution.idempotencyKey
  rationale := reasoning.rationale
  conclusion := reasoning.conclusion
  confidence := reasoning.confidence
  evidence := reasoning.evidence
  requiredApprovals := reasoning.requiredApprovals
  proposedActions := reasoning.proposedActions
  assumptions := reasoning.assumptions
  modelUsage := reasoning.modelUsage.getD ⟨"none", 0, 0, 0, none, none⟩
  providerId := (result.map (·.providerId)).getD "none"
  modelId := (result.map (·.modelId)).getD "none"
  providerRequestId := (result.map (·.providerRequestId)).getD "none"
  latencyMs := (result.map (·.latencyMs)).getD 0

def nullUsage : ModelUsage := ⟨"none", 0, 0, 0, some "none", some 0⟩

/-- The output where no answer was accepted. -/
def fallback (stoppedByBudget : Bool) (lastValidation : Option OutputValidationResult) :
    ReasoningOutput where
  rationale :=
    if stoppedByBudget then
      "Reasoning repair stopped: execution budget exhausted before a valid structured output " ++
        "was produced."
    else
      let violations := (lastValidation.bind (·.schemaViolations)).map ("; ".intercalate ·)
      s!"Model output failed structured validation after {maxAttempts deps} attempts: " ++
        violations.getD "unknown"
  conclusion := if stoppedByBudget then "budget_exhausted" else "invalid_structured_output"
  confidence := 0
  evidence := (lastValidation.bind (·.schemaViolations)).getD []
  requiredApprovals := some []
  proposedActions := some []
  assumptions := some ["Output did not conform to the required reasoning schema."]
  modelUsage := some nullUsage

/-- An output is returned once its artifact is saved. -/
def saved (request : ReasoningRequest) (reasoning : ReasoningOutput)
    (result : Option LLMProviderResult) : Except String ReasoningOutput :=
  match deps.save (toArtifact request reasoning result) with
  | some message => .error message
  | none => .ok reasoning

/-- The output the attempts come to. -/
def concludeAttempts (request : ReasoningRequest) (s : Repair) :
    AttemptsEnd → Except String ReasoningOutput
  | .accepted raw result => do
    let reasoning ← toReasoningOutput deps.numberText raw result
    saved deps request reasoning (some result)
  | .stoppedByBudget => saved deps request (fallback deps true s.lastValidation) none
  | .exhausted => saved deps request (fallback deps false s.lastValidation) none
  | .threw message _ => .error message

def reason (request : ReasoningRequest) : Except String ReasoningOutput :=
  let (s, last) := runAttempts deps request
  concludeAttempts deps request s last

/-- The answers of the router to the calls of a reasoning that were refused. -/
def rejectedAnswers (request : ReasoningRequest) : List LLMProviderResult :=
  (runAttempts deps request).1.rejected

/-- The answer that was not refused. -/
def lastAnswer (request : ReasoningRequest) : Option LLMProviderResult :=
  (runAttempts deps request).2.last

/-- The answers of the router to all calls of a reasoning. -/
def routerAnswers (request : ReasoningRequest) : List LLMProviderResult :=
  rejectedAnswers deps request ++ (lastAnswer deps request).toList

/-! ## What is reported -/

variable {deps} {request : ReasoningRequest}

def ModelUsage.charge (usage : ModelUsage) : Charge := ⟨usage.costUsd, usage.tokens⟩

/-- What an answer of the router used. -/
def answerCharge (result : LLMProviderResult) : Charge := (toModelUsage result).charge

def totalCharge (answers : List LLMProviderResult) : Charge := (answers.map answerCharge).sum

theorem totalCharge_append (answers answers' : List LLMProviderResult) :
    totalCharge (answers ++ answers') = totalCharge answers + totalCharge answers' := by
  unfold totalCharge
  rw [List.map_append, List.sum_append]

theorem saved_usage {reasoning output : ReasoningOutput} {result : Option LLMProviderResult}
    (h : saved deps request reasoning result = .ok output) : output = reasoning := by
  unfold saved at h
  cases hsave : deps.save (toArtifact request reasoning result) with
  | some message =>
    rw [hsave] at h
    cases h
  | none =>
    rw [hsave] at h
    exact (Except.ok.inj h).symm

theorem nullUsage_charge : nullUsage.charge = totalCharge [] := by decide +kernel

/-- **The usage that is reported is the one of the last answer**, and none where no answer was
accepted. -/
theorem reason_usage {output : ReasoningOutput} (h : reason deps request = .ok output) :
    output.usage.charge = totalCharge (lastAnswer deps request).toList := by
  unfold reason at h
  unfold lastAnswer
  generalize runAttempts deps request = run at h
  obtain ⟨s, ended⟩ := run
  cases ended with
  | accepted raw result =>
    simp only [concludeAttempts] at h
    cases hreasoning : toReasoningOutput deps.numberText raw result with
    | error message =>
      rw [hreasoning] at h
      cases h
    | ok reasoning =>
      rw [hreasoning] at h
      rw [saved_usage h]
      unfold ReasoningOutput.usage
      rw [toReasoningOutput_modelUsage _ hreasoning]
      exact (List.sum_singleton).symm
  | stoppedByBudget =>
    rw [saved_usage h]
    exact nullUsage_charge
  | exhausted =>
    rw [saved_usage h]
    exact nullUsage_charge
  | threw message unvalidated => cases h

/-- The usage of a reasoning is the one of all its calls where the refused answers used nothing. -/
theorem reason_usage_iff {output : ReasoningOutput} (h : reason deps request = .ok output) :
    output.usage.charge = totalCharge (routerAnswers deps request) ↔
      totalCharge (rejectedAnswers deps request) = 0 := by
  rw [reason_usage h, routerAnswers, totalCharge_append]
  exact right_eq_add (b := totalCharge (lastAnswer deps request).toList)

end Engine

end VegaRevenue.AiRuntime
