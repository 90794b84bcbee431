import Mathlib.Algebra.Order.Ring.Unbundled.Rat
import Mathlib.Data.List.Sort
import VegaRevenue.LlmGateway.Ledger
import VegaRevenue.Shared.Result
import VegaRevenue.Shared.Json

/-!
# Routing of model calls

`LLMRouter` ranks the models of the catalog and tries them in turn. What the catalog, the
registry, the providers and the usage listener answer is an input of the call.

* `rankCandidates` — the candidates and their order
* `settle` — what an attempt leaves on the ledger
* `invoke` — one call
-/

namespace VegaRevenue.LlmGateway

/-! ## Requests and answers -/

structure LLMProviderRequest where
  tenantId : String
  executionId : String
  capability : String
  modelId : Option String := none
  modelFamily : Option String := none
  /-- Whether there is a `structuredOutputSchema`. -/
  structuredOutput : Bool := false
  maxTokens : Rat
  latencyClass : Option String := none
  costPerInputTokenUsd : Option Rat := none
  costPerOutputTokenUsd : Option Rat := none
  budget : Option ExecutionBudgetLimit := none
  llmCallId : Option String := none

structure LLMProviderResult where
  providerId : String
  modelId : String
  providerRequestId : String
  content : String
  structured : Option Json := none
  inputTokens : Rat
  outputTokens : Rat
  totalTokens : Rat
  costUsd : Rat
  latencyMs : Rat
  finishReason : String

structure TokenUsage where
  inputTokens : Rat
  outputTokens : Rat
  totalTokens : Rat

structure LLMProviderError where
  message : String
  providerId : String
  code : String
  retryable : Bool
  submitted : Bool := false
  usage : Option TokenUsage := none

/-- What the code throws. -/
inductive Thrown where
  | providerError (err : LLMProviderError)
  | noEligibleModel (message : String)
  | ambiguousRouting (tiedModels : List String)
  /-- Any other value, with the message of it as an `Error`. -/
  | other (message : String)

def Thrown.message : Thrown → String
  | providerError err => err.message
  | noEligibleModel message => message
  | ambiguousRouting tiedModels =>
    "Ambiguous LLM routing: cannot deterministically choose between " ++
      ", ".intercalate tiedModels
  | other message => message

/-! ## Ranking -/

inductive Lifecycle where
  | active
  | deprecated
  | retired
  | draft
  | testing
deriving DecidableEq

structure LLMModel where
  modelId : String
  providerId : String
  family : Option String := none
  capabilities : List String
  maxContextTokens : Rat
  costPerInputTokenUsd : Rat
  costPerOutputTokenUsd : Rat
  supportsStructuredOutput : Bool
  latencyClass : String
  lifecycle : Lifecycle
  priority : Rat
deriving DecidableEq

structure LLMRouterConfig where
  defaultCapability : Option String := none
  maxAttempts : Option Int := none

structure LLMModelQuery where
  capability : String
  maxTokens : Rat
  structuredOutputRequired : Bool
  budget : Option ExecutionBudgetLimit
  latencyClass : String
  modelFamily : Option String
  modelId : Option String

def query (config : LLMRouterConfig) (request : LLMProviderRequest) : LLMModelQuery where
  capability :=
    if request.capability ≠ "" then request.capability
    else if blank config.defaultCapability then "chat" else config.defaultCapability.getD "chat"
  maxTokens := request.maxTokens
  structuredOutputRequired := request.structuredOutput
  budget := request.budget
  latencyClass := request.latencyClass.getD "background"
  modelFamily := request.modelFamily
  modelId := request.modelId

/-- What the filter of `rankCandidates` keeps. -/
def eligible (query : LLMModelQuery) (m : LLMModel) : Bool :=
  m.lifecycle = .active && query.maxTokens ≤ m.maxContextTokens &&
  (!query.structuredOutputRequired || m.supportsStructuredOutput) &&
  query.budget.all (fun budget =>
    (if 0 < m.costPerOutputTokenUsd then m.costPerOutputTokenUsd * query.maxTokens else 0) ≤
        budget.maxCostUsd &&
      query.maxTokens ≤ budget.maxTokens) &&
  (blank query.modelFamily || m.family = query.modelFamily) &&
  (blank query.modelId || some m.modelId = query.modelId)

def latencyRank (latencyClass : String) : Int :=
  if latencyClass = "interactive" then 1
  else if latencyClass = "background" then 2
  else if latencyClass = "batch" then 3
  else 9

structure Score where
  priority : Rat
  cost : Rat
  latency : Nat
deriving DecidableEq

def score (query : LLMModelQuery) (model : LLMModel) : Score where
  priority :=
    model.priority + (if query.capability ∈ model.capabilities then 0 else 1000) +
      (if !query.structuredOutputRequired || model.supportsStructuredOutput then 0 else 1000)
  cost := model.costPerOutputTokenUsd
  latency := (latencyRank model.latencyClass - latencyRank query.latencyClass).natAbs

/-- `a.localeCompare(b)`, an order of all strings. -/
structure Collation where
  localeCompare : String → String → Ordering
  swap : ∀ a b, localeCompare b a = (localeCompare a b).swap
  trans : ∀ a b c, (localeCompare a b).isLE → (localeCompare b c).isLE → (localeCompare a c).isLE

/-- The order by code units. -/
def codeUnits : Collation where
  localeCompare := fun a b => compare a b
  swap := fun _ _ => Std.OrientedOrd.eq_swap
  trans := fun _ _ _ => Std.TransCmp.isLE_trans

def compareModels (collation : Collation) (query : LLMModelQuery) (a b : LLMModel) : Ordering :=
  ((compare (score query a).priority (score query b).priority).then
    (compare (score query a).cost (score query b).cost)).then
      ((compare (score query a).latency (score query b).latency).then
        (collation.localeCompare a.modelId b.modelId))

def rankCandidates (collation : Collation) (query : LLMModelQuery) (models : List LLMModel) :
    Except Thrown (List LLMModel) :=
  let sorted :=
    (models.filter (eligible query)).insertionSort fun a b =>
      (compareModels collation query a b).isLE = true
  match sorted with
  | [] => .ok []
  | first :: _ =>
    let tied := sorted.filter fun m => score query m = score query first
    if 1 < tied.length then .error (.ambiguousRouting (tied.map (·.modelId))) else .ok sorted

/-! ## Attempts -/

/-- What an attempt meets: the provider, and the listener at the emission of the attempt and at the
second one of a success that the listener made fail. -/
structure AttemptAnswers where
  readiness : Option Thrown := none
  invoke : Except Thrown LLMProviderResult
  emit : Option Thrown := none
  emitFailed : Option Thrown := none

/-- `PER_CALL_TOKEN_ESTIMATE`. -/
def perCallTokenEstimate : Rat := 1024

section Attempts

variable (request : LLMProviderRequest) (model : LLMModel) (attemptKey : String)

def outputPrice : Rat := request.costPerOutputTokenUsd.getD model.costPerOutputTokenUsd

def inputPrice : Rat := request.costPerInputTokenUsd.getD model.costPerInputTokenUsd

def estimate : Charge where
  costUsd := outputPrice request model * request.maxTokens
  tokens := min request.maxTokens perCallTokenEstimate

/-- The charge of the usage that an error reports. -/
def usageCharge (usage : TokenUsage) : Charge where
  costUsd :=
    usage.inputTokens * inputPrice request model + usage.outputTokens * outputPrice request model
  tokens := usage.totalTokens

def resultCharge (result : LLMProviderResult) : Charge := ⟨result.costUsd, result.totalTokens⟩

/-- How the loop goes on after an attempt. -/
inductive AttemptEnd where
  | returned (result : LLMProviderResult)
  | threw (thrown : Thrown)
  | next (err : LLMProviderError)

def unexpected (thrown : Thrown) : Thrown :=
  .providerError {
    message := thrown.message, providerId := "router", code := "ROUTER_UNEXPECTED_ERROR"
    retryable := false }

/-- The `catch` of an attempt. -/
def onError (ledger : Ledger) (thrown : Thrown) (emit : Option Thrown) : Ledger × AttemptEnd :=
  match thrown with
  | .providerError err =>
    let ledger :=
      if !err.submitted then ledger.release request.executionId attemptKey
      else
        match err.usage with
        | some usage =>
          ledger.commitActual request.executionId attemptKey (usageCharge request model usage)
        | none => ledger.retain request.executionId attemptKey
    match emit with
    | some thrown => (ledger, .threw thrown)
    | none => (ledger, if err.retryable then .next err else .threw (.providerError err))
  | thrown => (ledger, .threw (unexpected thrown))

/-- An attempt after its reservation. -/
def settle (ledger : Ledger) (a : AttemptAnswers) : Ledger × AttemptEnd :=
  match a.invoke with
  | .error thrown => onError request model attemptKey ledger thrown a.emit
  | .ok result =>
    let ledger := ledger.commitActual request.executionId attemptKey (resultCharge result)
    match a.emit with
    | none => (ledger, .returned result)
    | some thrown => onError request model attemptKey ledger thrown a.emitFailed

/-- The reservation; none where the budget blocks the attempt. -/
def reserve (ledger : Ledger) : Option Ledger :=
  match request.budget with
  | some budget =>
    ledger.tryReserve request.executionId attemptKey (estimate request model) budget
  | none => some ledger

end Attempts

/-! ## Calls -/

/-- What a call reads beside the ledger. -/
structure Call where
  request : LLMProviderRequest
  listEligibleModels : Except Thrown (List LLMModel)
  /-- The providers that are registered. -/
  registered : String → Bool := fun _ => true
  randomUUID : String
  answers : Nat → AttemptAnswers

def Call.llmCallId (call : Call) : String := call.request.llmCallId.getD call.randomUUID

/-- The key of the attempt with this index, which counts from 1. -/
def Call.attemptKey (call : Call) (index : Nat) : String := s!"{call.llmCallId}:{index}"

/-- A provider request that was dispatched, with its actual charge where that is known. -/
structure Dispatch where
  executionId : String
  budget : Option ExecutionBudgetLimit
  estimate : Charge
  actual : Option Charge

/-- The charge of a provider's answer, where it is known. -/
def actualCharge (request : LLMProviderRequest) (model : LLMModel) :
    Except Thrown LLMProviderResult → Option Charge
  | .ok result => some (resultCharge result)
  | .error (.providerError err) =>
    if !err.submitted then some 0 else err.usage.map (usageCharge request model)
  | .error _ => none

/-- The request of an attempt. -/
def dispatchOf (request : LLMProviderRequest) (model : LLMModel) (a : AttemptAnswers) :
    Dispatch where
  executionId := request.executionId
  budget := request.budget
  estimate := estimate request model
  actual := actualCharge request model a.invoke

/-- What a call returned or threw, with the ledger after it and the requests it dispatched. -/
structure Invocation where
  ledger : Ledger
  dispatched : List Dispatch
  result : Except Thrown LLMProviderResult

def allFailed (capability : String) (errors : List LLMProviderError) : Thrown :=
  .providerError {
    message := s!"All providers failed for capability {capability}: " ++
      "; ".intercalate (errors.map fun e => s!"{e.providerId}: {e.message}")
    providerId := "router", code := "ALL_PROVIDERS_FAILED"
    retryable := errors.any (·.retryable) }

def budgetExhausted (capability : String) : Thrown :=
  .providerError {
    message := s!"Execution budget exhausted for capability {capability}"
    providerId := "router", code := "BUDGET_EXHAUSTED", retryable := false }

def notRegistered (model : LLMModel) : LLMProviderError where
  message := s!"Provider {model.providerId} not registered"
  providerId := model.providerId
  code := "PROVIDER_NOT_REGISTERED"
  retryable := false

/-- The loop over the candidates; so many attempts were made before. -/
def attemptLoop (call : Call) (capability : String) (attemptIndex : Nat)
    (errors : List LLMProviderError) (ledger : Ledger) : List LLMModel → Invocation
  | [] => ⟨ledger, [], .error (allFailed capability errors)⟩
  | model :: rest =>
    let a := call.answers (attemptIndex + 1)
    let attemptKey := call.attemptKey (attemptIndex + 1)
    if !call.registered model.providerId then
      attemptLoop call capability (attemptIndex + 1) (errors ++ [notRegistered model]) ledger rest
    else
      match a.readiness with
      | some thrown => ⟨ledger, [], .error thrown⟩
      | none =>
        match reserve call.request model attemptKey ledger with
        | none => ⟨ledger, [], .error (a.emit.getD (budgetExhausted capability))⟩
        | some reserved =>
          let dispatch := dispatchOf call.request model a
          match settle call.request model attemptKey reserved a with
          | (ledger, .returned result) => ⟨ledger, [dispatch], .ok result⟩
          | (ledger, .threw thrown) => ⟨ledger, [dispatch], .error thrown⟩
          | (ledger, .next err) =>
            let invocation :=
              attemptLoop call capability (attemptIndex + 1) (errors ++ [err]) ledger rest
            { invocation with dispatched := dispatch :: invocation.dispatched }

/-- `list.slice(0, count)`. -/
def slice (list : List LLMModel) (count : Int) : List LLMModel :=
  if 0 ≤ count then list.take count.toNat else list.take (list.length + count).toNat

/-- The candidates that a call tries, in order. -/
def candidates (collation : Collation) (config : LLMRouterConfig) (call : Call) :
    Except Thrown (List LLMModel) := do
  let models ← call.listEligibleModels
  let query := query config call.request
  if models = [] then
    throw (.noEligibleModel s!"No eligible model for capability {query.capability}")
  let ordered ← rankCandidates collation query models
  if ordered = [] then
    throw (.noEligibleModel s!"No eligible model after ranking for capability {query.capability}")
  return slice ordered (config.maxAttempts.getD ordered.length)

/-- `LLMRouter.invoke`. -/
def invoke (collation : Collation) (config : LLMRouterConfig) (ledger : Ledger) (call : Call) :
    Invocation :=
  match candidates collation config call with
  | .error thrown => ⟨ledger, [], .error thrown⟩
  | .ok attempts =>
    attemptLoop call (query config call.request).capability 0 [] ledger attempts

end VegaRevenue.LlmGateway
