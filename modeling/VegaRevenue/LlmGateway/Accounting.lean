import VegaRevenue.Lib.Machine
import VegaRevenue.LlmGateway.Router

/-!
# The charges of an execution

The ledger keeps a charge under the key `callId:attempt` and counts what is under its keys. The
requests that were dispatched are counted one by one beside it.

* `accumulated_settle` — what an attempt adds to what was charged under the other keys
* `sound_attemptLoop` — a call whose attempts meet unused keys keeps the count
* `sound_of_unused` — in a run of such calls the ledger holds the sum of all requests dispatched and
  none of them was dispatched over the budget
* `sound_reused_false` — a call id that is used again makes the ledger forget a charge
-/

namespace VegaRevenue.LlmGateway

/-! ## What was dispatched -/

/-- The actual usage where it is known, the estimate where it is not. -/
def Dispatch.charge (d : Dispatch) : Charge := d.actual.getD d.estimate

def spent (dispatched : List Dispatch) (executionId : String) : Charge :=
  ((dispatched.filter (·.executionId = executionId)).map Dispatch.charge).sum

theorem spent_concat (dispatched : List Dispatch) (d : Dispatch) (executionId : String) :
    spent (dispatched ++ [d]) executionId =
      spent dispatched executionId + if d.executionId = executionId then d.charge else 0 := by
  unfold spent
  by_cases h : d.executionId = executionId
  · simp [List.filter_append, h]
  · simp [List.filter_append, h]

/-- The ledger with all requests that were dispatched. -/
structure Account where
  ledger : Ledger
  dispatched : List Dispatch

/-- The ledger holds the sum of the requests, and each of them fitted in its budget on top of those
before it. -/
structure Sound (s : Account) : Prop where
  accounted : ∀ executionId, s.ledger.getAccumulated executionId = spent s.dispatched executionId
  within : ∀ before d after, s.dispatched = before ++ d :: after → ∀ budget ∈ d.budget,
    budget.exceededBy (spent before d.executionId + d.estimate) = false

theorem sound_empty : Sound ⟨.empty, []⟩ where
  accounted := fun _ => rfl
  within := by
    intro before d after h
    cases before <;> cases h

/-- One more request keeps the account where it fits in its budget and its charge is added. -/
theorem Sound.concat {ledger ledger' : Ledger} {dispatched : List Dispatch} {d : Dispatch}
    (h : Sound ⟨ledger, dispatched⟩)
    (hwithin : ∀ budget ∈ d.budget,
      budget.exceededBy (ledger.getAccumulated d.executionId + d.estimate) = false)
    (hcharge : ledger'.getAccumulated d.executionId =
      ledger.getAccumulated d.executionId + d.charge)
    (hother : ∀ executionId, executionId ≠ d.executionId →
      ledger'.getAccumulated executionId = ledger.getAccumulated executionId) :
    Sound ⟨ledger', dispatched ++ [d]⟩ where
  accounted := by
    intro executionId
    rw [spent_concat]
    by_cases hd : d.executionId = executionId
    · subst hd
      rw [if_pos rfl, hcharge, h.accounted]
    · rw [if_neg hd, add_zero, hother executionId (Ne.symm hd), h.accounted]
  within := by
    intro before e after heq
    rcases List.append_eq_append_iff.mp heq with ⟨middle, hbefore, hafter⟩ | ⟨middle, hbefore, hafter⟩
    · cases middle with
      | nil =>
        rw [List.append_nil] at hbefore
        obtain ⟨rfl, rfl⟩ := List.cons.inj hafter
        intro budget hbudget
        rw [hbefore, ← h.accounted]
        exact hwithin budget hbudget
      | cons e' middle => cases middle <;> cases hafter
    · cases middle with
      | nil =>
        rw [List.append_nil] at hbefore
        obtain ⟨rfl, rfl⟩ := List.cons.inj hafter.symm
        intro budget hbudget
        rw [← hbefore, ← h.accounted]
        exact hwithin budget hbudget
      | cons e' middle =>
        obtain ⟨rfl, rfl⟩ := List.cons.inj hafter
        exact h.within before e middle hbefore

/-! ## One attempt -/

variable {request : LLMProviderRequest} {model : LLMModel} {attemptKey : String}
  {ledger reserved : Ledger} {a : AttemptAnswers}

/-- What the handler of an attempt does with the ledger, whatever the listener does. -/
theorem onError_ledger (ledger : Ledger) (err : LLMProviderError) (emit : Option Thrown) :
    (onError request model attemptKey ledger (.providerError err) emit).1 =
      if !err.submitted then ledger.release request.executionId attemptKey
      else
        match err.usage with
        | some usage =>
          ledger.commitActual request.executionId attemptKey (usageCharge request model usage)
        | none => ledger.retain request.executionId attemptKey := by
  unfold onError
  cases emit <;> rfl

theorem onError_other {executionId : String} (h : executionId ≠ request.executionId)
    (ledger : Ledger) (thrown : Thrown) (emit : Option Thrown) :
    (onError request model attemptKey ledger thrown emit).1.getAccumulated executionId =
      ledger.getAccumulated executionId := by
  cases thrown with
  | providerError err =>
    rw [onError_ledger]
    split
    · exact Ledger.accumulated_release_of_ne h
    · split
      · exact Ledger.accumulated_set_of_ne h _
      · rfl
  | noEligibleModel message => rfl
  | ambiguousRouting tiedModels => rfl
  | other message => rfl

/-- The charges of the other executions stay. -/
theorem settle_other {executionId : String} (h : executionId ≠ request.executionId)
    (ledger : Ledger) (a : AttemptAnswers) :
    (settle request model attemptKey ledger a).1.getAccumulated executionId =
      ledger.getAccumulated executionId := by
  unfold settle
  split
  · exact onError_other h _ _ _
  · dsimp only
    split
    · exact Ledger.accumulated_set_of_ne h _
    · rw [onError_other h]
      exact Ledger.accumulated_set_of_ne h _

/-- The listener does not answer a success with a provider error that would change its charge. -/
def ListenerKeeps (a : AttemptAnswers) : Prop :=
  ∀ result, a.invoke = .ok result → ∀ err, a.emit = some (.providerError err) →
    err.submitted = true ∧ err.usage = none

/-- **An attempt leaves what is held under the other keys and the charge of its answer; where that
is unknown, the ledger stays.** -/
theorem accumulated_settle (hlistener : ListenerKeeps a) :
    (settle request model attemptKey ledger a).1.getAccumulated request.executionId =
      match actualCharge request model a.invoke with
      | some actual =>
        ledger.getAccumulated request.executionId -
          ledger.held request.executionId attemptKey + actual
      | none => ledger.getAccumulated request.executionId := by
  unfold settle
  cases hinvoke : a.invoke with
  | ok result =>
    dsimp only [actualCharge]
    have hcommit :
        (ledger.commitActual request.executionId attemptKey
            (resultCharge result)).getAccumulated request.executionId =
          ledger.getAccumulated request.executionId -
            ledger.held request.executionId attemptKey + resultCharge result :=
      Ledger.accumulated_set _
    cases hemit : a.emit with
    | none => exact hcommit
    | some thrown =>
      cases thrown with
      | providerError err =>
        obtain ⟨hsubmitted, husage⟩ := hlistener result hinvoke err hemit
        dsimp only
        rw [onError_ledger, hsubmitted, husage]
        exact hcommit
      | noEligibleModel message => exact hcommit
      | ambiguousRouting tiedModels => exact hcommit
      | other message => exact hcommit
  | error thrown =>
    cases thrown with
    | providerError err =>
      dsimp only [actualCharge]
      rw [onError_ledger]
      cases err.submitted with
      | false => simp [Ledger.accumulated_release]
      | true =>
        cases err.usage with
        | none => rfl
        | some usage => exact Ledger.accumulated_set _
    | noEligibleModel message => rfl
    | ambiguousRouting tiedModels => rfl
    | other message => rfl

/-- **A reservation fits in the budget and is all that its key holds.** -/
theorem reserve_eq_some (h : reserve request model attemptKey ledger = some reserved) :
    (∀ budget ∈ request.budget, budget.exceededBy
        (ledger.getAccumulated request.executionId + estimate request model) = false) ∧
      reserved = if request.budget.isSome then
          ledger.set request.executionId attemptKey (estimate request model) else ledger := by
  unfold reserve at h
  cases hbudget : request.budget with
  | none =>
    rw [hbudget] at h
    cases h
    exact ⟨fun _ hb => (nomatch hb), rfl⟩
  | some budget =>
    rw [hbudget] at h
    obtain ⟨hfits, rfl⟩ := Ledger.tryReserve_eq_some h
    refine ⟨?_, rfl⟩
    rintro _ ⟨rfl⟩
    exact hfits

/-- What an attempt meets: nothing is held under its key, the request has a budget where the
provider's usage stays unknown, and the listener keeps the charge of a success. -/
structure Unused (request : LLMProviderRequest) (model : LLMModel) (attemptKey : String)
    (ledger : Ledger) (a : AttemptAnswers) : Prop where
  held : ledger.held request.executionId attemptKey = 0
  budgeted : request.budget.isSome ∨ (actualCharge request model a.invoke).isSome
  listener : ListenerKeeps a

/-- **An attempt under an unused key adds the charge of its request.** -/
theorem accumulated_attempt (hreserve : reserve request model attemptKey ledger = some reserved)
    (hunused : Unused request model attemptKey ledger a) :
    (settle request model attemptKey reserved a).1.getAccumulated request.executionId =
      ledger.getAccumulated request.executionId + (dispatchOf request model a).charge := by
  obtain ⟨-, hreserved⟩ := reserve_eq_some hreserve
  have hrest : reserved.getAccumulated request.executionId -
      reserved.held request.executionId attemptKey =
        ledger.getAccumulated request.executionId := by
    subst hreserved
    split
    · rw [Ledger.accumulated_set, Ledger.held_set, hunused.held, sub_zero, add_sub_cancel_right]
    · rw [hunused.held, sub_zero]
  rw [accumulated_settle hunused.listener]
  unfold Dispatch.charge dispatchOf
  cases hactual : actualCharge request model a.invoke with
  | some actual =>
    dsimp only [Option.getD]
    rw [hrest]
  | none =>
    have hbudget : request.budget.isSome = true := by
      rcases hunused.budgeted with hb | hknown
      · exact hb
      · rw [hactual] at hknown
        cases hknown
    dsimp only [Option.getD]
    rw [hreserved, if_pos hbudget, Ledger.accumulated_set, hunused.held, sub_zero]

/-! ## Calls -/

/-- Every attempt of the loop that is dispatched meets `P` in the ledger before it. -/
def EachDispatched (P : LLMProviderRequest → LLMModel → String → Ledger → AttemptAnswers → Prop)
    (call : Call) (attemptIndex : Nat) (ledger : Ledger) : List LLMModel → Prop
  | [] => True
  | model :: rest =>
    let a := call.answers (attemptIndex + 1)
    let attemptKey := call.attemptKey (attemptIndex + 1)
    if !call.registered model.providerId then
      EachDispatched P call (attemptIndex + 1) ledger rest
    else
      match a.readiness, reserve call.request model attemptKey ledger with
      | none, some reserved =>
        P call.request model attemptKey ledger a ∧
          match settle call.request model attemptKey reserved a with
          | (ledger, .next _) => EachDispatched P call (attemptIndex + 1) ledger rest
          | _ => True
      | _, _ => True

theorem eachDispatched_singleton
    {P : LLMProviderRequest → LLMModel → String → Ledger → AttemptAnswers → Prop} {call : Call}
    {attemptIndex : Nat}
    (h : P call.request model (call.attemptKey (attemptIndex + 1)) ledger
      (call.answers (attemptIndex + 1))) :
    EachDispatched P call attemptIndex ledger [model] := by
  rw [EachDispatched]
  split
  · trivial
  · split
    · refine ⟨h, ?_⟩
      split
      · trivial
      · trivial
    · trivial

/-- **A call whose attempts meet unused keys keeps the account.** -/
theorem sound_attemptLoop (call : Call) (capability : String) (models : List LLMModel) :
    ∀ attemptIndex errors ledger dispatched, Sound ⟨ledger, dispatched⟩ →
      EachDispatched Unused call attemptIndex ledger models →
      Sound ⟨(attemptLoop call capability attemptIndex errors ledger models).ledger,
        dispatched ++
          (attemptLoop call capability attemptIndex errors ledger models).dispatched⟩ := by
  induction models with
  | nil =>
    intro attemptIndex errors ledger dispatched hs _
    rw [attemptLoop, List.append_nil]
    exact hs
  | cons model rest ih =>
    intro attemptIndex errors ledger dispatched hs hunused
    rw [EachDispatched] at hunused
    rw [attemptLoop]
    dsimp only at hunused ⊢
    by_cases hregistered : (!call.registered model.providerId) = true
    · rw [if_pos hregistered] at hunused ⊢
      exact ih _ _ _ _ hs hunused
    · rw [if_neg hregistered] at hunused ⊢
      cases hready : (call.answers (attemptIndex + 1)).readiness with
      | some thrown => simpa using hs
      | none =>
        cases hreserve :
            reserve call.request model (call.attemptKey (attemptIndex + 1)) ledger with
        | none => simpa using hs
        | some reserved =>
          rw [hready, hreserve] at hunused
          dsimp only at hunused ⊢
          obtain ⟨hattempt, hrest⟩ := hunused
          have hsettled : Sound ⟨(settle call.request model (call.attemptKey (attemptIndex + 1))
              reserved (call.answers (attemptIndex + 1))).1,
              dispatched ++ [dispatchOf call.request model (call.answers (attemptIndex + 1))]⟩ := by
            obtain ⟨hwithin, hreserved⟩ := reserve_eq_some hreserve
            refine hs.concat hwithin (accumulated_attempt hreserve hattempt) ?_
            intro executionId hne
            rw [settle_other hne, hreserved]
            split
            · exact Ledger.accumulated_set_of_ne hne _
            · rfl
          rcases hsettle : settle call.request model (call.attemptKey (attemptIndex + 1))
            reserved (call.answers (attemptIndex + 1)) with ⟨ledger', attemptEnd⟩
          rw [hsettle] at hsettled hrest
          cases attemptEnd with
          | returned result => exact hsettled
          | threw thrown => exact hsettled
          | next err =>
            have hloop := ih (attemptIndex + 1) (errors ++ [err]) ledger' _ hsettled hrest
            rw [List.append_assoc] at hloop
            exact hloop

/-! ## Runs -/

/-- An `LLMRouter` with its ledger. -/
structure Router where
  collation : Collation
  config : LLMRouterConfig := {}

namespace Router

variable (router : Router)

/-- One call of `invoke`. -/
def step : Machine.Step Account Call (Except Thrown LLMProviderResult) := fun s call =>
  let invocation := invoke router.collation router.config s.ledger call
  (⟨invocation.ledger, s.dispatched ++ invocation.dispatched⟩, invocation.result)

/-- The attempts of the call that are dispatched meet unused keys. -/
def Unused (s : Account) (call : Call) : Prop :=
  ∀ models, candidates router.collation router.config call = .ok models →
    EachDispatched LlmGateway.Unused call 0 s.ledger models

variable {router}

theorem sound_step {s : Account} {call : Call} (hs : Sound s) (hunused : router.Unused s call) :
    Sound (router.step s call).1 := by
  unfold step invoke
  cases hc : candidates router.collation router.config call with
  | error thrown =>
    dsimp only
    rw [List.append_nil]
    exact hs
  | ok models => exact sound_attemptLoop call _ models 0 [] s.ledger s.dispatched hs (hunused models hc)

/-- **In a run whose attempts meet unused keys, the ledger holds after every call the sum of the
requests dispatched, and none was dispatched over the budget.** -/
theorem sound_of_unused (calls : List Call)
    (h : Machine.Meets router.step router.Unused ⟨.empty, []⟩ calls) :
    Machine.Throughout router.step Sound ⟨.empty, []⟩ calls :=
  Machine.throughout_of_meets (fun _ _ hs hunused => sound_step hs hunused) calls sound_empty h

end Router

/-! ## A call id that is used again -/

def sampleModel : LLMModel where
  modelId := "gpt-4o-mini"
  providerId := "openai"
  capabilities := ["reasoning"]
  maxContextTokens := 128000
  costPerInputTokenUsd := 1 / 1000
  costPerOutputTokenUsd := 1 / 1000
  supportsStructuredOutput := true
  latencyClass := "background"
  lifecycle := .active
  priority := 1

/-- A call of an execution with a budget of 220 tokens; the provider uses 120. -/
def sampleCall : Call where
  request := {
    tenantId := "t", executionId := "e", capability := "reasoning", maxTokens := 100
    budget := some ⟨10, 220⟩, llmCallId := some "k:reasoning:0" }
  listEligibleModels := .ok [sampleModel]
  randomUUID := "u"
  answers := fun _ => {
    invoke := .ok {
      providerId := "openai", modelId := "gpt-4o-mini", providerRequestId := "r", content := "\x7b\x7d"
      inputTokens := 60, outputTokens := 60, totalTokens := 120, costUsd := 12 / 100
      latencyMs := 900, finishReason := "stop" } }

def sampleRouter : Router where
  collation := codeUnits

theorem candidates_sampleCall :
    candidates sampleRouter.collation sampleRouter.config sampleCall = .ok [sampleModel] :=
  eq_ok_of_toOption (by decide +kernel)

theorem sound_of_unused_sample :
    Machine.Throughout sampleRouter.step Sound ⟨.empty, []⟩ [sampleCall] := by
  apply Router.sound_of_unused
  refine ⟨?_, trivial⟩
  intro models hmodels
  rw [candidates_sampleCall] at hmodels
  cases hmodels
  apply eachDispatched_singleton
  exact {
    held := rfl
    budgeted := .inl rfl
    listener := by
      intro result _ err hemit
      cases hemit }

/-- The second call of an id overwrites the charge of the first, and a third one is dispatched
though 240 of the 220 tokens are spent. -/
theorem sound_reused_false :
    let s := Machine.final sampleRouter.step ⟨.empty, []⟩ [sampleCall, sampleCall]
    s.ledger.getAccumulated "e" = ⟨12 / 100, 120⟩ ∧ spent s.dispatched "e" = ⟨24 / 100, 240⟩ ∧
      (sampleRouter.step s sampleCall).1.dispatched.length = 3 := by
  decide +kernel

end VegaRevenue.LlmGateway
