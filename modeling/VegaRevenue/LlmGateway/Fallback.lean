import VegaRevenue.LlmGateway.Ranking

/-!
# Which answer a call returns

The loop over the candidates skips what is not registered and what fails retryably. A readiness
check that throws, or a usage listener that does, ends the call.

* `dispatched_eq` — the requests of a call by the attempts that made them
* `call_complete_iff` — when a call returns the first answer that is to be had, and keeps what it paid
-/

namespace VegaRevenue.LlmGateway

/-! ## What a call is for -/

/-- The first success within the budget behind candidates that are not registered, not ready or fail
retryably, with the index of its attempt. -/
def firstSuccess (call : Call) (attemptIndex : Nat) (ledger : Ledger) :
    List LLMModel → Option (Nat × LLMProviderResult)
  | [] => none
  | model :: rest =>
    let a := call.answers (attemptIndex + 1)
    let attemptKey := call.attemptKey (attemptIndex + 1)
    if !call.registered model.providerId || a.readiness.isSome then
      firstSuccess call (attemptIndex + 1) ledger rest
    else
      match reserve call.request model attemptKey ledger, a.invoke with
      | some _, .ok result => some (attemptIndex + 1, result)
      | some reserved, .error (.providerError err) =>
        if err.retryable then
          firstSuccess call (attemptIndex + 1)
            (onError call.request model attemptKey reserved (.providerError err) none).1 rest
        else none
      | _, _ => none

/-! ## The attempts that are dispatched -/

/-- The attempts whose provider is called, with their indices. -/
def calls (call : Call) (attemptIndex : Nat) (ledger : Ledger) :
    List LLMModel → List (Nat × LLMModel)
  | [] => []
  | model :: rest =>
    let a := call.answers (attemptIndex + 1)
    let attemptKey := call.attemptKey (attemptIndex + 1)
    if !call.registered model.providerId then calls call (attemptIndex + 1) ledger rest
    else
      match a.readiness, reserve call.request model attemptKey ledger with
      | none, some reserved =>
        (attemptIndex + 1, model) ::
          match settle call.request model attemptKey reserved a with
          | (ledger, .next _) => calls call (attemptIndex + 1) ledger rest
          | _ => []
      | _, _ => []

variable {call : Call} {capability : String}

/-- **The requests of a call are those of its attempts.** -/
theorem dispatched_eq (models : List LLMModel) :
    ∀ attemptIndex errors ledger,
      (attemptLoop call capability attemptIndex errors ledger models).dispatched =
        (calls call attemptIndex ledger models).map fun (index, model) =>
          dispatchOf call.request model (call.answers index) := by
  induction models with
  | nil => exact fun _ _ _ => rfl
  | cons model rest ih =>
    intro attemptIndex errors ledger
    rw [attemptLoop, calls]
    dsimp only
    by_cases hregistered : (!call.registered model.providerId) = true
    · rw [if_pos hregistered, if_pos hregistered]
      exact ih _ _ _
    · rw [if_neg hregistered, if_neg hregistered]
      cases (call.answers (attemptIndex + 1)).readiness with
      | some thrown => rfl
      | none =>
        cases reserve call.request model (call.attemptKey (attemptIndex + 1)) ledger with
        | none => rfl
        | some reserved =>
          dsimp only
          rcases settle call.request model (call.attemptKey (attemptIndex + 1)) reserved
            (call.answers (attemptIndex + 1)) with ⟨ledger', result | thrown | err⟩
          · rfl
          · rfl
          · dsimp only
            rw [ih, List.map_cons]

/-! ## One candidate at a time -/

/-- The success that is to be had, the attempts dispatched, and how the call ends. -/
structure View where
  first : Option (Nat × LLMProviderResult)
  called : List (Nat × LLMModel)
  result : Except Thrown LLMProviderResult
  ledger : Ledger

def view (call : Call) (capability : String) (attemptIndex : Nat) (errors : List LLMProviderError)
    (ledger : Ledger) (models : List LLMModel) : View :=
  let invocation := attemptLoop call capability attemptIndex errors ledger models
  ⟨firstSuccess call attemptIndex ledger models, calls call attemptIndex ledger models,
    invocation.result, invocation.ledger⟩

/-- What the loop makes of its first candidate. -/
inductive Turn (call : Call) (capability : String) (attemptIndex : Nat) (model : LLMModel)
    (rest : List LLMModel) : View → Prop where
  | unregistered (errors : List LLMProviderError) (ledger : Ledger)
      (h : call.registered model.providerId = false) :
      Turn call capability attemptIndex model rest
        (view call capability (attemptIndex + 1) errors ledger rest)
  | notReady (thrown : Thrown) (ledger : Ledger) (h : call.registered model.providerId = true)
      (hready : (call.answers (attemptIndex + 1)).readiness = some thrown) :
      Turn call capability attemptIndex model rest
        ⟨firstSuccess call (attemptIndex + 1) ledger rest, [], .error thrown, ledger⟩
  /-- The budget blocks it, or its failure is final. -/
  | stopped (called : List (Nat × LLMModel)) (thrown : Thrown) (ledger : Ledger)
      (h : ∀ c ∈ called, c = (attemptIndex + 1, model) ∧
        ∀ result, (call.answers (attemptIndex + 1)).invoke ≠ .ok result) :
      Turn call capability attemptIndex model rest ⟨none, called, .error thrown, ledger⟩
  | failed (errors : List LLMProviderError) (ledger : Ledger)
      (hready : (call.answers (attemptIndex + 1)).readiness = none)
      (hemit : (call.answers (attemptIndex + 1)).emit = none)
      (hinvoke : ∀ result, (call.answers (attemptIndex + 1)).invoke ≠ .ok result) :
      Turn call capability attemptIndex model rest
        { view call capability (attemptIndex + 1) errors ledger rest with
          called := (attemptIndex + 1, model) :: calls call (attemptIndex + 1) ledger rest }
  /-- It fails retryably and the listener throws. -/
  | interrupted (thrown : Thrown) (ledger : Ledger)
      (h : call.registered model.providerId = true)
      (hemit : (call.answers (attemptIndex + 1)).emit = some thrown)
      (hinvoke : ∀ result, (call.answers (attemptIndex + 1)).invoke ≠ .ok result) :
      Turn call capability attemptIndex model rest
        ⟨firstSuccess call (attemptIndex + 1) ledger rest, [(attemptIndex + 1, model)],
          .error thrown, ledger⟩
  | succeeded (result : LLMProviderResult) (ledger : Ledger)
      (hemit : (call.answers (attemptIndex + 1)).emit = none)
      (hinvoke : (call.answers (attemptIndex + 1)).invoke = .ok result)
      (hheld : ledger.held call.request.executionId (call.attemptKey (attemptIndex + 1)) =
        resultCharge result) :
      Turn call capability attemptIndex model rest
        ⟨some (attemptIndex + 1, result), [(attemptIndex + 1, model)], .ok result, ledger⟩
  /-- It succeeds and the listener throws. -/
  | overturned (result : LLMProviderResult) (heard thrown : Thrown) (ledger : Ledger)
      (hemit : (call.answers (attemptIndex + 1)).emit = some heard) :
      Turn call capability attemptIndex model rest
        ⟨some (attemptIndex + 1, result), [(attemptIndex + 1, model)], .error thrown, ledger⟩
  /-- It succeeds, and what the listener throws is taken for a retryable failure of it. -/
  | retried (result : LLMProviderResult) (thrown : Thrown) (errors : List LLMProviderError)
      (ledger : Ledger) (hemit : (call.answers (attemptIndex + 1)).emit = some thrown)
      (hinvoke : (call.answers (attemptIndex + 1)).invoke = .ok result) :
      Turn call capability attemptIndex model rest
        { view call capability (attemptIndex + 1) errors ledger rest with
          first := some (attemptIndex + 1, result)
          called := (attemptIndex + 1, model) :: calls call (attemptIndex + 1) ledger rest }

/-- `onError` of a provider error, by the listener and by whether it can be retried. -/
theorem onError_providerError {request : LLMProviderRequest} {model : LLMModel}
    {attemptKey : String} (ledger : Ledger) (err : LLMProviderError) (emit : Option Thrown) :
    onError request model attemptKey ledger (.providerError err) emit =
      ((onError request model attemptKey ledger (.providerError err) none).1,
        match emit with
        | some thrown => .threw thrown
        | none => if err.retryable then .next err else .threw (.providerError err)) := by
  unfold onError
  cases emit <;> rfl

/-- **What the loop does with its first candidate.** -/
theorem turn (attemptIndex : Nat) (errors : List LLMProviderError) (ledger : Ledger)
    (model : LLMModel) (rest : List LLMModel) :
    Turn call capability attemptIndex model rest
      (view call capability attemptIndex errors ledger (model :: rest)) := by
  unfold view
  rw [attemptLoop, calls, firstSuccess]
  dsimp only
  by_cases hregistered : (!call.registered model.providerId) = true
  · rw [if_pos hregistered, if_pos hregistered, if_pos (by rw [hregistered]; rfl)]
    exact .unregistered _ _ (by simpa using hregistered)
  · rw [if_neg hregistered, if_neg hregistered]
    have hregistered' : call.registered model.providerId = true := by simpa using hregistered
    cases hready : (call.answers (attemptIndex + 1)).readiness with
    | some thrown =>
      rw [if_pos (by simp)]
      exact .notReady thrown ledger hregistered' hready
    | none =>
      rw [if_neg (by simp [hregistered'])]
      cases hreserve : reserve call.request model (call.attemptKey (attemptIndex + 1)) ledger with
      | none => exact .stopped [] _ ledger fun _ hc => absurd hc List.not_mem_nil
      | some reserved =>
        have hone (hinvoke : ∀ result, (call.answers (attemptIndex + 1)).invoke ≠ .ok result) :
            ∀ c ∈ [(attemptIndex + 1, model)], c = (attemptIndex + 1, model) ∧
              ∀ result, (call.answers (attemptIndex + 1)).invoke ≠ .ok result :=
          fun _ hc => ⟨List.mem_singleton.mp hc, hinvoke⟩
        unfold settle
        cases hinvoke : (call.answers (attemptIndex + 1)).invoke with
        | ok result =>
          cases hemit : (call.answers (attemptIndex + 1)).emit with
          | none => exact .succeeded result _ hemit hinvoke (Ledger.held_set _)
          | some thrown =>
            cases thrown with
            | providerError err =>
              dsimp only
              rw [onError_providerError]
              cases (call.answers (attemptIndex + 1)).emitFailed with
              | some again => exact .overturned result _ again _ hemit
              | none =>
                cases err.retryable with
                | false => exact .overturned result _ (.providerError err) _ hemit
                | true => exact .retried result _ _ _ hemit hinvoke
            | noEligibleModel _ => exact .overturned result _ _ _ hemit
            | ambiguousRouting _ => exact .overturned result _ _ _ hemit
            | other _ => exact .overturned result _ _ _ hemit
        | error thrown =>
          have hfailed : ∀ result, (call.answers (attemptIndex + 1)).invoke ≠ .ok result := by
            rw [hinvoke]
            exact fun _ h => nomatch h
          cases thrown with
          | providerError err =>
            dsimp only
            cases hemit : (call.answers (attemptIndex + 1)).emit with
            | some thrown =>
              rw [onError_providerError reserved err (some thrown)]
              cases err.retryable with
              | false => exact .stopped _ thrown _ (hone hfailed)
              | true => exact .interrupted thrown _ hregistered' hemit hfailed
            | none =>
              rw [onError_providerError reserved err none]
              dsimp only
              cases err.retryable with
              | false => exact .stopped _ (.providerError err) _ (hone hfailed)
              | true => exact .failed _ _ hready hemit hfailed
          | noEligibleModel _ => exact .stopped _ _ _ (hone hfailed)
          | ambiguousRouting _ => exact .stopped _ _ _ (hone hfailed)
          | other _ => exact .stopped _ _ _ (hone hfailed)

variable (capability) in
/-- The indices of what lies ahead are larger. -/
theorem view_index (models : List LLMModel) : ∀ attemptIndex errors ledger,
    (∀ index result,
      (view call capability attemptIndex errors ledger models).first = some (index, result) →
        attemptIndex < index) ∧
    ∀ c ∈ (view call capability attemptIndex errors ledger models).called, attemptIndex < c.1 := by
  induction models with
  | nil => exact fun _ _ _ => ⟨fun _ _ h => (nomatch h), fun _ hc => absurd hc List.not_mem_nil⟩
  | cons model rest ih =>
    intro attemptIndex errors ledger
    have hturn : Turn call capability attemptIndex model rest
      (view call capability attemptIndex errors ledger (model :: rest)) := turn _ _ _ _ _
    generalize view call capability attemptIndex errors ledger (model :: rest) = v at hturn ⊢
    have hfirst (errors : List LLMProviderError) (ledger : Ledger) (index : Nat)
        (result : LLMProviderResult)
        (h : firstSuccess call (attemptIndex + 1) ledger rest = some (index, result)) :
        attemptIndex < index := by
      have hlt := (ih (attemptIndex + 1) errors ledger).1 index result h
      omega
    have hcalled (errors : List LLMProviderError) (ledger : Ledger) :
        ∀ c ∈ (attemptIndex + 1, model) :: calls call (attemptIndex + 1) ledger rest,
          attemptIndex < c.1 := by
      intro c hc
      rcases List.mem_cons.mp hc with rfl | hc
      · exact Nat.lt_succ_self _
      · have hlt := (ih (attemptIndex + 1) errors ledger).2 c hc
        omega
    have hone : ∀ c ∈ [(attemptIndex + 1, model)], attemptIndex < c.1 := by
      intro c hc
      rw [List.mem_singleton.mp hc]
      exact Nat.lt_succ_self _
    have hown (answer : LLMProviderResult) (index : Nat) (result : LLMProviderResult)
        (h : some (attemptIndex + 1, answer) = some (index, result)) : attemptIndex < index := by
      cases h
      exact Nat.lt_succ_self _
    cases hturn with
    | unregistered errors ledger =>
      exact ⟨hfirst errors ledger, fun c hc => hcalled errors ledger c (List.mem_cons_of_mem _ hc)⟩
    | notReady _ ledger => exact ⟨hfirst [] ledger, fun _ hc => absurd hc List.not_mem_nil⟩
    | stopped called _ _ h =>
      refine ⟨fun _ _ hnone => (nomatch hnone), fun c hc => ?_⟩
      rw [(h c hc).1]
      exact Nat.lt_succ_self _
    | failed errors ledger => exact ⟨hfirst errors ledger, hcalled errors ledger⟩
    | interrupted _ ledger => exact ⟨hfirst [] ledger, hone⟩
    | succeeded answer => exact ⟨hown answer, hone⟩
    | overturned answer => exact ⟨hown answer, hone⟩
    | retried answer _ errors ledger => exact ⟨hown answer, hcalled errors ledger⟩

variable (capability) in
/-- A call without a dispatched attempt returns nothing. -/
theorem error_of_called_nil (models : List LLMModel) : ∀ attemptIndex errors ledger,
    (view call capability attemptIndex errors ledger models).called = [] →
      ∃ thrown, (view call capability attemptIndex errors ledger models).result = .error thrown := by
  induction models with
  | nil => exact fun _ _ _ _ => ⟨_, rfl⟩
  | cons model rest ih =>
    intro attemptIndex errors ledger
    have hturn : Turn call capability attemptIndex model rest
      (view call capability attemptIndex errors ledger (model :: rest)) := turn _ _ _ _ _
    generalize view call capability attemptIndex errors ledger (model :: rest) = v at hturn ⊢
    intro hcalled
    cases hturn with
    | unregistered errors ledger => exact ih _ errors ledger hcalled
    | notReady thrown | stopped _ thrown => exact ⟨thrown, rfl⟩
    | failed | interrupted | succeeded | overturned | retried => cases hcalled

/-! ## When the answer is kept -/

/-- Those of the candidates that are registered are ready, and the listener keeps quiet about
them. -/
def Quiet (call : Call) : Nat → List LLMModel → Prop
  | _, [] => True
  | attemptIndex, model :: rest =>
    (call.registered model.providerId = true →
      (call.answers (attemptIndex + 1)).readiness = none ∧
        (call.answers (attemptIndex + 1)).emit = none) ∧
      Quiet call (attemptIndex + 1) rest

/-- Nothing comes between a call and the success that is to be had. -/
def Undisturbed (call : Call) (attemptIndex : Nat) (models : List LLMModel)
    (first : Option (Nat × LLMProviderResult)) : Prop :=
  ∀ index result, first = some (index, result) →
    Quiet call attemptIndex (models.take (index - attemptIndex - 1)) ∧
      (call.answers index).emit = none

/-- The call returns the success that is to be had; and whatever attempt succeeded is the last one,
is returned, and holds its actual charge in the ledger. -/
structure FallsBack (call : Call) (v : View) : Prop where
  reached : ∀ index result, v.first = some (index, result) → v.result = .ok result
  paid : ∀ index model, (index, model) ∈ v.called → ∀ result,
    (call.answers index).invoke = .ok result →
      v.result = .ok result ∧ v.called.getLast? = some (index, model) ∧
        v.ledger.held call.request.executionId (call.attemptKey index) = resultCharge result

/-- Behind a candidate that passes quietly, what comes between lies further on. -/
theorem undisturbed_cons {attemptIndex : Nat} {model : LLMModel} {rest : List LLMModel}
    {first : Option (Nat × LLMProviderResult)}
    (hlt : ∀ index result, first = some (index, result) → attemptIndex + 1 < index) :
    Undisturbed call attemptIndex (model :: rest) first ↔
      (first.isSome = true → call.registered model.providerId = true →
        (call.answers (attemptIndex + 1)).readiness = none ∧
          (call.answers (attemptIndex + 1)).emit = none) ∧
      Undisturbed call (attemptIndex + 1) rest first := by
  have htake (index : Nat) (h : attemptIndex + 1 < index) :
      (model :: rest).take (index - attemptIndex - 1) =
        model :: rest.take (index - (attemptIndex + 1) - 1) := by
    have hsucc : index - attemptIndex - 1 = (index - (attemptIndex + 1) - 1) + 1 := by omega
    rw [hsucc, List.take_succ_cons]
  unfold Undisturbed
  constructor
  · intro h
    refine ⟨fun hsome => ?_, fun index result hfirst => ?_⟩
    · obtain ⟨⟨index, result⟩, hfirst⟩ := Option.isSome_iff_exists.mp hsome
      have hquiet := (h index result hfirst).1
      rw [htake index (hlt index result hfirst)] at hquiet
      exact hquiet.1
    · obtain ⟨hquiet, hemit⟩ := h index result hfirst
      rw [htake index (hlt index result hfirst)] at hquiet
      exact ⟨hquiet.2, hemit⟩
  · rintro ⟨hhead, htail⟩ index result hfirst
    obtain ⟨hquiet, hemit⟩ := htail index result hfirst
    rw [htake index (hlt index result hfirst)]
    refine ⟨⟨hhead ?_, hquiet⟩, hemit⟩
    rw [hfirst]
    rfl

/-- What nothing is to be had of cannot be disturbed. -/
theorem undisturbed_none (attemptIndex : Nat) (models : List LLMModel) :
    Undisturbed call attemptIndex models none := fun _ _ h => nomatch h

/-- Its own success is disturbed by the listener alone. -/
theorem undisturbed_self {attemptIndex : Nat} {models : List LLMModel}
    {result : LLMProviderResult} :
    Undisturbed call attemptIndex models (some (attemptIndex + 1, result)) ↔
      (call.answers (attemptIndex + 1)).emit = none := by
  unfold Undisturbed
  constructor
  · exact fun h => (h _ _ rfl).2
  · rintro hemit index result' hfirst
    cases hfirst
    have hzero : attemptIndex + 1 - attemptIndex - 1 = 0 := by omega
    rw [hzero, List.take_zero]
    exact ⟨trivial, hemit⟩

/-- A call that fails falls back as it should iff no success was to be had. -/
theorem fallsBack_error_iff {v : View} {thrown : Thrown} (herror : v.result = .error thrown)
    (hcalled : ∀ c ∈ v.called, ∀ result, (call.answers c.1).invoke ≠ .ok result) :
    FallsBack call v ↔ v.first = none := by
  constructor
  · intro h
    cases hfirst : v.first with
    | none => rfl
    | some success =>
      have hok := h.reached success.1 success.2 hfirst
      rw [herror] at hok
      cases hok
  · intro hnone
    refine ⟨fun index result hfirst => ?_, fun index model hc result hok => ?_⟩
    · rw [hnone] at hfirst
      cases hfirst
    · exact absurd hok (hcalled (index, model) hc result)

/-- An attempt that failed before the others changes nothing. -/
theorem fallsBack_cons {v : View} {c : Nat × LLMModel}
    (hinvoke : ∀ result, (call.answers c.1).invoke ≠ .ok result) :
    FallsBack call { v with called := c :: v.called } ↔ FallsBack call v := by
  have hlast (d : Nat × LLMModel) (hd : d ∈ v.called) :
      (c :: v.called).getLast? = v.called.getLast? := by
    obtain ⟨e, es, hes⟩ := List.exists_cons_of_ne_nil (List.ne_nil_of_mem hd)
    rw [hes, List.getLast?_cons_cons]
  constructor
  · intro h
    refine ⟨h.reached, fun index model hc result hok => ?_⟩
    have hpaid := h.paid index model (List.mem_cons_of_mem c hc) result hok
    rw [← hlast _ hc]
    exact hpaid
  · intro h
    refine ⟨h.reached, fun index model hc result hok => ?_⟩
    rcases List.mem_cons.mp hc with rfl | hc
    · exact absurd hok (hinvoke result)
    · have hpaid := h.paid index model hc result hok
      rw [← hlast _ hc] at hpaid
      exact hpaid

variable (capability) in
/-- **When the loop falls back as it should.** -/
theorem fallsBack_iff (models : List LLMModel) : ∀ attemptIndex errors ledger,
    FallsBack call (view call capability attemptIndex errors ledger models) ↔
      Undisturbed call attemptIndex models (firstSuccess call attemptIndex ledger models) := by
  induction models with
  | nil =>
    intro attemptIndex errors ledger
    refine iff_of_true ⟨fun _ _ h => (nomatch h), fun _ _ hc => absurd hc List.not_mem_nil⟩ ?_
    exact undisturbed_none attemptIndex []
  | cons model rest ih =>
    intro attemptIndex errors ledger
    have hturn : Turn call capability attemptIndex model rest
      (view call capability attemptIndex errors ledger (model :: rest)) := turn _ _ _ _ _
    have hfirst : firstSuccess call attemptIndex ledger (model :: rest) =
      (view call capability attemptIndex errors ledger (model :: rest)).first := rfl
    rw [hfirst]
    generalize view call capability attemptIndex errors ledger (model :: rest) = v at hturn ⊢
    have hlt (ledger : Ledger) (index : Nat) (result : LLMProviderResult)
        (h : firstSuccess call (attemptIndex + 1) ledger rest = some (index, result)) :
        attemptIndex + 1 < index :=
      (view_index capability rest (attemptIndex + 1) [] ledger).1 index result h
    have hnotOk (hinvoke : ∀ result, (call.answers (attemptIndex + 1)).invoke ≠ .ok result) :
        ∀ c ∈ [(attemptIndex + 1, model)], ∀ result, (call.answers c.1).invoke ≠ .ok result := by
      intro c hc
      rw [List.mem_singleton.mp hc]
      exact hinvoke
    cases hturn with
    | unregistered errors ledger h =>
      refine (ih _ errors ledger).trans (Iff.trans ?_ (undisturbed_cons (hlt ledger)).symm)
      exact (and_iff_right fun _ hregistered => absurd (h.symm.trans hregistered)
        Bool.false_ne_true).symm
    | notReady thrown ledger h hready =>
      rw [fallsBack_error_iff rfl fun _ hc => absurd hc List.not_mem_nil]
      dsimp only
      rw [undisturbed_cons (hlt ledger)]
      constructor
      · intro hnone
        rw [hnone]
        exact ⟨fun hsome => (nomatch hsome), undisturbed_none _ _⟩
      · rintro ⟨hhead, -⟩
        by_contra hnone
        have hnotReady := (hhead (Option.isSome_iff_ne_none.mpr hnone) h).1
        rw [hready] at hnotReady
        cases hnotReady
    | stopped called thrown ledger h =>
      refine iff_of_true ((fallsBack_error_iff rfl ?_).mpr rfl) (undisturbed_none _ _)
      intro c hc
      rw [(h c hc).1]
      exact (h c hc).2
    | failed errors ledger hready hemit hinvoke =>
      refine (fallsBack_cons hinvoke).trans ((ih _ errors ledger).trans
        (Iff.trans ?_ (undisturbed_cons (hlt ledger)).symm))
      exact (and_iff_right fun _ _ => ⟨hready, hemit⟩).symm
    | interrupted thrown ledger h hemit hinvoke =>
      rw [fallsBack_error_iff rfl (hnotOk hinvoke)]
      dsimp only
      rw [undisturbed_cons (hlt ledger)]
      constructor
      · intro hnone
        rw [hnone]
        exact ⟨fun hsome => (nomatch hsome), undisturbed_none _ _⟩
      · rintro ⟨hhead, -⟩
        by_contra hnone
        have hquiet := (hhead (Option.isSome_iff_ne_none.mpr hnone) h).2
        rw [hemit] at hquiet
        cases hquiet
    | succeeded result ledger hemit hinvoke hheld =>
      refine iff_of_true ⟨?_, ?_⟩ (undisturbed_self.mpr hemit)
      · rintro index result' hfirst
        cases hfirst
        rfl
      · intro index model' hc result' hok
        obtain ⟨rfl, rfl⟩ := Prod.mk.inj (List.mem_singleton.mp hc)
        obtain rfl := Except.ok.inj (hinvoke.symm.trans hok)
        exact ⟨rfl, rfl, hheld⟩
    | overturned result _ thrown ledger hemit =>
      refine iff_of_false (fun h => ?_) fun h => ?_
      · cases h.reached _ _ rfl
      · rw [undisturbed_self.mp h] at hemit
        cases hemit
    | retried result thrown errors ledger hemit hinvoke =>
      refine iff_of_false (fun h => ?_) fun h => ?_
      · -- as the last attempt it leaves nothing that could have returned
        have hlast := (h.paid _ _ List.mem_cons_self result hinvoke).2.1
        have hnil : calls call (attemptIndex + 1) ledger rest = [] := by
          cases hrest : calls call (attemptIndex + 1) ledger rest with
          | nil => rfl
          | cons c cs =>
            rw [hrest, List.getLast?_cons_cons, ← hrest] at hlast
            have hlater := (view_index capability rest (attemptIndex + 1) errors
              ledger).2 _ (List.mem_of_mem_getLast? hlast)
            exact absurd hlater (Nat.lt_irrefl _)
        obtain ⟨again, herror⟩ := error_of_called_nil capability rest
          (attemptIndex + 1) errors ledger hnil
        have hok := h.reached _ _ rfl
        exact absurd (herror.symm.trans hok) (by simp)
      · rw [undisturbed_self.mp h] at hemit
        cases hemit

/-! ## Calls -/

/-- A call returns the success that is to be had among its candidates, and keeps what it paid for. -/
structure Complete (collation : Collation) (config : LLMRouterConfig) (ledger : Ledger)
    (call : Call) : Prop where
  reached : ∀ attempts, candidates collation config call = .ok attempts → ∀ index result,
    firstSuccess call 0 ledger attempts = some (index, result) →
      (invoke collation config ledger call).result = .ok result
  paid : ∀ attempts, candidates collation config call = .ok attempts → ∀ index model,
    (index, model) ∈ calls call 0 ledger attempts → ∀ result,
      (call.answers index).invoke = .ok result →
        (invoke collation config ledger call).result = .ok result ∧
          (calls call 0 ledger attempts).getLast? = some (index, model) ∧
          (invoke collation config ledger call).ledger.held call.request.executionId
            (call.attemptKey index) = resultCharge result

/-- **When a call returns the first answer that is to be had and keeps what it paid for**: of the
candidates before it those that are registered are ready, and the listener throws neither about
them nor about the answer. -/
theorem call_complete_iff (collation : Collation) (config : LLMRouterConfig) (ledger : Ledger)
    (call : Call) :
    Complete collation config ledger call ↔
      ∀ attempts, candidates collation config call = .ok attempts →
        Undisturbed call 0 attempts (firstSuccess call 0 ledger attempts) := by
  cases hcandidates : candidates collation config call with
  | error thrown =>
    refine iff_of_true ⟨?_, ?_⟩ fun attempts h => nomatch h
    · intro attempts h
      rw [hcandidates] at h
      cases h
    · intro attempts h
      rw [hcandidates] at h
      cases h
  | ok attempts =>
    have hinvoke : invoke collation config ledger call =
        attemptLoop call (query config call.request).capability 0 [] ledger attempts := by
      unfold invoke
      rw [hcandidates]
    have hloop : FallsBack call (view call (query config call.request).capability 0 [] ledger attempts) ↔
        Undisturbed call 0 attempts (firstSuccess call 0 ledger attempts) :=
      fallsBack_iff _ attempts 0 [] ledger
    simp only [Except.ok.injEq, forall_eq']
    rw [← hloop]
    constructor
    · intro h
      refine ⟨fun index result hfirst => ?_, fun index model hc result hok => ?_⟩
      · have hreached := h.reached attempts hcandidates index result hfirst
        rw [hinvoke] at hreached
        exact hreached
      · have hpaid := h.paid attempts hcandidates index model hc result hok
        rw [hinvoke] at hpaid
        exact hpaid
    · intro h
      refine ⟨?_, ?_⟩ <;> rw [hcandidates, hinvoke]
      · rintro _ ⟨rfl⟩
        exact h.reached
      · rintro _ ⟨rfl⟩
        exact h.paid

/-! ## Answers that are lost -/

def answer (providerId : String) : LLMProviderResult where
  providerId := providerId
  modelId := "large"
  providerRequestId := "r"
  content := "yes"
  inputTokens := 60
  outputTokens := 60
  totalTokens := 120
  costUsd := 12 / 100
  latencyMs := 900
  finishReason := "stop"

/-- A call with two candidates. -/
def chatCall (answers : Nat → AttemptAnswers) : Call where
  request := {
    tenantId := "t", executionId := "e", capability := "chat", maxTokens := 100
    llmCallId := some "k" }
  listEligibleModels := .ok [offered "openai" "large" 1, offered "azure" "small" 2]
  randomUUID := "u"
  answers := answers

theorem candidates_chatCall (answers : Nat → AttemptAnswers) :
    candidates codeUnits {} (chatCall answers) =
      .ok [offered "openai" "large" 1, offered "azure" "small" 2] := by
  have hanswers : candidates codeUnits {} (chatCall answers) =
      candidates codeUnits {} (chatCall fun _ => { invoke := .ok (answer "openai") }) := rfl
  rw [hanswers]
  exact eq_ok_of_toOption (by decide +kernel)

theorem invoke_chatCall (answers : Nat → AttemptAnswers) :
    invoke codeUnits {} .empty (chatCall answers) =
      attemptLoop (chatCall answers) "chat" 0 [] .empty
        [offered "openai" "large" 1, offered "azure" "small" 2] := by
  unfold invoke
  rw [candidates_chatCall]
  rfl

/-- The first provider is not ready and the second is never tried; and the listener throws after an
answer that was paid for, which is lost. -/
theorem not_complete :
    ¬ Complete codeUnits {} .empty (chatCall fun index =>
      { readiness := if index = 1 then some (.other "down") else none
        invoke := .ok (answer "azure") }) ∧
    ¬ Complete codeUnits {} .empty (chatCall fun _ =>
      { invoke := .ok (answer "openai"), emit := some (.other "listener") }) := by
  constructor
  · intro h
    have hreached := h.reached _ (candidates_chatCall _) 2 (answer "azure") rfl
    rw [invoke_chatCall] at hreached
    cases hreached
  · intro h
    have hpaid := h.paid _ (candidates_chatCall _) 1 (offered "openai" "large" 1)
      List.mem_cons_self (answer "openai") rfl
    rw [invoke_chatCall] at hpaid
    cases hpaid.1

end VegaRevenue.LlmGateway
