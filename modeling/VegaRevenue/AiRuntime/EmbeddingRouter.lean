import Mathlib.Data.List.Basic
import VegaRevenue.Shared.Number
import VegaRevenue.Shared.Result

/-!
# The embedding router

`EmbeddingRouter` has texts embedded by a provider that serves the vector space of the profile, and
falls back to the next one on a retryable failure.

* `assertExactProfile_cases` — which results are accepted
* `ending` — how a call ends
* `embed_usable_iff` — when what it ends with is usable
-/

namespace VegaRevenue.AiRuntime.EmbeddingRouter

/-! ## Profiles, requests and results -/

inductive EmbeddingProfileLifecycle where
  | draft
  | indexing
  | ready
  | active
  | draining
  | retired
deriving DecidableEq

def EmbeddingProfileLifecycle.text : EmbeddingProfileLifecycle → String
  | .draft => "DRAFT"
  | .indexing => "INDEXING"
  | .ready => "READY"
  | .active => "ACTIVE"
  | .draining => "DRAINING"
  | .retired => "RETIRED"

structure EmbeddingProfile where
  embeddingProfileId : String
  providerId : String
  modelId : String
  modelVersion : String
  dimensions : JsNumber
  distanceMetric : String
  vectorSpace : String
  lifecycle : EmbeddingProfileLifecycle
  isActive : Bool

structure EmbeddingInvokeRequest where
  tenantId : String
  correlationId : String
  idempotencyKey : Option String := none
  texts : List String
  embeddingProfileId : Option String := none
  deadline : Option Date := none

structure EmbeddingRequest where
  tenantId : String
  correlationId : String
  idempotencyKey : Option String
  profile : EmbeddingProfile
  texts : List String
  deadline : Option Date

structure EmbeddingResult where
  providerId : String
  modelId : String
  modelVersion : String
  embeddingProfileId : String
  vectorSpace : String
  vectors : List (List JsNumber)
  dimensions : JsNumber
  inputTokens : Option JsNumber := none
  costUsd : Option JsNumber := none
  latencyMs : JsNumber
  providerRequestId : Option String := none
  startedAt : Date
  completedAt : Date

structure EmbeddingProviderError where
  message : String
  providerId : String
  code : String
  retryable : Bool
  submitted : Bool := false

inductive Thrown where
  | noActiveProfile (message : String)
  | incompatibleProfile (message : String)
  | noProvider (vectorSpace message : String)
  | providerError (err : EmbeddingProviderError)
  | other (message : String)

def Thrown.message : Thrown → String
  | noActiveProfile message | incompatibleProfile message | noProvider _ message
  | other message => message
  | providerError err => err.message

/-! ## What the router is given -/

structure EmbeddingProfileCatalog where
  getActive : Except Thrown (Option EmbeddingProfile)
  getById : String → Except Thrown (Option EmbeddingProfile)

/-- A provider by its answers in a call. -/
structure EmbeddingProvider where
  providerId : String
  servesVectorSpace : String → Bool
  embed : EmbeddingRequest → Except Thrown EmbeddingResult

/-- The listener's answers by the number of providers tried before; `numberText` is how a number is
written in a message. -/
structure Router where
  catalog : EmbeddingProfileCatalog
  registry : List EmbeddingProvider
  usageListener : Option (Nat → EmbeddingResult → Option Thrown) := none
  numberText : JsNumber → String

/-! ## The code -/

/-- `===` on numbers. -/
def sameNumber (a b : JsNumber) : Bool := a = b && a ≠ .nan

/-- The profile the catalog has for a request; an empty id is none. -/
def EmbeddingProfileCatalog.find (catalog : EmbeddingProfileCatalog)
    (embeddingProfileId : Option String) : Except Thrown (Option EmbeddingProfile) :=
  match embeddingProfileId with
  | some id => if id = "" then catalog.getActive else catalog.getById id
  | none => catalog.getActive

def resolveProfile (router : Router) (embeddingProfileId : Option String) :
    Except Thrown EmbeddingProfile :=
  match router.catalog.find embeddingProfileId with
  | .error thrown => .error thrown
  | .ok none =>
    match embeddingProfileId with
    | some id =>
      .error (.noActiveProfile (if id = "" then "No ACTIVE embedding profile is registered"
        else s!"Embedding profile {id} not found"))
    | none => .error (.noActiveProfile "No ACTIVE embedding profile is registered")
  | .ok (some profile) =>
    if profile.lifecycle ≠ .active || !profile.isActive then
      .error (.incompatibleProfile
        (s!"Embedding profile {profile.embeddingProfileId} is not ACTIVE " ++
          s!"(lifecycle={profile.lifecycle.text}); " ++
          "refusing to embed into a non-live vector space"))
    else .ok profile

def assertExactProfile (router : Router) (profile : EmbeddingProfile) (result : EmbeddingResult) :
    Except Thrown Unit :=
  if result.embeddingProfileId ≠ profile.embeddingProfileId ||
      result.vectorSpace ≠ profile.vectorSpace || result.modelId ≠ profile.modelId ||
      result.modelVersion ≠ profile.modelVersion ||
      !sameNumber result.dimensions profile.dimensions then
    .error (.providerError {
      message :=
        s!"Provider {result.providerId} returned an embedding for a different vector space " ++
          s!"(expected {profile.vectorSpace}, got {result.vectorSpace}); " ++
          "refusing incompatible vector"
      providerId := result.providerId
      code := "INCOMPATIBLE_VECTOR_SPACE"
      retryable := false })
  else
    match result.vectors.find? fun v => !sameNumber (.finite v.length) profile.dimensions with
    | some vector =>
      .error (.providerError {
        message :=
          s!"Provider {result.providerId} returned a {vector.length}-dim vector for profile " ++
            profile.embeddingProfileId ++ " (" ++ router.numberText profile.dimensions ++
            "-dim); refusing incompatible vector"
        providerId := result.providerId
        code := "INCOMPATIBLE_DIMENSION"
        retryable := false })
    | none => .ok ()

/-- What the usage listener throws. -/
def Router.heard (router : Router) (index : Nat) (result : EmbeddingResult) : Option Thrown :=
  match router.usageListener with
  | some listener => listener index result
  | none => none

def providerRequest (request : EmbeddingInvokeRequest) (profile : EmbeddingProfile) :
    EmbeddingRequest where
  tenantId := request.tenantId
  correlationId := request.correlationId
  idempotencyKey := request.idempotencyKey
  profile := profile
  texts := request.texts
  deadline := request.deadline

/-- The body of the `try`. -/
def attempt (router : Router) (request : EmbeddingInvokeRequest) (profile : EmbeddingProfile)
    (index : Nat) (provider : EmbeddingProvider) : Except Thrown EmbeddingResult :=
  match provider.embed (providerRequest request profile) with
  | .error thrown => .error thrown
  | .ok result =>
    match assertExactProfile router profile result with
    | .error thrown => .error thrown
    | .ok () =>
      match router.heard index result with
      | some thrown => .error thrown
      | none => .ok result

/-- The loop over the candidates, with the number of those tried and their errors. -/
def tryCandidates (router : Router) (request : EmbeddingInvokeRequest)
    (profile : EmbeddingProfile) (index : Nat) (errors : List EmbeddingProviderError) :
    List EmbeddingProvider → Except Thrown EmbeddingResult
  | [] =>
    let message := "; ".intercalate (errors.map fun e => s!"{e.providerId}: {e.message}")
    .error (.providerError {
      message :=
        s!"All embedding providers failed for vector space {profile.vectorSpace}: {message}"
      providerId := "router"
      code := "ALL_PROVIDERS_FAILED"
      retryable := errors.any fun e => e.retryable })
  | provider :: rest =>
    match attempt router request profile index provider with
    | .ok result => .ok result
    | .error (.providerError err) =>
      if err.retryable then
        tryCandidates router request profile (index + 1) (errors ++ [err]) rest
      else .error (.providerError err)
    | .error thrown =>
      .error (.providerError {
        message := thrown.message
        providerId := provider.providerId
        code := "ROUTER_UNEXPECTED_ERROR"
        retryable := false })

/-- The providers that serve the vector space of the profile. -/
def candidates (router : Router) (profile : EmbeddingProfile) : List EmbeddingProvider :=
  router.registry.filter fun p => p.servesVectorSpace profile.vectorSpace

def embed (router : Router) (request : EmbeddingInvokeRequest) : Except Thrown EmbeddingResult :=
  match resolveProfile router request.embeddingProfileId with
  | .error thrown => .error thrown
  | .ok profile =>
    if (candidates router profile).length = 0 then
      .error (.noProvider profile.vectorSpace
        s!"No embedding provider serves the exact active vector space {profile.vectorSpace}")
    else tryCandidates router request profile 0 [] (candidates router profile)

/-- The vector a durable retriever searches with. -/
def queryVector (embedResult : EmbeddingResult) : List JsNumber :=
  embedResult.vectors.head?.getD []

/-! ## Accepted results -/

/-- A result for the very profile. -/
structure Exact (profile : EmbeddingProfile) (result : EmbeddingResult) : Prop where
  embeddingProfileId : result.embeddingProfileId = profile.embeddingProfileId
  vectorSpace : result.vectorSpace = profile.vectorSpace
  modelId : result.modelId = profile.modelId
  modelVersion : result.modelVersion = profile.modelVersion
  dimensions : result.dimensions = profile.dimensions ∧ profile.dimensions ≠ .nan
  vectors : ∀ v ∈ result.vectors, .finite v.length = profile.dimensions

variable {router : Router} {request : EmbeddingInvokeRequest} {profile : EmbeddingProfile}

theorem sameNumber_iff {a b : JsNumber} : sameNumber a b = true ↔ a = b ∧ b ≠ .nan := by
  unfold sameNumber
  by_cases h : a = b
  · subst h
    simp
  · simp [h]

/-- **The router accepts what is exact.** Anything else is a final failure of the provider. -/
theorem assertExactProfile_cases (router : Router) (profile : EmbeddingProfile)
    (result : EmbeddingResult) :
    (assertExactProfile router profile result = .ok () ∧ Exact profile result) ∨
      ¬ Exact profile result ∧ ∃ err : EmbeddingProviderError,
        assertExactProfile router profile result = .error (.providerError err) ∧
          err.retryable = false ∧ err.code ≠ "ALL_PROVIDERS_FAILED" := by
  unfold assertExactProfile
  split
  next hidentity =>
    refine .inr ⟨fun hexact => ?_, _, rfl, rfl, (by decide : "INCOMPATIBLE_VECTOR_SPACE" ≠ _)⟩
    have hsame := sameNumber_iff.mpr hexact.dimensions
    simp [hexact.embeddingProfileId, hexact.vectorSpace, hexact.modelId, hexact.modelVersion,
      hsame] at hidentity
  next hidentity =>
    simp only [ne_eq, Bool.or_eq_true, decide_eq_true_eq, Bool.not_eq_eq_eq_not, Bool.not_true,
      not_or, Decidable.not_not, Bool.not_eq_false, sameNumber_iff] at hidentity
    obtain ⟨⟨⟨⟨hid, hspace⟩, hmodel⟩, hversion⟩, hdimensions⟩ := hidentity
    split
    next vector hfind =>
      refine .inr ⟨fun hexact => ?_, _, rfl, rfl, (by decide : "INCOMPATIBLE_DIMENSION" ≠ _)⟩
      have hlen := hexact.vectors vector (List.mem_of_find?_eq_some hfind)
      have hne := List.find?_some hfind
      rw [sameNumber_iff.mpr ⟨hlen, hdimensions.2⟩] at hne
      exact absurd hne (by simp)
    next hfind =>
      refine .inl ⟨rfl, hid, hspace, hmodel, hversion, hdimensions, fun v hv => ?_⟩
      have hsame := List.find?_eq_none.mp hfind v hv
      exact (sameNumber_iff.mp (by simpa using hsame)).1

/-! ## What a provider comes to -/

/-- The failure of a provider, which is its own or that of the listener to its result. -/
def Fails (router : Router) (request : EmbeddingInvokeRequest) (profile : EmbeddingProfile)
    (index : Nat) (provider : EmbeddingProvider) (err : EmbeddingProviderError) : Prop :=
  provider.embed (providerRequest request profile) = .error (.providerError err) ∨
    ∃ result, provider.embed (providerRequest request profile) = .ok result ∧
      Exact profile result ∧ router.heard index result = some (.providerError err)

def FailsRetryably (router : Router) (request : EmbeddingInvokeRequest)
    (profile : EmbeddingProfile) (index : Nat) (provider : EmbeddingProvider) : Prop :=
  ∃ err, Fails router request profile index provider err ∧ err.retryable = true

theorem attempt_eq_ok {index : Nat} {provider : EmbeddingProvider} {result : EmbeddingResult} :
    attempt router request profile index provider = .ok result ↔
      provider.embed (providerRequest request profile) = .ok result ∧ Exact profile result ∧
        router.heard index result = none := by
  unfold attempt
  cases provider.embed (providerRequest request profile) with
  | error thrown => simp
  | ok answer =>
    obtain ⟨hok, hexact⟩ | ⟨hexact, err, herr, -⟩ := assertExactProfile_cases router profile answer
    · simp only [hok]
      cases hheard : router.heard index answer with
      | some thrown =>
        refine iff_of_false (by simp) ?_
        rintro ⟨h, -, hnone⟩
        cases h
        rw [hheard] at hnone
        cases hnone
      | none =>
        simp only [Except.ok.injEq]
        constructor
        · rintro rfl
          exact ⟨rfl, hexact, hheard⟩
        · exact fun h => h.1
    · simp only [herr]
      refine iff_of_false (by simp) ?_
      rintro ⟨h, hexact', -⟩
      cases h
      exact hexact hexact'

/-- A provider error of the body is a failure of the provider, or refuses what is not exact. -/
theorem attempt_providerError {index : Nat} {provider : EmbeddingProvider}
    {err : EmbeddingProviderError}
    (h : attempt router request profile index provider = .error (.providerError err)) :
    Fails router request profile index provider err ∨
      err.retryable = false ∧ err.code ≠ "ALL_PROVIDERS_FAILED" := by
  unfold attempt at h
  cases hembed : provider.embed (providerRequest request profile) with
  | error thrown =>
    rw [hembed] at h
    cases h
    exact .inl (.inl hembed)
  | ok answer =>
    rw [hembed] at h
    obtain ⟨hok, hexact⟩ | ⟨-, err', herr, hfinal⟩ := assertExactProfile_cases router profile answer
    · simp only [hok] at h
      cases hheard : router.heard index answer with
      | some thrown =>
        rw [hheard] at h
        cases h
        exact .inl (.inr ⟨answer, hembed, hexact, hheard⟩)
      | none =>
        rw [hheard] at h
        cases h
    · simp only [herr] at h
      cases h
      exact .inr hfinal

theorem attempt_of_fails {index : Nat} {provider : EmbeddingProvider}
    {err : EmbeddingProviderError} (h : Fails router request profile index provider err) :
    attempt router request profile index provider = .error (.providerError err) := by
  unfold attempt
  obtain hembed | ⟨result, hembed, hexact, hheard⟩ := h
  · rw [hembed]
  · obtain ⟨hok, -⟩ | ⟨hnot, -⟩ := assertExactProfile_cases router profile result
    · simp only [hembed, hok, hheard]
    · exact absurd hexact hnot

/-! ## How a call ends -/

/-- The loop comes to the provider at an index: those before it failed retryably. -/
structure Reached (router : Router) (request : EmbeddingInvokeRequest)
    (profile : EmbeddingProfile) (providers : List EmbeddingProvider) (index : Nat)
    (provider : EmbeddingProvider) : Prop where
  get : providers[index]? = some provider
  before : ∀ j < index, ∀ p, providers[j]? = some p → FailsRetryably router request profile j p

def AllFailRetryably (router : Router) (request : EmbeddingInvokeRequest)
    (profile : EmbeddingProfile) (providers : List EmbeddingProvider) : Prop :=
  ∀ j p, providers[j]? = some p → FailsRetryably router request profile j p

/-- The four ends of the loop, and the provider at which it ends. -/
inductive Ending (router : Router) (request : EmbeddingInvokeRequest) (profile : EmbeddingProfile)
    (providers : List EmbeddingProvider) : Except Thrown EmbeddingResult → Prop where
  | returned (index : Nat) (provider : EmbeddingProvider) (result : EmbeddingResult)
      (hreached : Reached router request profile providers index provider)
      (h : attempt router request profile index provider = .ok result) :
      Ending router request profile providers (.ok result)
  | refused (index : Nat) (provider : EmbeddingProvider) (err : EmbeddingProviderError)
      (hreached : Reached router request profile providers index provider)
      (h : attempt router request profile index provider = .error (.providerError err))
      (hfinal : err.retryable = false) :
      Ending router request profile providers (.error (.providerError err))
  | unexpected (index : Nat) (provider : EmbeddingProvider) (thrown : Thrown)
      (err : EmbeddingProviderError)
      (hreached : Reached router request profile providers index provider)
      (h : attempt router request profile index provider = .error thrown)
      (hthrown : ∀ e, thrown ≠ .providerError e) (hcode : err.code = "ROUTER_UNEXPECTED_ERROR") :
      Ending router request profile providers (.error (.providerError err))
  | exhausted (err : EmbeddingProviderError)
      (hall : AllFailRetryably router request profile providers)
      (hcode : err.code = "ALL_PROVIDERS_FAILED") :
      Ending router request profile providers (.error (.providerError err))

/-- The loop from any index: the providers before it failed retryably. -/
theorem ending_drop (providers : List EmbeddingProvider) (rest : List EmbeddingProvider) :
    ∀ index errors, providers.drop index = rest →
      (∀ j < index, ∀ p, providers[j]? = some p → FailsRetryably router request profile j p) →
      Ending router request profile providers
        (tryCandidates router request profile index errors rest) := by
  induction rest with
  | nil =>
    intro index errors hdrop hbefore
    refine .exhausted _ (fun j p hp => hbefore j ?_ p hp) rfl
    have hlen := List.drop_eq_nil_iff.mp hdrop
    have hj := (List.getElem?_eq_some_iff.mp hp).1
    omega
  | cons provider rest ih =>
    intro index errors hdrop hbefore
    have hget : providers[index]? = some provider := by
      have hhead := congrArg List.head? hdrop
      rwa [List.head?_drop] at hhead
    have hreached : Reached router request profile providers index provider := ⟨hget, hbefore⟩
    rw [tryCandidates]
    cases h : attempt router request profile index provider with
    | ok result => exact .returned index provider result hreached h
    | error thrown =>
      cases thrown with
      | providerError err =>
        dsimp only
        by_cases hretryable : err.retryable = true
        · rw [if_pos hretryable]
          refine ih (index + 1) _ (by rw [← List.drop_drop, hdrop, List.drop_one, List.tail_cons])
            fun j hj p hp => ?_
          by_cases hlast : j = index
          · subst hlast
            rw [hget] at hp
            cases hp
            obtain hfails | ⟨hfinal, -⟩ := attempt_providerError h
            · exact ⟨err, hfails, hretryable⟩
            · rw [hfinal] at hretryable
              cases hretryable
          · exact hbefore j (by omega) p hp
        · rw [if_neg hretryable]
          exact .refused index provider err hreached h (by simpa using hretryable)
      | noActiveProfile message =>
        exact .unexpected index provider _ _ hreached h (fun _ => by simp) rfl
      | incompatibleProfile message =>
        exact .unexpected index provider _ _ hreached h (fun _ => by simp) rfl
      | noProvider vectorSpace message =>
        exact .unexpected index provider _ _ hreached h (fun _ => by simp) rfl
      | other message => exact .unexpected index provider _ _ hreached h (fun _ => by simp) rfl

/-- **The loop ends at the first provider that does not fail retryably**, or behind the last. -/
theorem ending (providers : List EmbeddingProvider) :
    Ending router request profile providers
      (tryCandidates router request profile 0 [] providers) :=
  ending_drop providers providers 0 [] rfl fun _ hj => absurd hj (Nat.not_lt_zero _)

/-- A provider at which the loop ends does not fail retryably. -/
theorem not_failsRetryably {index : Nat} {provider : EmbeddingProvider}
    (h : ∀ err, attempt router request profile index provider = .error (.providerError err) →
      err.retryable = false) : ¬ FailsRetryably router request profile index provider := by
  rintro ⟨err, hfails, hretryable⟩
  rw [h err (attempt_of_fails hfails)] at hretryable
  cases hretryable

/-- The loop ends at one provider only. -/
theorem Reached.unique {providers : List EmbeddingProvider} {i j : Nat} {p q : EmbeddingProvider}
    (hp : Reached router request profile providers i p)
    (hq : Reached router request profile providers j q)
    (hpends : ¬ FailsRetryably router request profile i p)
    (hqends : ¬ FailsRetryably router request profile j q) : i = j ∧ p = q := by
  rcases Nat.lt_trichotomy i j with hlt | heq | hgt
  · exact absurd (hq.before i hlt p hp.get) hpends
  · subst heq
    have hget := hp.get
    rw [hq.get] at hget
    cases hget
    exact ⟨rfl, rfl⟩
  · exact absurd (hp.before j hgt q hq.get) hqends

/-! ## Usable ends -/

/-- The profile a request is for. -/
structure Requested (router : Router) (request : EmbeddingInvokeRequest)
    (profile : EmbeddingProfile) : Prop where
  found : router.catalog.find request.embeddingProfileId = .ok (some profile)
  active : profile.lifecycle = .active ∧ profile.isActive = true
  pinned : ∀ id ∈ request.embeddingProfileId, profile.embeddingProfileId = id

/-- **What a call may end with**: one vector for each text, as an exact provider answered, or a
failure of all providers that each of them had. -/
def Usable (router : Router) (request : EmbeddingInvokeRequest) :
    Except Thrown EmbeddingResult → Prop
  | .ok result =>
    ∃ profile, Requested router request profile ∧ Exact profile result ∧
      result.vectors.length = request.texts.length ∧
        ∃ p ∈ candidates router profile,
          p.embed (providerRequest request profile) = .ok result
  | .error (.providerError err) =>
    err.code = "ALL_PROVIDERS_FAILED" →
      ∃ profile, router.catalog.find request.embeddingProfileId = .ok (some profile) ∧
        ∀ p ∈ candidates router profile, ∃ e : EmbeddingProviderError,
          p.embed (providerRequest request profile) = .error (.providerError e) ∧
            e.retryable = true
  | .error _ => True

/-- What a call asks of the providers and of the listener. -/
structure Dependable (router : Router) (request : EmbeddingInvokeRequest)
    (profile : EmbeddingProfile) (providers : List EmbeddingProvider) : Prop where
  /-- The first answer has a vector for each text, and the profile is the one that is named. -/
  vectors : ∀ i p result, Reached router request profile providers i p →
    p.embed (providerRequest request profile) = .ok result → Exact profile result →
      router.heard i result = none → result.vectors.length = request.texts.length ∧
        ∀ id ∈ request.embeddingProfileId, profile.embeddingProfileId = id
  /-- The first final failure has a code of its own. -/
  code : ∀ i p err, Reached router request profile providers i p →
    Fails router request profile i p err → err.retryable = false →
      err.code ≠ "ALL_PROVIDERS_FAILED"
  /-- Where all fail retryably, none fails only by the listener. -/
  listener : AllFailRetryably router request profile providers →
    ∀ p ∈ providers, ∀ result, p.embed (providerRequest request profile) ≠ .ok result

/-- Where the loop ends at a provider, all depends on that provider. -/
theorem dependable_iff_of_reached {providers : List EmbeddingProvider} {i : Nat}
    {p : EmbeddingProvider} (hreached : Reached router request profile providers i p)
    (hends : ¬ FailsRetryably router request profile i p) :
    Dependable router request profile providers ↔
      (∀ result, attempt router request profile i p = .ok result →
        result.vectors.length = request.texts.length ∧
          ∀ id ∈ request.embeddingProfileId, profile.embeddingProfileId = id) ∧
      ∀ err, Fails router request profile i p err → err.code ≠ "ALL_PROVIDERS_FAILED" := by
  constructor
  · intro h
    refine ⟨fun result hok => ?_, fun err hfails => ?_⟩
    · obtain ⟨hembed, hexact, hheard⟩ := attempt_eq_ok.mp hok
      exact h.vectors i p result hreached hembed hexact hheard
    · have hfinal : err.retryable = false := by
        by_contra hretryable
        exact hends ⟨err, hfails, by simpa using hretryable⟩
      exact h.code i p err hreached hfails hfinal
  · rintro ⟨hvectors, hcode⟩
    refine ⟨fun j q result hq hembed hexact hheard => ?_, fun j q err hq hfails hfinal => ?_,
      fun hall => ?_⟩
    · have hok := attempt_eq_ok.mpr ⟨hembed, hexact, hheard⟩
      have hqends : ¬ FailsRetryably router request profile j q :=
        not_failsRetryably fun err herr => by rw [hok] at herr; cases herr
      obtain ⟨rfl, rfl⟩ := hreached.unique hq hends hqends
      exact hvectors result hok
    · have hqends : ¬ FailsRetryably router request profile j q := by
        refine not_failsRetryably fun err' herr => ?_
        rw [attempt_of_fails hfails] at herr
        cases herr
        exact hfinal
      obtain ⟨rfl, rfl⟩ := hreached.unique hq hends hqends
      exact hcode err hfails
    · exact absurd (hall i p hreached.get) hends

/-- Where the loop ends behind the last provider, all depends on the listener. -/
theorem dependable_iff_of_exhausted {providers : List EmbeddingProvider}
    (hall : AllFailRetryably router request profile providers) :
    Dependable router request profile providers ↔
      ∀ p ∈ providers, ∃ e : EmbeddingProviderError,
        p.embed (providerRequest request profile) = .error (.providerError e) ∧
          e.retryable = true := by
  constructor
  · intro h p hp
    obtain ⟨j, hj⟩ := List.mem_iff_getElem?.mp hp
    obtain ⟨err, herr | ⟨result, hembed, -⟩, hretryable⟩ := hall j p hj
    · exact ⟨err, herr, hretryable⟩
    · exact absurd hembed (h.listener hall p hp result)
  · intro h
    refine ⟨fun i p result hreached hembed _ _ => ?_, fun i p err hreached hfails hfinal => ?_,
      fun _ p hp result hembed => ?_⟩
    · obtain ⟨e, he, -⟩ := h p (List.mem_of_getElem? hreached.get)
      rw [hembed] at he
      cases he
    · obtain ⟨e, hfails', hretryable⟩ := hall i p hreached.get
      have hsame := (attempt_of_fails hfails).symm.trans (attempt_of_fails hfails')
      cases hsame
      rw [hfinal] at hretryable
      cases hretryable
    · obtain ⟨e, he, -⟩ := h p hp
      rw [hembed] at he
      cases he

/-- **An end is usable exactly if the providers are dependable.** -/
theorem usable_iff_dependable {result : Except Thrown EmbeddingResult}
    (hfound : router.catalog.find request.embeddingProfileId = .ok (some profile))
    (hactive : profile.lifecycle = .active ∧ profile.isActive = true)
    (h : Ending router request profile (candidates router profile) result) :
    Usable router request result ↔
      Dependable router request profile (candidates router profile) := by
  have hsame {other : EmbeddingProfile}
      (hother : router.catalog.find request.embeddingProfileId = .ok (some other)) :
      other = profile := by
    rw [hfound] at hother
    cases hother
    rfl
  cases h with
  | returned i p result hreached hok =>
    have hends : ¬ FailsRetryably router request profile i p :=
      not_failsRetryably fun err herr => by rw [hok] at herr; cases herr
    obtain ⟨hembed, hexact, -⟩ := attempt_eq_ok.mp hok
    rw [dependable_iff_of_reached hreached hends]
    constructor
    · rintro ⟨other, hrequested, -, hlength, -⟩
      obtain rfl := hsame hrequested.found
      refine ⟨fun answer hanswer => ?_, fun err hfails => ?_⟩
      · rw [hok] at hanswer
        cases hanswer
        exact ⟨hlength, hrequested.pinned⟩
      · have herr := attempt_of_fails hfails
        rw [hok] at herr
        cases herr
    · rintro ⟨hvectors, -⟩
      obtain ⟨hlength, hpinned⟩ := hvectors result hok
      exact ⟨profile, ⟨hfound, hactive, hpinned⟩, hexact, hlength, p,
        List.mem_of_getElem? hreached.get, hembed⟩
  | refused i p err hreached herr hfinal =>
    have hends : ¬ FailsRetryably router request profile i p :=
      not_failsRetryably fun other hother => by rw [herr] at hother; cases hother; exact hfinal
    rw [dependable_iff_of_reached hreached hends]
    constructor
    · intro husable
      refine ⟨fun answer hanswer => ?_, fun other hfails hcode => ?_⟩
      · rw [herr] at hanswer
        cases hanswer
      · have hother := attempt_of_fails hfails
        rw [herr] at hother
        cases hother
        obtain ⟨same, hsamefound, hall⟩ := husable hcode
        obtain rfl := hsame hsamefound
        obtain ⟨e, he, hretryable⟩ := hall p (List.mem_of_getElem? hreached.get)
        exact hends ⟨e, .inl he, hretryable⟩
    · rintro ⟨-, hcode⟩ hfailed
      obtain hfails | ⟨-, hother⟩ := attempt_providerError herr
      · exact absurd hfailed (hcode err hfails)
      · exact absurd hfailed hother
  | unexpected i p thrown err hreached herr hthrown hcode =>
    have hends : ¬ FailsRetryably router request profile i p :=
      not_failsRetryably fun other hother => by
        rw [herr] at hother
        cases hother
        exact absurd rfl (hthrown other)
    rw [dependable_iff_of_reached hreached hends]
    refine iff_of_true (fun hfailed => ?_) ⟨fun answer hanswer => ?_, fun other hfails => ?_⟩
    · rw [hcode] at hfailed
      exact absurd hfailed (by decide)
    · rw [herr] at hanswer
      cases hanswer
    · have hother := attempt_of_fails hfails
      rw [herr] at hother
      cases hother
      exact absurd rfl (hthrown other)
  | exhausted err hall hcode =>
    rw [dependable_iff_of_exhausted hall]
    constructor
    · intro husable
      obtain ⟨same, hsamefound, hfailed⟩ := husable hcode
      obtain rfl := hsame hsamefound
      exact hfailed
    · exact fun hfailed _ => ⟨profile, hfound, hfailed⟩

/-- **A call ends usably exactly** when the first answer for an active profile has a vector for each
text, final failures have codes of their own, and no provider fails by the listener only. -/
theorem embed_usable_iff (router : Router) (request : EmbeddingInvokeRequest) :
    Usable router request (embed router request) ↔
      (∀ err, router.catalog.find request.embeddingProfileId = .error (.providerError err) →
        err.code ≠ "ALL_PROVIDERS_FAILED") ∧
      ∀ profile, router.catalog.find request.embeddingProfileId = .ok (some profile) →
        profile.lifecycle = .active ∧ profile.isActive = true →
          Dependable router request profile (candidates router profile) := by
  unfold embed resolveProfile
  cases hfind : router.catalog.find request.embeddingProfileId with
  | error thrown =>
    dsimp only
    cases thrown with
    | providerError err =>
      constructor
      · intro husable
        refine ⟨fun other hother hcode => ?_, fun _ h => nomatch h⟩
        cases hother
        obtain ⟨profile, hfound, -⟩ := husable hcode
        rw [hfind] at hfound
        cases hfound
      · exact fun ⟨hcode, _⟩ hfailed => absurd hfailed (hcode err rfl)
    | noActiveProfile _ => exact iff_of_true trivial ⟨fun _ h => (nomatch h), fun _ h => (nomatch h)⟩
    | incompatibleProfile _ =>
      exact iff_of_true trivial ⟨fun _ h => (nomatch h), fun _ h => (nomatch h)⟩
    | noProvider _ _ => exact iff_of_true trivial ⟨fun _ h => (nomatch h), fun _ h => (nomatch h)⟩
    | other _ => exact iff_of_true trivial ⟨fun _ h => (nomatch h), fun _ h => (nomatch h)⟩
  | ok found =>
    cases found with
    | none =>
      cases request.embeddingProfileId with
      | none => exact iff_of_true trivial ⟨fun _ h => (nomatch h), fun _ h => (nomatch h)⟩
      | some id => exact iff_of_true trivial ⟨fun _ h => (nomatch h), fun _ h => (nomatch h)⟩
    | some profile =>
      dsimp only
      simp only [reduceCtorEq, false_imp_iff, implies_true, true_and, Except.ok.injEq,
        Option.some.injEq, forall_eq']
      by_cases hactive : profile.lifecycle = .active ∧ profile.isActive = true
      · rw [if_neg (by simp [hactive])]
        dsimp only
        by_cases hempty : (candidates router profile).length = 0
        · rw [if_pos hempty]
          refine iff_of_true trivial fun _ => ?_
          rw [List.length_eq_zero_iff.mp hempty]
          exact ⟨fun i p _ hreached => by simpa using hreached.get,
            fun i p _ hreached => by simpa using hreached.get,
            fun _ p hp => absurd hp List.not_mem_nil⟩
        · rw [if_neg hempty, usable_iff_dependable hfind hactive (ending _)]
          exact ⟨fun h _ => h, fun h => h hactive⟩
      · have hrefused : (profile.lifecycle ≠ .active || !profile.isActive) = true := by
          by_cases hlifecycle : profile.lifecycle = .active
          · simpa [hlifecycle] using hactive
          · simp [hlifecycle]
        rw [if_pos hrefused]
        exact iff_of_true trivial fun h => absurd h hactive

/-! ## An answer without vectors -/

def smallProfile : EmbeddingProfile where
  embeddingProfileId := "p"
  providerId := "openai"
  modelId := "m"
  modelVersion := "v1"
  dimensions := .finite 2
  distanceMetric := "cosine"
  vectorSpace := "openai:m:v1:2:cosine"
  lifecycle := .active
  isActive := true

/-- The result that the provider makes of a response without `data`. -/
def withoutVectors : EmbeddingResult where
  providerId := "openai"
  modelId := "m"
  modelVersion := "v1"
  embeddingProfileId := "p"
  vectorSpace := "openai:m:v1:2:cosine"
  vectors := []
  dimensions := .finite 2
  inputTokens := some (.finite 0)
  latencyMs := .finite 0
  startedAt := 0
  completedAt := 0

def emptyRouter : Router where
  catalog := ⟨.ok (some smallProfile), fun _ => .ok none⟩
  registry := [⟨"openai", fun space => space = "openai:m:v1:2:cosine", fun _ => .ok withoutVectors⟩]
  numberText := fun _ => "2"

def oneText : EmbeddingInvokeRequest where
  tenantId := "t"
  correlationId := "c"
  texts := ["task:1"]

/-- The router returns no vector for a text, and the retriever searches with an empty one. -/
theorem embed_not_usable :
    embed emptyRouter oneText = .ok withoutVectors ∧ queryVector withoutVectors = [] ∧
      ¬ Usable emptyRouter oneText (embed emptyRouter oneText) := by
  have hembed : embed emptyRouter oneText = .ok withoutVectors := by rfl
  refine ⟨hembed, rfl, ?_⟩
  rw [hembed]
  rintro ⟨profile, -, -, hlength, -⟩
  exact absurd hlength (by decide)

end VegaRevenue.AiRuntime.EmbeddingRouter
