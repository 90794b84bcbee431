import VegaRevenue.Shared.Casing
import VegaRevenue.ToolGateway.Gateway

/-!
# `HttpToolProvider`

The HTTP provider posts a request to the destination of a named route. The destination comes from
the egress policy of the server alone; where the policy allows none, nothing is sent.

* `execute_errorCode` — it never says `NOT_SUBMITTED`
-/

namespace VegaRevenue.ToolGateway.HttpToolProvider

/-- A route of the policy: its base URL and the reference of its secret. -/
structure Route where
  baseUrl : String
  secretRef : Option String

structure HttpEgressPolicy where
  allowedHosts : List String
  allowedSchemes : List String
  allowPrivateNetwork : Bool
  allowRedirects : Bool
  routes : List (String × Route) := []

/-- What `new URL` reads of a text. -/
structure ParsedUrl where
  protocol : String
  hostname : String

structure Options where
  policy : HttpEgressPolicy
  /-- A provider of secrets is configured. -/
  secrets : Bool
  /-- `new URL`, none where it throws. -/
  parseUrl : String → Option ParsedUrl
  casing : Casing

/-! ## Destinations -/

def privateHostnames : List String :=
  ["localhost", "metadata.google.internal", "instance-data", "169.254.169.254"]

def startsWith (host start : String) : Bool := start.toList.isPrefixOf host.toList

/-- `/^172\.(1[6-9]|2\d|3[01])\./`. -/
def private172 (host : String) : Bool :=
  match host.toList with
  | '1' :: '7' :: '2' :: '.' :: a :: b :: '.' :: _ =>
    a = '1' && '6' ≤ b && b ≤ '9' || a = '2' && b.isDigit || a = '3' && (b = '0' || b = '1')
  | _ => false

def isPrivateIp (host : String) : Bool :=
  let lower := String.ofList (host.toList.map Char.toLower)
  startsWith host "127." || host = "::1" || startsWith host "10." || startsWith host "192.168." ||
    private172 host || startsWith host "169.254." || startsWith lower "fe80:" ||
    startsWith lower "fc" || startsWith lower "fd" || host = "0.0.0.0" || host = "0"

def hostAllowed (u : Casing) (host : String) (allowed : List String) : Bool :=
  let h := u.toLowerCase host
  allowed.any fun a =>
    let al := u.toLowerCase a
    if startsWith al "*." then
      h = String.ofList (al.toList.drop 2) || (al.toList.drop 1).isSuffixOf h.toList
    else h = al

variable (o : Options)

/-- `validateUrl`; the reason where the destination is refused. -/
def validateUrl (raw : String) : Except String Unit :=
  match o.parseUrl raw with
  | none => .error "invalid destination URL"
  | some url =>
    let scheme := o.casing.toLowerCase (String.ofList (url.protocol.toList.erase ':'))
    if !o.policy.allowedSchemes.contains scheme then .error ("scheme " ++ scheme ++ " not allowed")
    else
      let host := o.casing.toLowerCase url.hostname
      if !o.policy.allowPrivateNetwork && (privateHostnames.contains host || isPrivateIp host) then
        .error "private/loopback/metadata destination blocked"
      else if !hostAllowed o.casing host o.policy.allowedHosts then
        .error ("host " ++ host ++ " not in egress allowlist")
      else .ok ()

/-- `resolveDestination`, from `metadata.route`. -/
def resolveDestination (route : Option String) : Except String Route :=
  if blank route then .error "no privileged destination configured"
  else
    match o.policy.routes.lookup (route.getD "") with
    | none => .error ("unknown route " ++ route.getD "")
    | some r => (validateUrl o r.baseUrl).map fun _ => r

/-! ## Execution -/

/-- How the request ends. -/
inductive Fetched where
  | response (status : Nat) (location requestId : Option String) (output : Option Json)
  | aborted
  | failed

/-- What a call meets: the answer of the secrets provider, the message where it throws, and how the
request ends. -/
structure Meets where
  secret : Except String String
  fetched : Fetched

def egressDenied (reason : String) : ToolProviderOutcome where
  submitted := false
  resultKnown := true
  retryable := false
  failureClassification := some "EGRESS_DENIED"
  errorCode := some "EGRESS_DENIED"
  errorMessage := some reason

def redirectDenied : ToolProviderOutcome where
  submitted := true
  resultKnown := false
  retryable := false
  failureClassification := some "REDIRECT_DENIED"
  errorCode := some "REDIRECT_DENIED"
  errorMessage := some "redirect target not allowlisted"

/-- The target of a redirect is not allowed. -/
def deniesRedirect (status : Nat) (location : Option String) : Bool :=
  300 ≤ status && status < 400 &&
    (blank location || !(validateUrl o (location.getD "")).toBool)

/-- The outcome of a request that was sent. -/
def outcome : Fetched → ToolProviderOutcome
  | .response status location requestId output =>
    if deniesRedirect o status location then redirectDenied
    else if !(200 ≤ status && status < 300) then
      { submitted := true, resultKnown := true, retryable := 500 ≤ status
        failureClassification := some s!"HTTP_{status}", providerRequestId := requestId
        errorCode := some s!"HTTP_{status}"
        errorMessage := some s!"provider responded {status}" }
    else
      { submitted := true, resultKnown := true, retryable := false
        providerRequestId := requestId, output := output }
  | .aborted =>
    { submitted := true, resultKnown := false, retryable := false
      failureClassification := some "TIMEOUT", errorCode := some "TIMEOUT"
      errorMessage := some "provider request timed out" }
  | .failed =>
    { submitted := true, resultKnown := false, retryable := false
      failureClassification := some "TRANSPORT_ERROR", errorCode := some "TRANSPORT_ERROR"
      errorMessage := some "transport error" }

theorem outcome_submitted (fetched : Fetched) : (outcome o fetched).submitted = true := by
  unfold outcome
  split
  · split
    · rfl
    · split <;> rfl
  · rfl
  · rfl

theorem http_ne_notSubmitted (status : Nat) : s!"HTTP_{status}" ≠ "NOT_SUBMITTED" := by
  intro h
  have hlist := congrArg String.toList h
  have hhead : (("HTTP_" : String) ++ toString status).toList.head? =
      "NOT_SUBMITTED".toList.head? := congrArg List.head? hlist
  rw [String.toList_append] at hhead
  have hchar : 'H' = 'N' := Option.some.inj hhead
  exact absurd hchar (by decide)

theorem outcome_errorCode (fetched : Fetched) :
    (outcome o fetched).errorCode ≠ some "NOT_SUBMITTED" := by
  unfold outcome
  split
  · split
    · show some "REDIRECT_DENIED" ≠ _
      decide
    · split
      next status _ _ _ _ _ => exact fun h => http_ne_notSubmitted status (Option.some.inj h)
      next => exact nofun
  · show some "TIMEOUT" ≠ _
    decide
  · show some "TRANSPORT_ERROR" ≠ _
    decide

/-- `HttpToolProvider.execute`. -/
def execute (route : Option String) (meets : Meets) : Execution :=
  match resolveDestination o route with
  | .error reason => .answered ⟨egressDenied reason, false, nofun⟩
  | .ok r =>
    match if blank r.secretRef || !o.secrets then .ok "" else meets.secret with
    | .error message => .threw message
    | .ok _ => .answered ⟨outcome o meets.fetched, true,
        fun _ => ⟨outcome_submitted o meets.fetched, outcome_errorCode o meets.fetched⟩⟩

/-- **No call of the provider ends with the code of what was not submitted.** -/
theorem execute_errorCode (route : Option String) (meets : Meets) (definition : ToolDefinition) :
    ((execute o route meets).outcome definition).1.errorCode ≠ some "NOT_SUBMITTED" := by
  unfold execute
  split
  · show some "EGRESS_DENIED" ≠ _
    decide
  · split
    · show some "PROVIDER_EXCEPTION" ≠ _
      decide
    · exact outcome_errorCode o meets.fetched

end VegaRevenue.ToolGateway.HttpToolProvider
