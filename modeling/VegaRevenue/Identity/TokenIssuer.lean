import VegaRevenue.Lib.Machine
import VegaRevenue.RecipientProtection.Envelope
import VegaRevenue.Shared.Json
import VegaRevenue.Shared.Number
import VegaRevenue.Shared.Result

/-!
# Access tokens

`HmacTokenIssuer` signs with the active key of its ring and verifies with the active key and, for
a while, with the previous one. A refresh puts a new ring in force, or fails and leaves the old one.

* `loadRing`, `issue`, `verify` — the code
* `step` — an issuer through refreshes and calls, with the tokens it has issued
-/

namespace VegaRevenue.Identity

open RecipientProtection (Crypto utf8 ofUtf8 toBase64Url fromBase64Url splitDots)

/-! ## Key rings -/

def minKeyBytes : Nat := 32

structure KeySpec where
  kid : String
  reference : String

structure PreviousKeySpec extends KeySpec where
  validUntil : JsNumber

structure KeyConfig where
  active : KeySpec
  previous : Option PreviousKeySpec := none

structure LoadedKey where
  kid : String
  key : List UInt8
deriving DecidableEq

structure PreviousKey extends LoadedKey where
  validUntil : JsNumber

/-- The keys of a ring are long enough and have different ids. -/
structure KeyRing where
  active : LoadedKey
  previous : Option PreviousKey
  loadedAt : Date
  distinct : ∀ p ∈ previous, active.kid ≠ p.kid
  strong : minKeyBytes ≤ active.key.length ∧ ∀ p ∈ previous, minKeyBytes ≤ p.key.length

/-- `secrets.getSecret`; it throws with a message. -/
abbrev SecretsProvider := String → Except String String

/-- A key of the specification. -/
abbrev KeyFor (spec : KeySpec) := {k : LoadedKey // k.kid = spec.kid ∧ minKeyBytes ≤ k.key.length}

/-- The bytes of a secret: base64 where that gives enough of them, else its text. -/
def keyBytes (raw : String) : List UInt8 :=
  let decoded := fromBase64Url raw
  if decoded.length < minKeyBytes then utf8 raw else decoded

def loadKey (secrets : SecretsProvider) (spec : KeySpec) (label : String) :
    Except String (KeyFor spec) := do
  let raw ← secrets spec.reference
  if raw = "" then
    throw s!"{label} key reference {spec.reference} resolved to empty value"
  else if h : minKeyBytes ≤ (keyBytes raw).length then
    return ⟨⟨spec.kid, keyBytes raw⟩, rfl, h⟩
  else throw s!"{label} key is shorter than {minKeyBytes} bytes"

def loadRing (secrets : SecretsProvider) (config : KeyConfig) (now : Date) :
    Except String KeyRing := do
  let active ← loadKey secrets config.active "active"
  match config.previous with
  | none =>
    return {
      active := active.val
      previous := none
      loadedAt := now
      distinct := by simp
      strong := ⟨active.property.2, by simp⟩ }
  | some previous =>
    if h : config.active.kid = previous.kid then throw "Active and previous kid must differ"
    else do
      let loaded ← loadKey secrets previous.toKeySpec "previous"
      let p : PreviousKey := ⟨loaded.val, previous.validUntil⟩
      return {
        active := active.val
        previous := some p
        loadedAt := now
        distinct := by
          intro p' hp'
          rw [← Option.some.inj hp', active.property.1]
          show config.active.kid ≠ loaded.val.kid
          rw [loaded.property.1]
          exact h
        strong := by
          refine ⟨active.property.2, fun p' hp' => ?_⟩
          rw [← Option.some.inj hp']
          exact loaded.property.2 }

namespace KeyRing

/-- The ring verifies with the key at that time. -/
def Holds (ring : KeyRing) (k : LoadedKey) (now : Date) : Prop :=
  ring.active = k ∨
    ∃ p ∈ ring.previous, p.toLoadedKey = k ∧ (JsNumber.finite now).lt p.validUntil = true

def resolveKey (ring : KeyRing) (kid : String) (now : Date) : Option LoadedKey :=
  if ring.active.kid = kid then some ring.active
  else
    match ring.previous with
    | some previous =>
      if previous.kid = kid ∧ (JsNumber.finite now).lt previous.validUntil = true then
        some previous.toLoadedKey
      else none
    | none => none

end KeyRing

/-! ## Tokens -/

structure AuthenticatedUser where
  userId : String
  email : String
  name : Option String
  tenantId : String
  workspaceId : String
  roles : List String
  permissions : List String
deriving DecidableEq

/-- What the payload of a token gives for a user; a member that it lacks is `undefined`. -/
structure VerifiedUser where
  userId : Option Json
  email : Option Json
  name : Option Json
  tenantId : Option Json
  workspaceId : Option Json
  roles : Option Json
  permissions : Option Json

/-- What the issuer takes from the platform. -/
structure Platform where
  crypto : Crypto
  /-- `JSON.stringify`. -/
  stringify : Json → String
  /-- `JSON.parse`, none where it throws. -/
  parse : String → Option Json
  /-- The number a text, an array or an object is converted to. -/
  toNumber : Json → JsNumber

structure IssuerConfig where
  issuer : String := "projectx"
  audience : String := "projectx-api"
  expirySeconds : Int := 86400
  maxStalenessMs : Int := 5 * 60000

def jsonText (s : Option String) : Json := s.elim .null .str

def jsonTexts (texts : List String) : Json := .arr (texts.map .str)

/-- The user as a verified token gives it. -/
def AuthenticatedUser.verified (user : AuthenticatedUser) : VerifiedUser where
  userId := some (.str user.userId)
  email := some (.str user.email)
  name := some (jsonText user.name)
  tenantId := some (.str user.tenantId)
  workspaceId := some (.str user.workspaceId)
  roles := some (jsonTexts user.roles)
  permissions := some (jsonTexts user.permissions)

def tokenHeader (kid : String) : Json :=
  .obj [("alg", .str "HS256"), ("typ", .str "JWT"), ("kid", .str kid)]

/-- The time is in seconds. -/
def tokenPayload (config : IssuerConfig) (user : AuthenticatedUser) (now : Int) : Json :=
  .obj [("sub", .str user.userId), ("email", .str user.email), ("name", jsonText user.name),
    ("tenant", .str user.tenantId), ("workspace", .str user.workspaceId),
    ("roles", jsonTexts user.roles), ("permissions", jsonTexts user.permissions),
    ("iat", .num now), ("exp", .num (now + config.expirySeconds : Int)),
    ("iss", .str config.issuer), ("aud", .str config.audience)]

/-- `v === s` for a string `s`. -/
def isText (s : String) : Option Json → Bool
  | some (.str t) => t = s
  | _ => false

namespace Platform

variable (platform : Platform)

def encodePart (v : Json) : String := toBase64Url (utf8 (platform.stringify v))

def decodePart (part : String) : Option Json :=
  platform.parse (ofUtf8 platform.crypto (fromBase64Url part))

def sign (input : String) (key : List UInt8) : String :=
  toBase64Url (platform.crypto.hmac key (utf8 input))

/-- The number that `<` compares. -/
def number : Option Json → JsNumber
  | none => .nan
  | some .null => .finite 0
  | some (.bool b) => .finite (if b then 1 else 0)
  | some (.num q) => .finite q
  | some v => platform.toNumber v

def issue (config : IssuerConfig) (ring : KeyRing) (user : AuthenticatedUser) (nowMs : Date) :
    Except String String :=
  if config.maxStalenessMs < nowMs - ring.loadedAt then
    .error "Token issuer key ring is stale; refusing to issue new token"
  else
    let encodedHeader := platform.encodePart (tokenHeader ring.active.kid)
    let encodedPayload := platform.encodePart (tokenPayload config user (nowMs / 1000))
    let signature := platform.sign (encodedHeader ++ "." ++ encodedPayload) ring.active.key
    .ok (encodedHeader ++ "." ++ encodedPayload ++ "." ++ signature)

/-- The id of the key in the header, where the token is one of ours. -/
def headerKid (encodedHeader : String) : Option String :=
  match platform.decodePart encodedHeader with
  | none => none
  | some header =>
    if isText "HS256" (header.member? "alg") ∧ isText "JWT" (header.member? "typ") then
      match header.member? "kid" with
      -- an id of another type is the id of no key
      | some (.str kid) => if kid = "" then none else some kid
      | _ => none
    else none

/-- The signature is compared byte by byte. -/
def signed (input signature : String) (key : List UInt8) : Bool :=
  utf8 signature = utf8 (platform.sign input key)

def readPayload (config : IssuerConfig) (payload : Json) (now : Date) : Option VerifiedUser :=
  if (platform.number (payload.member? "exp")).lt (.finite (now / 1000 : Int)) ∨
      isText config.issuer (payload.member? "iss") = false ∨
      isText config.audience (payload.member? "aud") = false then
    none
  else some {
    userId := payload.member? "sub"
    email := payload.member? "email"
    name := payload.member? "name"
    tenantId := payload.member? "tenant"
    workspaceId := payload.member? "workspace"
    roles := payload.member? "roles"
    permissions := payload.member? "permissions" }

/-- The clock is read twice: for the keys and for the expiry. -/
def verify (config : IssuerConfig) (ring : KeyRing) (token : String) (resolvedAt now : Date) :
    Option VerifiedUser :=
  match splitDots token with
  | [encodedHeader, encodedPayload, signature] => do
    let kid ← platform.headerKid encodedHeader
    let candidate ← ring.resolveKey kid resolvedAt
    if platform.signed (encodedHeader ++ "." ++ encodedPayload) signature candidate.key then do
      let payload ← platform.decodePart encodedPayload
      platform.readPayload config payload now
    else none
  | _ => none

end Platform

/-! ## An issuer at work -/

/-- A token that was issued. -/
structure Issued where
  token : String
  key : LoadedKey
  user : AuthenticatedUser
  issuedAt : Date

/-- The second it expires after. -/
def Issued.exp (config : IssuerConfig) (i : Issued) : Int :=
  i.issuedAt / 1000 + config.expirySeconds

structure TokenState where
  ring : KeyRing
  issued : List Issued := []

inductive TokenEvent where
  /-- The ring of the configuration is loaded; the secrets are those of the moment. -/
  | refresh (keys : KeyConfig) (secrets : SecretsProvider) (now : Date)
  | issue (user : AuthenticatedUser) (now : Date)
  | verify (token : String) (resolvedAt now : Date)

inductive TokenAnswer where
  | refreshed (result : Except String Unit)
  | issued (result : Except String String)
  | verified (result : Option VerifiedUser)

/-- One event. -/
def tokenStep (platform : Platform) (config : IssuerConfig) :
    Machine.Step TokenState TokenEvent TokenAnswer := fun s e =>
  match e with
  | .refresh keys secrets now =>
    match loadRing secrets keys now with
    | .ok ring => ({ s with ring }, .refreshed (.ok ()))
    | .error message => (s, .refreshed (.error message))
  | .issue user now =>
    match platform.issue config s.ring user now with
    | .ok token =>
      ({ s with issued := s.issued ++ [⟨token, s.ring.active, user, now⟩] }, .issued (.ok token))
    | .error message => (s, .issued (.error message))
  | .verify token resolvedAt now =>
    (s, .verified (platform.verify config s.ring token resolvedAt now))

end VegaRevenue.Identity
