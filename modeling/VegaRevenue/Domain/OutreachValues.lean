import VegaRevenue.Shared.Result

/-!
# The value objects of outreach
-/

namespace VegaRevenue

inductive OutreachChannel where
  | email
  | linkedin
  | calendar
deriving DecidableEq

inductive RetryClassification where
  | retryable
  | nonRetryable
  | rateLimited
deriving DecidableEq

structure SequenceStep where
  stepNumber : Nat
  channel : OutreachChannel
  delayMs : Nat
  requiresApproval : Bool
  templateRef : Option String := none
  objective : Option String := none
deriving DecidableEq

structure DraftClaim where
  text : String
  evidenceId : String
  confidence : Rat
deriving DecidableEq

structure MessageDraft where
  subject : Option String := none
  body : String
  cta : Option String := none
  tone : String
  claims : List DraftClaim := []
  evidenceReferences : List String := []
  unsupportedClaimsRemoved : List String := []
deriving DecidableEq

/-! ## Protected recipients -/

/-- `legacyUnavailable` is the state of rows written before recipients were encrypted. -/
inductive RecipientProtectionState where
  | protectedRecipient
  | legacyUnavailable
deriving DecidableEq

/-- The error `assertProtectedRecipient` throws, if any. -/
def assertProtectedRecipient (fingerprint : Option String) (state : RecipientProtectionState) :
    Option String :=
  if state = .protectedRecipient ∧ blank fingerprint then
    some "Protected recipient fingerprint is required"
  else if state = .legacyUnavailable ∧ !blank fingerprint then
    some "Legacy unavailable recipient cannot contain a fingerprint"
  else none

/-- The error `assertProtectedRecipientSnapshot` throws, if any. -/
def assertProtectedRecipientSnapshot (fingerprint ciphertext : Option String)
    (state : RecipientProtectionState) : Option String :=
  (assertProtectedRecipient fingerprint state).or <|
    if state = .protectedRecipient ∧ blank ciphertext then
      some "Protected recipient ciphertext is required"
    else if state = .legacyUnavailable ∧ !blank ciphertext then
      some "Legacy unavailable recipient cannot contain ciphertext"
    else none

end VegaRevenue
