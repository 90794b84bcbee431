import VegaRevenue.Outreach.SafetyGate
import VegaRevenue.Shared.Text

/-!
# Recipients and their suppression

The address of a recipient is stored encrypted and recovered for a send. The gate looks the
recovered address up among the suppressions of the tenant.

* `suppression_denies` — a suppressed recipient is denied, whatever the other checks say
* `gateDenies_iff` — the gate always denies a recipient iff the address is suppressed
-/

namespace VegaRevenue.Outreach

/-! ## Addresses -/

/-- What recovers an address: the lower case of Unicode, and the decryption of an envelope under
the keys of a tenant, none where it throws. -/
structure RecipientRecovery where
  toLowerCase : String → String
  decrypt : (tenantId ciphertext : String) → Option String

namespace RecipientRecovery

variable (rec : RecipientRecovery)

def canonicalizeEmail (raw : String) : Except String String :=
  let trimmed := rec.toLowerCase (trim raw)
  if trimmed = "" then .error "Email is empty"
  else
    match trimmed.toList.idxOf? '@' with
    | some (before + 1) =>
      if before + 1 = trimmed.toList.length - 1 then .error "Email is malformed" else .ok trimmed
    | _ => .error "Email is malformed"

/-- None where it throws. -/
def recoverEmailForSend (tenantId recipientCiphertext : String) : Option String :=
  (rec.decrypt tenantId recipientCiphertext).bind fun raw => (rec.canonicalizeEmail raw).toOption

variable {rec}

theorem ne_empty_of_canonicalizeEmail {raw address : String}
    (h : rec.canonicalizeEmail raw = .ok address) : address ≠ "" := by
  unfold canonicalizeEmail at h
  dsimp only at h
  split at h
  · cases h
  next hne =>
    split at h
    · split at h
      · cases h
      · cases h
        exact hne
    · cases h

theorem ne_empty_of_recoverEmailForSend {tenantId recipientCiphertext address : String}
    (h : rec.recoverEmailForSend tenantId recipientCiphertext = some address) : address ≠ "" := by
  obtain ⟨raw, -, hcanon⟩ := Option.bind_eq_some_iff.mp h
  cases hr : rec.canonicalizeEmail raw with
  | error message =>
    rw [hr] at hcanon
    cases hcanon
  | ok canonical =>
    rw [hr] at hcanon
    cases hcanon
    exact ne_empty_of_canonicalizeEmail hr

end RecipientRecovery

/-- A recipient of a tenant, as it is stored, with the address a send recovers. -/
structure Recipient (rec : RecipientRecovery) where
  tenantId : String
  recipientCiphertext : String
  address : String
  recovered : rec.recoverEmailForSend tenantId recipientCiphertext = some address

/-! ## Suppressions -/

inductive SuppressionType where
  | optOut
  | bounce
  | complaint
  | manual
deriving DecidableEq

def SuppressionType.name : SuppressionType → String
  | optOut => "OPT_OUT"
  | bounce => "BOUNCE"
  | complaint => "COMPLAINT"
  | manual => "MANUAL"

structure SuppressionRecord where
  suppressionType : SuppressionType
  source : String
  reason : Option String := none
deriving DecidableEq

/-- The rows of `outreach.suppression` by tenant and address. -/
abbrev Suppressions := String × String → Option SuppressionRecord

namespace Suppressions

def isSuppressed (t : Suppressions) (tenantId address : String) : Option SuppressionRecord :=
  t (tenantId, address)

/-- `INSERT … ON CONFLICT DO UPDATE`; the address is stored as it is given. -/
def suppress (t : Suppressions) (tenantId address : String) (record : SuppressionRecord) :
    Suppressions :=
  Function.update t (tenantId, address) (some record)

theorem isSuppressed_suppress (t : Suppressions) (tenantId address : String)
    (record : SuppressionRecord) (tenantId' address' : String) :
    ((t.suppress tenantId address record).isSuppressed tenantId' address').isSome ↔
      (t.isSuppressed tenantId' address').isSome ∨ tenantId' = tenantId ∧ address' = address := by
  unfold suppress isSuppressed
  by_cases h : (tenantId', address') = (tenantId, address)
  · rw [h, Function.update_self]
    simp [Prod.ext_iff] at h
    simp [h]
  · rw [Function.update_of_ne h]
    simp [Prod.ext_iff] at h
    constructor
    · exact .inl
    · rintro (hs | ⟨ht, ha⟩)
      · exact hs
      · exact absurd ha (h ht)

end Suppressions

/-! ## The gate and a recipient -/

/-- The decision of `evaluate` for the recipient the send recovered; none where there is none. -/
def evaluateSend (rec : RecipientRecovery) (suppressions : Suppressions)
    (config : Option RateLimitConfig) (store : Idempotency.Postgres.Store) (input : GateInput)
    (answers : GateAnswers) (now : Idempotency.Clock) : Option SafetyDecision :=
  match input.execution.state.recipientCiphertext.bind
      (rec.recoverEmailForSend input.ctx.tenantId) with
  | none => none
  | some address =>
    (evaluate config store input
      { answers with
        suppression := (suppressions.isSuppressed input.ctx.tenantId address).map fun r =>
          (r.suppressionType.name, r.source) }
      now).2.2

/-- Every evaluation of a send to the recipient ends in a denial. -/
def GateDenies (rec : RecipientRecovery) (suppressions : Suppressions) (tenantId address : String) :
    Prop :=
  ∀ config store (input : GateInput) answers now, input.ctx.tenantId = tenantId →
    input.execution.state.recipientCiphertext.bind (rec.recoverEmailForSend tenantId) =
      some address →
    ∃ code reason,
      evaluateSend rec suppressions config store input answers now = some (.deny code reason)

/-- **A suppressed recipient is denied, whatever the other checks say.** -/
theorem suppression_denies (config : Option RateLimitConfig) (store : Idempotency.Postgres.Store)
    (input : GateInput) {answers : GateAnswers} (now : Idempotency.Clock)
    (h : answers.suppression.isSome) :
    ∃ code reason, (evaluate config store input answers now).2.2 = some (.deny code reason) := by
  obtain ⟨⟨suppressionType, source⟩, hs⟩ := Option.isSome_iff_exists.mp h
  have hp : ∃ code reason,
      checkPolicies config input answers now.ms = some (.deny code reason) := by
    unfold checkPolicies
    rw [hs]
    split
    · exact ⟨_, _, rfl⟩
    · split
      · exact ⟨_, _, rfl⟩
      · exact ⟨_, _, rfl⟩
  obtain ⟨code, reason, hp⟩ := hp
  refine ⟨code, reason, ?_⟩
  unfold evaluate
  rw [hp]

/-- A send to the recipient that only a suppression can deny: the rate limiter does not answer. -/
def unlimitedSend (r : String × String) : GateInput where
  ctx := ⟨r.1, ""⟩
  campaign := .init {
    id := "", tenantId := r.1, workspaceId := "", leadId := "", contactId := ""
    recipientProtectionState := .protectedRecipient, channel := .email, steps := []
    createdAt := 0, updatedAt := 0 }
  execution := .init {
    id := "", tenantId := r.1, workspaceId := "", campaignId := "", sequenceId := ""
    stepNumber := 0, leadId := "", contactId := "", recipientCiphertext := some r.2
    recipientProtectionState := .protectedRecipient, channel := .email, idempotencyKey := ""
    createdAt := 0, updatedAt := 0 }
  estimatedCostUsd := 0

/-- **The gate always denies a recipient iff the address is suppressed.** -/
theorem gateDenies_iff {rec : RecipientRecovery} (suppressions : Suppressions) (r : Recipient rec) :
    GateDenies rec suppressions r.tenantId r.address ↔
      (suppressions.isSuppressed r.tenantId r.address).isSome := by
  constructor
  · intro h
    by_contra hnone
    rw [Bool.not_eq_true, Option.isSome_eq_false_iff, Option.isNone_iff_eq_none] at hnone
    obtain ⟨code, reason, hd⟩ := h (some { perSecond := some 1 }) (fun _ => none)
      (unlimitedSend (r.tenantId, r.recipientCiphertext)) { rateLimit := fun _ => .unavailable }
      ⟨0, by decide, by decide⟩ rfl r.recovered
    have hr : (unlimitedSend (r.tenantId, r.recipientCiphertext)).execution.state.recipientCiphertext.bind
        (rec.recoverEmailForSend (unlimitedSend (r.tenantId, r.recipientCiphertext)).ctx.tenantId) =
          some r.address := r.recovered
    unfold evaluateSend at hd
    rw [hr] at hd
    have hs : suppressions.isSuppressed
        (unlimitedSend (r.tenantId, r.recipientCiphertext)).ctx.tenantId r.address = none := hnone
    dsimp only at hd
    rw [hs] at hd
    simp [evaluate, checkPolicies, unlimitedSend, approvalDenialCode, checkRateLimits, checkWindow,
      Versioned.Aggregate.init] at hd
  · intro hsome config store input answers now htenant hr
    unfold evaluateSend
    rw [htenant, hr]
    exact suppression_denies config store input now (by rw [Option.isSome_map]; exact hsome)

end VegaRevenue.Outreach
