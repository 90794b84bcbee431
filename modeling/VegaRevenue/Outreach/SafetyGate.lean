import VegaRevenue.Outreach.World

/-!
# The pre-send safety gate

`SendSafetyGate.evaluate`: every check in its order, with the atomic claim of the idempotency key
last. The answers of the ports it asks are inputs.

* `evaluate_cases` — only a won claim changes the idempotency store, and only then the gate allows
-/

namespace VegaRevenue.Outreach

open Idempotency (Triple Clock Statement Answer)

inductive SafetyDenialCode where
  | invalidTenantContext
  | notAllowlisted
  | suppressed
  | approvalNotFound
  | approvalWrongTenant
  | approvalWrongTarget
  | approvalExpired
  | approvalRejected
  | approvalCancelled
  | approvalPending
  | approvalInvalidActionType
  | rateLimited
  | redisUnavailable
  | budgetSendCountExceeded
  | budgetCostExceeded
  | duplicateSend
  | invalidContent
deriving DecidableEq

def SafetyDenialCode.name : SafetyDenialCode → String
  | invalidTenantContext => "INVALID_TENANT_CONTEXT"
  | notAllowlisted => "NOT_ALLOWLISTED"
  | suppressed => "SUPPRESSED"
  | approvalNotFound => "APPROVAL_NOT_FOUND"
  | approvalWrongTenant => "APPROVAL_WRONG_TENANT"
  | approvalWrongTarget => "APPROVAL_WRONG_TARGET"
  | approvalExpired => "APPROVAL_EXPIRED"
  | approvalRejected => "APPROVAL_REJECTED"
  | approvalCancelled => "APPROVAL_CANCELLED"
  | approvalPending => "APPROVAL_PENDING"
  | approvalInvalidActionType => "APPROVAL_INVALID_ACTION_TYPE"
  | rateLimited => "RATE_LIMITED"
  | redisUnavailable => "REDIS_UNAVAILABLE"
  | budgetSendCountExceeded => "BUDGET_SEND_COUNT_EXCEEDED"
  | budgetCostExceeded => "BUDGET_COST_EXCEEDED"
  | duplicateSend => "DUPLICATE_SEND"
  | invalidContent => "INVALID_CONTENT"

inductive SafetyDecision where
  | allow
  | deny (code : SafetyDenialCode) (reason : String)
  | retryable (code : SafetyDenialCode) (reason : String) (retryAfterMs : Nat)
deriving DecidableEq

/-! ## The answers of the ports -/

inductive ApprovalOutcome where
  | approved
  | notFound
  | wrongTenant
  | wrongTarget
  | expired
  | rejected
  | cancelled
  | pending
  | invalidActionType
deriving DecidableEq

/-- What the rate limiter answers for one window. -/
inductive RateAnswer where
  | allowed
  | exceeded (resetAt : Date)
  | unavailable
deriving DecidableEq

structure GateAnswers where
  allowed : Bool := true
  /-- The type and the source of a suppression. -/
  suppression : Option (String × String) := none
  approval : ApprovalOutcome := .approved
  approvalReason : String := ""
  /-- By the length of the window in seconds. -/
  rateLimit : Nat → RateAnswer := fun _ => .allowed

structure RateLimitConfig where
  perSecond : Option Nat := none
  perMinute : Option Nat := none
  perHour : Option Nat := none
  perDay : Option Nat := none
deriving DecidableEq

/-! ## The checks -/

/-- `approvalDenialCode`; none for an approval. -/
def approvalDenialCode : ApprovalOutcome → Option SafetyDenialCode
  | .approved => none
  | .notFound => some .approvalNotFound
  | .wrongTenant => some .approvalWrongTenant
  | .wrongTarget => some .approvalWrongTarget
  | .expired => some .approvalExpired
  | .rejected => some .approvalRejected
  | .cancelled => some .approvalCancelled
  | .pending => some .approvalPending
  | .invalidActionType => some .approvalInvalidActionType

/-- One window of `checkRateLimits`. -/
def checkWindow (answers : GateAnswers) (now : Date) (limit : Option Nat) (windowSeconds : Nat)
    (label : String) : Option SafetyDecision :=
  match limit with
  | none => none
  | some limit =>
    match answers.rateLimit windowSeconds with
    | .allowed => none
    | .exceeded resetAt =>
      some (.retryable .rateLimited
        ("Rate limit exceeded (" ++ label ++ ": " ++ toString limit ++ ")") (resetAt - now).toNat)
    | .unavailable =>
      some (.retryable .redisUnavailable
        ("Redis rate limiter is unavailable; cannot verify rate limit (" ++ label ++ ")") 0)

def checkRateLimits (config : Option RateLimitConfig) (answers : GateAnswers) (now : Date) :
    Option SafetyDecision :=
  match config with
  | none => none
  | some config =>
    (checkWindow answers now config.perSecond 1 "per-second").or <|
    (checkWindow answers now config.perMinute 60 "per-minute").or <|
    (checkWindow answers now config.perHour 3600 "per-hour").or <|
    checkWindow answers now config.perDay 86400 "per-day"

/-- The send count is checked before the cost. The text of the cost denial ends in the limit, a
decimal number that is left out here. -/
def checkBudget (campaign : Campaign.Props) (estimatedCostUsd : Rat) : Option SafetyDecision :=
  let overCount := campaign.budget.maxSendCount.filter fun limit => limit < campaign.sentCount + 1
  match overCount with
  | some limit =>
    some (.deny .budgetSendCountExceeded ("Budget exceeded: campaign " ++ campaign.id ++
      " would exceed maxSendCount " ++ toString limit))
  | none =>
    if campaign.budget.maxCostUsd.any
        (fun limit => limit < campaign.spentCostUsd + estimatedCostUsd) then
      some (.deny .budgetCostExceeded ("Budget exceeded: campaign " ++ campaign.id ++
        " would exceed maxCostUsd"))
    else none

/-- The white space `trim` removes. -/
def whiteSpace (c : Char) : Bool :=
  c ∈ ['\t', '\n', '\x0b', '\x0c', '\r', ' ', '\u00a0', '\u1680', '\u2028', '\u2029', '\u202f',
    '\u205f', '\u3000', '\ufeff'] || ('\u2000' ≤ c && c ≤ '\u200a')

/-- `!body || body.trim().length === 0`. -/
def emptyText (text : String) : Bool := text.toList.all whiteSpace

/-- The draft of an execution can be sent. -/
def hasContent (draft : Option MessageDraft) : Bool := draft.any fun d => !emptyText d.body

structure GateInput where
  ctx : Context
  campaign : Campaign
  execution : MessageExecution
  estimatedCostUsd : Rat

/-- The checks before the budget: tenant, allowlist, suppression, approval, rate limits. -/
def checkPolicies (config : Option RateLimitConfig) (input : GateInput) (answers : GateAnswers)
    (now : Date) : Option SafetyDecision :=
  if input.ctx.tenantId ≠ input.campaign.state.tenantId ∨
      input.ctx.tenantId ≠ input.execution.state.tenantId then
    some (.deny .invalidTenantContext "Tenant context does not match campaign/execution tenant")
  else if !answers.allowed then
    some (.deny .notAllowlisted "Recipient is not on the tenant allowlist")
  else
    match answers.suppression with
    | some (suppressionType, source) =>
      some (.deny .suppressed
        ("Recipient is suppressed (" ++ suppressionType ++ " via " ++ source ++ ")"))
    | none =>
      match approvalDenialCode answers.approval with
      | some code => some (.deny code answers.approvalReason)
      | none => checkRateLimits config answers now

/-- The key of the claim. -/
def sendKey (ctx : Context) (idempotencyKey : String) : Triple :=
  ⟨ctx.tenantId, "outreach:send", idempotencyKey⟩

/-- `SendSafetyGate.evaluate`: the store after it, the campaign with the spend recorded, and the
decision; none when the claim throws. -/
def evaluate (config : Option RateLimitConfig) (store : Idempotency.Postgres.Store)
    (input : GateInput) (answers : GateAnswers) (now : Clock) :
    Idempotency.Postgres.Store × Campaign × Option SafetyDecision :=
  match checkPolicies config input answers now.ms with
  | some decision => (store, input.campaign, some decision)
  | none =>
    match checkBudget input.campaign.state input.estimatedCostUsd with
    | some decision => (store, input.campaign, some decision)
    | none =>
      let campaign := (Campaign.recordSpend input.campaign 1 input.estimatedCostUsd).1
      if !hasContent input.execution.state.draft then
        (store, campaign,
          some (.deny .invalidContent "Execution has no validated draft content to send"))
      else
        let key := sendKey input.ctx input.execution.state.idempotencyKey
        match Idempotency.Postgres.claim store key now with
        | (store', .claimed true) => (store', campaign, some .allow)
        | (store', .claimed false) =>
          (store', campaign, some (.deny .duplicateSend
            ("Execution " ++ input.execution.state.id ++
              " already has an in-flight or completed send reserved for this idempotency key")))
        | (store', _) => (store', campaign, none)

/-! ## What the gate decides -/

theorem checkWindow_ne_allow (answers : GateAnswers) (now : Date) (limit : Option Nat)
    (windowSeconds : Nat) (label : String) :
    checkWindow answers now limit windowSeconds label ≠ some .allow := by
  unfold checkWindow
  split
  · simp
  · split <;> simp

theorem checkRateLimits_ne_allow (config : Option RateLimitConfig) (answers : GateAnswers)
    (now : Date) : checkRateLimits config answers now ≠ some .allow := by
  unfold checkRateLimits
  split
  · simp
  · intro h
    simp only [Option.or_eq_some_iff] at h
    rcases h with h | ⟨-, h | ⟨-, h | ⟨-, h⟩⟩⟩ <;> exact checkWindow_ne_allow _ _ _ _ _ h

theorem checkPolicies_ne_allow (config : Option RateLimitConfig) (input : GateInput)
    (answers : GateAnswers) (now : Date) : checkPolicies config input answers now ≠ some .allow := by
  unfold checkPolicies
  split
  · simp
  · split
    · simp
    · split
      · simp
      · split
        · simp
        · exact checkRateLimits_ne_allow _ _ _

theorem checkBudget_ne_allow (campaign : Campaign.Props) (estimatedCostUsd : Rat) :
    checkBudget campaign estimatedCostUsd ≠ some .allow := by
  unfold checkBudget
  dsimp only
  split
  · simp
  · split <;> simp

/-- Where the budget check passes, recording the spend stays within the send count. -/
theorem recordSpend_of_checkBudget {campaign : Campaign} {estimatedCostUsd : Rat}
    (h : checkBudget campaign.state estimatedCostUsd = none) :
    (Campaign.recordSpend campaign 1 estimatedCostUsd).1.state.sentCount =
        campaign.state.sentCount + 1 ∧
      ∀ limit, campaign.state.budget.maxSendCount = some limit →
        campaign.state.sentCount + 1 ≤ limit := by
  unfold checkBudget at h
  dsimp only at h
  split at h
  · cases h
  next hcount =>
    split at h
    · cases h
    next hcost =>
      have hle : ∀ limit, campaign.state.budget.maxSendCount = some limit →
          campaign.state.sentCount + 1 ≤ limit := by
        intro limit hl
        rw [hl] at hcount
        by_contra hlt
        simp [Option.filter, not_le.mp hlt] at hcount
      refine ⟨?_, hle⟩
      have hcostle : ∀ limit, campaign.state.budget.maxCostUsd = some limit →
          campaign.state.spentCostUsd + estimatedCostUsd ≤ limit := by
        intro limit hl
        rw [hl] at hcost
        simpa using hcost
      have haffords : campaign.state.affords 1 estimatedCostUsd = true := by
        unfold Campaign.Props.affords
        rw [Bool.and_eq_true]
        refine ⟨?_, ?_⟩
        · cases hl : campaign.state.budget.maxSendCount with
          | none => rfl
          | some limit => simpa using hle limit hl
        · cases hl : campaign.state.budget.maxCostUsd with
          | none => rfl
          | some limit => simpa using hcostle limit hl
      unfold Campaign.recordSpend
      rw [if_pos haffords]
      rfl

/-- **The gate allows exactly where it wins the claim, and changes the store nowhere else.** -/
theorem evaluate_cases (config : Option RateLimitConfig) (store : Idempotency.Postgres.Store)
    (input : GateInput) (answers : GateAnswers) (now : Clock) :
    let out := evaluate config store input answers now
    let key := sendKey input.ctx input.execution.state.idempotencyKey
    (out.2.2 ≠ some .allow ∧ out.1 = store) ∨
    (out.2.2 = some .allow ∧
      ClaimRegister.wins Idempotency.Postgres.Record.reclaimable store key = true ∧
      (∃ r, r.status = .pending ∧ out.1 = Function.update store key (some r)) ∧
      checkBudget input.campaign.state input.estimatedCostUsd = none ∧
      out.2.1 = (Campaign.recordSpend input.campaign 1 input.estimatedCostUsd).1) := by
  intro out key
  unfold out evaluate
  cases hp : checkPolicies config input answers now.ms with
  | some decision =>
    left
    exact ⟨fun h => checkPolicies_ne_allow config input answers now.ms (by rw [hp]; exact h), rfl⟩
  | none =>
    dsimp only
    cases hb : checkBudget input.campaign.state input.estimatedCostUsd with
    | some decision =>
      left
      exact ⟨fun h => checkBudget_ne_allow input.campaign.state input.estimatedCostUsd
        (by rw [hb]; exact h), rfl⟩
    | none =>
      dsimp only
      split
      · left
        exact ⟨by simp, rfl⟩
      · rcases Idempotency.Postgres.claim_cases store key now with
          ⟨hwon, hwins, r, hr, hstore⟩ | ⟨hlost, hstore⟩
        · right
          rw [show Idempotency.Postgres.claim store
            (sendKey input.ctx input.execution.state.idempotencyKey) now =
              (Function.update store key (some r), .claimed true) from Prod.ext hstore hwon]
          exact ⟨rfl, hwins, ⟨r, hr, rfl⟩, rfl, rfl⟩
        · left
          cases hc : Idempotency.Postgres.claim store
              (sendKey input.ctx input.execution.state.idempotencyKey) now with
          | mk store' answer =>
            rw [show Idempotency.Postgres.claim store key now = (store', answer) from hc] at hlost hstore
            dsimp only at hlost hstore
            subst hstore
            cases answer with
            | claimed won => cases won <;> simp_all
            | _ => simp

end VegaRevenue.Outreach
