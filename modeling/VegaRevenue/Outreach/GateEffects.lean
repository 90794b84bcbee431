import VegaRevenue.Lib.Programs
import VegaRevenue.Outreach.SafetyGate

/-!
# What an evaluation of the gate leaves behind

`SendSafetyGate.evaluate` as a program over the campaign, the idempotency store and the audit log,
each of whose dependencies may throw.

* `exec_gate` — an evaluation charges the campaign and settles, or is refused and changes nothing
* `evaluate_eq` — where no port throws, the gate is the `evaluate` of the send service
* `exact_iff_settles` — the gate allows what is permitted and has no other effect iff a send it
  charged for comes through the checks after the charge
-/

namespace VegaRevenue.Outreach

open Programs
open Idempotency (Clock)

inductive AuditResult where
  | success
  | denied
deriving DecidableEq

/-- A record of the action `OUTREACH_SEND_SAFETY_DECISION`. -/
structure GateAudit where
  resourceId : String
  result : AuditResult
  decision : String
  reason : String
  tenantId : String
  campaignId : String
  sequenceId : String
  recipientFingerprint : Option String
deriving DecidableEq

/-- What an evaluation may change. -/
structure GateState where
  campaign : Campaign
  claims : Idempotency.Postgres.Store
  audits : List GateAudit := []

/-- The dependencies that throw. A rate limiter that throws answers `unavailable`. -/
structure GateFaults where
  allowlist : Bool := false
  suppression : Bool := false
  approval : Bool := false
  claim : Fault := .none
  audit : Fault := .none

/-- Ends without a decision in the error of a dependency. -/
abbrev GateProg := Prog GateState Unit

/-- The answer of a port that is only asked. -/
def ask {A : Type} (fails : Bool) (answer : A) : GateProg A := if fails then throw () else pure answer

def SafetyDecision.result : SafetyDecision → AuditResult
  | allow => .success
  | _ => .denied

/-- The decision as the audit log names it. -/
def SafetyDecision.label : SafetyDecision → String
  | allow => "ALLOW"
  | deny code _ => code.name
  | retryable code _ _ => code.name

def SafetyDecision.reason : SafetyDecision → String
  | allow => "All safety checks passed"
  | deny _ reason => reason
  | retryable _ reason _ => reason

def gateAudit (input : GateInput) (decision : SafetyDecision) : GateAudit where
  resourceId := input.execution.state.id
  result := decision.result
  decision := decision.label
  reason := decision.reason
  tenantId := input.ctx.tenantId
  campaignId := input.campaign.state.id
  sequenceId := input.execution.state.sequenceId
  recipientFingerprint := input.execution.state.recipientFingerprint

/-- Records the decision and returns it: `deny`, `retryable`, and the end of `evaluate`. -/
def decided (input : GateInput) (faults : GateFaults) (decision : SafetyDecision) :
    GateProg SafetyDecision := do
  failing () faults.audit
    (modify fun s => { s with audits := s.audits ++ [gateAudit input decision] })
  pure decision

/-- The claim of the idempotency key: whether it is won. -/
def claimKey (input : GateInput) (now : Clock) : GateProg Bool := do
  let s ← get
  let result := Idempotency.Postgres.claim s.claims
    (sendKey input.ctx input.execution.state.idempotencyKey) now
  set ({ s with claims := result.1 } : GateState)
  match result.2 with
  | .claimed won => pure won
  | _ => throw ()

def claimSend (input : GateInput) (faults : GateFaults) (now : Clock) : GateProg Bool :=
  failing () faults.claim (claimKey input now)

def invalidContent : SafetyDecision :=
  .deny .invalidContent "Execution has no validated draft content to send"

def duplicateSend (input : GateInput) : SafetyDecision :=
  .deny .duplicateSend ("Execution " ++ input.execution.state.id ++
    " already has an in-flight or completed send reserved for this idempotency key")

/-- The checks after the budget: the draft and the idempotency key. -/
def settle (input : GateInput) (faults : GateFaults) (now : Clock) : GateProg SafetyDecision :=
  if !hasContent input.execution.state.draft then decided input faults invalidContent
  else do
    let won ← claimSend input faults now
    decided input faults (if won then .allow else duplicateSend input)

/-- `campaign.recordSpend(1, estimatedCostUsd)`. -/
def charge (input : GateInput) : GateProg Unit :=
  modify fun s =>
    { s with campaign := (Campaign.recordSpend s.campaign 1 input.estimatedCostUsd).1 }

/-- The checks from the rate limits on. -/
def checkSpend (config : Option RateLimitConfig) (input : GateInput) (answers : GateAnswers)
    (faults : GateFaults) (now : Clock) : GateProg SafetyDecision :=
  match checkRateLimits config answers now.ms with
  | some decision => decided input faults decision
  | none =>
    match checkBudget input.campaign.state input.estimatedCostUsd with
    | some decision => decided input faults decision
    | none => do
      charge input
      settle input faults now

/-- `SendSafetyGate.evaluate`. -/
def gate (config : Option RateLimitConfig) (input : GateInput) (answers : GateAnswers)
    (faults : GateFaults) (now : Clock) : GateProg SafetyDecision :=
  if input.ctx.tenantId ≠ input.campaign.state.tenantId ∨
      input.ctx.tenantId ≠ input.execution.state.tenantId then
    decided input faults
      (.deny .invalidTenantContext "Tenant context does not match campaign/execution tenant")
  else do
    let allowed ← ask faults.allowlist answers.allowed
    if !allowed then
      decided input faults (.deny .notAllowlisted "Recipient is not on the tenant allowlist")
    else do
      let suppression ← ask faults.suppression answers.suppression
      match suppression with
      | some (suppressionType, source) =>
        decided input faults (.deny .suppressed
          ("Recipient is suppressed (" ++ suppressionType ++ " via " ++ source ++ ")"))
      | none => do
        let approval ← ask faults.approval answers.approval
        match approvalDenialCode approval with
        | some code => decided input faults (.deny code answers.approvalReason)
        | none => checkSpend config input answers faults now

/-- The state an evaluation starts in. -/
def GateState.start (input : GateInput) (claims : Idempotency.Postgres.Store) : GateState where
  campaign := input.campaign
  claims := claims

/-- The state after the charge. -/
def GateState.charged (input : GateInput) (claims : Idempotency.Postgres.Store) : GateState where
  campaign := (Campaign.recordSpend input.campaign 1 input.estimatedCostUsd).1
  claims := claims

/-! ## What is permitted -/

/-- Every window that the configuration limits admits the send. -/
def WindowsAdmit (config : Option RateLimitConfig) (answers : GateAnswers) : Prop :=
  ∀ limits, config = some limits →
    (limits.perSecond.isSome → answers.rateLimit 1 = .allowed) ∧
    (limits.perMinute.isSome → answers.rateLimit 60 = .allowed) ∧
    (limits.perHour.isSome → answers.rateLimit 3600 = .allowed) ∧
    (limits.perDay.isSome → answers.rateLimit 86400 = .allowed)

/-- The ports that are asked before the budget let the send through. -/
structure Vetted (config : Option RateLimitConfig) (input : GateInput) (answers : GateAnswers)
    (faults : GateFaults) : Prop where
  campaign : input.ctx.tenantId = input.campaign.state.tenantId
  execution : input.ctx.tenantId = input.execution.state.tenantId
  allowlisted : faults.allowlist = false ∧ answers.allowed = true
  notSuppressed : faults.suppression = false ∧ answers.suppression = none
  approved : faults.approval = false ∧ answers.approval = .approved
  windows : WindowsAdmit config answers

/-- The send-count budget and the cost budget admit the send. -/
def Affordable (input : GateInput) : Prop :=
  input.campaign.state.affords 1 input.estimatedCostUsd = true

/-- The claim is won: its statement is accepted, and no live record holds the key. -/
def ClaimWon (input : GateInput) (claims : Idempotency.Postgres.Store) (faults : GateFaults) :
    Prop :=
  let key := sendKey input.ctx input.execution.state.idempotencyKey
  faults.claim = .none ∧ Idempotency.Postgres.sendable key = true ∧
    ClaimRegister.wins Idempotency.Postgres.Record.reclaimable claims key = true

structure Permitted (config : Option RateLimitConfig) (input : GateInput)
    (claims : Idempotency.Postgres.Store) (answers : GateAnswers) (faults : GateFaults) :
    Prop where
  vetted : Vetted config input answers faults
  affordable : Affordable input
  content : hasContent input.execution.state.draft = true
  claim : ClaimWon input claims faults

/-- The counts of the campaign and the idempotency store are those of before. -/
def GateState.Unchanged (s s' : GateState) : Prop :=
  s'.campaign.state.sentCount = s.campaign.state.sentCount ∧
    s'.campaign.state.spentCostUsd = s.campaign.state.spentCostUsd ∧ s'.claims = s.claims

/-- The gate allows exactly what is permitted, and without an ALLOW it has no effect. -/
def ExactAndFree (config : Option RateLimitConfig) (input : GateInput)
    (claims : Idempotency.Postgres.Store) (answers : GateAnswers) (faults : GateFaults)
    (now : Clock) : Prop :=
  let out := exec (gate config input answers faults now) (.start input claims)
  (out.1 = .ok .allow ↔ Permitted config input claims answers faults) ∧
    (out.1 ≠ .ok .allow → (GateState.start input claims).Unchanged out.2)

/-- What is left after the charge goes well: there is a draft, the claim is won, and the decision
is recorded. -/
def Settles (input : GateInput) (claims : Idempotency.Postgres.Store) (faults : GateFaults) :
    Prop :=
  hasContent input.execution.state.draft = true ∧ ClaimWon input claims faults ∧
    faults.audit = .none

/-! ## The parts -/

theorem checkWindow_eq_none {answers : GateAnswers} {now : Date} {limit : Option Nat}
    {windowSeconds : Nat} {label : String} :
    checkWindow answers now limit windowSeconds label = none ↔
      (limit.isSome → answers.rateLimit windowSeconds = .allowed) := by
  unfold checkWindow
  cases limit with
  | none => simp
  | some limit => cases answers.rateLimit windowSeconds <;> simp

theorem checkRateLimits_eq_none {config : Option RateLimitConfig} {answers : GateAnswers}
    {now : Date} : checkRateLimits config answers now = none ↔ WindowsAdmit config answers := by
  unfold checkRateLimits WindowsAdmit
  cases config with
  | none => simp
  | some limits =>
    simp only [Option.or_eq_none_iff, checkWindow_eq_none, Option.some.injEq, forall_eq']

theorem checkBudget_eq_none {input : GateInput} :
    checkBudget input.campaign.state input.estimatedCostUsd = none ↔ Affordable input := by
  unfold checkBudget Affordable Campaign.Props.affords
  cases input.campaign.state.budget.maxSendCount with
  | none => cases input.campaign.state.budget.maxCostUsd <;> simp
  | some count =>
    by_cases hcount : count < input.campaign.state.sentCount + 1
    · have hover : ¬ input.campaign.state.sentCount < count := by omega
      simp [Option.filter, hcount, hover, Int.add_one_le_iff]
    · have hle : input.campaign.state.sentCount < count := by omega
      cases input.campaign.state.budget.maxCostUsd <;>
        simp [Option.filter, hcount, hle, Int.add_one_le_iff]

theorem approvalDenialCode_eq_none {outcome : ApprovalOutcome} :
    approvalDenialCode outcome = none ↔ outcome = .approved := by
  cases outcome <;> simp [approvalDenialCode]

theorem claim_won_iff (now : Clock) {claims : Idempotency.Postgres.Store}
    {key : Idempotency.Triple} :
    (Idempotency.Postgres.claim claims key now).2 = .claimed true ↔
      Idempotency.Postgres.sendable key = true ∧
        ClaimRegister.wins Idempotency.Postgres.Record.reclaimable claims key = true := by
  cases hrow : Idempotency.Postgres.claimRow? key now with
  | none =>
    have hnot : Idempotency.Postgres.sendable key ≠ true := by
      intro h
      obtain ⟨row, h⟩ := Idempotency.Postgres.claimRow?_of_sendable now h
      simp [h] at hrow
    simp [Idempotency.Postgres.claim, hrow, hnot]
  | some row =>
    have hsendable := Idempotency.Postgres.sendable_of_claimRow? hrow
    rw [Idempotency.Postgres.claim_eq hrow]
    by_cases hw : ClaimRegister.wins Idempotency.Postgres.Record.reclaimable claims key = true
    · simp [hw, hsendable]
    · rw [if_neg hw]
      split <;> simp [hw]

/-! ## The steps of an evaluation -/

theorem exec_decided (input : GateInput) (faults : GateFaults) (decision : SafetyDecision)
    (s : GateState) :
    ∃ audits, exec (decided input faults decision) s =
      (if faults.audit = .none then .ok decision else .error (), { s with audits := audits }) := by
  unfold decided
  rw [exec_bind, exec_failing]
  cases faults.audit with
  | none => exact ⟨_, rfl⟩
  | before => exact ⟨s.audits, rfl⟩
  | after => exact ⟨_, rfl⟩

/-- A decision other than ALLOW leaves the state as it was. -/
theorem exec_decided_refusal {input : GateInput} {faults : GateFaults} {decision : SafetyDecision}
    {s : GateState} (h : decision ≠ .allow) :
    (exec (decided input faults decision) s).1 ≠ .ok .allow ∧
      s.Unchanged (exec (decided input faults decision) s).2 := by
  obtain ⟨audits, hexec⟩ := exec_decided input faults decision s
  rw [hexec]
  refine ⟨?_, rfl, rfl, rfl⟩
  split
  · simpa using h
  · simp

theorem exec_claimKey (input : GateInput) (now : Clock) (s : GateState) :
    exec (claimKey input now) s =
      match Idempotency.Postgres.claim s.claims
        (sendKey input.ctx input.execution.state.idempotencyKey) now with
      | (claims, .claimed won) => (.ok won, { s with claims := claims })
      | (claims, _) => (.error (), { s with claims := claims }) := by
  unfold claimKey
  rw [exec_bind, exec_get]
  dsimp only
  rw [exec_bind, exec_set]
  dsimp only
  generalize Idempotency.Postgres.claim s.claims _ now = result
  obtain ⟨claims, answer⟩ := result
  cases answer <;> rfl

theorem claimKey_won_iff (input : GateInput) (now : Clock) (s : GateState) :
    let key := sendKey input.ctx input.execution.state.idempotencyKey
    ((exec (claimKey input now) s).1 = .ok true ↔
      Idempotency.Postgres.sendable key = true ∧
        ClaimRegister.wins Idempotency.Postgres.Record.reclaimable s.claims key = true) ∧
      (exec (claimKey input now) s).2.campaign = s.campaign := by
  intro key
  rw [← claim_won_iff now, exec_claimKey]
  generalize Idempotency.Postgres.claim s.claims _ now = result
  obtain ⟨claims, answer⟩ := result
  cases answer <;> simp

/-- The claim is answered with `true` exactly where it is won, and the campaign is not its. -/
theorem exec_claimSend (input : GateInput) (faults : GateFaults) (now : Clock) (s : GateState) :
    ((exec (claimSend input faults now) s).1 = .ok true ↔ ClaimWon input s.claims faults) ∧
      (exec (claimSend input faults now) s).2.campaign = s.campaign := by
  obtain ⟨hwon, hcampaign⟩ := claimKey_won_iff input now s
  unfold claimSend ClaimWon
  rw [exec_failing]
  cases faults.claim with
  | none => exact ⟨by simpa using hwon, hcampaign⟩
  | before => simp
  | after =>
    generalize exec (claimKey input now) s = r at hcampaign
    obtain ⟨result, s'⟩ := r
    cases result <;> exact ⟨by simp, hcampaign⟩

theorem exec_settle (input : GateInput) (faults : GateFaults) (now : Clock) (s : GateState) :
    ((exec (settle input faults now) s).1 = .ok .allow ↔ Settles input s.claims faults) ∧
      (exec (settle input faults now) s).2.campaign = s.campaign := by
  unfold settle Settles
  cases hcontent : hasContent input.execution.state.draft with
  | false =>
    obtain ⟨audits, hexec⟩ := exec_decided input faults invalidContent s
    rw [if_pos (by rfl), hexec]
    refine ⟨?_, rfl⟩
    split <;> simp [invalidContent]
  | true =>
    rw [if_neg (by simp), exec_bind]
    obtain ⟨hwon, hcampaign⟩ := exec_claimSend input faults now s
    generalize exec (claimSend input faults now) s = r at hwon hcampaign
    obtain ⟨result, s'⟩ := r
    dsimp only at hwon hcampaign ⊢
    cases result with
    | error x => simp [← hwon, hcampaign]
    | ok won =>
      dsimp only
      obtain ⟨audits, hexec⟩ := exec_decided input faults
        (if won then .allow else duplicateSend input) s'
      rw [hexec]
      refine ⟨?_, hcampaign⟩
      cases won with
      | true =>
        have : ClaimWon input s.claims faults := hwon.mp rfl
        split <;> simp [*]
      | false =>
        have : ¬ClaimWon input s.claims faults := fun h => by simpa using hwon.mpr h
        split <;> simp [duplicateSend, *]

/-- From the rate limits on, an evaluation is refused or charges and settles. -/
theorem exec_checkSpend (config : Option RateLimitConfig) (input : GateInput)
    (answers : GateAnswers) (faults : GateFaults) (now : Clock)
    (claims : Idempotency.Postgres.Store) :
    let out := exec (checkSpend config input answers faults now) (.start input claims)
    (WindowsAdmit config answers ∧ Affordable input ∧
      out = exec (settle input faults now) (.charged input claims)) ∨
    (¬(WindowsAdmit config answers ∧ Affordable input) ∧ out.1 ≠ .ok .allow ∧
      (GateState.start input claims).Unchanged out.2) := by
  intro out
  unfold out checkSpend
  cases hrate : checkRateLimits config answers now.ms with
  | some decision =>
    right
    refine ⟨fun h => ?_, exec_decided_refusal ?_⟩
    · rw [checkRateLimits_eq_none.mpr h.1] at hrate
      cases hrate
    · rintro rfl
      exact checkRateLimits_ne_allow _ _ _ hrate
  | none =>
    cases hbudget : checkBudget input.campaign.state input.estimatedCostUsd with
    | some decision =>
      right
      refine ⟨fun h => ?_, exec_decided_refusal ?_⟩
      · rw [checkBudget_eq_none.mpr h.2] at hbudget
        cases hbudget
      · rintro rfl
        exact checkBudget_ne_allow _ _ hbudget
    | none =>
      left
      exact ⟨checkRateLimits_eq_none.mp hrate, checkBudget_eq_none.mp hbudget, rfl⟩

theorem ask_of_answers {A : Type} (answer : A) : ask false answer = pure answer := rfl

/-- An evaluation charges the campaign and settles, or it is refused and changes nothing. -/
theorem exec_gate (config : Option RateLimitConfig) (input : GateInput) (answers : GateAnswers)
    (faults : GateFaults) (now : Clock) (claims : Idempotency.Postgres.Store) :
    let out := exec (gate config input answers faults now) (.start input claims)
    (Vetted config input answers faults ∧ Affordable input ∧
      out = exec (settle input faults now) (.charged input claims)) ∨
    (¬(Vetted config input answers faults ∧ Affordable input) ∧ out.1 ≠ .ok .allow ∧
      (GateState.start input claims).Unchanged out.2) := by
  intro out
  have hthrown : (Except.error () : Except Unit SafetyDecision) ≠ .ok .allow ∧
      (GateState.start input claims).Unchanged (.start input claims) :=
    ⟨by simp, rfl, rfl, rfl⟩
  unfold out gate
  split
  next htenant =>
    right
    refine ⟨fun h => ?_, exec_decided_refusal (by simp)⟩
    rcases htenant with h' | h'
    · exact h' h.1.campaign
    · exact h' h.1.execution
  next htenant =>
    push Not at htenant
    cases hallowlist : faults.allowlist with
    | true => exact .inr ⟨fun h => by simpa [hallowlist] using h.1.allowlisted.1, hthrown⟩
    | false =>
      rw [ask_of_answers, pure_bind]
      cases hallowed : answers.allowed with
      | false =>
        exact .inr ⟨fun h => by simpa [hallowed] using h.1.allowlisted.2,
          exec_decided_refusal (by simp)⟩
      | true =>
        rw [if_neg (by simp)]
        cases hsuppression : faults.suppression with
        | true => exact .inr ⟨fun h => by simpa [hsuppression] using h.1.notSuppressed.1, hthrown⟩
        | false =>
          rw [ask_of_answers, pure_bind]
          cases hsuppressed : answers.suppression with
          | some suppression =>
            exact .inr ⟨fun h => by simpa [hsuppressed] using h.1.notSuppressed.2,
              exec_decided_refusal (by simp)⟩
          | none =>
            cases happroval : faults.approval with
            | true => exact .inr ⟨fun h => by simpa [happroval] using h.1.approved.1, hthrown⟩
            | false =>
              dsimp only
              rw [ask_of_answers, pure_bind]
              cases hcode : approvalDenialCode answers.approval with
              | some code =>
                right
                refine ⟨fun h => ?_, exec_decided_refusal (by simp)⟩
                rw [approvalDenialCode_eq_none.mpr h.1.approved.2] at hcode
                cases hcode
              | none =>
                have hvetted : Vetted config input answers faults ↔
                    WindowsAdmit config answers :=
                  ⟨fun h => h.windows, fun h => ⟨htenant.1, htenant.2, ⟨hallowlist, hallowed⟩,
                    ⟨hsuppression, hsuppressed⟩,
                    ⟨happroval, approvalDenialCode_eq_none.mp hcode⟩, h⟩⟩
                rw [hvetted]
                exact exec_checkSpend config input answers faults now claims

/-! ## The gate of the send service -/

theorem exec_charge (input : GateInput) (claims : Idempotency.Postgres.Store) :
    exec (charge input) (.start input claims) = (.ok (), .charged input claims) := rfl

theorem claimSend_sound (input : GateInput) (now : Clock) :
    claimSend input {} now = claimKey input now := rfl

/-- Where no port throws, the program is `evaluate`, and every decision is recorded. -/
theorem evaluate_eq (config : Option RateLimitConfig) (input : GateInput) (answers : GateAnswers)
    (now : Clock) (claims : Idempotency.Postgres.Store) :
    let out := evaluate config claims input answers now
    exec (gate config input answers {} now) (.start input claims) =
      (match out.2.2 with
        | some decision => .ok decision
        | none => .error (),
        ⟨out.2.1, out.1, (out.2.2.map (gateAudit input)).toList⟩) := by
  intro out
  unfold out evaluate gate checkPolicies
  simp only [ask_of_answers, pure_bind]
  by_cases htenant : input.ctx.tenantId ≠ input.campaign.state.tenantId ∨
      input.ctx.tenantId ≠ input.execution.state.tenantId
  · rw [if_pos htenant, if_pos htenant]
    rfl
  · rw [if_neg htenant, if_neg htenant]
    cases answers.allowed with
    | false => rfl
    | true =>
      cases answers.suppression with
      | some suppression => rfl
      | none =>
        cases approvalDenialCode answers.approval with
        | some code => rfl
        | none =>
          dsimp only
          unfold checkSpend
          rw [if_neg (by simp), if_neg (by simp)]
          cases checkRateLimits config answers now.ms with
          | some decision => rfl
          | none =>
            cases checkBudget input.campaign.state input.estimatedCostUsd with
            | some decision => rfl
            | none =>
              dsimp only
              rw [exec_bind, exec_charge]
              dsimp only
              unfold settle
              cases hasContent input.execution.state.draft with
              | false => rfl
              | true =>
                rw [if_neg (by simp), if_neg (by simp), exec_bind, claimSend_sound, exec_claimKey]
                dsimp only [GateState.charged]
                generalize Idempotency.Postgres.claim claims _ now = result
                obtain ⟨claims', answer⟩ := result
                cases answer with
                | claimed won => cases won <;> rfl
                | _ => rfl

/-! ## The gate as a whole -/

/-- The charge counts one send more. -/
theorem charged_not_unchanged {input : GateInput} (claims claims' : Idempotency.Postgres.Store)
    {s : GateState} (h : Affordable input)
    (hs : s.campaign = (GateState.charged input claims').campaign) :
    ¬(GateState.start input claims).Unchanged s := by
  rintro ⟨hcount, -, -⟩
  have hspent : s.campaign.state.sentCount = input.campaign.state.sentCount + 1 := by
    rw [hs]
    exact (recordSpend_of_checkBudget (checkBudget_eq_none.mpr h)).1
  have hsame : input.campaign.state.sentCount + 1 = input.campaign.state.sentCount :=
    hspent.symm.trans hcount
  omega

/-- **The gate allows exactly the permitted sends and has no effect otherwise iff a send that
reaches the charge comes through what follows it.** -/
theorem exact_iff_settles (config : Option RateLimitConfig) (input : GateInput)
    (claims : Idempotency.Postgres.Store) (answers : GateAnswers) (faults : GateFaults)
    (now : Clock) :
    ExactAndFree config input claims answers faults now ↔
      (Vetted config input answers faults → Affordable input → Settles input claims faults) := by
  unfold ExactAndFree
  dsimp only
  rcases exec_gate config input answers faults now claims with
    ⟨hvetted, hbudget, hout⟩ | ⟨hnot, hdecision, hfree⟩
  · rw [hout]
    obtain ⟨hallow, hcampaign⟩ := exec_settle input faults now (.charged input claims)
    have hpermitted : Permitted config input claims answers faults ↔
        hasContent input.execution.state.draft = true ∧ ClaimWon input claims faults :=
      ⟨fun h => ⟨h.content, h.claim⟩, fun h => ⟨hvetted, hbudget, h.1, h.2⟩⟩
    constructor
    · rintro ⟨-, hfree⟩ - -
      by_contra hsettles
      exact charged_not_unchanged claims claims hbudget hcampaign
        (hfree fun h => hsettles (hallow.mp h))
    · intro h
      have hsettles := h hvetted hbudget
      have hallowed := hallow.mpr hsettles
      exact ⟨iff_of_true hallowed (hpermitted.mpr ⟨hsettles.1, hsettles.2.1⟩),
        fun h => absurd hallowed h⟩
  · refine iff_of_true ⟨iff_of_false hdecision fun h => hnot ⟨h.vetted, h.affordable⟩,
      fun _ => hfree⟩ fun hvetted hbudget => absurd ⟨hvetted, hbudget⟩ hnot

/-! ## A duplicate that is charged -/

def sampleGateInput : GateInput where
  ctx := sampleContext
  campaign := (Versioned.Aggregate.init (sampleCampaign 1 { maxSendCount := some 5 })).setVersion 1
  execution :=
    (Versioned.Aggregate.init (sampleExecution "execution" "sequence" 1 .sending)).setVersion 1
  estimatedCostUsd := 1 / 100

/-- The idempotency store after a first evaluation. -/
def sampleClaims : Idempotency.Postgres.Store :=
  (exec (gate none sampleGateInput {} {} .epoch)
    (.start sampleGateInput Idempotency.Postgres.empty)).2.claims

/-- The second evaluation is denied as a duplicate and counts a send. A first one whose audit
throws counts a send and keeps its claim. -/
theorem gate_charges_duplicate :
    ¬ExactAndFree none sampleGateInput sampleClaims {} {} .epoch ∧
      (let out := exec (gate none sampleGateInput {} {} .epoch) (.start sampleGateInput sampleClaims)
      out.1.toOption = some (duplicateSend sampleGateInput) ∧
        out.2.campaign.state.sentCount = sampleGateInput.campaign.state.sentCount + 1) ∧
      (let out := exec (gate none sampleGateInput {} { audit := .before } .epoch)
        (.start sampleGateInput Idempotency.Postgres.empty)
      out.1.toOption = none ∧
        out.2.campaign.state.sentCount = sampleGateInput.campaign.state.sentCount + 1 ∧
        (out.2.claims (sendKey sampleContext "key of execution")).isSome = true) := by
  refine ⟨?_, by decide +kernel, by decide +kernel⟩
  rintro ⟨-, hfree⟩
  exact absurd (hfree (by decide +kernel)).1 (by decide +kernel)

end VegaRevenue.Outreach
