import VegaRevenue.Domain.Campaign
import VegaRevenue.Domain.MessageExecution
import VegaRevenue.Domain.Sequence
import VegaRevenue.Idempotency.Postgres

/-!
# The stores behind outreach

The three tables the repositories of outreach read and save, the idempotency store, and a log of
what every call did to the outside: the claims it won, the idempotency records it wrote, the
messages it submitted and the answers it got.

* `saveExecution_eq_saved` — a save that succeeds swaps the row of the execution and nothing else
-/

namespace VegaRevenue.Outreach

open Versioned

/-- The key of a row: every query is scoped by tenant and workspace. -/
structure RowKey where
  tenantId : String
  workspaceId : String
  id : String
deriving DecidableEq

def rowKey (ctx : Context) (id : String) : RowKey := ⟨ctx.tenantId, ctx.workspaceId, id⟩

/-! ## What providers answer -/

inductive ProviderStatus where
  | providerAccepted
  | accepted
  | delivered
  | failed
  | rateLimited
  | ambiguous
deriving DecidableEq

/-- The provider took the message. -/
def ProviderStatus.isAccepted : ProviderStatus → Bool
  | providerAccepted | accepted | delivered => true
  | _ => false

/-- The provider did not take the message. -/
def ProviderStatus.isNegative : ProviderStatus → Bool
  | failed | rateLimited => true
  | _ => false

structure ProviderSendResult where
  providerMessageId : Option String := none
  internetMessageId : Option String := none
  status : ProviderStatus
  retryClassification : Option RetryClassification := none
  retryAfterMs : Option Nat := none
  providerErrorCode : Option String := none
  providerErrorMessage : Option String := none
  costUsd : Rat := 0
deriving DecidableEq

/-! ## The world -/

/-- What a call did to the outside. -/
inductive Observed where
  | claimed (call : Nat) (key : Idempotency.Triple)
  | wrote (call : Nat) (key : Idempotency.Triple) (status : Idempotency.Status)
  | submitted (call : Nat) (execution : RowKey)
  | answered (call : Nat) (execution campaign : RowKey) (status : ProviderStatus)
deriving DecidableEq

structure World where
  executions : Table RowKey MessageExecution.Props
  sequences : Table RowKey Sequence.Props
  campaigns : Table RowKey Campaign.Props
  idempotency : Idempotency.Postgres.Store
  /-- The latest first. -/
  log : List Observed

def World.observe (w : World) (o : Observed) : World := { w with log := o :: w.log }

/-- How a save ends: a conflict is the `ConcurrencyConflictError`. -/
inductive SaveOutcome (α : Type) where
  | saved (a : α)
  | conflict
  | threw (message : String)

def SaveOutcome.isSaved {α : Type} : SaveOutcome α → Bool
  | saved _ => true
  | _ => false

theorem SaveOutcome.exists_of_isSaved {α : Type} {o : SaveOutcome α} (h : o.isSaved = true) :
    ∃ a, o = .saved a := by
  cases o with
  | saved a => exact ⟨a, rfl⟩
  | _ => cases h

/-! ## Repositories -/

namespace World

/-- The columns of a row override its payload. -/
def loadExecution (w : World) (ctx : Context) (id : String) : Option MessageExecution :=
  (w.executions.find (rowKey ctx id)).map fun r =>
    .reconstitute { r.payload with
      id, tenantId := ctx.tenantId, workspaceId := ctx.workspaceId } r.version

def loadSequence (w : World) (ctx : Context) (id : String) : Option Sequence :=
  (w.sequences.find (rowKey ctx id)).map fun r =>
    .reconstitute { r.payload with
      id, tenantId := ctx.tenantId, workspaceId := ctx.workspaceId } r.version

def loadCampaign (w : World) (ctx : Context) (id : String) : Option Campaign :=
  (w.campaigns.find (rowKey ctx id)).map fun r =>
    .reconstitute { r.payload with
      id, tenantId := ctx.tenantId, workspaceId := ctx.workspaceId } r.version

/-- `SELECT … WHERE idempotency_key = $3`. -/
def findByIdempotencyKey (w : World) (ctx : Context) (key : String) : Option MessageExecution :=
  (List.find? (fun p => p.1.tenantId = ctx.tenantId ∧ p.1.workspaceId = ctx.workspaceId ∧
    p.2.payload.idempotencyKey = key) w.executions).map fun p =>
      .reconstitute { p.2.payload with
        id := p.1.id, tenantId := p.1.tenantId, workspaceId := p.1.workspaceId } p.2.version

/-- A fresh execution meets the primary key or the unique index on the idempotency key. -/
def executionTaken (w : World) (s : MessageExecution.Props) : Bool :=
  List.any w.executions fun p => p.1.tenantId = s.tenantId &&
    (p.1.id = s.id || (p.1.workspaceId = s.workspaceId &&
      p.2.payload.idempotencyKey = s.idempotencyKey))

def saveExecution (w : World) (ctx : Context) (e : MessageExecution) :
    SaveOutcome (World × MessageExecution) :=
  if e.state.tenantId ≠ ctx.tenantId then .threw "Execution tenant mismatch"
  else if e.state.workspaceId ≠ ctx.workspaceId then .threw "Execution workspace mismatch"
  else if e.loadedVersion = none ∧ w.executionTaken e.state then .conflict
  else
    match w.executions.save (rowKey ctx e.state.id) e with
    | none => .conflict
    | some executions => .saved ({ w with executions }, e.setVersion e.version)

def saveSequence (w : World) (ctx : Context) (s : Sequence) : SaveOutcome (World × Sequence) :=
  if s.state.tenantId ≠ ctx.tenantId then .threw "Sequence tenant mismatch"
  else if s.state.workspaceId ≠ ctx.workspaceId then .threw "Sequence workspace mismatch"
  else
    match w.sequences.save (rowKey ctx s.state.id) s with
    | none => .conflict
    | some sequences => .saved ({ w with sequences }, s.setVersion s.version)

def saveCampaign (w : World) (ctx : Context) (c : Campaign) : SaveOutcome (World × Campaign) :=
  if c.state.tenantId ≠ ctx.tenantId then .threw "Campaign tenant mismatch"
  else if c.state.workspaceId ≠ ctx.workspaceId then .threw "Campaign workspace mismatch"
  else
    match w.campaigns.save (rowKey ctx c.state.id) c with
    | none => .conflict
    | some campaigns => .saved ({ w with campaigns }, c.setVersion c.version)

/-! ## What a load and a save do -/

/-- A save that succeeds swaps the row of the saved execution and touches nothing else. -/
theorem saveExecution_eq_saved {w w' : World} {ctx : Context} {e e' : MessageExecution}
    (h : w.saveExecution ctx e = .saved (w', e')) :
    e.state.tenantId = ctx.tenantId ∧ e.state.workspaceId = ctx.workspaceId ∧
      e' = e.setVersion e.version ∧
      ∃ t, w.executions.save (rowKey ctx e.state.id) e = some t ∧ w' = { w with executions := t } := by
  unfold saveExecution at h
  split at h
  · cases h
  next ht =>
    split at h
    · cases h
    next hw =>
      split at h
      · cases h
      · split at h
        · cases h
        next t ht' =>
          cases h
          exact ⟨not_not.mp ht, not_not.mp hw, rfl, t, ht', rfl⟩

/-- A save of an execution leaves the idempotency records and the log alone. -/
theorem saveExecution_rest {w w' : World} {ctx : Context} {e e' : MessageExecution}
    (h : w.saveExecution ctx e = .saved (w', e')) :
    w'.idempotency = w.idempotency ∧ w'.log = w.log := by
  obtain ⟨-, -, -, t, -, rfl⟩ := saveExecution_eq_saved h
  exact ⟨rfl, rfl⟩

theorem saveSequence_eq_saved {w w' : World} {ctx : Context} {s s' : Sequence}
    (h : w.saveSequence ctx s = .saved (w', s')) :
    s' = s.setVersion s.version ∧
      ∃ t, w.sequences.save (rowKey ctx s.state.id) s = some t ∧ w' = { w with sequences := t } := by
  unfold saveSequence at h
  split at h
  · cases h
  · split at h
    · cases h
    · split at h
      · cases h
      next t ht =>
        cases h
        exact ⟨rfl, t, ht, rfl⟩

/-- A save of a sequence leaves the executions, the idempotency records and the log alone. -/
theorem saveSequence_rest {w w' : World} {ctx : Context} {s s' : Sequence}
    (h : w.saveSequence ctx s = .saved (w', s')) :
    w'.executions = w.executions ∧ w'.idempotency = w.idempotency ∧ w'.log = w.log := by
  obtain ⟨-, t, -, rfl⟩ := saveSequence_eq_saved h
  exact ⟨rfl, rfl, rfl⟩

theorem saveCampaign_eq_saved {w w' : World} {ctx : Context} {c c' : Campaign}
    (h : w.saveCampaign ctx c = .saved (w', c')) :
    c' = c.setVersion c.version ∧
      ∃ t, w.campaigns.save (rowKey ctx c.state.id) c = some t ∧ w' = { w with campaigns := t } := by
  unfold saveCampaign at h
  split at h
  · cases h
  · split at h
    · cases h
    · split at h
      · cases h
      next t ht =>
        cases h
        exact ⟨rfl, t, ht, rfl⟩

/-- A save of a campaign leaves the executions, the idempotency records and the log alone. -/
theorem saveCampaign_rest {w w' : World} {ctx : Context} {c c' : Campaign}
    (h : w.saveCampaign ctx c = .saved (w', c')) :
    w'.executions = w.executions ∧ w'.idempotency = w.idempotency ∧ w'.log = w.log := by
  obtain ⟨-, t, -, rfl⟩ := saveCampaign_eq_saved h
  exact ⟨rfl, rfl, rfl⟩

end World

/-! ## The rows of a small tenant -/

/-- Rows at their first version, no idempotency records and nothing observed yet. -/
def World.ofRows (executions : List MessageExecution.Props) (sequences : List Sequence.Props)
    (campaigns : List Campaign.Props) : World where
  executions := executions.map fun s => (⟨s.tenantId, s.workspaceId, s.id⟩, ⟨s, 1⟩)
  sequences := sequences.map fun s => (⟨s.tenantId, s.workspaceId, s.id⟩, ⟨s, 1⟩)
  campaigns := campaigns.map fun s => (⟨s.tenantId, s.workspaceId, s.id⟩, ⟨s, 1⟩)
  idempotency := Idempotency.Postgres.empty
  log := []

def sampleContext : Context := ⟨"tenant", "workspace"⟩

def sampleSteps (n : Nat) : List SequenceStep :=
  (List.range n).map fun k =>
    { stepNumber := k, channel := .email, delayMs := 0, requiresApproval := true }

/-- The execution of one step, with a draft and a recipient that can be recovered. -/
def sampleExecution (id sequenceId : String) (stepNumber : Nat)
    (status : MessageExecution.Status) : MessageExecution.Props where
  id := id
  tenantId := "tenant"
  workspaceId := "workspace"
  campaignId := "campaign"
  sequenceId := sequenceId
  stepNumber := stepNumber
  leadId := "lead"
  contactId := "contact"
  recipientFingerprint := some "h1.v1.digest"
  recipientCiphertext := some "ciphertext"
  recipientProtectionState := .protectedRecipient
  channel := .email
  idempotencyKey := "key of " ++ id
  draft := some { body := "Hello", tone := "plain" }
  status := status
  createdAt := 0
  updatedAt := 0

def sampleSequence (id : String) (steps : Nat) (status : Sequence.Status) : Sequence.Props where
  id := id
  tenantId := "tenant"
  workspaceId := "workspace"
  campaignId := "campaign"
  leadId := "lead"
  contactId := "contact"
  recipientFingerprint := some "h1.v1.digest"
  recipientCiphertext := some "ciphertext"
  recipientProtectionState := .protectedRecipient
  steps := sampleSteps steps
  status := status
  createdAt := 0
  updatedAt := 0

def sampleCampaign (steps : Nat) (budget : Campaign.Budget) : Campaign.Props where
  id := "campaign"
  tenantId := "tenant"
  workspaceId := "workspace"
  leadId := "lead"
  contactId := "contact"
  recipientFingerprint := some "h1.v1.digest"
  recipientProtectionState := .protectedRecipient
  channel := .email
  steps := sampleSteps steps
  budget := budget
  status := .running
  createdAt := 0
  updatedAt := 0

end VegaRevenue.Outreach
