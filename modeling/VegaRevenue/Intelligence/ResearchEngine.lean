import VegaRevenue.Intelligence.Stores
import VegaRevenue.Lib.Programs

/-!
# The research engine

A run discovers accounts, their contacts and signals, and saves an evaluated lead for every
contact. Every save commits on its own: a run that ends early leaves what it saved.

* `run_grows` — a run takes away no account, and leaves every contact and lead as it was
-/

namespace VegaRevenue.Intelligence

open Programs Versioned

/-! ## What a run is answered -/

structure AccountCandidate where
  providerAccountId : String
  name : String
  domain : Option String := none
  industry : Option String := none
  employeeCount : Option Rat := none
  annualRevenueUsd : Option Rat := none

structure CompanyIntelligence where
  industry : Option String := none
  employeeCount : Option Rat := none
  annualRevenueUsd : Option Rat := none
  territories : List String := []
  technographics : List String := []

structure ContactCandidate where
  providerContactId : String
  name : Option String := none
  title : Option String := none
  role : Option String := none
  seniority : Option String := none
  channels : List String := []

inductive ValidationStatus where
  | valid
  | invalid
  | uncertain
deriving DecidableEq

structure EnrichedContact extends ContactCandidate where
  confidence : Rat
  validationStatus : ValidationStatus

structure BuyingSignal where
  signalId : String
  signalType : String
  observedSignal : String
  interpretedSignal : String
  observedAt : Date
  source : String
  confidence : Rat
  relevance : Rat

/-- What a run reads that it does not store: the cache where it is warm and the provider where it is
not, and the business system. -/
structure Pass where
  accounts : List AccountCandidate
  /-- `findDuplicateAccount`: the account of the business system. -/
  duplicateAccount : AccountCandidate → Option String
  intelligence : String → CompanyIntelligence
  contacts : String → List ContactCandidate
  duplicateContact : ContactCandidate → Bool
  enriched : ContactCandidate → EnrichedContact
  /-- `none`: no provider detects signals. -/
  signals : String → Option (List BuyingSignal)
  now : Date

/-! ## Evidence and signals -/

structure Claim where
  claimType : String
  normalizedValue : Json
  source : String
  confidence : Rat

structure Evidence where
  evidenceId : String
  tenantId : String
  workspaceId : String
  accountId : String
  missionId : Option String
  claimType : String
  normalizedValue : Json
  source : String
  observedAt : Date
  confidence : Rat
  evidenceFingerprint : String

structure Signal where
  id : String
  tenantId : String
  workspaceId : String
  accountId : String
  signalType : String
  observedAt : Date
  effectiveFrom : Date
  effectiveUntil : Date
  source : String
  confidence : Rat
  relevance : Rat
  observedSignal : String
  interpretedSignal : String
  evidenceIds : List String
  dedupIdentity : String

structure Store where
  accounts : Accounts := []
  contacts : Contacts := []
  leads : ConversationHandling.Leads := []
  evidence : List Evidence := []
  signals : List Signal := []
  /-- How many evidence ids have been generated. -/
  generated : Nat := 0

/-- The tables whose rows a run creates. -/
inductive Aggregate where
  | account
  | contact
  | lead
  | evidence
  | signal
deriving DecidableEq

/-- Why a run fails: a repository of the aggregate, or a check before it. -/
inductive RunError where
  | repository (of : Aggregate) (error : RepositoryError)
  | invariant (message : String)
deriving DecidableEq

/-- An account, a contact or a lead exists already. -/
def RunError.alreadyExists : RunError → Bool
  | repository of error =>
    (of = .account || of = .contact || of = .lead) && error.alreadyExists
  | invariant _ => false

/-- The request, what the engine is built with, and what it computes of its texts and scores. -/
structure Env where
  ctx : Context
  missionId : String
  icpProfileId : String
  icpProfileVersionId : String
  normalizeDomain : Option String → Option String
  generateEvidenceId : Nat → String
  computeEvidenceFingerprint : (claimType : String) → Json → (source : String) → String
  /-- The checks of `new ResearchEvidence`. -/
  evidenceError : Evidence → Option String
  sanitizeExternalText : String → String
  /-- A category that is none of `SIGNAL_CATEGORIES` is a business change. -/
  signalType : String → String
  computeDedupIdentity : Signal → String
  /-- The checks of `Signal.detect`. -/
  signalError : Signal → Option String
  /-- The scores and filters of the scorers, as `evaluate` is handed them. -/
  evaluation : Account.Props → List Evidence → List Signal → Date → Lead.EvaluationInput

abbrev Run := Prog Store RunError

namespace Env

variable (env : Env)

/-! ## Saves -/

def saveAccount (a : Account) : Run Account := do
  let s ← get
  match s.accounts.save env.ctx a with
  | .ok (accounts, saved) =>
    set { s with accounts }
    pure saved
  | .error e => throw (.repository .account e)

def saveContact (a : Contact) : Run Contact := do
  let s ← get
  match s.contacts.save env.ctx a with
  | .ok (contacts, saved) =>
    set { s with contacts }
    pure saved
  | .error e => throw (.repository .contact e)

/-- A fresh lead is refused where its id is taken. -/
def saveLead (a : Lead) : Run Unit := do
  let s ← get
  match s.leads.save env.ctx a with
  | .ok leads => set { s with leads }
  | .error message => throw (.repository .lead (.concurrencyConflict message a.loadedVersion))

/-- Another row has the id, or the workspace has the fingerprint. -/
def evidenceTaken (s : Store) (e : Evidence) : Bool :=
  s.evidence.any fun row => row.evidenceId = e.evidenceId ||
    (row.tenantId = e.tenantId && row.workspaceId = e.workspaceId &&
      row.evidenceFingerprint = e.evidenceFingerprint)

/-- `createEvidence` and its save. -/
def saveEvidence (now : Date) (claim : Claim) (accountId : String) (missionId : Option String) :
    Run Evidence := do
  let s ← get
  let e : Evidence :=
    { evidenceId := env.generateEvidenceId s.generated
      tenantId := env.ctx.tenantId
      workspaceId := env.ctx.workspaceId
      accountId
      missionId
      claimType := claim.claimType
      normalizedValue := claim.normalizedValue
      source := claim.source
      observedAt := now
      confidence := claim.confidence
      evidenceFingerprint :=
        env.computeEvidenceFingerprint claim.claimType claim.normalizedValue claim.source }
  set { s with generated := s.generated + 1 }
  match env.evidenceError e with
  | some message => throw (.invariant message)
  | none =>
    if evidenceTaken s e then
      throw (.repository .evidence (.duplicateRecord
        s!"Duplicate research evidence {e.evidenceId}" "evidence_fingerprint"))
    else do
      set { s with generated := s.generated + 1, evidence := s.evidence ++ [e] }
      pure e

/-! ## Accounts -/

def numberClaim (claimType : String) (confidence : Rat) (value : Option Rat) : Option Claim :=
  value.map fun q => ⟨claimType, .num q, "provider", confidence⟩

def extractAccountClaims (candidate : AccountCandidate) (intelligence : CompanyIntelligence) :
    List Claim :=
  [numberClaim "EMPLOYEE_COUNT" (8 / 10) (intelligence.employeeCount <|> candidate.employeeCount),
    (candidate.industry <|> intelligence.industry).map fun industry =>
      ⟨"INDUSTRY", .str industry, "provider", 85 / 100⟩,
    numberClaim "ANNUAL_REVENUE" (7 / 10)
      (candidate.annualRevenueUsd <|> intelligence.annualRevenueUsd)].reduceOption

/-- The account of a candidate that the business system has. -/
def duplicateAccount (pass : Pass) (candidate : AccountCandidate) : Account :=
  .create
    { id := candidate.providerAccountId
      tenantId := env.ctx.tenantId
      workspaceId := env.ctx.workspaceId
      name := candidate.name
      domain := candidate.domain
      normalizedDomain := env.normalizeDomain candidate.domain
      industry := candidate.industry
      employeeCount := candidate.employeeCount
      annualRevenueUsd := candidate.annualRevenueUsd
      createdAt := pass.now
      updatedAt := pass.now }

def discoveredAccount (pass : Pass) (candidate : AccountCandidate) : Account :=
  let intelligence := pass.intelligence candidate.providerAccountId
  .create
    { id := candidate.providerAccountId
      tenantId := env.ctx.tenantId
      workspaceId := env.ctx.workspaceId
      name := candidate.name
      domain := candidate.domain
      normalizedDomain := env.normalizeDomain candidate.domain
      industry := candidate.industry
      employeeCount := candidate.employeeCount <|> intelligence.employeeCount
      annualRevenueUsd := candidate.annualRevenueUsd <|> intelligence.annualRevenueUsd
      territories := intelligence.territories
      techStack := intelligence.technographics
      createdAt := pass.now
      updatedAt := pass.now }

/-- The account that is saved first for a candidate. -/
def newAccount (pass : Pass) (candidate : AccountCandidate) : Account :=
  match pass.duplicateAccount candidate with
  | some accountId =>
    (env.duplicateAccount pass candidate).markDuplicate accountId "Business system duplicate"
      pass.now
  | none => env.discoveredAccount pass candidate

def saveClaims (pass : Pass) (accountId : String) : List Claim → Run (List String)
  | [] => pure []
  | claim :: claims => do
    let evidence ← env.saveEvidence pass.now claim accountId none
    let evidenceIds ← saveClaims pass accountId claims
    pure (evidence.evidenceId :: evidenceIds)

/-- What follows the first save: an account that is no duplicate is enriched with its evidence. -/
def enrichAccount (pass : Pass) (candidate : AccountCandidate) (account : Account) : Run Account :=
  match pass.duplicateAccount candidate with
  | some _ => pure account
  | none => do
    let intelligence := pass.intelligence candidate.providerAccountId
    let evidenceIds ← env.saveClaims pass candidate.providerAccountId
      (extractAccountClaims candidate intelligence)
    env.saveAccount (account.enrich evidenceIds pass.now)

def processAccount (pass : Pass) (candidate : AccountCandidate) : Run Account := do
  let account ← env.saveAccount (env.newAccount pass candidate)
  env.enrichAccount pass candidate account

/-! ## Contacts -/

/-- `normalizedValue ?? null`. -/
def roleValue (enriched : EnrichedContact) : Json :=
  match enriched.role <|> enriched.title with
  | some text => .str text
  | none => .null

/-- The contact with what its discovery, its enrichment and its validation make of it. -/
def newContact (pass : Pass) (account : Account) (candidate : ContactCandidate)
    (evidenceId : String) : Except String Contact := do
  let enriched := pass.enriched candidate
  let discovered := Contact.discover
    { id := candidate.providerContactId
      tenantId := env.ctx.tenantId
      workspaceId := account.state.workspaceId
      accountId := account.state.id
      name := enriched.name
      title := enriched.title
      role := enriched.role
      seniority := enriched.seniority
      channels := enriched.channels
      evidenceReferences := [evidenceId]
      createdAt := pass.now
      updatedAt := pass.now } "provider"
  let contact ← discovered.enrich [evidenceId] pass.now
  if enriched.validationStatus = .valid then contact.validate pass.now else .ok contact

def processContact (pass : Pass) (account : Account) (candidate : ContactCandidate) :
    Run Contact := do
  let enriched := pass.enriched candidate
  let evidence ← env.saveEvidence pass.now
    ⟨"CONTACT_ROLE", roleValue enriched, "provider", enriched.confidence⟩ account.state.id none
  match env.newContact pass account candidate evidence.evidenceId with
  | .error message => throw (.invariant message)
  | .ok contact => env.saveContact contact

def processContacts (pass : Pass) (account : Account) : List ContactCandidate → Run (List Contact)
  | [] => pure []
  | candidate :: candidates =>
    if pass.duplicateContact candidate then processContacts pass account candidates
    else do
      let contact ← env.processContact pass account candidate
      let contacts ← processContacts pass account candidates
      pure (contact :: contacts)

/-! ## Leads -/

/-- The evidence of a signal: the row with its fingerprint where there is one. -/
def signalEvidence (pass : Pass) (accountId : String) (claim : Claim) : Run Evidence := do
  let s ← get
  let fingerprint :=
    env.computeEvidenceFingerprint claim.claimType claim.normalizedValue claim.source
  match s.evidence.find? fun row => row.tenantId = env.ctx.tenantId &&
      row.workspaceId = env.ctx.workspaceId && row.evidenceFingerprint = fingerprint with
  | some evidence => pure evidence
  | none => env.saveEvidence pass.now claim accountId (some env.missionId)

def thirtyDays : Int := 30 * 24 * 60 * 60 * 1000

def newSignal (accountId : String) (candidate : BuyingSignal) (evidenceId : String) : Signal :=
  let signal : Signal :=
    { id := candidate.signalId
      tenantId := env.ctx.tenantId
      workspaceId := env.ctx.workspaceId
      accountId
      signalType := env.signalType candidate.signalType
      observedAt := candidate.observedAt
      effectiveFrom := candidate.observedAt
      effectiveUntil := candidate.observedAt + thirtyDays
      source := candidate.source
      confidence := candidate.confidence
      relevance := candidate.relevance
      observedSignal := env.sanitizeExternalText candidate.observedSignal
      interpretedSignal := env.sanitizeExternalText candidate.interpretedSignal
      evidenceIds := [evidenceId]
      dedupIdentity := "" }
  { signal with dedupIdentity := env.computeDedupIdentity signal }

/-- The save of a signal that is not there yet. -/
def saveSignal (signal : Signal) : Run Unit := do
  let s ← get
  if s.signals.any fun row => row.tenantId = signal.tenantId &&
      row.workspaceId = signal.workspaceId && row.dedupIdentity = signal.dedupIdentity then
    pure ()
  else
    match env.signalError signal with
    | some message => throw (.invariant message)
    | none =>
      if s.signals.any fun row => row.id = signal.id then
        throw (.repository .signal
          (.concurrencyConflict s!"Signal {signal.id} already exists" none))
      else set { s with signals := s.signals ++ [signal] }

def saveSignals (pass : Pass) (accountId : String) : List BuyingSignal → Run Unit
  | [] => pure ()
  | candidate :: candidates => do
    let claim : Claim := ⟨"BUYING_SIGNAL",
      .str (env.sanitizeExternalText candidate.observedSignal), candidate.source,
      candidate.confidence⟩
    let evidence ← env.signalEvidence pass accountId claim
    env.saveSignal (env.newSignal accountId candidate evidence.evidenceId)
    saveSignals pass accountId candidates

/-- The signals of the account in effect. -/
def activeSignals (s : Store) (accountId : String) (evaluatedAt : Date) : List Signal :=
  s.signals.filter fun row => row.tenantId = env.ctx.tenantId &&
    row.workspaceId = env.ctx.workspaceId && row.accountId = accountId &&
      row.effectiveFrom ≤ evaluatedAt && evaluatedAt < row.effectiveUntil

def detectSignalsForAccount (pass : Pass) (accountId : String) : Run (List Signal) :=
  match pass.signals accountId with
  | none => pure []
  | some detected => do
    env.saveSignals pass accountId detected
    let s ← get
    pure (env.activeSignals s accountId pass.now)

/-- The lead of a contact, created and evaluated; a failed evaluation leaves it pending. -/
def newLead (pass : Pass) (account : Account) (contact : Contact) (evidence : List Evidence)
    (signals : List Signal) : Lead :=
  let lead := Lead.create
    { id := "lead-" ++ account.state.id ++ "-" ++ contact.state.id
      tenantId := env.ctx.tenantId
      workspaceId := account.state.workspaceId
      missionId := some env.missionId
      accountId := account.state.id
      contactId := contact.state.id
      icpProfileId := env.icpProfileId
      icpProfileVersionId := env.icpProfileVersionId
      createdAt := pass.now
      updatedAt := pass.now }
  (lead.evaluate (env.evaluation account.state evidence signals pass.now) pass.now).1

def evaluateLead (pass : Pass) (account : Account) (contact : Contact) : Run Unit := do
  let signals ← env.detectSignalsForAccount pass account.state.id
  let s ← get
  let evidence := s.evidence.filter fun row => row.tenantId = env.ctx.tenantId &&
    row.workspaceId = env.ctx.workspaceId && row.accountId = account.state.id
  env.saveLead (env.newLead pass account contact evidence signals)

def evaluateLeads (pass : Pass) (account : Account) : List Contact → Run Unit
  | [] => pure ()
  | contact :: contacts => do
    env.evaluateLead pass account contact
    evaluateLeads pass account contacts

/-! ## A run -/

structure Summary where
  accountsDiscovered : Nat := 0
  contactsDiscovered : Nat := 0
  leadsQualified : Nat := 0
  leadsNeedReview : Nat := 0
deriving DecidableEq

/-- What is done with the account of a candidate. -/
def researchAccount (pass : Pass) (summary : Summary) (account : Account) : Run Summary :=
  if account.state.status = .duplicate ∨ account.state.status = .disqualified then pure summary
  else do
    let contacts ← env.processContacts pass account (pass.contacts account.state.id)
    env.evaluateLeads pass account contacts
    pure { summary with
      accountsDiscovered := summary.accountsDiscovered + 1
      contactsDiscovered := summary.contactsDiscovered + contacts.length }

def researchAll (pass : Pass) (summary : Summary) : List AccountCandidate → Run Summary
  | [] => pure summary
  | candidate :: candidates => do
    let account ← env.processAccount pass candidate
    let summary ← env.researchAccount pass summary account
    researchAll pass summary candidates

/-- The leads of the workspace. -/
def leadsOfWorkspace (s : Store) : List Lead.Props :=
  (s.leads.map (·.2.payload)).filter fun lead =>
    lead.tenantId = env.ctx.tenantId && lead.workspaceId = env.ctx.workspaceId

def summarize (summary : Summary) : Run Summary := do
  let s ← get
  let leads := env.leadsOfWorkspace s
  pure { summary with
    leadsQualified := (leads.filter (·.status = .qualified)).length
    leadsNeedReview := (leads.filter fun lead =>
      lead.missionId = some env.missionId && lead.status = .needsReview).length }

def run (pass : Pass) : Run Summary := do
  let summary ← env.researchAll pass {} pass.accounts
  env.summarize summary

/-! ## What a run leaves alone -/

/-- No account is gone, and every contact and every lead is as it was. -/
structure Grows (s s' : Store) : Prop where
  accounts : ∀ id, (s.accounts.find id).isSome = true → (s'.accounts.find id).isSome = true
  contacts : ∀ id r, s.contacts.find id = some r → s'.contacts.find id = some r
  leads : ∀ key r, s.leads.find key = some r → s'.leads.find key = some r

theorem Grows.refl (s : Store) : Grows s s := ⟨fun _ h => h, fun _ _ h => h, fun _ _ h => h⟩

theorem Grows.trans (s t u : Store) (h : Grows s t) (h' : Grows t u) : Grows s u where
  accounts id hid := h'.accounts id (h.accounts id hid)
  contacts id r hr := h'.contacts id r (h.contacts id r hr)
  leads key r hr := h'.leads key r (h.leads key r hr)

theorem grows_pure {α : Type} (a : α) : Moves Grows (pure a : Run α) := moves_pure Grows.refl a

theorem grows_throw {α : Type} (e : RunError) : Moves Grows (throw e : Run α) :=
  moves_throw Grows.refl e

theorem grows_bind {α β : Type} {m : Run α} {f : α → Run β} (hm : Moves Grows m)
    (hf : ∀ a, Moves Grows (f a)) : Moves Grows (m >>= f) := hm.bind Grows.trans hf

/-- A program that starts with a look at the store. -/
theorem grows_get {α : Type} {f : Store → Run α} (hf : ∀ s, Grows s (exec (f s) s).2) :
    Moves Grows (get >>= f) := by
  intro s
  rw [exec_bind, exec_get]
  exact hf s

variable {env}

theorem saveAccount_grows (a : Account) : Moves Grows (env.saveAccount a) := by
  refine grows_get fun s => ?_
  cases hsave : s.accounts.save env.ctx a with
  | error e => exact Grows.refl s
  | ok p =>
    obtain ⟨-, -, hkeys⟩ := Accounts.save_ok hsave
    exact ⟨hkeys, fun _ _ h => h, fun _ _ h => h⟩

theorem saveContact_grows {a : Contact} (hl : a.loadedVersion = none) :
    Moves Grows (env.saveContact a) := by
  refine grows_get fun s => ?_
  cases hsave : s.contacts.save env.ctx a with
  | error e => exact Grows.refl s
  | ok p => exact ⟨fun _ h => h, fun _ _ h => Contacts.save_new hl hsave h, fun _ _ h => h⟩

theorem saveLead_grows {a : Lead} (hl : a.loadedVersion = none) : Moves Grows (env.saveLead a) := by
  refine grows_get fun s => ?_
  cases hsave : s.leads.save env.ctx a with
  | error e => exact Grows.refl s
  | ok leads => exact ⟨fun _ h => h, fun _ _ h => h, fun _ _ h => saveLead_new hl hsave h⟩

/-- A store that differs in its evidence and its signals. -/
theorem Grows.of_eq {s s' : Store} (haccounts : s'.accounts = s.accounts)
    (hcontacts : s'.contacts = s.contacts) (hleads : s'.leads = s.leads) : Grows s s' := by
  refine ⟨fun id h => ?_, fun id r h => ?_, fun key r h => ?_⟩
  · rw [haccounts]
    exact h
  · rw [hcontacts]
    exact h
  · rw [hleads]
    exact h

theorem saveEvidence_grows (now : Date) (claim : Claim) (accountId : String)
    (missionId : Option String) : Moves Grows (env.saveEvidence now claim accountId missionId) := by
  refine grows_get fun s => ?_
  dsimp only
  rw [exec_bind, exec_set]
  dsimp only
  split
  · exact .of_eq rfl rfl rfl
  · split
    · exact .of_eq rfl rfl rfl
    · exact .of_eq rfl rfl rfl

theorem saveClaims_grows (pass : Pass) (accountId : String) (claims : List Claim) :
    Moves Grows (env.saveClaims pass accountId claims) := by
  induction claims with
  | nil => exact grows_pure _
  | cons claim claims ih =>
    exact grows_bind (saveEvidence_grows _ _ _ _) fun _ => grows_bind ih fun _ => grows_pure _

theorem enrichAccount_grows (pass : Pass) (candidate : AccountCandidate) (account : Account) :
    Moves Grows (env.enrichAccount pass candidate account) := by
  unfold enrichAccount
  cases pass.duplicateAccount candidate with
  | some accountId => exact grows_pure _
  | none => exact grows_bind (saveClaims_grows _ _ _) fun _ => saveAccount_grows _

theorem processAccount_grows (pass : Pass) (candidate : AccountCandidate) :
    Moves Grows (env.processAccount pass candidate) :=
  grows_bind (saveAccount_grows _) (enrichAccount_grows pass candidate)

theorem newContact_loadedVersion {pass : Pass} {account : Account} {candidate : ContactCandidate}
    {evidenceId : String} {contact : Contact}
    (h : env.newContact pass account candidate evidenceId = .ok contact) :
    contact.loadedVersion = none := by
  unfold newContact at h
  obtain ⟨enriched, henrich, h⟩ := of_bind_eq_ok h
  obtain ⟨-, -, henrich⟩ := of_bind_eq_ok henrich
  have hl : enriched.loadedVersion = none := by
    cases henrich
    rfl
  split at h
  · obtain ⟨-, -, h⟩ := of_bind_eq_ok h
    cases h
    exact hl
  · cases h
    exact hl

theorem processContact_grows (pass : Pass) (account : Account) (candidate : ContactCandidate) :
    Moves Grows (env.processContact pass account candidate) := by
  refine grows_bind (saveEvidence_grows _ _ _ _) fun evidence => ?_
  cases hcontact : env.newContact pass account candidate evidence.evidenceId with
  | error message => exact grows_throw _
  | ok contact => exact saveContact_grows (newContact_loadedVersion hcontact)

theorem processContacts_grows (pass : Pass) (account : Account)
    (candidates : List ContactCandidate) :
    Moves Grows (env.processContacts pass account candidates) := by
  induction candidates with
  | nil => exact grows_pure _
  | cons candidate candidates ih =>
    unfold processContacts
    split
    · exact ih
    · exact grows_bind (processContact_grows _ _ _) fun _ => grows_bind ih fun _ => grows_pure _

theorem signalEvidence_grows (pass : Pass) (accountId : String) (claim : Claim) :
    Moves Grows (env.signalEvidence pass accountId claim) := by
  refine grows_get fun s => ?_
  dsimp only
  split
  · exact Grows.refl s
  · exact saveEvidence_grows _ _ _ _ s

theorem saveSignal_grows (signal : Signal) : Moves Grows (env.saveSignal signal) := by
  refine grows_get fun s => ?_
  split
  · exact Grows.refl s
  · split
    · exact Grows.refl s
    · split
      · exact Grows.refl s
      · exact .of_eq rfl rfl rfl

theorem saveSignals_grows (pass : Pass) (accountId : String) (candidates : List BuyingSignal) :
    Moves Grows (env.saveSignals pass accountId candidates) := by
  induction candidates with
  | nil => exact grows_pure _
  | cons candidate candidates ih =>
    exact grows_bind (signalEvidence_grows _ _ _) fun _ => grows_bind (saveSignal_grows _) fun _ => ih

theorem detectSignalsForAccount_grows (pass : Pass) (accountId : String) :
    Moves Grows (env.detectSignalsForAccount pass accountId) := by
  unfold detectSignalsForAccount
  cases pass.signals accountId with
  | none => exact grows_pure _
  | some detected =>
    exact grows_bind (saveSignals_grows _ _ _) fun _ => grows_get fun s => Grows.refl s

theorem newLead_loadedVersion (pass : Pass) (account : Account) (contact : Contact)
    (evidence : List Evidence) (signals : List Signal) :
    (env.newLead pass account contact evidence signals).loadedVersion = none := by
  unfold newLead Lead.evaluate
  dsimp only
  split
  · rfl
  · split
    · rfl
    · split
      · rfl
      · rfl

theorem evaluateLead_grows (pass : Pass) (account : Account) (contact : Contact) :
    Moves Grows (env.evaluateLead pass account contact) := by
  refine grows_bind (detectSignalsForAccount_grows _ _) fun signals => grows_get fun s => ?_
  exact saveLead_grows (newLead_loadedVersion _ _ _ _ _) s

theorem evaluateLeads_grows (pass : Pass) (account : Account) (contacts : List Contact) :
    Moves Grows (env.evaluateLeads pass account contacts) := by
  induction contacts with
  | nil => exact grows_pure _
  | cons contact contacts ih => exact grows_bind (evaluateLead_grows _ _ _) fun _ => ih

theorem researchAccount_grows (pass : Pass) (summary : Summary) (account : Account) :
    Moves Grows (env.researchAccount pass summary account) := by
  unfold researchAccount
  split
  · exact grows_pure _
  · exact grows_bind (processContacts_grows _ _ _) fun _ =>
      grows_bind (evaluateLeads_grows _ _ _) fun _ => grows_pure _

theorem researchAll_grows (pass : Pass) (summary : Summary) (candidates : List AccountCandidate) :
    Moves Grows (env.researchAll pass summary candidates) := by
  induction candidates generalizing summary with
  | nil => exact grows_pure _
  | cons candidate candidates ih =>
    exact grows_bind (processAccount_grows _ _) fun _ =>
      grows_bind (researchAccount_grows _ _ _) fun summary => ih summary

theorem summarize_grows (summary : Summary) : Moves Grows (env.summarize summary) :=
  grows_get fun s => Grows.refl s

/-- **However a run ends, no account is gone, and every contact and lead is as it was.** -/
theorem run_grows (pass : Pass) : Moves Grows (env.run pass) :=
  grows_bind (researchAll_grows _ _ _) summarize_grows

end Env

end VegaRevenue.Intelligence
