import VegaRevenue.Lib.Versioned
import VegaRevenue.Shared.Json
import VegaRevenue.Shared.Result

/-!
# The account and contact aggregates

What a provider knows of a company and of the people in it.
-/

namespace VegaRevenue

/-! ## Accounts -/

namespace Account

inductive Status where
  | discovered
  | enriched
  | qualified
  | disqualified
  | duplicate
deriving DecidableEq

structure Props where
  id : String
  tenantId : String
  workspaceId : String
  name : String
  domain : Option String := none
  normalizedDomain : Option String := none
  industry : Option String := none
  employeeCount : Option Rat := none
  annualRevenueUsd : Option Rat := none
  territories : List String := []
  techStack : List String := []
  status : Status := .discovered
  duplicateOf : Option String := none
  evidenceReferences : List String := []
  accountVersion : Nat := 1
  createdAt : Date
  updatedAt : Date
deriving DecidableEq

/-- The payloads of the events. -/
inductive Event where
  | discovered (accountId name source : String)
  | enriched (accountId : String) (evidenceIds : List String)
  | markedDuplicate (accountId canonicalAccountId reason : String)
  | disqualified (accountId reason : String)
deriving DecidableEq

end Account

abbrev Account := Versioned.Aggregate Account.Props Account.Event

namespace Account

/-- `create` with no version of its own; `normalizeDomain` has been applied to the domain. -/
def create (props : Props) : Account :=
  (Versioned.Aggregate.init { props with accountVersion := 1 }).applyEvent
    (.discovered props.id props.name "manual")

/-- `enrich({}, evidenceIds)`. -/
def enrich (a : Account) (evidenceIds : List String) (now : Date) : Account :=
  (a.write { a.state with
    evidenceReferences := a.state.evidenceReferences ++ evidenceIds
    status := .enriched
    updatedAt := now
    accountVersion := a.state.accountVersion + 1 }).applyEvent
      (.enriched a.state.id evidenceIds)

def markDuplicate (a : Account) (canonicalAccountId reason : String) (now : Date) : Account :=
  (a.write { a.state with
    status := .duplicate
    duplicateOf := some canonicalAccountId
    updatedAt := now
    accountVersion := a.state.accountVersion + 1 }).applyEvent
      (.markedDuplicate a.state.id canonicalAccountId reason)

def disqualify (a : Account) (reason : String) (now : Date) : Account :=
  (a.write { a.state with
    status := .disqualified
    updatedAt := now
    accountVersion := a.state.accountVersion + 1 }).applyEvent (.disqualified a.state.id reason)

@[simp] theorem create_id (props : Props) : (create props).state.id = props.id := rfl
@[simp] theorem create_loadedVersion (props : Props) : (create props).loadedVersion = none := rfl
@[simp] theorem markDuplicate_id (a : Account) (canonicalAccountId reason : String) (now : Date) :
    (a.markDuplicate canonicalAccountId reason now).state.id = a.state.id := rfl
@[simp] theorem markDuplicate_loadedVersion (a : Account) (canonicalAccountId reason : String)
    (now : Date) :
    (a.markDuplicate canonicalAccountId reason now).loadedVersion = a.loadedVersion := rfl

end Account

/-! ## Contacts -/

namespace Contact

inductive Status where
  | discovered
  | enriched
  | validated
  | suppressed
deriving DecidableEq

structure Props where
  id : String
  tenantId : String
  workspaceId : String
  accountId : String
  name : Option String := none
  title : Option String := none
  role : Option String := none
  seniority : Option String := none
  channels : List String := []
  status : Status := .discovered
  suppressionReason : Option String := none
  suppressionReference : Option String := none
  suppressedAt : Option Date := none
  evidenceReferences : List String := []
  createdAt : Date
  updatedAt : Date
deriving DecidableEq

/-- The payloads of the events. -/
inductive Event where
  | discovered (contactId accountId source : String)
  | enriched (contactId : String) (evidenceIds : List String)
  | validated (contactId : String)
  | suppressed (contactId reason : String)
deriving DecidableEq

end Contact

abbrev Contact := Versioned.Aggregate Contact.Props Contact.Event

namespace Contact

def discover (props : Props) (source : String) : Contact :=
  (Versioned.Aggregate.init { props with status := .discovered }).applyEvent
    (.discovered props.id props.accountId source)

/-- `assertNotSuppressed`. -/
def modifiable (a : Contact) : Except String Unit :=
  if a.state.status = .suppressed then .error "Cannot modify a SUPPRESSED contact" else .ok ()

/-- `enrich({}, evidenceIds)`. -/
def enrich (a : Contact) (evidenceIds : List String) (now : Date) : Except String Contact := do
  a.modifiable
  .ok ((a.write { a.state with
    evidenceReferences := a.state.evidenceReferences ++ evidenceIds
    status := if a.state.status = .discovered then .enriched else a.state.status
    updatedAt := now }).applyEvent (.enriched a.state.id evidenceIds))

def validate (a : Contact) (now : Date) : Except String Contact := do
  a.modifiable
  .ok ((a.write { a.state with status := .validated, updatedAt := now }).applyEvent
    (.validated a.state.id))

def suppress (a : Contact) (reason : String) (reference : Option String) (now : Date) : Contact :=
  (a.write { a.state with
    status := .suppressed
    suppressionReason := some reason
    suppressionReference := reference
    suppressedAt := some now
    updatedAt := now }).applyEvent (.suppressed a.state.id reason)

end Contact

end VegaRevenue
