import VegaRevenue.Lib.Machine
import VegaRevenue.Lib.RowSecurity
import Mathlib.Data.Rat.Defs

/-!
# Agent versions

`ControlPlaneService.registerAgentVersion` and `AgentLifecycleService` over the table
`control_plane.agent_versions`, which the row-level security of its migrations guards.
-/

namespace VegaRevenue.ControlPlane

open RowSecurity (Policy Table)

inductive AgentLifecycle where
  | draft
  | testing
  | approved
  | active
  | deprecated
  | retired
deriving DecidableEq

def AgentLifecycle.text : AgentLifecycle → String
  | draft => "DRAFT"
  | testing => "TESTING"
  | approved => "APPROVED"
  | active => "ACTIVE"
  | deprecated => "DEPRECATED"
  | retired => "RETIRED"

/-- `ALLOWED_TRANSITIONS`. -/
def allowedTransitions : AgentLifecycle → List AgentLifecycle
  | .draft => [.testing]
  | .testing => [.approved, .deprecated]
  | .approved => [.active, .deprecated]
  | .active => [.deprecated]
  | .deprecated => [.retired]
  | .retired => []

def canTransitionAgentLifecycle (origin target : AgentLifecycle) : Bool :=
  (allowedTransitions origin).contains target

def isMutableAgentLifecycle (lifecycle : AgentLifecycle) : Bool :=
  lifecycle = .draft || lifecycle = .testing

/-! ## Versions -/

structure PolicyReference where
  policyId : String
  version : String
deriving DecidableEq

structure ModelPolicy where
  preferredModelFamily : String
  maxCostPerTaskUsd : Rat
  maxTokensPerTask : Rat
deriving DecidableEq

structure MemoryPolicy where
  read : List String
  write : List String
  validationRequired : Bool
deriving DecidableEq

structure KnowledgePolicy where
  read : List String
  write : List String
deriving DecidableEq

structure EvaluationPolicy where
  criteria : List String
  minScore : Rat
deriving DecidableEq

/-- The part of an `AgentContract` that is stored beside the columns of its version. -/
structure AgentDefinition where
  name : String
  role : String
  description : String
  capabilities : List String
  tools : List String
  policies : List PolicyReference
  modelPolicy : ModelPolicy
  memoryPolicy : MemoryPolicy
  knowledgePolicy : KnowledgePolicy
  autonomyLevelDefault : Int
  evaluationPolicy : EvaluationPolicy
  owner : String
deriving DecidableEq

/-- A version, and a row of `control_plane.agent_versions`; an `implementation_key` that is NULL is
read as the empty one. -/
structure AgentVersion where
  versionId : String
  agentId : String
  tenantId : Option String
  isSystem : Bool
  version : String
  lifecycle : AgentLifecycle
  implementationKey : String
  definition : AgentDefinition
deriving DecidableEq

/-- The first field in which two versions differ. -/
def areVersionDefinitionsEqual (a b : AgentVersion) : Option String :=
  let ad := a.definition
  let bd := b.definition
  let differs : List (String × Bool) := [
    ("implementationKey", a.implementationKey ≠ b.implementationKey),
    ("tenantId", a.tenantId ≠ b.tenantId),
    ("isSystem", a.isSystem ≠ b.isSystem),
    ("name", ad.name ≠ bd.name),
    ("role", ad.role ≠ bd.role),
    ("description", ad.description ≠ bd.description),
    ("capabilities", ad.capabilities ≠ bd.capabilities),
    ("tools", ad.tools ≠ bd.tools),
    ("policies", ad.policies ≠ bd.policies),
    ("modelPolicy", ad.modelPolicy ≠ bd.modelPolicy),
    ("memoryPolicy", ad.memoryPolicy ≠ bd.memoryPolicy),
    ("knowledgePolicy", ad.knowledgePolicy ≠ bd.knowledgePolicy),
    ("autonomyLevelDefault", ad.autonomyLevelDefault ≠ bd.autonomyLevelDefault),
    ("evaluationPolicy", ad.evaluationPolicy ≠ bd.evaluationPolicy),
    ("owner", ad.owner ≠ bd.owner)]
  (differs.find? Prod.snd).map Prod.fst

/-- The message of an `ImmutableAgentVersionConflict`. -/
def immutableVersionConflict (version : AgentVersion) (diff : String)
    (lifecycle : AgentLifecycle) : String :=
  s!"Immutable version conflict for {version.agentId}@{version.version}: {diff}" ++
    s!" in {lifecycle.text} version"

/-! ## The table -/

abbrev AgentTable := Table AgentVersion.versionId

/-- The policy `agent_versions_tenant_isolation`, in the context of a tenant. -/
def tenantIsolation (tenantId : String) : Policy AgentVersion where
  visible r := r.isSystem || r.tenantId = some tenantId
  check r := r.isSystem && r.tenantId = none || !r.isSystem && r.tenantId = some tenantId

/-- What the database decides by itself: the order of strings, the order in which the rows of a
query come, and whether it rejects what the call writes. -/
structure Environment where
  collation : String → String → Bool
  scan : List AgentVersion → List AgentVersion
  scan_perm : ∀ rows, (scan rows).Perm rows
  rejects : Bool

/-- `ORDER BY version DESC LIMIT 1`; an empty version is no version. -/
def getActiveVersion (t : AgentTable) (env : Environment) (tenantId agentId version : String) :
    Option AgentVersion :=
  let rows := t.select (tenantIsolation tenantId) fun r =>
    r.agentId = agentId && if version ≠ "" then r.version = version else r.lifecycle = .active
  ((env.scan rows).mergeSort fun a b => env.collation b.version a.version).head?

def rejected : String := "the database rejects the statement"

/-- The columns an update of a version sets. -/
def AgentVersion.rewrite (version : AgentVersion) (r : AgentVersion) : AgentVersion :=
  { r with
    lifecycle := version.lifecycle
    implementationKey := version.implementationKey
    definition := version.definition }

def AgentVersion.move (target : AgentLifecycle) (r : AgentVersion) : AgentVersion :=
  { r with lifecycle := target }

/-- How a call ends; a failed one has the message of its error. -/
abbrev Answer := Except String Unit

/-- The end of a call that writes: what it wrote is there, or it is rejected. -/
def written (t : AgentTable) (env : Environment) (t' : Option AgentTable) : AgentTable × Answer :=
  match t' with
  | some t' => if env.rejects then (t, .error rejected) else (t', .ok ())
  | none => (t, .error rejected)

def saveVersion (t : AgentTable) (env : Environment) (tenantId : String) (version : AgentVersion) :
    AgentTable × Answer :=
  match (t.select (tenantIsolation tenantId) (·.versionId = version.versionId)).head? with
  | some existing =>
    match areVersionDefinitionsEqual existing version with
    | none => (t, .ok ())
    | some diff =>
      if isMutableAgentLifecycle existing.lifecycle then
        written t env (t.update? (tenantIsolation tenantId) (·.versionId = version.versionId)
          version.rewrite fun _ => rfl)
      else (t, .error (immutableVersionConflict version diff existing.lifecycle))
  | none => written t env (t.insert? (tenantIsolation tenantId) version)

/-- The rows a transition moves. -/
def isAt (agentId version : String) (lifecycle : AgentLifecycle) (r : AgentVersion) : Bool :=
  r.agentId = agentId && r.version = version && r.lifecycle = lifecycle

def transitionLifecycle (t : AgentTable) (env : Environment) (tenantId agentId version : String)
    (origin target : AgentLifecycle) : AgentTable × Answer :=
  let moved := t.update? (tenantIsolation tenantId) (isAt agentId version origin)
    (AgentVersion.move target) fun _ => rfl
  if t.select (tenantIsolation tenantId) (isAt agentId version origin) = [] then
    (t, .error s!"Lifecycle transition for {agentId}@{version} failed")
  else written t env moved

/-! ## The services -/

def registerAgentVersion (t : AgentTable) (env : Environment) (tenantId : String)
    (version : AgentVersion) : AgentTable × Answer :=
  match getActiveVersion t env tenantId version.agentId version.version with
  | none => saveVersion t env tenantId version
  | some existing =>
    match areVersionDefinitionsEqual existing version with
    | none => (t, .ok ())
    | some diff =>
      if isMutableAgentLifecycle existing.lifecycle then saveVersion t env tenantId version
      else (t, .error (immutableVersionConflict version diff existing.lifecycle))

def transition (t : AgentTable) (env : Environment) (tenantId agentId version : String)
    (target : AgentLifecycle) : AgentTable × Answer :=
  match getActiveVersion t env tenantId agentId version with
  | none => (t, .error s!"Agent version {agentId}@{version} not found")
  | some current =>
    if canTransitionAgentLifecycle current.lifecycle target then
      transitionLifecycle t env tenantId agentId version current.lifecycle target
    else
      (t, .error (s!"Invalid lifecycle transition from {current.lifecycle.text} to {target.text}" ++
        s!" for {agentId}@{version}"))

def activateVersion (t : AgentTable) (env : Environment) (tenantId agentId version : String) :
    AgentTable × Answer :=
  transitionLifecycle t env tenantId agentId version .approved .active

inductive Request where
  | registerAgentVersion (version : AgentVersion)
  | transition (agentId version : String) (target : AgentLifecycle)
  | activateVersion (agentId version : String)

/-- A call in the context of a tenant. -/
structure Call where
  tenantId : String
  request : Request
  env : Environment

def step : Machine.Step AgentTable Call Answer
  | t, ⟨tenantId, .registerAgentVersion version, env⟩ => registerAgentVersion t env tenantId version
  | t, ⟨tenantId, .transition agentId version target, env⟩ =>
    transition t env tenantId agentId version target
  | t, ⟨tenantId, .activateVersion agentId version, env⟩ =>
    activateVersion t env tenantId agentId version

end VegaRevenue.ControlPlane
