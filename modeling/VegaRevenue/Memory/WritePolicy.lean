import Mathlib.Data.List.Infix
import VegaRevenue.Lib.Machine
import VegaRevenue.Lib.Programs
import VegaRevenue.Shared.Json
import VegaRevenue.Shared.Result
import VegaRevenue.Shared.Text

/-!
# The write policy of durable memory

A write passes the gates, inserts an entry, has its content embedded, inserts the embedding and
records its decision. The five are operations of their own; each of them may fail.

* `write` — one call
* `step` — the calls of a history, with the contents that were accepted
-/

namespace VegaRevenue.Memory

open Programs

/-! ## The tables -/

inductive EntryStatus where
  | active
  | superseded
  | retracted
  | expired
deriving DecidableEq

/-- What is inserted; `version` and the key of the tenant tell the versions of a memory apart. -/
structure NewEntry where
  memoryId : String
  workspaceId : Option String := none
  agentId : Option String := none
  type : String
  subjectKind : Option String := none
  subjectId : Option String := none
  content : String
  contentHash : String
  version : Nat
  sensitivity : Option String := none
  confidence : Option Rat := none
  provenance : Option Json := none
  sourceExecutionId : Option String := none
  sourceCorrelationId : Option String := none
  observedAt : Option Date := none
  expiresAt : Option Date := none
  createdBy : Option String := none
  supersedes : Option String := none

/-- A row of `memory.entries`. -/
structure Entry extends NewEntry where
  tenantId : String
  status : EntryStatus := .active

structure EmbeddingRow where
  tenantId : String
  memoryId : String
  version : Nat
  embeddingProfileId : String
  embedding : List Rat
  embeddingDim : Nat
  contentHash : String

inductive WriteDecision where
  | accepted
  | rejected
  | quarantined
deriving DecidableEq

structure WriteRequestRow where
  writeRequestId : Nat
  tenantId : String
  idempotencyKey : Option String
  agentId : Option String
  workspaceId : Option String
  type : String
  decision : WriteDecision
  rejectionReason : Option String
  contentHash : String
  memoryId : Option String
  version : Option Nat
  correlationId : String

/-- The tables. The ids that `randomUUID` draws come from numbers that have not been drawn. -/
structure Store where
  entries : List Entry := []
  embeddings : List EmbeddingRow := []
  writeRequests : List WriteRequestRow := []
  drawn : Nat := 0

inductive WriteError where
  /-- The operation throws. -/
  | unavailable
  | unauthorized
  | uniqueViolation
  | foreignKeyViolation
  | checkViolation
deriving DecidableEq

/-! ## The repository -/

structure WriteContext where
  tenantId : String
  userId : Option String
  correlationId : String

def Entry.hasKey (tenantId memoryId : String) (version : Nat) (e : Entry) : Bool :=
  e.tenantId = tenantId && e.memoryId = memoryId && e.version = version

/-- A unique index spans the ACTIVE entries of a memory, beside the primary key. -/
def insertEntry (ctx : WriteContext) (entry : NewEntry) : Prog Store WriteError Unit := do
  let s ← get
  if s.entries.any fun e => e.hasKey ctx.tenantId entry.memoryId entry.version ||
      (e.tenantId = ctx.tenantId && e.memoryId = entry.memoryId && e.status = .active) then
    throw .uniqueViolation
  else do
    let row : Entry :=
      { entry with
        sensitivity := some (entry.sensitivity.getD "INTERNAL")
        provenance := some (entry.provenance.getD (.obj []))
        tenantId := ctx.tenantId }
    set { s with entries := s.entries ++ [row] }

/-- `ON CONFLICT (tenant_id, memory_id, version, embedding_profile_id) DO NOTHING`. -/
def insertEmbedding (row : EmbeddingRow) : Prog Store WriteError Unit := do
  let s ← get
  if row.embedding.length ≠ row.embeddingDim then throw .checkViolation
  else if s.embeddings.any fun e => e.tenantId = row.tenantId && e.memoryId = row.memoryId &&
      e.version = row.version && e.embeddingProfileId = row.embeddingProfileId then pure ()
  else if s.entries.any (·.hasKey row.tenantId row.memoryId row.version) then
    set { s with embeddings := s.embeddings ++ [row] }
  else throw .foreignKeyViolation

/-- The key of a request is unique in its tenant. -/
def recordWriteRequest (row : WriteRequestRow) : Prog Store WriteError Unit := do
  let s ← get
  if s.writeRequests.any fun r => r.writeRequestId = row.writeRequestId ||
      (row.idempotencyKey.isSome && r.tenantId = row.tenantId &&
        r.idempotencyKey = row.idempotencyKey) then
    throw .uniqueViolation
  else set { s with writeRequests := s.writeRequests ++ [row] }

/-- `randomUUID`. -/
def draw : Prog Store WriteError Nat := do
  let s ← get
  set { s with drawn := s.drawn + 1 }
  pure s.drawn

/-! ## The gates -/

/-- The word characters of `\b`. -/
def wordChar (c : Char) : Bool := c.isAlphanum || c = '_'

/-- The phrase stands in the text between word boundaries; `before` is the character that goes
before the text. The phrase begins and ends with word characters. -/
def standsIn (phrase : List Char) (before : Option Char) : List Char → Bool
  | [] => false
  | c :: text =>
    (phrase.isPrefixOf (c :: text) && !before.any wordChar &&
      !((c :: text).drop phrase.length).head?.any wordChar) || standsIn phrase (some c) text

/-- `/<thinking>[\s\S]*<\/thinking>/`. -/
def hasThinking : List Char → Bool
  | [] => false
  | c :: text =>
    ("<thinking>".toList.isPrefixOf (c :: text) &&
      ((c :: text).drop "<thinking>".length).tails.any "</thinking>".toList.isPrefixOf) ||
      hasThinking text

/-- The phrases of the patterns, with a hyphen or a blank where `[- ]` stands. -/
def cotPhrases : List String :=
  let gaps := ["-", " "]
  gaps.flatMap fun a => gaps.flatMap fun b =>
    ["chain" ++ a ++ "of" ++ b ++ "thought", "step" ++ a ++ "by" ++ b ++ "step reasoning",
      "my internal reasoning", "my private reasoning"]

/-- `RAW_COT_PATTERNS`; without the flag `u`, `i` matches letters of ASCII with their case only. -/
def rawCot (content : String) : Bool :=
  let text := content.toList.map Char.toLower
  cotPhrases.any (fun phrase => standsIn phrase.toList none text) || hasThinking text

/-! ## A call -/

structure WriteRequest where
  agentId : Option String := none
  workspaceId : Option String := none
  type : String
  subjectKind : Option String := none
  subjectId : Option String := none
  content : String
  sensitivity : Option String := none
  confidence : Option Rat := none
  provenance : Option Json := none
  sourceExecutionId : Option String := none
  sourceCorrelationId : Option String := none
  observedAt : Option Date := none
  expiresAt : Option Date := none
  idempotencyKey : Option String := none
  correlationId : Option String := none
  memoryId : Option String := none

structure WriteResult where
  decision : WriteDecision
  memoryId : Option String := none
  version : Option Nat := none
  rejectionReason : Option String := none
  contentHash : String
deriving DecidableEq

/-- What the service is built with. -/
structure Service where
  scrub : String → String
  containsSecret : Option (String → Bool) := none
  hash : String → String

inductive Operation where
  | insertEntry
  | embed
  | insertEmbedding
  | recordWriteRequest
deriving DecidableEq

structure EmbeddingResult where
  embeddingProfileId : String
  vectors : List (List Rat)
  dimensions : Nat

/-- What the authorizer, the repository and the embedding router do in a call. -/
structure Answers where
  authorized : Bool := true
  fault : Operation → Fault := fun _ => .none
  embedding : EmbeddingResult

namespace Service

variable (svc : Service)

/-- The reason of the gate that rejects the content. -/
def rejection (content : String) : Option String :=
  if svc.containsSecret.any (· content) then some "SECRET_DETECTED"
  else if rawCot content then some "RAW_COT_DETECTED"
  else if trim (svc.scrub content) = "" then some "EMPTY_AFTER_SCRUB"
  else none

def auditRow (ctx : WriteContext) (writeRequestId : Nat) (request : WriteRequest)
    (decision : WriteDecision) (rejectionReason memoryId : Option String) (version : Option Nat) :
    WriteRequestRow where
  writeRequestId := writeRequestId
  tenantId := ctx.tenantId
  idempotencyKey := request.idempotencyKey
  agentId := request.agentId
  workspaceId := request.workspaceId
  type := request.type
  decision := decision
  rejectionReason := rejectionReason
  contentHash := svc.hash request.content
  memoryId := memoryId
  version := version
  correlationId := request.correlationId.getD ctx.correlationId

/-- Versions are left to a consolidation workflow. -/
def version : Nat := 1

def newEntry (ctx : WriteContext) (request : WriteRequest) (memoryId : String) : NewEntry where
  memoryId := memoryId
  workspaceId := request.workspaceId
  agentId := request.agentId
  type := request.type
  subjectKind := request.subjectKind
  subjectId := request.subjectId
  content := svc.scrub request.content
  contentHash := svc.hash (svc.scrub request.content)
  version := version
  sensitivity := request.sensitivity
  confidence := request.confidence
  provenance := request.provenance
  sourceExecutionId := request.sourceExecutionId
  sourceCorrelationId := request.sourceCorrelationId
  observedAt := request.observedAt
  expiresAt := request.expiresAt
  createdBy := ctx.userId
  supersedes := request.memoryId

def embeddingRow (ctx : WriteContext) (request : WriteRequest) (memoryId : String)
    (result : EmbeddingResult) (vector : List Rat) : EmbeddingRow where
  tenantId := ctx.tenantId
  memoryId := memoryId
  version := version
  embeddingProfileId := result.embeddingProfileId
  embedding := vector
  embeddingDim := result.dimensions
  contentHash := svc.hash (svc.scrub request.content)

/-- The embedding of the content, where the router returns a vector. -/
def embedEntry (ctx : WriteContext) (request : WriteRequest) (answers : Answers)
    (memoryId : String) : Prog Store WriteError Unit := do
  let result ← failing .unavailable (answers.fault .embed) (pure answers.embedding)
  match result.vectors.head? with
  | some vector =>
    failing .unavailable (answers.fault .insertEmbedding)
      (insertEmbedding (svc.embeddingRow ctx request memoryId result vector))
  | none => pure ()

/-- What follows the gates. -/
def persist (ctx : WriteContext) (request : WriteRequest) (answers : Answers)
    (writeRequestId : Nat) (memoryId : String) : Prog Store WriteError WriteResult := do
  failing .unavailable (answers.fault .insertEntry)
    (insertEntry ctx (svc.newEntry ctx request memoryId))
  svc.embedEntry ctx request answers memoryId
  failing .unavailable (answers.fault .recordWriteRequest)
    (recordWriteRequest
      (svc.auditRow ctx writeRequestId request .accepted none (some memoryId) (some version)))
  pure
    { decision := .accepted
      memoryId := some memoryId
      version := some version
      contentHash := svc.hash (svc.scrub request.content) }

/-- The memory the request names, or a new one. -/
def memoryIdOf (request : WriteRequest) : Prog Store WriteError String :=
  match request.memoryId with
  | some memoryId => pure memoryId
  | none => do
    let drawn ← draw
    pure ("mem-" ++ toString drawn)

def reject (ctx : WriteContext) (request : WriteRequest) (answers : Answers)
    (writeRequestId : Nat) (reason : String) : Prog Store WriteError WriteResult := do
  failing .unavailable (answers.fault .recordWriteRequest)
    (recordWriteRequest (svc.auditRow ctx writeRequestId request .rejected (some reason) none none))
  pure
    { decision := .rejected
      rejectionReason := some reason
      contentHash := svc.hash request.content }

def write (ctx : WriteContext) (request : WriteRequest) (answers : Answers) :
    Prog Store WriteError WriteResult := do
  if answers.authorized then do
    let writeRequestId ← draw
    match svc.rejection request.content with
    | some reason => svc.reject ctx request answers writeRequestId reason
    | none => do
      let memoryId ← memoryIdOf request
      svc.persist ctx request answers writeRequestId memoryId
  else throw .unauthorized

end Service

/-! ## Histories -/

/-- An acceptance that was recorded. -/
structure Acceptance where
  tenantId : String
  memoryId : String
  content : String

/-- The tables and the acceptances, the latest last. -/
structure History where
  store : Store := {}
  accepted : List Acceptance := []

structure Call where
  ctx : WriteContext
  request : WriteRequest
  answers : Answers

/-- The acceptance a call has recorded, by the rows it has added. -/
def acceptance (svc : Service) (c : Call) (s s' : Store) : List Acceptance :=
  (s'.writeRequests.drop s.writeRequests.length).filterMap fun row =>
    if row.decision = .accepted then
      row.memoryId.map fun memoryId => ⟨c.ctx.tenantId, memoryId, svc.scrub c.request.content⟩
    else none

/-- One call, and how it ends. -/
def step (svc : Service) : Machine.Step History Call (Except WriteError WriteResult) :=
  fun h c =>
    let (r, s') := exec (svc.write c.ctx c.request c.answers) h.store
    ({ store := s', accepted := h.accepted ++ acceptance svc c h.store s' }, r)

/-- The content that was accepted last for the memory. -/
def History.latest (h : History) (tenantId memoryId : String) : Option String :=
  (h.accepted.reverse.find? fun a => a.tenantId = tenantId && a.memoryId = memoryId).map (·.content)

end VegaRevenue.Memory
