import Mathlib.Data.List.Defs
import VegaRevenue.Lib.Programs

/-!
# Knowledge ingestion

A call writes its ingestion run, its source, a version of the source, and then the chunks of the
content one by one, each with its embedding. A key that was used and a content that has a version
end the call early.

* `ingest` — one call; any of its operations may throw, before or after its effect
* `ingest_extends` — no call takes anything away
-/

namespace VegaRevenue.Knowledge

open Programs

variable {U : Type}

/-! ## The tables -/

inductive RunStatus where
  | running
  | completed
  | failed
  | partialRun
deriving DecidableEq

structure IngestionRun where
  ingestionRunId : Nat
  sourceId : String
  idempotencyKey : Option String
  status : RunStatus
deriving DecidableEq

structure Source where
  sourceId : String
  currentVersionId : Option Nat
deriving DecidableEq

structure SourceVersion where
  sourceVersionId : Nat
  sourceId : String
  version : Nat
  contentHash : String
deriving DecidableEq

/-- The content is a list of code units. -/
structure Chunk (U : Type) where
  chunkId : Nat
  sourceVersionId : Nat
  seq : Nat
  content : List U
  contentHash : String
deriving DecidableEq

structure ChunkEmbedding where
  chunkId : Nat
  embeddingProfileId : String
  embedding : List Rat
deriving DecidableEq

/-- The tables as the tenant sees them. The ids that `randomUUID` draws are numbers that have not
been drawn before. -/
structure Store (U : Type) where
  runs : List IngestionRun := []
  sources : List Source := []
  versions : List SourceVersion := []
  chunks : List (Chunk U) := []
  embeddings : List ChunkEmbedding := []
  drawn : Nat := 0

inductive IngestError where
  /-- The operation throws. -/
  | unavailable
  | uniqueViolation
  | foreignKeyViolation
deriving DecidableEq

/-! ## The repository -/

section

/-- `ON CONFLICT (tenant_id, idempotency_key) DO NOTHING`; the id of a run that started. -/
def startIngestionRun (sourceId : String) (idempotencyKey : Option String) :
    Prog (Store U) IngestError (Option Nat) := do
  let s ← get
  if idempotencyKey.isSome && s.runs.any (·.idempotencyKey = idempotencyKey) then pure none
  else do
    let run : IngestionRun := ⟨s.drawn, sourceId, idempotencyKey, .running⟩
    set { s with drawn := s.drawn + 1, runs := s.runs ++ [run] }
    pure (some s.drawn)

def upsertSource (sourceId : String) : Prog (Store U) IngestError Unit := do
  let s ← get
  if s.sources.any (·.sourceId = sourceId) then pure ()
  else do
    let source : Source := ⟨sourceId, none⟩
    set { s with sources := s.sources ++ [source] }

/-- Whether a version was inserted, and the id of the version with the content. -/
def insertSourceVersion (sourceId : String) (version : Nat) (contentHash : String) :
    Prog (Store U) IngestError (Bool × Nat) := do
  let s ← get
  match s.versions.find? fun v => v.sourceId = sourceId && v.contentHash = contentHash with
  | some existing => pure (false, existing.sourceVersionId)
  | none =>
    if s.versions.any fun v => v.sourceId = sourceId && v.version = version then
      throw .uniqueViolation
    else do
      let inserted : SourceVersion := ⟨s.drawn, sourceId, version, contentHash⟩
      let sources := s.sources.map fun source =>
        if source.sourceId = sourceId then { source with currentVersionId := some s.drawn }
        else source
      set { s with drawn := s.drawn + 1, versions := s.versions ++ [inserted], sources }
      pure (true, s.drawn)

/-- `ON CONFLICT (source_version_id, seq) DO NOTHING`; the id the chunk was given. -/
def insertChunk (sourceVersionId seq : Nat) (content : List U) (contentHash : String) :
    Prog (Store U) IngestError Nat := do
  let s ← get
  if s.versions.any (·.sourceVersionId = sourceVersionId) then
    if s.chunks.any fun c => c.sourceVersionId = sourceVersionId && c.seq = seq then do
      set { s with drawn := s.drawn + 1 }
      pure s.drawn
    else do
      let chunk : Chunk U := ⟨s.drawn, sourceVersionId, seq, content, contentHash⟩
      set { s with drawn := s.drawn + 1, chunks := s.chunks ++ [chunk] }
      pure s.drawn
  else throw .foreignKeyViolation

/-- `ON CONFLICT (chunk_id, embedding_profile_id) DO NOTHING`. -/
def insertChunkEmbedding (row : ChunkEmbedding) : Prog (Store U) IngestError Unit := do
  let s ← get
  if s.chunks.any (·.chunkId = row.chunkId) then
    if s.embeddings.any fun e => e.chunkId = row.chunkId &&
        e.embeddingProfileId = row.embeddingProfileId then pure ()
    else set { s with embeddings := s.embeddings ++ [row] }
  else throw .foreignKeyViolation

def completeIngestionRun (ingestionRunId : Nat) (status : RunStatus) :
    Prog (Store U) IngestError Unit := do
  let s ← get
  let runs := s.runs.map fun run =>
    if run.ingestionRunId = ingestionRunId then { run with status } else run
  set { s with runs }

end

/-! ## A call -/

structure Request (U : Type) where
  sourceId : String
  content : List U
  idempotencyKey : Option String := none
  chunkSize : Option Nat := none

/-- What the service is built with. -/
structure Service (U : Type) where
  scrub : List U → List U
  /-- `canonical.trim().length === 0`. -/
  blank : List U → Bool
  containsSecret : Option (List U → Bool)
  hash : List U → String

inductive Operation where
  | startIngestionRun
  | upsertSource
  | insertSourceVersion
  | insertChunk (seq : Nat)
  | embed (seq : Nat)
  | insertChunkEmbedding (seq : Nat)
  | completeIngestionRun
  /-- `completeIngestionRun` of a call that failed. -/
  | recordFailure
deriving DecidableEq

/-- How an operation fails: it throws in place of its effect, or after it. -/
inductive Fault where
  | none
  | before
  | after
deriving DecidableEq

structure EmbeddingResult where
  embeddingProfileId : String
  vectors : List (List Rat)

/-- What the repository and the embedding router do in a call. -/
structure Answers where
  fault : Operation → Fault := fun _ => .none
  embedding : Nat → EmbeddingResult

inductive ResultStatus where
  | completed
  | failed
  | partialRun
  | deduped
deriving DecidableEq

structure Result where
  status : ResultStatus
  chunkCount : Nat := 0
  deduplicated : Bool
deriving DecidableEq

def attempt {A : Type} (fault : Fault) (m : Prog (Store U) IngestError A) :
    Prog (Store U) IngestError A :=
  match fault with
  | .none => m
  | .before => throw .unavailable
  | .after => do
    let _ ← m
    throw .unavailable

namespace Service

variable (svc : Service U) (answers : Answers)

/-- The content in pieces of the chunk size; an empty content is one piece. -/
def chunk (content : List U) (size : Nat) : List (List U) :=
  if content.isEmpty then [content] else content.toChunks size

/-- A piece that bears a secret, or of which scrubbing leaves nothing, is not stored. -/
def skips (raw : List U) : Bool :=
  svc.containsSecret.any (· raw) || (svc.scrub raw).isEmpty || svc.blank (svc.scrub raw)

/-- Whether the piece was persisted. -/
def storeChunk (sourceVersionId seq : Nat) (raw : List U) : Prog (Store U) IngestError Bool :=
  if svc.skips raw then pure false
  else do
    let canonical := svc.scrub raw
    let chunkId ← attempt (answers.fault (.insertChunk seq))
      (insertChunk sourceVersionId seq canonical (svc.hash canonical))
    let embedResult ← attempt (answers.fault (.embed seq)) (pure (answers.embedding seq))
    match embedResult.vectors.head? with
    | some vector => do
      attempt (answers.fault (.insertChunkEmbedding seq))
        (insertChunkEmbedding ⟨chunkId, embedResult.embeddingProfileId, vector⟩)
      pure true
    | none => pure true

/-- The loop over the pieces from `seq` on; `persisted` counts those that are stored. -/
def storeChunks (sourceVersionId seq persisted : Nat) : List (List U) →
    Prog (Store U) IngestError Nat
  | [] => pure persisted
  | raw :: raws => do
    let stored ← svc.storeChunk answers sourceVersionId seq raw
    storeChunks sourceVersionId (seq + 1) (persisted + stored.toNat) raws

def chunkSize (request : Request U) : Nat := request.chunkSize.getD 1200

/-- The pieces of the request. -/
def rawChunks (request : Request U) : List (List U) := chunk request.content (chunkSize request)

/-- What follows the insert of a version. -/
def ingestVersion (request : Request U) (ingestionRunId sourceVersionId : Nat) :
    Prog (Store U) IngestError Result := do
  let persisted ← svc.storeChunks answers sourceVersionId 0 0 (rawChunks request)
  let nothing := persisted = 0 ∧ (rawChunks request).length > 0
  attempt (answers.fault .completeIngestionRun)
    (completeIngestionRun ingestionRunId (if nothing then .partialRun else .completed))
  pure
    { status := if nothing then .partialRun else .completed
      chunkCount := persisted
      deduplicated := false }

/-- What is tried once the run has started. -/
def ingestSource (request : Request U) (ingestionRunId : Nat) :
    Prog (Store U) IngestError Result := do
  attempt (answers.fault .upsertSource) (upsertSource request.sourceId)
  let (inserted, sourceVersionId) ← attempt (answers.fault .insertSourceVersion)
    (insertSourceVersion request.sourceId 1 (svc.hash request.content))
  if inserted then svc.ingestVersion answers request ingestionRunId sourceVersionId
  else do
    attempt (answers.fault .completeIngestionRun) (completeIngestionRun ingestionRunId .completed)
    pure { status := .deduped, deduplicated := true }

def ingest (request : Request U) : Prog (Store U) IngestError Result := do
  let started ← attempt (answers.fault .startIngestionRun)
    (startIngestionRun request.sourceId request.idempotencyKey)
  match started with
  | none => pure { status := .deduped, deduplicated := true }
  | some ingestionRunId =>
    tryCatch (svc.ingestSource answers request ingestionRunId) fun err => do
      attempt (answers.fault .recordFailure) (completeIngestionRun ingestionRunId .failed)
      throw err

end Service

/-! ## What no call takes away -/

/-- Every chunk is of a version, and the ids of the versions have been drawn. -/
structure Store.Sound (s : Store U) : Prop where
  chunks : ∀ c ∈ s.chunks, ∃ v ∈ s.versions, v.sourceVersionId = c.sourceVersionId
  drawn : ∀ v ∈ s.versions, v.sourceVersionId < s.drawn

/-- `s'` has all that `s` has, and every version it has beside is of the content with the hash. -/
structure Extends (contentHash : String) (s s' : Store U) : Prop where
  versions : ∀ v ∈ s.versions, v ∈ s'.versions
  inserted : ∀ v ∈ s'.versions, v ∈ s.versions ∨ v.contentHash = contentHash
  chunks : ∀ c ∈ s.chunks, c ∈ s'.chunks
  embeddings : ∀ e ∈ s.embeddings, e ∈ s'.embeddings
  sound : s.Sound → s'.Sound

namespace Extends

variable {h : String}

theorem refl (s : Store U) : Extends h s s :=
  ⟨fun _ h => h, fun _ h => .inl h, fun _ h => h, fun _ h => h, id⟩

theorem trans (s t u : Store U) (hst : Extends h s t) (htu : Extends h t u) : Extends h s u where
  versions v hv := htu.versions v (hst.versions v hv)
  inserted v hv := by
    rcases htu.inserted v hv with ht | hnew
    · exact hst.inserted v ht
    · exact .inr hnew
  chunks c hc := htu.chunks c (hst.chunks c hc)
  embeddings e he := htu.embeddings e (hst.embeddings e he)
  sound hs := htu.sound (hst.sound hs)

/-- A store with the same versions and chunks, more embeddings and more ids drawn. -/
theorem of_eq {s s' : Store U} (hversions : s'.versions = s.versions) (hchunks : s'.chunks = s.chunks)
    (hembeddings : ∀ e ∈ s.embeddings, e ∈ s'.embeddings) (hdrawn : s.drawn ≤ s'.drawn) :
    Extends h s s' where
  versions v hv := hversions ▸ hv
  inserted v hv := .inl (hversions ▸ hv)
  chunks c hc := hchunks ▸ hc
  embeddings := hembeddings
  sound hs := by
    constructor
    · rw [hversions, hchunks]
      exact hs.chunks
    · rw [hversions]
      intro v hv
      have := hs.drawn v hv
      omega

end Extends

variable {h : String}

theorem extends_bind {A B : Type} {m : Prog (Store U) IngestError A} {f : A → Prog (Store U) IngestError B}
    (hm : Moves (Extends h) m) (hf : ∀ a, Moves (Extends h) (f a)) : Moves (Extends h) (m >>= f) :=
  hm.bind Extends.trans hf

theorem extends_pure {A : Type} (a : A) : Moves (Extends h) (pure a : Prog (Store U) IngestError A) :=
  moves_pure Extends.refl a

theorem extends_throw {A : Type} (e : IngestError) :
    Moves (Extends h) (throw e : Prog (Store U) IngestError A) := moves_throw Extends.refl e

theorem extends_attempt {A : Type} {m : Prog (Store U) IngestError A} (fault : Fault)
    (hm : Moves (Extends h) m) : Moves (Extends h) (attempt fault m) := by
  cases fault with
  | none => exact hm
  | before => exact extends_throw _
  | after => exact extends_bind hm fun _ => extends_throw _

/-- A program that starts with a look at the store. -/
theorem extends_get {A : Type} {f : Store U → Prog (Store U) IngestError A}
    (hf : ∀ s, Extends h s (exec (f s) s).2) : Moves (Extends h) (get >>= f) := by
  intro s
  rw [exec_bind, exec_get]
  exact hf s

theorem startIngestionRun_extends (sourceId : String) (idempotencyKey : Option String) :
    Moves (Extends h) (startIngestionRun sourceId idempotencyKey : Prog (Store U) IngestError (Option Nat)) := by
  refine extends_get fun s => ?_
  split
  · exact .refl s
  · exact .of_eq rfl rfl (fun _ h => h) (Nat.le_succ _)

theorem upsertSource_extends (sourceId : String) :
    Moves (Extends h) (upsertSource (U := U) sourceId) := by
  refine extends_get fun s => ?_
  split
  · exact .refl s
  · exact .of_eq rfl rfl (fun _ h => h) (Nat.le_refl _)

theorem insertSourceVersion_extends (sourceId : String) (version : Nat) :
    Moves (Extends h) (insertSourceVersion (U := U) sourceId version h) := by
  refine extends_get fun s => ?_
  split
  · exact .refl s
  · split
    · exact .refl s
    · constructor
      · exact fun v hv => List.mem_append_left _ hv
      · intro v hv
        rcases List.mem_append.mp hv with hv | hv
        · exact .inl hv
        · rw [List.mem_singleton.mp hv]
          exact .inr rfl
      · exact fun c hc => hc
      · exact fun e he => he
      · intro hs
        constructor
        · intro c hc
          obtain ⟨v, hv, heq⟩ := hs.chunks c hc
          exact ⟨v, List.mem_append_left _ hv, heq⟩
        · intro v hv
          rcases List.mem_append.mp hv with hv | hv
          · have hlt := hs.drawn v hv
            show v.sourceVersionId < s.drawn + 1
            omega
          · rw [List.mem_singleton.mp hv]
            exact Nat.lt_succ_self _

theorem insertChunk_extends (sourceVersionId seq : Nat) (content : List U) (contentHash : String) :
    Moves (Extends h) (insertChunk sourceVersionId seq content contentHash) := by
  refine extends_get fun s => ?_
  split
  next hversion =>
    split
    · exact .of_eq rfl rfl (fun _ h => h) (Nat.le_succ _)
    · constructor
      · exact fun v hv => hv
      · exact fun v hv => .inl hv
      · exact fun c hc => List.mem_append_left _ hc
      · exact fun e he => he
      · intro hs
        constructor
        · intro c hc
          rcases List.mem_append.mp hc with hc | hc
          · exact hs.chunks c hc
          · rw [List.mem_singleton.mp hc]
            obtain ⟨v, hv, heq⟩ := List.any_eq_true.mp hversion
            exact ⟨v, hv, of_decide_eq_true heq⟩
        · intro v hv
          have hlt := hs.drawn v hv
          show v.sourceVersionId < s.drawn + 1
          omega
  · exact .refl s

theorem insertChunkEmbedding_extends (row : ChunkEmbedding) :
    Moves (Extends h) (insertChunkEmbedding (U := U) row) := by
  refine extends_get fun s => ?_
  split
  · split
    · exact .refl s
    · exact .of_eq rfl rfl (fun _ he => List.mem_append_left _ he) (Nat.le_refl _)
  · exact .refl s

theorem completeIngestionRun_extends (ingestionRunId : Nat) (status : RunStatus) :
    Moves (Extends h) (completeIngestionRun (U := U) ingestionRunId status) :=
  extends_get fun _ => .of_eq rfl rfl (fun _ h => h) (Nat.le_refl _)

namespace Service

variable {svc : Service U} {answers : Answers}

theorem storeChunk_extends (sourceVersionId seq : Nat) (raw : List U) :
    Moves (Extends h) (svc.storeChunk answers sourceVersionId seq raw) := by
  unfold storeChunk
  split
  · exact extends_pure _
  · refine extends_bind (extends_attempt _ (insertChunk_extends _ _ _ _)) fun chunkId => ?_
    refine extends_bind (extends_attempt _ (extends_pure _)) fun embedResult => ?_
    split
    · exact extends_bind (extends_attempt _ (insertChunkEmbedding_extends _)) fun _ =>
        extends_pure _
    · exact extends_pure _

theorem storeChunks_extends (sourceVersionId seq persisted : Nat) (raws : List (List U)) :
    Moves (Extends h) (svc.storeChunks answers sourceVersionId seq persisted raws) := by
  induction raws generalizing seq persisted with
  | nil => exact extends_pure _
  | cons raw raws ih => exact extends_bind (storeChunk_extends _ _ _) fun _ => ih _ _

theorem ingestVersion_extends (request : Request U) (ingestionRunId sourceVersionId : Nat) :
    Moves (Extends h) (svc.ingestVersion answers request ingestionRunId sourceVersionId) :=
  extends_bind (storeChunks_extends _ _ _ _) fun _ =>
    extends_bind (extends_attempt _ (completeIngestionRun_extends _ _)) fun _ => extends_pure _

theorem ingestSource_extends (request : Request U) (ingestionRunId : Nat) :
    Moves (Extends (svc.hash request.content)) (svc.ingestSource answers request ingestionRunId) := by
  refine extends_bind (extends_attempt _ (upsertSource_extends _)) fun _ => ?_
  refine extends_bind (extends_attempt _ (insertSourceVersion_extends _ _)) fun version => ?_
  obtain ⟨inserted, sourceVersionId⟩ := version
  cases inserted with
  | true => exact ingestVersion_extends _ _ _
  | false =>
    exact extends_bind (extends_attempt _ (completeIngestionRun_extends _ _)) fun _ =>
      extends_pure _

/-- **However a call ends, what was stored stays, and a version it inserts is of its content.** -/
theorem ingest_extends (request : Request U) :
    Moves (Extends (svc.hash request.content)) (svc.ingest answers request) := by
  refine extends_bind (extends_attempt _ (startIngestionRun_extends _ _)) fun started => ?_
  cases started with
  | none => exact extends_pure _
  | some ingestionRunId =>
    refine Moves.tryCatch Extends.trans (ingestSource_extends _ _) fun err => ?_
    exact extends_bind (extends_attempt _ (completeIngestionRun_extends _ _)) fun _ => extends_throw _

end Service

end VegaRevenue.Knowledge
