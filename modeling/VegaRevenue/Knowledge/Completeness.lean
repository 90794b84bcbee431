import VegaRevenue.Knowledge.Ingestion
import VegaRevenue.Lib.Machine
import VegaRevenue.Shared.Result

/-!
# Completeness of ingestion

Calls on one source, one after the other; any operation of any call may fail.

* `covers` — a call that goes through stores every chunk with an embedding
* `complete_of_allowed` — where no call is interrupted between what makes later calls stop early and
  its last chunk, what is reported as ingested is stored, and a repeated call makes up for a failed one
* `not_complete_after_failure` — otherwise the missing chunks are missing for good
-/

namespace VegaRevenue.Knowledge

open Programs Service

variable {U : Type}

structure Call (U : Type) where
  request : Request U
  answers : Answers

def step (svc : Service U) : Machine.Step (Store U) (Call U) (Except IngestError Result) :=
  fun s call =>
    let r := exec (svc.ingest call.answers call.request) s
    (r.2, r.1)

/-! ## The law -/

/-- The version has the chunk, with an embedding. -/
def HasChunk (s : Store U) (sourceVersionId seq : Nat) (content : List U) : Prop :=
  ∃ c ∈ s.chunks, c.sourceVersionId = sourceVersionId ∧ c.seq = seq ∧ c.content = content ∧
    ∃ e ∈ s.embeddings, e.chunkId = c.chunkId

/-- Every piece of the request that is not skipped is stored for its source. -/
def Covered (svc : Service U) (request : Request U) (s : Store U) : Prop :=
  ∀ seq raw, (rawChunks request)[seq]? = some raw → svc.skips raw = false →
    ∃ v ∈ s.versions, v.sourceId = request.sourceId ∧
      HasChunk s v.sourceVersionId seq (svc.scrub raw)

/-- What is reported as ingested is stored, and a call that repeats a failed one, and whose own
operations do not fail, stores what was missing. -/
structure Complete (svc : Service U) (s : Store U) (calls : List (Call U)) : Prop where
  reported : ∀ pre call post, calls = pre ++ call :: post → ∀ r,
    (step svc (Machine.final (step svc) s pre) call).2 = .ok r →
      r.status = .completed ∨ r.status = .deduped →
        Covered svc call.request (step svc (Machine.final (step svc) s pre) call).1
  repeated : ∀ pre failed mid call post, calls = pre ++ failed :: (mid ++ call :: post) → ∀ e,
    (step svc (Machine.final (step svc) s pre) failed).2 = .error e →
      failed.request.content = call.request.content → (∀ op, call.answers.fault op = .none) →
        Covered svc call.request
          (step svc (Machine.final (step svc) s (pre ++ failed :: mid)) call).1

/-! ## The condition -/

/-- The call fails before it writes what would end a later call early: its key or its version. -/
def Call.Stops (call : Call U) : Prop :=
  call.answers.fault .startIngestionRun = .before ∨
    call.request.idempotencyKey = none ∧
      (call.answers.fault .startIngestionRun = .after ∨ call.answers.fault .upsertSource ≠ .none ∨
        call.answers.fault .insertSourceVersion = .before)

/-- Every piece from `seq` on that is not skipped gets its chunk and its embedding: only the write of
the last embedding may throw, and then after its effect. -/
def Service.Through (svc : Service U) (answers : Answers) : Nat → List (List U) → Prop
  | _, [] => True
  | seq, raw :: raws =>
    if svc.skips raw then svc.Through answers (seq + 1) raws
    else
      answers.fault (.insertChunk seq) = .none ∧ answers.fault (.embed seq) = .none ∧
        (answers.embedding seq).vectors ≠ [] ∧
        (answers.fault (.insertChunkEmbedding seq) = .none ∧ svc.Through answers (seq + 1) raws ∨
          answers.fault (.insertChunkEmbedding seq) = .after ∧ ∀ r ∈ raws, svc.skips r = true)

/-- The call writes its version and all its chunks. -/
def Call.GoesThrough (svc : Service U) (call : Call U) : Prop :=
  call.answers.fault .startIngestionRun = .none ∧ call.answers.fault .upsertSource = .none ∧
    call.answers.fault .insertSourceVersion = .none ∧
      svc.Through call.answers 0 (rawChunks call.request)

/-- The key of the call was used before, or its content has a version. -/
def Call.Ends (svc : Service U) (s : Store U) (call : Call U) : Prop :=
  (call.request.idempotencyKey.isSome = true ∧
      ∃ run ∈ s.runs, run.idempotencyKey = call.request.idempotencyKey) ∨
    ∃ v ∈ s.versions, v.sourceId = call.request.sourceId ∧
      v.contentHash = svc.hash call.request.content

/-- What is asked of the calls on a source. -/
structure Allowed (svc : Service U) (first : Request U) (s : Store U) (call : Call U) : Prop where
  sourceId : call.request.sourceId = first.sourceId
  content : call.request.content = first.content
  chunkSize : Service.chunkSize call.request = Service.chunkSize first
  /-- A key that was used was used on the source. -/
  key : ∀ run ∈ s.runs, call.request.idempotencyKey.isSome = true →
    run.idempotencyKey = call.request.idempotencyKey → run.sourceId = first.sourceId
  through : (∀ raw ∈ rawChunks first, svc.skips raw = true) ∨ call.Ends svc s ∨ call.Stops ∨
    call.GoesThrough svc

/-! ## What calls leave -/

/-- A call on the source has written what ends a later call early. -/
def Recorded (sourceId : String) (s : Store U) : Prop :=
  (∃ v ∈ s.versions, v.sourceId = sourceId) ∨
    ∃ run ∈ s.runs, run.sourceId = sourceId ∧ run.idempotencyKey.isSome = true

/-- Where a call has written what ends a later one early, every chunk is stored. -/
structure Inv (svc : Service U) (first : Request U) (s : Store U) : Prop where
  sound : s.Sound
  recorded : Recorded first.sourceId s → Covered svc first s

section

variable {svc : Service U} {first : Request U}

theorem HasChunk.mono {s s' : Store U} {h : String} (hext : Extends h s s')
    {sourceVersionId seq : Nat} {content : List U} (hs : HasChunk s sourceVersionId seq content) :
    HasChunk s' sourceVersionId seq content := by
  obtain ⟨c, hc, hversion, hseq, hcontent, e, he, heq⟩ := hs
  exact ⟨c, hext.chunks c hc, hversion, hseq, hcontent, e, hext.embeddings e he, heq⟩

/-- What is stored stays stored. -/
theorem Covered.mono {request : Request U} {h : String} (s s' : Store U) (hext : Extends h s s')
    (hs : Covered svc request s) : Covered svc request s' := by
  intro seq raw hraw hskips
  obtain ⟨v, hv, hsource, hchunk⟩ := hs seq raw hraw hskips
  exact ⟨v, hext.versions v hv, hsource, hchunk.mono hext⟩

theorem covered_of_skips {request : Request U} (hskips : ∀ raw ∈ rawChunks request,
    svc.skips raw = true) (s : Store U) : Covered svc request s := by
  intro seq raw hraw hnot
  rw [hskips raw (List.mem_of_getElem? hraw)] at hnot
  cases hnot

/-! ## A call that stops -/

/-- Nothing is recorded of the source. -/
def Unrecorded (sourceId : String) (s : Store U) : Prop := ¬Recorded sourceId s

/-- After an operation that fails, the call fails. -/
theorem ensures_attempt {A : Type} {P : Store U → Prop} {Q : A → Store U → Prop}
    {R : IngestError → Store U → Prop} {m : Prog (Store U) IngestError A} {fault : Fault}
    (hfault : fault ≠ .none) (hP : ∀ e s, P s → R e s) (hQ : ∀ a e s, Q a s → R e s)
    (hm : Ensures P m Q R) : Ensures P (attempt fault m) (fun _ _ => False) R := by
  cases fault with
  | none => exact absurd rfl hfault
  | before => exact ensures_throw fun s hs => hP _ s hs
  | after => exact ensures_bind hm fun a => ensures_throw fun s hs => hQ a _ s hs

/-- What follows a program that does not return. -/
theorem ensures_of_false {A B : Type} {P : Store U → Prop} {Q : B → Store U → Prop}
    {R : IngestError → Store U → Prop} {m : Prog (Store U) IngestError A}
    {f : A → Prog (Store U) IngestError B} (hm : Ensures P m (fun _ _ => False) R) :
    Ensures P (m >>= f) Q R := ensures_bind hm fun _ _ hs => hs.elim

theorem startIngestionRun_unrecorded (sourceId sourceId' : String) :
    Ensures (Unrecorded sourceId) (startIngestionRun (U := U) sourceId' none)
      (fun started s => started ≠ none ∧ Unrecorded sourceId s)
      (fun _ => Unrecorded sourceId) := by
  refine ensures_get_bind fun s hs => ?_
  refine ensures_bind (ensures_set fun _ _ => ?_) fun _ => ensures_pure fun t ht => ht
  refine ⟨nofun, ?_⟩
  rintro (hversion | ⟨run, hrun, hsource, hkey⟩)
  · exact hs (.inl hversion)
  · rcases List.mem_append.mp hrun with hrun | hrun
    · exact hs (.inr ⟨run, hrun, hsource, hkey⟩)
    · rw [List.mem_singleton.mp hrun] at hkey
      cases hkey

theorem upsertSource_unrecorded (sourceId sourceId' : String) :
    Ensures (Unrecorded sourceId) (upsertSource (U := U) sourceId')
      (fun _ => Unrecorded sourceId) (fun _ => Unrecorded sourceId) := by
  refine ensures_get_bind fun s hs => ensures_ite (fun _ => ?_) fun _ => ?_
  · exact ensures_pure fun t ht => ht ▸ hs
  · exact ensures_set fun _ _ => hs

theorem completeIngestionRun_unrecorded (sourceId : String) (id : Nat) (status : RunStatus) :
    Ensures (Unrecorded sourceId) (completeIngestionRun (U := U) id status)
      (fun _ => Unrecorded sourceId) (fun _ => Unrecorded sourceId) := by
  refine ensures_get_bind fun s hs => ensures_set fun _ _ => ?_
  rintro (hversion | ⟨run, hrun, hsource, hkey⟩)
  · exact hs (.inl hversion)
  · obtain ⟨r, hr, rfl⟩ := List.mem_map.mp hrun
    refine hs (.inr ⟨r, hr, ?_⟩)
    split at hsource
    next hid =>
      rw [if_pos hid] at hkey
      exact ⟨hsource, hkey⟩
    next hid =>
      rw [if_neg hid] at hkey
      exact ⟨hsource, hkey⟩

/-- What handles the failure of a call fails with it. -/
theorem recordFailure_unrecorded (sourceId : String) (answers : Answers) (id : Nat)
    (err : IngestError) :
    Ensures (Unrecorded sourceId)
      (do
        attempt (U := U) (answers.fault .recordFailure) (completeIngestionRun id .failed)
        throw err : Prog (Store U) IngestError Result)
      (fun _ _ => False) (fun _ => Unrecorded sourceId) := by
  by_cases hfault : answers.fault .recordFailure = .none
  · rw [hfault]
    exact ensures_bind (completeIngestionRun_unrecorded _ _ _) fun _ => ensures_throw fun _ hs => hs
  · exact ensures_of_false (ensures_attempt hfault (fun _ _ hs => hs) (fun _ _ _ hs => hs)
      (completeIngestionRun_unrecorded _ _ _))

variable (svc) in
/-- **A call that stops fails and records nothing.** -/
theorem stops {call : Call U} (hstops : call.Stops) (sourceId : String) :
    Ensures (Unrecorded sourceId) (svc.ingest call.answers call.request)
      (fun _ _ => False) (fun _ => Unrecorded sourceId) := by
  unfold Service.ingest
  rcases hstops with hbefore | ⟨hkey, hfault⟩
  · rw [hbefore]
    exact ensures_of_false (ensures_throw fun s hs => hs)
  rw [hkey]
  by_cases hstart : call.answers.fault .startIngestionRun = .none
  · have hrest : call.answers.fault .upsertSource ≠ .none ∨
        call.answers.fault .insertSourceVersion = .before := by
      rcases hfault with hafter | hrest
      · rw [hstart] at hafter
        cases hafter
      · exact hrest
    rw [hstart]
    refine ensures_bind (startIngestionRun_unrecorded sourceId _) fun started => ?_
    refine ensures_of_pure fun hstarted => ?_
    cases started with
    | none => exact absurd rfl hstarted
    | some id =>
      refine ensures_tryCatch ?_ (recordFailure_unrecorded sourceId call.answers id)
      unfold Service.ingestSource
      by_cases hupsert : call.answers.fault .upsertSource = .none
      · have hversion : call.answers.fault .insertSourceVersion = .before :=
          hrest.resolve_left (not_not.mpr hupsert)
        rw [hupsert, hversion]
        refine ensures_bind (upsertSource_unrecorded sourceId _) fun _ => ?_
        exact ensures_of_false (ensures_throw fun s hs => hs)
      · exact ensures_of_false (ensures_attempt hupsert (fun _ _ hs => hs) (fun _ _ _ hs => hs)
          (upsertSource_unrecorded sourceId _))
  · exact ensures_of_false (ensures_attempt hstart (fun _ _ hs => hs) (fun _ _ _ hs => hs.2)
      (startIngestionRun_unrecorded sourceId _))

/-! ## A call that goes through -/

/-- Of the pieces `all`, the version has those before `seq` and no chunk from `seq` on. -/
structure Upto (svc : Service U) (sourceId : String) (all : List (List U)) (id seq : Nat)
    (s : Store U) : Prop where
  version : ∃ v ∈ s.versions, v.sourceId = sourceId ∧ v.sourceVersionId = id
  chunks : ∀ c ∈ s.chunks, c.sourceVersionId = id → c.seq < seq
  stored : ∀ j raw, j < seq → all[j]? = some raw → svc.skips raw = false →
    HasChunk s id j (svc.scrub raw)

/-- The pieces from `seq` on owe nothing. -/
theorem Upto.covered {request : Request U} {id seq : Nat} {s : Store U}
    (h : Upto svc request.sourceId (rawChunks request) id seq s)
    (hrest : ∀ j raw, seq ≤ j → (rawChunks request)[j]? = some raw → svc.skips raw = true) :
    Covered svc request s := by
  intro j raw hraw hskips
  obtain ⟨v, hv, hsource, rfl⟩ := h.version
  have hj : j < seq := by
    by_contra hle
    rw [hrest j raw (by omega) hraw] at hskips
    cases hskips
  exact ⟨v, hv, hsource, h.stored j raw hj hraw hskips⟩

/-- A piece that is skipped owes nothing. -/
theorem Upto.skip {sourceId : String} {all : List (List U)} {id seq : Nat} {s : Store U}
    (h : Upto svc sourceId all id seq s)
    (hskips : ∀ raw, all[seq]? = some raw → svc.skips raw = true) :
    Upto svc sourceId all id (seq + 1) s where
  version := h.version
  chunks c hc hid := by
    have := h.chunks c hc hid
    omega
  stored j raw hj hraw hnot := by
    by_cases heq : j = seq
    · rw [heq] at hraw
      rw [hskips raw hraw] at hnot
      cases hnot
    · exact h.stored j raw (by omega) hraw hnot

/-- The chunk of the piece `seq` is written, its embedding is not. -/
structure Written (svc : Service U) (sourceId : String) (all : List (List U)) (id seq : Nat)
    (raw : List U) (chunkId : Nat) (s : Store U) : Prop where
  version : ∃ v ∈ s.versions, v.sourceId = sourceId ∧ v.sourceVersionId = id
  chunks : ∀ c ∈ s.chunks, c.sourceVersionId = id → c.seq < seq + 1
  stored : ∀ j raw, j < seq → all[j]? = some raw → svc.skips raw = false →
    HasChunk s id j (svc.scrub raw)
  chunk : ∃ c ∈ s.chunks, c.chunkId = chunkId ∧ c.sourceVersionId = id ∧ c.seq = seq ∧
    c.content = svc.scrub raw

variable {sourceId : String} {all : List (List U)} {id seq : Nat} {raw : List U}
  {R : IngestError → Store U → Prop}

theorem insertChunk_written (contentHash : String) :
    Ensures (Upto svc sourceId all id seq) (insertChunk id seq (svc.scrub raw) contentHash)
      (fun chunkId s => Written svc sourceId all id seq raw chunkId s) R := by
  refine ensures_get_bind fun s hs => ?_
  obtain ⟨v, hv, hsource, hid⟩ := hs.version
  have hversion : s.versions.any (·.sourceVersionId = id) = true :=
    List.any_eq_true.mpr ⟨v, hv, decide_eq_true hid⟩
  have hfree : (s.chunks.any fun c => c.sourceVersionId = id && c.seq = seq) = false := by
    rw [List.any_eq_false]
    intro c hc htaken
    simp only [Bool.and_eq_true, decide_eq_true_eq] at htaken
    have := hs.chunks c hc htaken.1
    omega
  rw [if_pos hversion, hfree]
  refine ensures_bind (ensures_set fun _ _ => ?_) fun _ => ensures_pure fun t ht => ht
  constructor
  · exact ⟨v, hv, hsource, hid⟩
  · intro c hc hcid
    rcases List.mem_append.mp hc with hc | hc
    · have := hs.chunks c hc hcid
      omega
    · rw [List.mem_singleton.mp hc]
      exact Nat.lt_succ_self seq
  · intro j raw' hj hraw hskips
    obtain ⟨c, hc, hrest⟩ := hs.stored j raw' hj hraw hskips
    exact ⟨c, List.mem_append_left _ hc, hrest⟩
  · exact ⟨_, List.mem_append_right _ (List.mem_singleton_self _), rfl, rfl, rfl, rfl⟩

theorem insertChunkEmbedding_upto (hraw : all[seq]? = some raw) (row : ChunkEmbedding) :
    Ensures (Written svc sourceId all id seq raw row.chunkId) (insertChunkEmbedding row)
      (fun _ => Upto svc sourceId all id (seq + 1)) R := by
  refine ensures_get_bind fun s hs => ?_
  obtain ⟨c, hc, hchunkId, hid, hseq, hcontent⟩ := hs.chunk
  have hchunk : s.chunks.any (·.chunkId = row.chunkId) = true :=
    List.any_eq_true.mpr ⟨c, hc, decide_eq_true hchunkId⟩
  -- whichever row holds the embedding afterwards, the chunk has one
  have hnext : ∀ t : Store U, t.versions = s.versions → t.chunks = s.chunks →
      (∀ e ∈ s.embeddings, e ∈ t.embeddings) → (∃ e ∈ t.embeddings, e.chunkId = row.chunkId) →
      Upto svc sourceId all id (seq + 1) t := by
    intro t hversions hchunks hembeddings hhas
    constructor
    · rw [hversions]
      exact hs.version
    · rw [hchunks]
      exact hs.chunks
    · intro j raw' hj hraw' hskips
      by_cases heq : j = seq
      · subst heq
        obtain rfl : raw = raw' := Option.some.inj (hraw.symm.trans hraw')
        exact ⟨c, hchunks ▸ hc, hid, hseq, hcontent, hchunkId ▸ hhas⟩
      · obtain ⟨c', hc', h1, h2, h3, e, he, h4⟩ := hs.stored j raw' (by omega) hraw' hskips
        exact ⟨c', hchunks ▸ hc', h1, h2, h3, e, hembeddings e he, h4⟩
  rw [if_pos hchunk]
  refine ensures_ite (fun htaken => ?_) fun _ => ?_
  · obtain ⟨e, he, htaken⟩ := List.any_eq_true.mp htaken
    simp only [Bool.and_eq_true, decide_eq_true_eq] at htaken
    exact ensures_pure fun t ht => ht ▸ hnext s rfl rfl (fun _ h => h) ⟨e, he, htaken.1⟩
  · refine ensures_set fun _ _ => hnext _ rfl rfl (fun _ h => List.mem_append_left _ h) ?_
    exact ⟨row, List.mem_append_right _ (List.mem_singleton_self row), rfl⟩

/-- The write of a piece up to the write of its embedding. -/
theorem storeChunk_upto {answers : Answers} (hskips : svc.skips raw = false)
    (hchunk : answers.fault (.insertChunk seq) = .none) (hembed : answers.fault (.embed seq) = .none)
    (hvectors : (answers.embedding seq).vectors ≠ []) (hraw : all[seq]? = some raw) :
    (answers.fault (.insertChunkEmbedding seq) = .none →
      Ensures (Upto svc sourceId all id seq) (svc.storeChunk answers id seq raw)
        (fun _ => Upto svc sourceId all id (seq + 1)) R) ∧
    (answers.fault (.insertChunkEmbedding seq) = .after →
      Ensures (Upto svc sourceId all id seq) (svc.storeChunk answers id seq raw)
        (fun _ _ => False) (fun _ => Upto svc sourceId all id (seq + 1))) := by
  obtain ⟨vector, hvector⟩ : ∃ vector, (answers.embedding seq).vectors.head? = some vector := by
    cases hv : (answers.embedding seq).vectors with
    | nil => exact absurd hv hvectors
    | cons vector rest => exact ⟨vector, rfl⟩
  unfold Service.storeChunk
  rw [hskips, hchunk, hembed]
  constructor
  · intro hfault
    rw [hfault]
    refine ensures_bind (insertChunk_written _) fun chunkId => ?_
    simp only [attempt, pure_bind, hvector]
    exact ensures_bind (insertChunkEmbedding_upto hraw ⟨chunkId, _, vector⟩) fun _ =>
      ensures_pure fun s hs => hs
  · intro hfault
    rw [hfault]
    refine ensures_bind (insertChunk_written _) fun chunkId => ?_
    simp only [attempt, pure_bind, hvector]
    refine ensures_of_false ?_
    exact ensures_bind (insertChunkEmbedding_upto hraw ⟨chunkId, _, vector⟩) fun _ =>
      ensures_throw fun s hs => hs

/-- From a piece on, every piece that is not skipped is stored: the loop returns, or throws after
its last write. -/
theorem storeChunks_covers {answers : Answers} {request : Request U} :
    ∀ (raws done : List (List U)) (persisted : Nat), rawChunks request = done ++ raws →
      svc.Through answers done.length raws →
      Ensures (Upto svc request.sourceId (rawChunks request) id done.length)
        (svc.storeChunks answers id done.length persisted raws)
        (fun _ => Covered svc request) (fun _ => Covered svc request) := by
  intro raws
  induction raws with
  | nil =>
    intro done persisted hall _
    refine ensures_pure fun s hs => hs.covered fun j raw hj hraw => ?_
    rw [hall, List.append_nil, List.getElem?_eq_none hj] at hraw
    cases hraw
  | cons raw raws ih =>
    intro done persisted hall hthrough
    have hraw : (rawChunks request)[done.length]? = some raw := by
      rw [hall, List.getElem?_append_right (Nat.le_refl _), Nat.sub_self]
      rfl
    have hnext : rawChunks request = (done ++ [raw]) ++ raws := by
      rw [hall, List.append_assoc]
      rfl
    have hlength : (done ++ [raw]).length = done.length + 1 := by simp
    have hloop := fun persisted' hrest => ih (done ++ [raw]) persisted' hnext hrest
    rw [hlength] at hloop
    unfold Service.Through at hthrough
    by_cases hskips : svc.skips raw = true
    · rw [if_pos hskips] at hthrough
      have hstay : Ensures (Upto svc request.sourceId (rawChunks request) id done.length)
          (svc.storeChunk answers id done.length raw)
          (fun _ => Upto svc request.sourceId (rawChunks request) id (done.length + 1))
          (fun _ => Covered svc request) := by
        unfold Service.storeChunk
        rw [if_pos hskips]
        refine ensures_pure fun s hs => hs.skip fun raw' hraw' => ?_
        obtain rfl : raw = raw' := Option.some.inj (hraw.symm.trans hraw')
        exact hskips
      exact ensures_bind hstay fun stored => hloop _ hthrough
    · rw [if_neg hskips] at hthrough
      obtain ⟨hchunk, hembed, hvectors, hembedding⟩ := hthrough
      have hstored : svc.skips raw = false := by simpa using hskips
      rcases hembedding with ⟨hnone, hrest⟩ | ⟨hafter, hrest⟩
      · exact ensures_bind ((storeChunk_upto hstored hchunk hembed hvectors hraw).1 hnone)
          fun stored => hloop _ hrest
      · have hthrows : Ensures (Upto svc request.sourceId (rawChunks request) id done.length)
            (svc.storeChunk answers id done.length raw) (fun _ _ => False)
            (fun _ => Upto svc request.sourceId (rawChunks request) id (done.length + 1)) :=
          (storeChunk_upto (R := fun _ _ => True) hstored hchunk hembed hvectors hraw).2 hafter
        refine ensures_of_false (hthrows.exit fun _ s hs => hs.covered fun j r hj hr => ?_)
        rw [hnext, List.getElem?_append_right (by omega)] at hr
        exact hrest r (List.mem_of_getElem? hr)

/-- The source has no version yet. -/
structure Fresh (sourceId : String) (s : Store U) : Prop where
  sound : s.Sound
  versions : ∀ v ∈ s.versions, v.sourceId ≠ sourceId

theorem Fresh.of_eq {sourceId : String} {s t : Store U} (hs : Fresh sourceId s)
    (hversions : t.versions = s.versions) (hchunks : t.chunks = s.chunks)
    (hdrawn : s.drawn ≤ t.drawn) : Fresh sourceId t := by
  constructor
  · constructor
    · rw [hversions, hchunks]
      exact hs.sound.chunks
    · rw [hversions]
      intro v hv
      have := hs.sound.drawn v hv
      omega
  · rw [hversions]
    exact hs.versions

theorem startIngestionRun_fresh (sourceId sourceId' : String) (key : Option String) :
    Ensures (fun s : Store U => Fresh sourceId s ∧
        ∀ run ∈ s.runs, key.isSome = true → run.idempotencyKey ≠ key)
      (startIngestionRun sourceId' key)
      (fun started s => started ≠ none ∧ Fresh sourceId s) R := by
  refine ensures_get_bind fun s hs => ensures_ite (fun hused => ?_) fun _ => ?_
  · obtain ⟨hkey, hused⟩ := Bool.and_eq_true_iff.mp hused
    obtain ⟨run, hrun, heq⟩ := List.any_eq_true.mp hused
    exact absurd (of_decide_eq_true heq) (hs.2 run hrun hkey)
  · refine ensures_bind (ensures_set fun _ _ => ?_) fun _ => ensures_pure fun t ht => ht
    exact ⟨nofun, hs.1.of_eq rfl rfl (Nat.le_succ _)⟩

theorem upsertSource_fresh (sourceId sourceId' : String) :
    Ensures (Fresh (U := U) sourceId) (upsertSource sourceId') (fun _ => Fresh sourceId) R := by
  refine ensures_get_bind fun s hs => ensures_ite (fun _ => ?_) fun _ => ?_
  · exact ensures_pure fun t ht => ht ▸ hs
  · exact ensures_set fun _ _ => hs.of_eq rfl rfl (Nat.le_refl _)

variable (svc) in
theorem insertSourceVersion_fresh (sourceId : String) (all : List (List U)) (version : Nat)
    (contentHash : String) :
    Ensures (Fresh sourceId) (insertSourceVersion sourceId version contentHash)
      (fun r s => r.1 = true ∧ Upto svc sourceId all r.2 0 s) R := by
  refine ensures_get_bind fun s hs => ?_
  have hnone : (s.versions.find? fun v => v.sourceId = sourceId && v.contentHash = contentHash) =
      none := by
    rw [List.find?_eq_none]
    intro v hv
    simp [hs.versions v hv]
  have hfree : (s.versions.any fun v => v.sourceId = sourceId && v.version = version) = false := by
    rw [List.any_eq_false]
    intro v hv
    simp [hs.versions v hv]
  rw [hnone, hfree]
  refine ensures_bind (ensures_set fun _ _ => ?_) fun _ => ensures_pure fun t ht => ht
  refine ⟨rfl, ⟨_, List.mem_append_right _ (List.mem_singleton_self _), rfl, rfl⟩, ?_, ?_⟩
  · intro c hc hid
    obtain ⟨v, hv, heq⟩ := hs.sound.chunks c hc
    have hlt := hs.sound.drawn v hv
    omega
  · intro j raw hj
    omega

theorem ingestVersion_covers {answers : Answers} {request : Request U}
    (hthrough : svc.Through answers 0 (rawChunks request)) (ingestionRunId id : Nat) :
    Ensures (Upto svc request.sourceId (rawChunks request) id 0)
      (svc.ingestVersion answers request ingestionRunId id)
      (fun _ => Covered svc request) (fun _ => Covered svc request) := by
  refine ensures_bind (storeChunks_covers (rawChunks request) [] 0 rfl hthrough) fun persisted => ?_
  have hcomplete : Moves (Extends (svc.hash request.content))
      (attempt (U := U) (answers.fault .completeIngestionRun)
        (completeIngestionRun ingestionRunId
          (if persisted = 0 ∧ (rawChunks request).length > 0 then .partialRun else .completed))) :=
    extends_attempt _ (completeIngestionRun_extends _ _)
  exact ensures_bind (hcomplete.ensures Covered.mono fun _ _ hs => hs) fun _ =>
    ensures_pure fun s hs => hs

/-- **A call that goes through, on a source without a version and under no key that was used, stores
every piece.** -/
theorem covers {call : Call U} (hthrough : call.GoesThrough svc) :
    Ensures (fun s => Fresh call.request.sourceId s ∧
        ∀ run ∈ s.runs, call.request.idempotencyKey.isSome = true →
          run.idempotencyKey ≠ call.request.idempotencyKey)
      (svc.ingest call.answers call.request)
      (fun _ => Covered svc call.request) (fun _ => Covered svc call.request) := by
  obtain ⟨hstart, hupsert, hversion, hchunks⟩ := hthrough
  unfold Service.ingest
  rw [hstart]
  refine ensures_bind (startIngestionRun_fresh _ _ _) fun started => ?_
  refine ensures_of_pure fun hstarted => ?_
  cases started with
  | none => exact absurd rfl hstarted
  | some ingestionRunId =>
    have hsource : Ensures (Fresh call.request.sourceId)
        (svc.ingestSource call.answers call.request ingestionRunId)
        (fun _ => Covered svc call.request) (fun _ => Covered svc call.request) := by
      unfold Service.ingestSource
      rw [hupsert, hversion]
      refine ensures_bind (upsertSource_fresh _ _) fun _ => ?_
      refine ensures_bind (insertSourceVersion_fresh svc _ (rawChunks call.request) _ _) fun r => ?_
      obtain ⟨inserted, id⟩ := r
      refine ensures_of_pure fun hinserted => ?_
      obtain rfl : inserted = true := hinserted
      exact ingestVersion_covers hchunks ingestionRunId id
    refine ensures_tryCatch hsource fun err => ?_
    have hrecord : Moves (Extends (svc.hash call.request.content))
        (do
          attempt (U := U) (call.answers.fault .recordFailure)
            (completeIngestionRun ingestionRunId .failed)
          throw err : Prog (Store U) IngestError Result) :=
      extends_bind (extends_attempt _ (completeIngestionRun_extends _ _)) fun _ => extends_throw _
    exact hrecord.ensures Covered.mono fun _ _ hs => hs

/-! ## One call -/

/-- The calls on a source owe the same. -/
theorem Allowed.covered {s t : Store U} {call : Call U} (h : Allowed svc first s call) :
    Covered svc call.request t ↔ Covered svc first t := by
  have hpieces : rawChunks call.request = rawChunks first := by
    unfold rawChunks
    rw [h.content, h.chunkSize]
  unfold Covered
  rw [hpieces, h.sourceId]

/-- **After an allowed call everything is stored, or the call failed, by an operation that failed, and
recorded nothing.** -/
theorem step_covers {s : Store U} (h : Inv svc first s) {call : Call U}
    (hallowed : Allowed svc first s call) :
    Covered svc first (step svc s call).1 ∨
      (∃ e, (step svc s call).2 = .error e) ∧ (∃ op, call.answers.fault op ≠ .none) ∧
        Unrecorded first.sourceId (step svc s call).1 := by
  have hext : Extends (svc.hash call.request.content) s (step svc s call).1 :=
    ingest_extends call.request s
  by_cases hcovered : Covered svc first s
  · exact .inl (hcovered.mono _ _ hext)
  have hunrecorded : Unrecorded first.sourceId s := fun hrecorded => hcovered (h.recorded hrecorded)
  have hkey : ∀ run ∈ s.runs, call.request.idempotencyKey.isSome = true →
      run.idempotencyKey ≠ call.request.idempotencyKey := by
    intro run hrun hsome heq
    exact hunrecorded (.inr ⟨run, hrun, hallowed.key run hrun hsome heq, heq ▸ hsome⟩)
  have hversions : ∀ v ∈ s.versions, v.sourceId ≠ first.sourceId :=
    fun v hv heq => hunrecorded (.inl ⟨v, hv, heq⟩)
  rcases hallowed.through with hnothing | hends | hstops | hthrough
  · exact .inl (covered_of_skips hnothing _)
  · rcases hends with ⟨hsome, run, hrun, heq⟩ | ⟨v, hv, heq, -⟩
    · exact absurd heq (hkey run hrun hsome)
    · exact absurd (heq.trans hallowed.sourceId) (hversions v hv)
  · right
    have hend := stops svc hstops first.sourceId s hunrecorded
    have hfault : ∃ op, call.answers.fault op ≠ .none := by
      rcases hstops with hb | ⟨-, hb | hb | hb⟩
      · exact ⟨_, by rw [hb]; nofun⟩
      · exact ⟨_, by rw [hb]; nofun⟩
      · exact ⟨_, hb⟩
      · exact ⟨_, by rw [hb]; nofun⟩
    unfold step
    generalize exec (svc.ingest call.answers call.request) s = r at hend ⊢
    obtain ⟨result, s'⟩ := r
    cases result with
    | ok a => exact hend.elim
    | error e => exact ⟨⟨e, rfl⟩, hfault, hend⟩
  · left
    have hfresh : Fresh call.request.sourceId s :=
      ⟨h.sound, fun v hv heq => hversions v hv (heq.trans hallowed.sourceId)⟩
    have hend := covers hthrough s ⟨hfresh, hkey⟩
    unfold step
    generalize exec (svc.ingest call.answers call.request) s = r at hend ⊢
    obtain ⟨result, s'⟩ := r
    cases result with
    | ok a => exact hallowed.covered.mp hend
    | error e => exact hallowed.covered.mp hend

theorem inv_step {s : Store U} {call : Call U} (h : Inv svc first s)
    (hallowed : Allowed svc first s call) : Inv svc first (step svc s call).1 where
  sound := by
    have hext : Extends (svc.hash call.request.content) s (step svc s call).1 :=
      ingest_extends call.request s
    exact hext.sound h.sound
  recorded hrecorded := by
    rcases step_covers h hallowed with hcovered | ⟨-, -, hunrecorded⟩
    · exact hcovered
    · exact absurd hrecorded hunrecorded

/-! ## Any calls -/

/-- No call on the source has been recorded. -/
structure Untouched (sourceId : String) (s : Store U) : Prop where
  sound : s.Sound
  unrecorded : Unrecorded sourceId s

/-- **In every run of calls on a source whose calls are all allowed, what is reported as ingested is
stored, and a repeated call makes up for a failed one.** -/
theorem complete_of_allowed (svc : Service U) (first : Request U) {s : Store U}
    (hs : Untouched first.sourceId s) {calls : List (Call U)}
    (hcalls : Machine.Meets (step svc) (Allowed svc first) s calls) : Complete svc s calls := by
  have hinv : Inv svc first s := ⟨hs.sound, fun hrecorded => absurd hrecorded hs.unrecorded⟩
  have hstep : ∀ t call, Inv svc first t → Allowed svc first t call →
      Inv svc first (step svc t call).1 := fun t call ht hallowed => inv_step ht hallowed
  constructor
  · rintro pre call post rfl r hr -
    obtain ⟨hbefore, hallowed⟩ := hcalls.before hstep hinv
    rw [hallowed.covered]
    rcases step_covers hbefore hallowed with hcovered | ⟨⟨e, he⟩, -⟩
    · exact hcovered
    · rw [hr] at he
      cases he
  · rintro pre failed mid call post rfl e - - hnofault
    have hsplit : pre ++ failed :: (mid ++ call :: post) = (pre ++ failed :: mid) ++ call :: post := by
      simp
    rw [hsplit] at hcalls
    obtain ⟨hbefore, hallowed⟩ := hcalls.before hstep hinv
    rw [hallowed.covered]
    rcases step_covers hbefore hallowed with hcovered | ⟨-, ⟨op, hop⟩, -⟩
    · exact hcovered
    · exact absurd (hnofault op) hop

end

/-! ## An embedding that fails -/

def plainService : Service Nat where
  scrub := id
  blank _ := false
  containsSecret := none
  hash content := toString content.length

/-- Two pieces of one unit each. -/
def note : Request Nat := { sourceId := "note", content := [1, 2], chunkSize := some 1 }

def embedded : Answers := { embedding := fun _ => ⟨"profile", [[1]]⟩ }

/-- The embedding of the second piece fails. -/
def interrupted : Answers :=
  { embedded with fault := fun op => if op = .embed 1 then .before else .none }

/-- The source cannot be written. -/
def stopped : Answers :=
  { embedded with fault := fun op => if op = .upsertSource then .before else .none }

theorem untouched_empty (sourceId : String) : Untouched sourceId ({} : Store Nat) where
  sound := ⟨fun _ hc => absurd hc List.not_mem_nil, fun _ hv => absurd hv List.not_mem_nil⟩
  unrecorded := by
    rintro (⟨v, hv, -⟩ | ⟨run, hrun, -⟩)
    · exact absurd hv List.not_mem_nil
    · exact absurd hrun List.not_mem_nil

theorem allowed_note {s : Store Nat} {answers : Answers}
    (h : (⟨note, answers⟩ : Call Nat).Stops ∨ (⟨note, answers⟩ : Call Nat).GoesThrough plainService) :
    Allowed plainService note s ⟨note, answers⟩ where
  sourceId := rfl
  content := rfl
  chunkSize := rfl
  key _ _ hkey := by cases hkey
  through := .inr (.inr h)

/-- A call that could not write the source is made up for. -/
theorem complete_stopped : Complete plainService {} [⟨note, stopped⟩, ⟨note, embedded⟩] := by
  have hstops : (⟨note, stopped⟩ : Call Nat).Stops := by
    refine .inr ⟨rfl, .inr (.inl ?_)⟩
    decide
  have hthrough : (⟨note, embedded⟩ : Call Nat).GoesThrough plainService := by
    refine ⟨rfl, rfl, rfl, ?_⟩
    exact ⟨rfl, rfl, List.cons_ne_nil _ _,
      .inl ⟨rfl, rfl, rfl, List.cons_ne_nil _ _, .inl ⟨rfl, trivial⟩⟩⟩
  exact complete_of_allowed plainService note (untouched_empty "note")
    ⟨allowed_note (.inl hstops), allowed_note (.inr hthrough), trivial⟩

/-- **After a failed embedding, the repeated call reports the content as ingested, and its second
piece has no embedding.** -/
theorem not_complete_after_failure :
    ¬ Complete plainService {} [⟨note, interrupted⟩, ⟨note, embedded⟩] := by
  intro h
  have hdeduped : (step plainService
      (Machine.final (step plainService) {} [⟨note, interrupted⟩]) ⟨note, embedded⟩).2 =
        .ok { status := .deduped, deduplicated := true } :=
    eq_ok_of_toOption (by decide +kernel)
  have hmissing : ((step plainService
      (Machine.final (step plainService) {} [⟨note, interrupted⟩]) ⟨note, embedded⟩).1.chunks.all
        fun c => c.seq ≠ 1 || (step plainService (Machine.final (step plainService) {}
          [⟨note, interrupted⟩]) ⟨note, embedded⟩).1.embeddings.all (·.chunkId ≠ c.chunkId)) =
        true := by decide +kernel
  obtain ⟨v, hv, -, c, hc, -, hseq, -, e, he, hid⟩ :=
    h.reported [⟨note, interrupted⟩] ⟨note, embedded⟩ [] rfl _ hdeduped (.inr rfl) 1 [2] rfl rfl
  have hall := List.all_eq_true.mp hmissing c hc
  rcases Bool.or_eq_true_iff.mp hall with hne | hnone
  · exact absurd hseq (of_decide_eq_true hne)
  · exact absurd hid (of_decide_eq_true (List.all_eq_true.mp hnone e he))

end VegaRevenue.Knowledge
