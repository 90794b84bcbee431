import VegaRevenue.ConversationHandling.PiiScrubber
import VegaRevenue.Knowledge.Completeness
import VegaRevenue.Lib.TextCuts

/-!
# What the chunks give away

The content is cut first; each piece is searched for secrets and scrubbed on its own.

* `ingest_stores` — the chunks that a call leaves in an empty repository
* `safe_iff` — when they show no secret and no address of the content
* `not_safe_sample` — a secret and an address that a border cuts
-/

namespace VegaRevenue.Knowledge.ChunkSecrets

open AiRuntime.ContextAssembler (Units units)
open Backtracking Backtracking.Pattern
open PiiScrubber (EMAIL SSN CARD PHONE char digit digitCount letter mark scrub space)
open Programs
open Service (chunk chunkSize rawChunks)
open TextCuts

/-! ## The worker's service -/

/-- `[A-Za-z0-9]`. -/
def alphanumeric (c : UInt16) : Bool := letter c || digit c

/-- `[A-Z0-9]`. -/
def upperOrDigit (c : UInt16) : Bool := (0x41 ≤ c && c ≤ 0x5A) || digit c

/-- `/sk-[A-Za-z0-9]{20,}/`. -/
def SK : Pattern UInt16 :=
  seq (char 's') (seq (char 'k') (seq (char '-') (many alphanumeric 20)))

/-- `/AKIA[A-Z0-9]{16}/`. -/
def AKIA : Pattern UInt16 :=
  seq (char 'A') (seq (char 'K') (seq (char 'I') (seq (char 'A') (times 16 (one upperOrDigit)))))

/-- `basicSecretDetector`. -/
def containsSecret (input : Units) : Bool := test SK none input || test AKIA none input

/-- The service of the worker; the hash is left open. -/
def worker (hash : Units → String) : Service UInt16 where
  scrub := scrub
  blank text := text.all space
  containsSecret := some containsSecret
  hash := hash

/-! ## Where the characters of a chunk come from -/

/-- A character with its place in the content, or without one. -/
abbrev Placed := UInt16 × Option Nat

def placed (content : Units) : List Placed := content.zipIdx.map fun c => (c.1, some c.2)

/-- Characters that are put in. -/
def put (text : Units) : List Placed := text.map fun c => (c, none)

/-- `scrub` on characters that carry their places. -/
def scrubPlaced (content : List Placed) : List Placed :=
  if content = [] then content
  else
    let scrubbed := replaceAll (comap Prod.fst EMAIL) (fun _ => put (mark "EMAIL")) content
    let scrubbed := replaceAll (comap Prod.fst SSN) (fun _ => put (mark "SSN")) scrubbed
    let scrubbed := replaceAll (comap Prod.fst CARD)
      (fun m => if 13 ≤ digitCount (m.map Prod.fst) then put (mark "CARD") else m) scrubbed
    replaceAll (comap Prod.fst PHONE)
      (fun m => if 7 ≤ digitCount (m.map Prod.fst) then put (mark "PHONE") else m) scrubbed

/-- The chunk `seq` of the content, with the places of its characters. -/
def provenance (content : Units) (size seq : Nat) : List Placed :=
  scrubPlaced ((chunk (placed content) size)[seq]?.getD [])

/-! ## The law -/

/-- The content has a secret from place `i` up to place `j`. -/
def Secret (content : Units) (i j : Nat) : Prop :=
  ∃ before m after, content = before ++ (m ++ after) ∧ i = before.length ∧ j = i + m.length ∧
    (Matches SK before.getLast? m after.head? ∨ Matches AKIA before.getLast? m after.head?)

/-- The content has the address. -/
def Address (content m : Units) : Prop :=
  ∃ before after, content = before ++ (m ++ after) ∧
    Matches EMAIL before.getLast? m after.head?

/-- The chunks in the order of their `seq`, one after the other. -/
def joined (s : Store UInt16) : Units :=
  (s.chunks.mergeSort fun a b => a.seq ≤ b.seq).flatMap (·.content)

/-- No chunk has a character of a secret, and the chunks together show no address. -/
structure Safe (content : Units) (size : Nat) (s : Store UInt16) : Prop where
  secrets : ∀ c ∈ s.chunks, ∀ i j, Secret content i j →
    ∀ u p, (u, some p) ∈ provenance content size c.seq → ¬(i ≤ p ∧ p < j)
  addresses : ∀ m, Address content m → ¬m <:+: joined s

/-! ## The condition -/

/-- A border between two pieces is inside. -/
def Cut (size i j : Nat) : Prop := ∃ k, i < k * size ∧ k * size < j

/-- The texts that are stored of the pieces. -/
def kept (svc : Service UInt16) (pieces : List Units) : List Units :=
  (pieces.filter fun raw => !svc.skips raw).map svc.scrub

/-- The pieces that a cut secret reaches into are skipped or have it redacted, and no address
stands across a border of stored texts. -/
structure Contained (svc : Service UInt16) (content : Units) (size : Nat) : Prop where
  secrets : ∀ i j, Secret content i j → Cut size i j →
    ∀ raw ∈ chunk (placed content) size, svc.skips (raw.map Prod.fst) = false →
      ∀ u p, (u, some p) ∈ scrubPlaced raw → ¬(i ≤ p ∧ p < j)
  addresses : ∀ m, Address content m →
    ∀ left right x y, kept svc (chunk content size) = left ++ right → m = x ++ y → x ≠ [] →
      y ≠ [] → ¬(x <:+ left.flatten ∧ y <+: right.flatten)

/-! ## What a call leaves in an empty repository -/

section

variable {U : Type} (svc : Service U) (answers : Answers)

/-- The rows of the pieces from `seq` on that are not skipped. -/
def rowsFrom (seq : Nat) : List (List U) → List (Nat × List U)
  | [] => []
  | raw :: raws =>
    if svc.skips raw then rowsFrom (seq + 1) raws
    else (seq, svc.scrub raw) :: rowsFrom (seq + 1) raws

def row (c : Chunk U) : Nat × List U := (c.seq, c.content)

/-- The version is there, and its chunks are these. -/
structure Filled (id seq : Nat) (rows : List (Nat × List U)) (s : Store U) : Prop where
  version : s.versions.any (·.sourceVersionId = id) = true
  chunks : s.chunks.map row = rows
  before : ∀ r ∈ rows, r.1 < seq

/-- Nothing is promised of a call that fails. -/
def Failed (_ : IngestError) (_ : Store U) : Prop := True

theorem ensures_attempt_failed {A : Type} {P : Store U → Prop} {Q : A → Store U → Prop}
    {m : Prog (Store U) IngestError A} (fault : Fault) (hm : Ensures P m Q Failed) :
    Ensures P (attempt fault m) Q Failed := by
  cases fault with
  | none => exact hm
  | before => exact ensures_throw fun _ _ => trivial
  | after => exact ensures_bind hm fun _ => ensures_throw fun _ _ => trivial

variable {id seq : Nat} {rows : List (Nat × List U)}

theorem insertChunk_fills (content : List U) (contentHash : String) :
    Ensures (Filled id seq rows) (insertChunk id seq content contentHash)
      (fun _ => Filled id (seq + 1) (rows ++ [(seq, content)])) Failed := by
  refine ensures_get_bind fun s hs => ?_
  have hfree : (s.chunks.any fun c => c.sourceVersionId = id && c.seq = seq) = false := by
    rw [List.any_eq_false]
    intro c hc htaken
    simp only [Bool.and_eq_true, decide_eq_true_eq] at htaken
    have hlt : c.seq < seq := hs.before (row c) (hs.chunks ▸ List.mem_map_of_mem hc)
    omega
  rw [if_pos hs.version, hfree]
  refine ensures_bind (ensures_set fun _ _ => ?_) fun _ => ensures_pure fun t ht => ht
  refine ⟨hs.version, ?_, List.forall_mem_append.mpr ⟨fun r hr => ?_, ?_⟩⟩
  · rw [List.map_append, hs.chunks]
    rfl
  · have hlt := hs.before r hr
    omega
  · exact List.forall_mem_singleton.mpr (Nat.lt_succ_self seq)

theorem insertChunkEmbedding_fills (e : ChunkEmbedding) :
    Ensures (Filled id seq rows) (insertChunkEmbedding e) (fun _ => Filled id seq rows) Failed := by
  refine ensures_get_bind fun s hs => ensures_ite (fun _ => ?_) fun _ => ?_
  · refine ensures_ite (fun _ => ensures_pure fun t ht => ht ▸ hs) fun _ => ?_
    exact ensures_set fun _ _ => ⟨hs.version, hs.chunks, hs.before⟩
  · exact ensures_throw fun _ _ => trivial

theorem Filled.later (s : Store U) (h : Filled id seq rows s) : Filled id (seq + 1) rows s :=
  ⟨h.version, h.chunks, fun r hr => Nat.lt_succ_of_lt (h.before r hr)⟩

theorem storeChunk_fills (raw : List U) :
    Ensures (Filled id seq rows) (svc.storeChunk answers id seq raw)
      (fun _ => Filled id (seq + 1) (rows ++ if svc.skips raw then [] else [(seq, svc.scrub raw)]))
      Failed := by
  unfold Service.storeChunk
  by_cases hskips : svc.skips raw = true
  · rw [if_pos hskips, if_pos hskips, List.append_nil]
    exact ensures_pure Filled.later
  · rw [if_neg hskips, if_neg hskips]
    refine ensures_bind (ensures_attempt_failed _ (insertChunk_fills _ _)) fun chunkId => ?_
    refine ensures_bind (ensures_attempt_failed
      (Q := fun _ => Filled id (seq + 1) (rows ++ [(seq, svc.scrub raw)])) _
      (ensures_pure fun _ h => h)) fun result => ?_
    split
    · exact ensures_bind (ensures_attempt_failed _ (insertChunkEmbedding_fills _)) fun _ =>
        ensures_pure fun _ h => h
    · exact ensures_pure fun _ h => h

theorem storeChunks_fills (persisted : Nat) (raws : List (List U)) :
    Ensures (Filled id seq rows) (svc.storeChunks answers id seq persisted raws)
      (fun _ s => s.chunks.map row = rows ++ rowsFrom svc seq raws) Failed := by
  induction raws generalizing seq rows persisted with
  | nil => exact ensures_pure fun s hs => hs.chunks.trans (List.append_nil rows).symm
  | cons raw raws ih =>
    refine ensures_bind (storeChunk_fills svc answers raw) fun stored => ?_
    refine (ih _).mono (fun _ h => h) fun _ s hs => hs.trans ?_
    rw [rowsFrom, List.append_assoc]
    split
    · rfl
    · rfl

theorem completeIngestionRun_chunks (rows : List (Nat × List U)) (ingestionRunId : Nat)
    (status : RunStatus) :
    Ensures (fun s : Store U => s.chunks.map row = rows)
      (completeIngestionRun ingestionRunId status) (fun _ s => s.chunks.map row = rows) Failed :=
  ensures_get_bind fun _ hs => ensures_set fun _ _ => hs

/-- Neither versions nor chunks. -/
def Empty (s : Store U) : Prop := s.versions = [] ∧ s.chunks = []

theorem ingestSource_fills (request : Request U) (ingestionRunId : Nat) :
    Ensures Empty (svc.ingestSource answers request ingestionRunId)
      (fun _ s => s.chunks.map row = rowsFrom svc 0 (rawChunks request)) Failed := by
  have hsource : Ensures Empty (upsertSource (U := U) request.sourceId) (fun _ => Empty) Failed := by
    refine ensures_get_bind fun s hs => ensures_ite (fun _ => ?_) fun _ => ?_
    · exact ensures_pure fun t ht => ht ▸ hs
    · exact ensures_set fun _ _ => hs
  have hversion : Ensures Empty
      (insertSourceVersion request.sourceId 1 (svc.hash request.content))
      (fun r s => r.1 = true ∧ Filled (U := U) r.2 0 [] s) Failed := by
    refine ensures_get_bind fun s hs => ?_
    rw [hs.1]
    refine ensures_bind (ensures_set fun _ _ => ?_) fun _ => ensures_pure fun t ht => ht
    refine ⟨rfl, ?_, ?_, fun _ h => absurd h List.not_mem_nil⟩
    · simp
    · rw [hs.2]
      rfl
  refine ensures_bind (ensures_attempt_failed _ hsource) fun _ => ?_
  refine ensures_bind (ensures_attempt_failed _ hversion) fun r => ?_
  obtain ⟨inserted, id⟩ := r
  refine ensures_of_pure fun hinserted => ?_
  obtain rfl : inserted = true := hinserted
  refine ensures_bind (storeChunks_fills svc answers 0 (rawChunks request)) fun persisted => ?_
  exact ensures_bind (ensures_attempt_failed _ (completeIngestionRun_chunks _ _ _)) fun _ =>
    ensures_pure fun _ h => h

/-- **A call that returns has stored the pieces that are not skipped, in an empty repository.** -/
theorem ingest_stores {request : Request U} {result : Result} {s : Store U}
    (h : exec (svc.ingest answers request) {} = (.ok result, s)) :
    s.chunks.map row = rowsFrom svc 0 (rawChunks request) := by
  have hstart : Ensures (· = ({} : Store U))
      (startIngestionRun request.sourceId request.idempotencyKey)
      (fun started s => started.isSome = true ∧ Empty s) Failed := by
    rintro _ rfl
    unfold startIngestionRun
    rw [exec_bind, exec_get]
    dsimp only
    rw [List.any_nil, Bool.and_false]
    exact ⟨rfl, rfl, rfl⟩
  have hends : Ensures (· = ({} : Store U)) (svc.ingest answers request)
      (fun _ s => s.chunks.map row = rowsFrom svc 0 (rawChunks request)) Failed := by
    refine ensures_bind (ensures_attempt_failed _ hstart) fun started => ?_
    refine ensures_of_pure fun hstarted => ?_
    cases started with
    | none => cases hstarted
    | some ingestionRunId =>
      refine ensures_tryCatch (ingestSource_fills svc answers request ingestionRunId) fun err => ?_
      refine ensures_bind (ensures_attempt_failed (Q := fun _ _ => True) _ ?_) fun _ =>
        ensures_throw fun _ _ => trivial
      exact fun s _ => by split <;> trivial
  have hfinal := hends {} rfl
  rw [h] at hfinal
  exact hfinal

end

section

variable {U : Type} {svc : Service U}

theorem mem_rowsFrom {seq : Nat} {pieces : List (List U)} {r : Nat × List U}
    (h : r ∈ rowsFrom svc seq pieces) : ∃ k raw, r = (seq + k, svc.scrub raw) ∧
      pieces[k]? = some raw ∧ svc.skips raw = false := by
  induction pieces generalizing seq with
  | nil => cases h
  | cons raw raws ih =>
    have hlater : r ∈ rowsFrom svc (seq + 1) raws → ∃ k raw', r = (seq + k, svc.scrub raw') ∧
        (raw :: raws)[k]? = some raw' ∧ svc.skips raw' = false := by
      intro h
      obtain ⟨k, raw', rfl, hk, hskips⟩ := ih h
      exact ⟨k + 1, raw', by rw [Nat.add_right_comm, Nat.add_assoc], hk, hskips⟩
    rw [rowsFrom] at h
    split at h
    · exact hlater h
    next hskips =>
      rcases List.mem_cons.mp h with rfl | h
      · exact ⟨0, raw, rfl, rfl, by simpa using hskips⟩
      · exact hlater h

theorem mem_rowsFrom_of_getElem? {seq k : Nat} {pieces : List (List U)} {raw : List U}
    (hk : pieces[k]? = some raw) (hskips : svc.skips raw = false) :
    (seq + k, svc.scrub raw) ∈ rowsFrom svc seq pieces := by
  induction pieces generalizing seq k with
  | nil => cases hk
  | cons first raws ih =>
    rw [rowsFrom]
    cases k with
    | zero =>
      obtain rfl : first = raw := Option.some.inj hk
      rw [hskips, if_neg Bool.false_ne_true]
      exact List.mem_cons_self
    | succ k =>
      have hlater : (seq + (k + 1), svc.scrub raw) ∈ rowsFrom svc (seq + 1) raws := by
        have h : (seq + 1 + k, svc.scrub raw) ∈ rowsFrom svc (seq + 1) raws := ih hk
        rwa [Nat.add_right_comm, Nat.add_assoc] at h
      split
      · exact hlater
      · exact List.mem_cons_of_mem _ hlater

variable (svc) in
theorem rowsFrom_pairwise (seq : Nat) (pieces : List (List U)) :
    (rowsFrom svc seq pieces).Pairwise (·.1 < ·.1) := by
  induction pieces generalizing seq with
  | nil => exact .nil
  | cons raw raws ih =>
    rw [rowsFrom]
    split
    · exact ih (seq + 1)
    · refine List.pairwise_cons.mpr ⟨fun r hr => ?_, ih (seq + 1)⟩
      obtain ⟨k, raw', rfl, -, -⟩ := mem_rowsFrom hr
      show seq < seq + 1 + k
      omega

end

theorem rowsFrom_texts (svc : Service UInt16) (seq : Nat) (pieces : List Units) :
    (rowsFrom svc seq pieces).map Prod.snd = kept svc pieces := by
  induction pieces generalizing seq with
  | nil => rfl
  | cons raw raws ih =>
    unfold kept at ih ⊢
    rw [rowsFrom]
    by_cases hskips : svc.skips raw = true
    · rw [if_pos hskips, ih, List.filter_cons_of_neg (by rw [hskips]; decide)]
    · rw [if_neg hskips, List.map_cons, ih, List.filter_cons_of_pos (by simpa using hskips),
        List.map_cons]

/-- The chunks are joined in the order in which they were stored. -/
theorem joined_eq {svc : Service UInt16} {pieces : List Units} {s : Store UInt16}
    (h : s.chunks.map row = rowsFrom svc 0 pieces) : joined s = (kept svc pieces).flatten := by
  have hsorted : s.chunks.Pairwise fun a b => a.seq ≤ b.seq := by
    have hpairwise := rowsFrom_pairwise svc 0 pieces
    rw [← h, List.pairwise_map] at hpairwise
    exact hpairwise.imp fun hlt => hlt.le
  have hsame : (s.chunks.mergeSort fun a b => a.seq ≤ b.seq) = s.chunks :=
    List.mergeSort_of_pairwise (by simpa using hsorted)
  rw [joined, hsame, ← rowsFrom_texts, ← h, List.map_map, List.flatMap_def]
  rfl

/-! ## Places -/

theorem map_put (text : Units) : (put text).map Prod.fst = text := by
  rw [put, List.map_map]
  exact List.map_id text

theorem map_fst_replaceAll {P : Pattern UInt16} {f : List Placed → List Placed} {g : Units → Units}
    (hf : ∀ m, (f m).map Prod.fst = g (m.map Prod.fst)) (text : List Placed) :
    (replaceAll (comap Prod.fst P) f text).map Prod.fst = replaceAll P g (text.map Prod.fst) :=
  map_replaceFrom hf 0 none text

theorem map_fst_ite {n : Nat} (kind : String) (m : List Placed) :
    (if n ≤ digitCount (m.map Prod.fst) then put (mark kind) else m).map Prod.fst =
      if n ≤ digitCount (m.map Prod.fst) then mark kind else m.map Prod.fst := by
  split
  · exact map_put _
  · rfl

/-- **Scrubbing characters with their places scrubs the characters.** -/
theorem map_fst_scrubPlaced (text : List Placed) :
    (scrubPlaced text).map Prod.fst = scrub (text.map Prod.fst) := by
  unfold scrubPlaced scrub
  by_cases hnil : text = []
  · subst hnil
    rfl
  · rw [if_neg hnil, if_neg (by simpa using hnil)]
    dsimp only
    rw [map_fst_replaceAll (g := fun m => if 7 ≤ digitCount m then mark "PHONE" else m)
        (map_fst_ite "PHONE"),
      map_fst_replaceAll (g := fun m => if 13 ≤ digitCount m then mark "CARD" else m)
        (map_fst_ite "CARD"),
      map_fst_replaceAll (g := fun _ => mark "SSN") fun _ => map_put _,
      map_fst_replaceAll (g := fun _ => mark "EMAIL") fun _ => map_put _]

theorem mem_of_mem_replaceAll {P : Pattern Placed} {f : List Placed → List Placed}
    {u : UInt16} {p : Nat} (hf : ∀ m, (u, some p) ∈ f m → (u, some p) ∈ m) {text : List Placed}
    (h : (u, some p) ∈ replaceAll P f text) : (u, some p) ∈ text := by
  rcases mem_replaceFrom h with h | ⟨m, hm, h⟩
  · exact h
  · exact hm _ (hf m h)

theorem not_mem_put {u : UInt16} {p : Nat} (text : Units) : (u, some p) ∉ put text := by
  unfold put
  simp

theorem mem_of_mem_ite {n : Nat} {u : UInt16} {p : Nat} (kind : String) (m : List Placed)
    (h : (u, some p) ∈ if n ≤ digitCount (m.map Prod.fst) then put (mark kind) else m) :
    (u, some p) ∈ m := by
  split at h
  · exact absurd h (not_mem_put _)
  · exact h

/-- A character with a place has not been put in. -/
theorem mem_of_mem_scrubPlaced {u : UInt16} {p : Nat} {text : List Placed}
    (h : (u, some p) ∈ scrubPlaced text) : (u, some p) ∈ text := by
  unfold scrubPlaced at h
  split at h
  · exact h
  · have h₁ := mem_of_mem_replaceAll (mem_of_mem_ite "PHONE") h
    have h₂ := mem_of_mem_replaceAll (mem_of_mem_ite "CARD") h₁
    have h₃ := mem_of_mem_replaceAll (fun _ h => absurd h (not_mem_put _)) h₂
    exact mem_of_mem_replaceAll (fun _ h => absurd h (not_mem_put _)) h₃

theorem map_fst_placed (content : Units) : (placed content).map Prod.fst = content := by
  rw [placed, List.map_map]
  exact List.zipIdx_map_fst 0 content

/-! ## Pieces -/

variable {content : Units} {size : Nat}

theorem chunk_eq (hsize : 0 < size) {α : Type} {k : Nat} {text raw : List α}
    (h : (chunk text size)[k]? = some raw) : raw = (text.drop (k * size)).take size := by
  unfold chunk at h
  split at h
  next hnil =>
    rw [List.isEmpty_iff] at hnil
    subst hnil
    obtain ⟨hlt, rfl⟩ := List.getElem?_eq_some_iff.mp h
    simp
  · rw [toChunks_eq_slices hsize] at h
    exact getElem?_slices h

theorem map_chunk (hsize : 0 < size) (content : Units) :
    chunk content size = (chunk (placed content) size).map (List.map Prod.fst) := by
  unfold chunk
  have hempty : content.isEmpty = (placed content).isEmpty := by
    rw [← List.isEmpty_map (f := Prod.fst) (l := placed content), map_fst_placed]
  rw [← hempty]
  split
  · rw [List.map_singleton, map_fst_placed]
  · rw [toChunks_eq_slices hsize, toChunks_eq_slices hsize, ← map_slices, map_fst_placed]

/-- The places of a piece are those between its borders. -/
theorem place_of_mem {u : UInt16} {p k : Nat}
    (h : (u, some p) ∈ ((placed content).drop (k * size)).take size) :
    k * size ≤ p ∧ p < (k + 1) * size := by
  obtain ⟨i, hi, heq⟩ := List.mem_iff_getElem.mp h
  rw [List.getElem_take, List.getElem_drop] at heq
  simp only [placed, List.getElem_map, List.getElem_zipIdx, Nat.zero_add, Prod.mk.injEq,
    Option.some.injEq] at heq
  rw [List.length_take] at hi
  rw [Nat.succ_mul]
  omega

/-! ## Secrets -/

theorem blind_SK : Blind SK :=
  (blind_one _).seq ((blind_one _).seq ((blind_one _).seq (blind_many _ 20)))

theorem blind_AKIA : Blind AKIA :=
  (blind_one _).seq ((blind_one _).seq ((blind_one _).seq
    ((blind_one _).seq ((blind_one _).times 16))))

/-- What stands inside a slice. -/
theorem slice_of_inside {a n : Nat} {before m : Units} (after : Units)
    (hstart : a ≤ before.length) (hend : before.length + m.length ≤ a + n) :
    ∃ x y, ((before ++ (m ++ after)).drop a).take n = x ++ (m ++ y) := by
  refine ⟨before.drop a, after.take (n - (before.drop a).length - m.length), ?_⟩
  rw [List.drop_append_of_le_length hstart, List.take_append, List.take_append,
    List.take_of_length_le (by rw [List.length_drop]; omega),
    List.take_of_length_le (by rw [List.length_drop]; omega)]

/-- **A piece that has all of a secret is skipped.** -/
theorem skips_of_inside (hash : Units → String) {i j a : Nat} (hsecret : Secret content i j)
    (hstart : a ≤ i) (hend : j ≤ a + size) :
    (worker hash).skips ((content.drop a).take size) = true := by
  obtain ⟨before, m, after, rfl, rfl, rfl, hmatch⟩ := hsecret
  obtain ⟨x, y, hslice⟩ := slice_of_inside after hstart hend
  have hfound : containsSecret (x ++ (m ++ y)) = true := by
    unfold containsSecret
    rw [Bool.or_eq_true, test_iff, test_iff]
    refine hmatch.imp (fun h => ⟨x, m, y, rfl, ?_⟩) fun h => ⟨x, m, y, rfl, ?_⟩
    · exact blind_SK _ _ _ _ _ h
    · exact blind_AKIA _ _ _ _ _ h
  rw [hslice]
  unfold Service.skips worker
  simp [hfound]

theorem secrets_iff (hash : Units → String) (hsize : 0 < size) {s : Store UInt16}
    (h : s.chunks.map row = rowsFrom (worker hash) 0 (chunk content size)) :
    (∀ c ∈ s.chunks, ∀ i j, Secret content i j →
      ∀ u p, (u, some p) ∈ provenance content size c.seq → ¬(i ≤ p ∧ p < j)) ↔
    ∀ i j, Secret content i j → Cut size i j →
      ∀ raw ∈ chunk (placed content) size, (worker hash).skips (raw.map Prod.fst) = false →
        ∀ u p, (u, some p) ∈ scrubPlaced raw → ¬(i ≤ p ∧ p < j) := by
  constructor
  · intro hsafe i j hsecret _ raw hraw hskips u p hp
    obtain ⟨k, hk⟩ := List.getElem?_of_mem hraw
    have hpiece : (chunk content size)[k]? = some (raw.map Prod.fst) := by
      rw [map_chunk hsize, List.getElem?_map, hk]
      rfl
    have hrow : (0 + k, scrub (raw.map Prod.fst)) ∈ rowsFrom (worker hash) 0 (chunk content size) :=
      mem_rowsFrom_of_getElem? hpiece hskips
    rw [← h] at hrow
    obtain ⟨c, hc, hseq⟩ := List.mem_map.mp hrow
    have hcseq : c.seq = k := by
      have := congrArg Prod.fst hseq
      simpa [row] using this
    refine hsafe c hc i j hsecret u p ?_
    rw [provenance, hcseq, hk]
    exact hp
  · rintro hcontained c hc i j hsecret u p hp ⟨hip, hpj⟩
    obtain ⟨k, piece, hrow, hpiece, hskips⟩ := mem_rowsFrom (h ▸ List.mem_map_of_mem hc)
    have hcseq : c.seq = k := by
      have := congrArg Prod.fst hrow
      simpa [row] using this
    rw [map_chunk hsize, List.getElem?_map, Option.map_eq_some_iff] at hpiece
    obtain ⟨raw, hraw, rfl⟩ := hpiece
    rw [provenance, hcseq, hraw, Option.getD_some] at hp
    by_cases hcut : Cut size i j
    · exact hcontained i j hsecret hcut raw (List.mem_of_getElem? hraw) hskips u p hp ⟨hip, hpj⟩
    · -- the piece of the character has all of the secret
      have hraw := chunk_eq hsize hraw
      have hplace := place_of_mem (hraw ▸ mem_of_mem_scrubPlaced hp)
      have hstart : k * size ≤ i := by
        by_contra hlt
        exact hcut ⟨k, by omega, by omega⟩
      have hend : j ≤ k * size + size := by
        by_contra hlt
        exact hcut ⟨k + 1, by omega, by rw [Nat.succ_mul]; omega⟩
      rw [hraw, List.map_take, List.map_drop, map_fst_placed,
        skips_of_inside hash hsecret hstart hend] at hskips
      cases hskips

/-! ## Addresses -/

/-- A scrubbed text shows no address. -/
theorem not_infix_scrub {m : Units} (haddress : Address content m) (raw : Units) :
    ¬m <:+: scrub raw := by
  rintro ⟨before, after, heq⟩
  obtain ⟨_, _, _, hmatch⟩ := haddress
  obtain ⟨-, habsent, -⟩ := PiiScrubber.scrub_complete raw
  rw [List.append_assoc] at heq
  exact habsent before m after heq.symm (PiiScrubber.blind_EMAIL _ _ _ _ _ hmatch) trivial

theorem addresses_iff (hash : Units → String) {s : Store UInt16}
    (h : s.chunks.map row = rowsFrom (worker hash) 0 (chunk content size)) :
    (∀ m, Address content m → ¬m <:+: joined s) ↔
    ∀ m, Address content m →
      ∀ left right x y, kept (worker hash) (chunk content size) = left ++ right → m = x ++ y →
        x ≠ [] → y ≠ [] → ¬(x <:+ left.flatten ∧ y <+: right.flatten) := by
  rw [joined_eq h]
  refine forall₂_congr fun m haddress => ?_
  have hne : m ≠ [] := by
    obtain ⟨_, _, _, hmatch⟩ := haddress
    exact PiiScrubber.atLeast_EMAIL.ne_nil hmatch
  rw [infix_flatten_iff hne]
  constructor
  · rintro hnone left right x y heq hm hx hy ⟨hleft, hright⟩
    exact hnone (.inr ⟨left, right, x, y, heq, hm, hx, hy, hleft, hright⟩)
  · rintro hborder (⟨text, htext, hin⟩ | ⟨left, right, x, y, heq, hm, hx, hy, hleft, hright⟩)
    · obtain ⟨raw, -, rfl⟩ := List.mem_map.mp htext
      exact not_infix_scrub haddress raw hin
    · exact hborder left right x y heq hm hx hy ⟨hleft, hright⟩

/-- **After a call on an empty repository, the chunks show no secret and no address of the content
iff none shows across a border.** -/
theorem safe_iff (hash : Units → String) (answers : Answers) (request : Request UInt16)
    (hsize : 0 < chunkSize request) {result : Result} {s : Store UInt16}
    (h : exec ((worker hash).ingest answers request) {} = (.ok result, s)) :
    Safe request.content (chunkSize request) s ↔
      Contained (worker hash) request.content (chunkSize request) := by
  have hrows := ingest_stores (worker hash) answers h
  constructor
  · rintro ⟨hsecrets, haddresses⟩
    exact ⟨(secrets_iff hash hsize hrows).mp hsecrets, (addresses_iff hash hrows).mp haddresses⟩
  · rintro ⟨hsecrets, haddresses⟩
    exact ⟨(secrets_iff hash hsize hrows).mpr hsecrets, (addresses_iff hash hrows).mpr haddresses⟩

/-! ## A secret and an address that a border cuts -/

def split (content : String) (size : Nat) : Request UInt16 where
  sourceId := "handbook"
  content := units content
  chunkSize := some size

def answering : Answers where
  embedding _ := ⟨"profile", [[1]]⟩

def hashless (_ : Units) : String := ""

/-- The call, and the store that it leaves. -/
def after (request : Request UInt16) : Except IngestError Result × Store UInt16 :=
  exec ((worker hashless).ingest answering request) {}

def key : String := "sk-aaaaaaaaaaaaaaaaaaaa"

def address : String := "ann@acme.test"

theorem eq_of_fst {A B : Type} {r : A × B} {a : A} (h : r.1 = a) : r = (a, r.2) := by
  rw [← h]

theorem after_key : after (split key 12) = (.ok ⟨.completed, 2, false⟩, (after (split key 12)).2) :=
  eq_of_fst (eq_ok_of_toOption (by decide +kernel))

theorem after_address :
    after (split address 8) = (.ok ⟨.completed, 2, false⟩, (after (split address 8)).2) :=
  eq_of_fst (eq_ok_of_toOption (by decide +kernel))

theorem safe_sample :
    Safe (units key) 12 (after (split key 12)).2 ↔ Contained (worker hashless) (units key) 12 :=
  safe_iff hashless answering (split key 12) (by decide) after_key

theorem secret_key : Secret (units key) 0 23 :=
  ⟨[], units key, [], rfl, rfl, rfl, .inl ⟨units "s", _, rfl, ⟨_, rfl, rfl⟩, units "k", _, rfl,
    ⟨_, rfl, rfl⟩, units "-", _, rfl, ⟨_, rfl, rfl⟩, by decide, List.all_eq_true.mp (by decide)⟩⟩

theorem address_address : Address (units address) (units address) :=
  ⟨[], [], rfl, units "ann", _, rfl, ⟨by decide, List.all_eq_true.mp (by decide)⟩, units "@", _, rfl,
    ⟨_, rfl, rfl⟩, units "acme", _, rfl, ⟨by decide, List.all_eq_true.mp (by decide)⟩, units ".", _,
    rfl, ⟨_, rfl, rfl⟩, by decide, List.all_eq_true.mp (by decide)⟩

/-- **A border that cuts a secret or an address lets it through.** -/
theorem not_safe_sample :
    ¬Safe (units key) 12 (after (split key 12)).2 ∧
      ¬Safe (units address) 8 (after (split address 8)).2 := by
  constructor
  · intro h
    have hrows : (after (split key 12)).2.chunks.map row =
        [(0, units "sk-aaaaaaaaa"), (1, units "aaaaaaaaaaa")] := by decide +kernel
    have hrow : (0, units "sk-aaaaaaaaa") ∈ (after (split key 12)).2.chunks.map row := by
      rw [hrows]
      exact List.mem_cons_self
    obtain ⟨c, hc, hseq⟩ := List.mem_map.mp hrow
    have hplace : (PiiScrubber.unit 's', some 0) ∈ provenance (units key) 12 0 := by
      decide +kernel
    have hcseq : c.seq = 0 := congrArg Prod.fst hseq
    refine h.secrets c hc 0 23 secret_key (PiiScrubber.unit 's') 0 ?_ ⟨by decide, by decide⟩
    rw [hcseq]
    exact hplace
  · intro h
    have hrows := ingest_stores (worker hashless) answering after_address
    have hjoined := joined_eq hrows
    have htext : (kept (worker hashless) (rawChunks (split address 8))).flatten =
        units address := by decide
    exact h.addresses _ address_address (hjoined.trans htext ▸ List.infix_rfl)

end VegaRevenue.Knowledge.ChunkSecrets
