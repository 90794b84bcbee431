import Mathlib.Data.List.Lex
import Mathlib.Data.Prod.Lex
import VegaRevenue.AiRuntime.ContextAssembler
import VegaRevenue.Lib.JoinedText
import VegaRevenue.Lib.RankFusion
import VegaRevenue.Shared.Json

/-!
# Ranked retrieval

`DurableMemoryRetriever` and `DurableKnowledgeRetriever` fuse what the vector search and the text
search rank, and return the first entries.

* `fuse_exact` — what is fused, and in which order
* `not_order_independent` — where the two searches tell one entry differently, the first is returned
-/

namespace VegaRevenue.AiRuntime.RankedRetrieval

open ContextAssembler (Units units)
open RankFusion

/-- The code units of a string as numbers, which `<` on strings compares. -/
def codes (s : Units) : List Nat := s.map UInt16.toNat

theorem codes_injective : Function.Injective codes :=
  List.map_injective_iff.mpr fun _ _ => UInt16.toNat_inj.mp

/-- `Array.from(channels).sort().join('+')`. -/
def label (channels : List String) : String :=
  "+".intercalate (channels.insertionSort fun a b => codes (units a) ≤ codes (units b))

/-- `slice(0, limit)`. -/
def sliceTo {α : Type} (limit : Int) (l : List α) : List α :=
  l.take (if 0 ≤ limit then limit else l.length + limit).toNat

/-! ## Memory -/

namespace Memory

structure RankedMemoryCandidate where
  memoryId : Units
  version : Nat
  score : Rat
  content : String
  type : String
  workspaceId : Option String
  provenance : Json

structure FusedMemory extends RankedMemoryCandidate where
  channel : String

structure MemoryEntry where
  memoryId : Units
  type : String
  content : String
  relevance : Rat
  channel : String

/-- The key of the map: the id, `#` and the version. -/
def mapKey (c : RankedMemoryCandidate) : Units := c.memoryId ++ 0x23 :: units (toString c.version)

def withScore (c : RankedMemoryCandidate) (score : Rat) (channel : String) : FusedMemory :=
  { c with score, channel }

/-- The comparison that `fuse` sorts by. -/
def compareFused (a b : FusedMemory) : Rat :=
  if b.score ≠ a.score then b.score - a.score
  else if a.memoryId ≠ b.memoryId then (if codes a.memoryId < codes b.memoryId then -1 else 1)
  else a.version - b.version

def fuse (rrfK : Rat) (channels : List (Channel RankedMemoryCandidate)) : List FusedMemory :=
  ((merge mapKey rrfK channels).map fun e =>
    withScore e.candidate e.score (label e.channels)).insertionSort fun a b => compareFused a b ≤ 0

/-- `retrieve`, from what the two searches return. -/
def retrieve (rrfK : Rat) (resultLimit : Int)
    (vectorCandidates ftsCandidates : List RankedMemoryCandidate) : List MemoryEntry :=
  (sliceTo resultLimit
    (fuse rrfK [⟨"vector", vectorCandidates⟩, ⟨"fts", ftsCandidates⟩])).map fun c =>
      ⟨c.memoryId, c.type, c.content, c.score, c.channel⟩

end Memory

/-! ## Knowledge -/

namespace Knowledge

structure RankedKnowledgeCandidate where
  chunkId : Units
  sourceId : String
  content : String
  score : Rat
  sensitivity : String
  provenance : Json

structure FusedKnowledge extends RankedKnowledgeCandidate where
  channel : String

structure KnowledgeEntry where
  knowledgeId : Units
  domain : Option String
  content : String
  relevance : Rat
  channel : String

def withScore (c : RankedKnowledgeCandidate) (score : Rat) (channel : String) : FusedKnowledge :=
  { c with score, channel }

/-- The comparison that `fuse` sorts by. -/
def compareFused (a b : FusedKnowledge) : Rat :=
  if b.score ≠ a.score then b.score - a.score
  else if codes a.chunkId < codes b.chunkId then -1 else 1

def fuse (rrfK : Rat) (channels : List (Channel RankedKnowledgeCandidate)) : List FusedKnowledge :=
  ((merge RankedKnowledgeCandidate.chunkId rrfK channels).map fun e =>
    withScore e.candidate e.score (label e.channels)).insertionSort fun a b => compareFused a b ≤ 0

/-- `retrieve`, from what the two searches return. -/
def retrieve (rrfK : Rat) (resultLimit : Int) (domain : Option String)
    (vectorCandidates ftsCandidates : List RankedKnowledgeCandidate) : List KnowledgeEntry :=
  (sliceTo resultLimit
    (fuse rrfK [⟨"vector", vectorCandidates⟩, ⟨"fts", ftsCandidates⟩])).map fun c =>
      ⟨c.chunkId, domain, c.content, c.score, c.channel⟩

end Knowledge

/-! ## What is promised -/

/-- How a retriever tells candidates apart and orders them, and what it makes of them. -/
structure Retriever (C F κ : Type) where
  keyOf : C → κ
  /-- `{ ...candidate, score, channel }`. -/
  withScore : C → Rat → String → F
  key : F → κ
  score : F → Rat
  channel : F → String
  fuse : Rat → List (Channel C) → List F

namespace Retriever

variable {C F κ : Type} [LinearOrder κ] (r : Retriever C F κ)

def fuseBoth (k : Rat) (vector fts : List C) : List F := r.fuse k [⟨"vector", vector⟩, ⟨"fts", fts⟩]

/-- The searches that have the key. -/
def labelOf (vector fts : List C) (key : κ) : String :=
  if key ∈ vector.map r.keyOf then (if key ∈ fts.map r.keyOf then "fts+vector" else "vector")
  else "fts"

/-- Candidates that both lists have differ in their own scores only. -/
def Agree (vector fts : List C) : Prop :=
  ∀ a ∈ vector, ∀ b ∈ fts, r.keyOf a = r.keyOf b → r.withScore a = r.withScore b

/-- One of the lists has `key` moved up. -/
def PromotedIn (key : κ) (vector fts vector' fts' : List C) : Prop :=
  Promoted key (vector.map r.keyOf) (vector'.map r.keyOf) ∧ fts' = fts ∨
    vector' = vector ∧ Promoted key (fts.map r.keyOf) (fts'.map r.keyOf)

/-- What `fuse` makes of two ranked lists. -/
structure Exact (k : Rat) (vector fts : List C) : Prop where
  nodup : ((r.fuseBoth k vector fts).map r.key).Nodup
  mem_iff : ∀ key, key ∈ (r.fuseBoth k vector fts).map r.key ↔
    key ∈ vector.map r.keyOf ∨ key ∈ fts.map r.keyOf
  /-- The candidate is that of the list passed first. -/
  entry : ∀ f ∈ r.fuseBoth k vector fts, ∃ c,
    (vector ++ fts).find? (r.keyOf · = r.key f) = some c ∧
      f = r.withScore c (r.score f) (r.channel f)
  score_eq : ∀ f ∈ r.fuseBoth k vector fts, r.score f =
    contribution r.keyOf k (r.key f) vector + contribution r.keyOf k (r.key f) fts
  channel_eq : ∀ f ∈ r.fuseBoth k vector fts, r.channel f = r.labelOf vector fts (r.key f)
  ordered : (r.fuseBoth k vector fts).Pairwise fun f g =>
    r.score g < r.score f ∨ r.score f = r.score g ∧ r.key f < r.key g
  swapped : (r.fuse k [⟨"fts", fts⟩, ⟨"vector", vector⟩]).map
      (fun f => (r.key f, r.score f, r.channel f)) =
    (r.fuseBoth k vector fts).map fun f => (r.key f, r.score f, r.channel f)
  swapped_eq : r.Agree vector fts →
    r.fuse k [⟨"fts", fts⟩, ⟨"vector", vector⟩] = r.fuseBoth k vector fts
  promoted : ∀ key vector' fts', r.PromotedIn key vector fts vector' fts' →
    ((r.fuseBoth k vector' fts').map r.key).idxOf key ≤
      ((r.fuseBoth k vector fts).map r.key).idxOf key
  /-- So it stays among the first `limit`. -/
  kept : ∀ (limit : Int) key vector' fts', r.PromotedIn key vector fts vector' fts' →
    key ∈ (sliceTo limit (r.fuseBoth k vector fts)).map r.key →
      key ∈ (sliceTo limit (r.fuseBoth k vector' fts')).map r.key

/-- The retriever sorts what is merged by score, then key, and keeps the rest of a candidate. -/
structure Lawful : Prop where
  key_withScore : ∀ c score channel, r.key (r.withScore c score channel) = r.keyOf c
  score_withScore : ∀ c score channel, r.score (r.withScore c score channel) = score
  channel_withScore : ∀ c score channel, r.channel (r.withScore c score channel) = channel
  fuse_eq : ∀ k channels, r.fuse k channels =
    (RankFusion.fuse r.keyOf k channels).map fun e =>
      r.withScore e.candidate e.score (label e.channels)

end Retriever

/-! ## The law -/

theorem label_vector : label ["vector"] = "vector" := by decide

theorem label_fts : label ["fts"] = "fts" := by decide

theorem label_both : label ["vector", "fts"] = "fts+vector" := by decide

theorem label_swapped : label ["fts", "vector"] = "fts+vector" := by decide

/-- Lists of the same keys are the same where a key tells the element. -/
theorem eq_of_map_eq {α β : Type} {key : α → β} {l m : List α} (hkeys : l.map key = m.map key)
    (h : ∀ a ∈ l, ∀ b ∈ m, key a = key b → a = b) : l = m := by
  induction l generalizing m with
  | nil => exact (List.map_eq_nil_iff.mp hkeys.symm).symm
  | cons a l ih =>
    cases m with
    | nil => cases hkeys
    | cons b m =>
      obtain ⟨hkey, hrest⟩ := List.cons.inj hkeys
      obtain rfl := h a List.mem_cons_self b List.mem_cons_self hkey
      rw [ih hrest fun c hc d hd => h c (List.mem_cons_of_mem _ hc) d (List.mem_cons_of_mem _ hd)]

namespace Retriever.Lawful

variable {C F κ : Type} [LinearOrder κ] {r : Retriever C F κ} {k : Rat} {vector fts : List C}

section

variable (h : r.Lawful) (k) (channels : List (Channel C))

include h

theorem map_key : (r.fuse k channels).map r.key = keys r.keyOf (RankFusion.fuse r.keyOf k channels) := by
  rw [h.fuse_eq, List.map_map]
  exact List.map_congr_left fun e _ => h.key_withScore _ _ _

theorem of_mem (hnames : (channels.map (·.name)).Nodup)
    (hn : ∀ channel ∈ channels, (channel.candidates.map r.keyOf).Nodup) {f : F}
    (hf : f ∈ r.fuse k channels) :
    ∃ c, candidate r.keyOf (r.key f) (channels.flatMap (·.candidates)) = some c ∧
      f = r.withScore c (r.score f) (r.channel f) ∧
      r.score f = RankFusion.score r.keyOf k channels (r.key f) ∧
      r.channel f = label (namesOf r.keyOf channels (r.key f)) := by
  rw [h.fuse_eq, List.mem_map] at hf
  obtain ⟨e, he, rfl⟩ := hf
  obtain ⟨hcandidate, hscore, hchannels⟩ := of_mem_merge hnames hn (mem_fuse.mp he)
  rw [h.key_withScore, h.score_withScore, h.channel_withScore]
  exact ⟨e.candidate, hcandidate, rfl, hscore, congrArg label hchannels⟩

end

variable (h : r.Lawful)

theorem namesOf_pair (name name' : String) (l m : List C) (key : κ) :
    namesOf r.keyOf [⟨name, l⟩, ⟨name', m⟩] key =
      (if key ∈ l.map r.keyOf then [name] else []) ++
        if key ∈ m.map r.keyOf then [name'] else [] := by
  have hsecond : namesOf r.keyOf ([⟨name, l⟩] ++ [⟨name', m⟩]) key = _ := namesOf_concat _ _ key
  have hfirst : namesOf r.keyOf ([] ++ [⟨name, l⟩]) key = _ := namesOf_concat _ _ key
  exact hsecond.trans (congrArg (· ++ _) hfirst)

theorem score_pair (name name' : String) (l m : List C) (key : κ) :
    RankFusion.score r.keyOf k [⟨name, l⟩, ⟨name', m⟩] key =
      contribution r.keyOf k key l + contribution r.keyOf k key m := by
  simp [RankFusion.score]

/-- The label in either order of the lists. -/
theorem label_pair {key : κ} (hkey : key ∈ vector.map r.keyOf ∨ key ∈ fts.map r.keyOf) :
    label (namesOf r.keyOf [⟨"vector", vector⟩, ⟨"fts", fts⟩] key) = r.labelOf vector fts key ∧
    label (namesOf r.keyOf [⟨"fts", fts⟩, ⟨"vector", vector⟩] key) = r.labelOf vector fts key := by
  rw [namesOf_pair, namesOf_pair, Retriever.labelOf]
  by_cases hv : key ∈ vector.map r.keyOf
  · by_cases hf : key ∈ fts.map r.keyOf
    · rw [if_pos hv, if_pos hf, if_pos hv, if_pos hf]
      exact ⟨label_both, label_swapped⟩
    · rw [if_pos hv, if_neg hf, if_pos hv, if_neg hf]
      exact ⟨label_vector, label_vector⟩
  · have hf := hkey.resolve_left hv
    rw [if_neg hv, if_pos hf, if_neg hv]
    exact ⟨label_fts, label_fts⟩

end Retriever.Lawful

/-- An element is among the first ones iff it stands there. -/
theorem mem_map_sliceTo {α β : Type} [DecidableEq β] {limit : Int} {l : List α} {f : α → β} {b : β}
    (hb : b ∈ l.map f) :
    b ∈ (sliceTo limit l).map f ↔
      (l.map f).idxOf b < (if 0 ≤ limit then limit else (l.map f).length + limit).toNat := by
  unfold sliceTo
  rw [List.map_take, List.mem_take_iff_idxOf_lt hb, List.length_map]

namespace Retriever.Lawful

variable {C F κ : Type} [LinearOrder κ] {r : Retriever C F κ} {k : Rat} {vector fts : List C}

/-- The two lists under their names. -/
abbrev pair (vector fts : List C) : List (Channel C) := [⟨"vector", vector⟩, ⟨"fts", fts⟩]

theorem names_pair (vector fts : List C) : ((pair vector fts).map (·.name)).Nodup := by simp

omit [LinearOrder κ] in
theorem nodup_pair (hvector : (vector.map r.keyOf).Nodup) (hfts : (fts.map r.keyOf).Nodup) :
    ∀ channel ∈ pair vector fts, (channel.candidates.map r.keyOf).Nodup := by
  simp [hvector, hfts]

theorem swap_perm (vector fts : List C) :
    (pair vector fts).Perm [⟨"fts", fts⟩, ⟨"vector", vector⟩] := List.Perm.swap _ _ _

theorem candidate_pair (key : κ) : candidate r.keyOf key ((pair vector fts).flatMap (·.candidates)) =
    (vector ++ fts).find? (r.keyOf · = key) := by
  unfold candidate
  rw [List.flatMap_cons, List.flatMap_singleton]

theorem candidate_swapped (key : κ) : candidate r.keyOf key
    ([Channel.mk "fts" fts, ⟨"vector", vector⟩].flatMap (·.candidates)) =
      (fts ++ vector).find? (r.keyOf · = key) := by
  unfold candidate
  rw [List.flatMap_cons, List.flatMap_singleton]

section

variable {key : κ} {vector' fts' : List C}

omit [LinearOrder κ] in
theorem promotedIn_mem (hp : r.PromotedIn key vector fts vector' fts') :
    key ∈ vector.map r.keyOf ∨ key ∈ fts.map r.keyOf := by
  rcases hp with ⟨⟨p, q, t, hv, -⟩, -⟩ | ⟨-, p, q, t, hf, -⟩
  · left
    rw [hv]
    exact List.mem_append_right _ List.mem_cons_self
  · right
    rw [hf]
    exact List.mem_append_right _ List.mem_cons_self

omit [LinearOrder κ] in
theorem promotedIn_lifted (hp : r.PromotedIn key vector fts vector' fts') :
    List.Forall₂ (Lifted r.keyOf key) (pair vector fts) (pair vector' fts') := by
  rcases hp with ⟨hv, rfl⟩ | ⟨rfl, hf⟩
  · exact .cons ⟨rfl, .inr hv⟩ (.cons ⟨rfl, .inl rfl⟩ .nil)
  · exact .cons ⟨rfl, .inl rfl⟩ (.cons ⟨rfl, .inr hf⟩ .nil)

end

section

variable (h : r.Lawful)

include h

theorem nodup_keys_pair (k : Rat) (vector fts : List C) :
    ((r.fuseBoth k vector fts).map r.key).Nodup := by
  rw [Retriever.fuseBoth, h.map_key]
  exact nodup_keys_fuse _

/-- A promotion leaves the keys that are fused. -/
theorem promoted_perm {key : κ} {vector' fts' : List C}
    (hp : r.PromotedIn key vector fts vector' fts') :
    ((r.fuseBoth k vector' fts').map r.key).Perm ((r.fuseBoth k vector fts).map r.key) := by
  refine (List.perm_ext_iff_of_nodup (h.nodup_keys_pair _ _ _) (h.nodup_keys_pair _ _ _)).mpr
    fun x => ?_
  rw [Retriever.fuseBoth, Retriever.fuseBoth, h.map_key, h.map_key, mem_keys_fuse, mem_keys_fuse,
    lifted_mem (promotedIn_lifted hp) x]

theorem mem_pair (key : κ) : key ∈ (r.fuseBoth k vector fts).map r.key ↔
    key ∈ vector.map r.keyOf ∨ key ∈ fts.map r.keyOf := by
  rw [Retriever.fuseBoth, h.map_key, mem_keys_fuse]
  simp

variable (hvector : (vector.map r.keyOf).Nodup) (hfts : (fts.map r.keyOf).Nodup)

include hvector hfts

theorem keys_swapped : (r.fuse k [⟨"fts", fts⟩, ⟨"vector", vector⟩]).map r.key =
    (r.fuseBoth k vector fts).map r.key := by
  rw [Retriever.fuseBoth, h.map_key, h.map_key]
  exact keys_fuse_eq_of_perm (names_pair _ _) (nodup_pair hvector hfts) (swap_perm _ _)

/-- What an element of the fused list is. -/
theorem pair_of_mem {f : F} (hf : f ∈ r.fuseBoth k vector fts) :
    ∃ c, (vector ++ fts).find? (r.keyOf · = r.key f) = some c ∧
      f = r.withScore c (r.score f) (r.channel f) ∧
      r.score f = contribution r.keyOf k (r.key f) vector + contribution r.keyOf k (r.key f) fts ∧
      r.channel f = r.labelOf vector fts (r.key f) := by
  obtain ⟨c, hc, hf', hscore, hchannel⟩ :=
    h.of_mem k _ (names_pair vector fts) (nodup_pair hvector hfts) hf
  have hkey := (h.mem_pair (r.key f)).mp (List.mem_map_of_mem hf)
  refine ⟨c, candidate_pair (r.key f) ▸ hc, hf', ?_, ?_⟩
  · rw [hscore, score_pair]
  · rw [hchannel, (label_pair hkey).1]

theorem swapped_of_mem {f : F} (hf : f ∈ r.fuse k [⟨"fts", fts⟩, ⟨"vector", vector⟩]) :
    ∃ c, (fts ++ vector).find? (r.keyOf · = r.key f) = some c ∧
      f = r.withScore c (r.score f) (r.channel f) ∧
      r.score f = contribution r.keyOf k (r.key f) vector + contribution r.keyOf k (r.key f) fts ∧
      r.channel f = r.labelOf vector fts (r.key f) := by
  have hnames : ([Channel.mk "fts" fts, ⟨"vector", vector⟩].map (·.name)).Nodup := by simp
  have hn : ∀ channel ∈ [Channel.mk "fts" fts, ⟨"vector", vector⟩],
      (channel.candidates.map r.keyOf).Nodup := by simp [hvector, hfts]
  obtain ⟨c, hc, hf', hscore, hchannel⟩ := h.of_mem k _ hnames hn hf
  have hkey := (h.mem_pair (r.key f)).mp
    (h.keys_swapped hvector hfts (k := k) ▸ List.mem_map_of_mem hf)
  refine ⟨c, candidate_swapped (r.key f) ▸ hc, hf', ?_, ?_⟩
  · rw [hscore, score_pair, add_comm]
  · rw [hchannel, (label_pair hkey).2]

theorem pair_ordered : (r.fuseBoth k vector fts).Pairwise fun f g =>
    r.score g < r.score f ∨ r.score f = r.score g ∧ r.key f < r.key g := by
  have hkeys := keys_fuse_pairwise (k := k) (names_pair vector fts) (nodup_pair hvector hfts)
  rw [← h.map_key, List.pairwise_map] at hkeys
  refine hkeys.imp_of_mem fun {f g} hf hg hbefore => ?_
  obtain ⟨-, -, -, hsf, -⟩ := h.pair_of_mem hvector hfts hf
  obtain ⟨-, -, -, hsg, -⟩ := h.pair_of_mem hvector hfts hg
  rw [hsf, hsg, ← score_pair "vector" "fts", ← score_pair "vector" "fts"]
  exact hbefore

theorem pair_swapped : (r.fuse k [⟨"fts", fts⟩, ⟨"vector", vector⟩]).map
      (fun f => (r.key f, r.score f, r.channel f)) =
    (r.fuseBoth k vector fts).map fun f => (r.key f, r.score f, r.channel f) := by
  refine eq_of_map_eq (show List.map Prod.fst _ = List.map Prod.fst _ from ?_) ?_
  · rw [List.map_map, List.map_map]
    exact h.keys_swapped hvector hfts
  · intro a ha b hb hkey
    obtain ⟨f, hf, rfl⟩ := List.mem_map.mp ha
    obtain ⟨g, hg, rfl⟩ := List.mem_map.mp hb
    obtain ⟨-, -, -, hsf, hcf⟩ := h.swapped_of_mem hvector hfts hf
    obtain ⟨-, -, -, hsg, hcg⟩ := h.pair_of_mem hvector hfts hg
    have hkey : r.key f = r.key g := hkey
    rw [hsf, hcf, hsg, hcg, hkey]

theorem pair_swapped_eq (hagree : r.Agree vector fts) :
    r.fuse k [⟨"fts", fts⟩, ⟨"vector", vector⟩] = r.fuseBoth k vector fts := by
  refine eq_of_map_eq (h.keys_swapped hvector hfts) fun f hf g hg hkey => ?_
  obtain ⟨c, hc, hf', hsf, hcf⟩ := h.swapped_of_mem hvector hfts hf
  obtain ⟨d, hd, hg', hsg, hcg⟩ := h.pair_of_mem hvector hfts hg
  rw [hf', hg', hsf, hcf, hsg, hcg, hkey]
  rw [hkey, List.find?_append] at hc
  rw [List.find?_append] at hd
  suffices hsame : r.withScore c = r.withScore d by rw [hsame]
  cases hv : vector.find? (r.keyOf · = r.key g) with
  | none =>
    rw [hv, Option.none_or] at hd
    rw [hv, hd, Option.some_or] at hc
    rw [Option.some.inj hc]
  | some a =>
    rw [hv, Option.some_or] at hd
    obtain rfl := Option.some.inj hd
    cases hb : fts.find? (r.keyOf · = r.key g) with
    | none =>
      rw [hv, hb, Option.none_or] at hc
      rw [Option.some.inj hc]
    | some b =>
      rw [hb, Option.some_or] at hc
      obtain rfl := Option.some.inj hc
      -- both lists have the entry
      have hka := List.find?_some hv
      have hkb := List.find?_some hb
      rw [decide_eq_true_iff] at hka hkb
      exact (hagree a (List.mem_of_find?_eq_some hv) b (List.mem_of_find?_eq_some hb)
        (hka.trans hkb.symm)).symm

theorem pair_promoted (hk : 0 < k) {key : κ} {vector' fts' : List C}
    (hp : r.PromotedIn key vector fts vector' fts') :
    ((r.fuseBoth k vector' fts').map r.key).idxOf key ≤
      ((r.fuseBoth k vector fts).map r.key).idxOf key := by
  have hkey := (h.mem_pair (k := k) key).mpr (promotedIn_mem hp)
  rw [Retriever.fuseBoth, Retriever.fuseBoth, h.map_key, h.map_key]
  rw [Retriever.fuseBoth, h.map_key] at hkey
  exact idxOf_fuse_le hk (names_pair _ _) (nodup_pair hvector hfts) (promotedIn_lifted hp) hkey

theorem pair_kept (hk : 0 < k) (limit : Int) {key : κ} {vector' fts' : List C}
    (hp : r.PromotedIn key vector fts vector' fts')
    (hkept : key ∈ (sliceTo limit (r.fuseBoth k vector fts)).map r.key) :
    key ∈ (sliceTo limit (r.fuseBoth k vector' fts')).map r.key := by
  have hperm := h.promoted_perm (k := k) hp
  have hkey := (h.mem_pair (k := k) key).mpr (promotedIn_mem hp)
  rw [mem_map_sliceTo hkey] at hkept
  rw [mem_map_sliceTo (hperm.mem_iff.mpr hkey), hperm.length_eq]
  exact Nat.lt_of_le_of_lt (h.pair_promoted hvector hfts hk hp) hkept

/-- **The fused list is exact.** -/
theorem exact_of_nodup (hk : 0 < k) : r.Exact k vector fts where
  nodup := h.nodup_keys_pair k vector fts
  mem_iff := h.mem_pair
  entry f hf := by
    obtain ⟨c, hc, hf', -, -⟩ := h.pair_of_mem hvector hfts hf
    exact ⟨c, hc, hf'⟩
  score_eq f hf := by
    obtain ⟨-, -, -, hscore, -⟩ := h.pair_of_mem hvector hfts hf
    exact hscore
  channel_eq f hf := by
    obtain ⟨-, -, -, -, hchannel⟩ := h.pair_of_mem hvector hfts hf
    exact hchannel
  ordered := h.pair_ordered hvector hfts
  swapped := h.pair_swapped hvector hfts
  swapped_eq := h.pair_swapped_eq hvector hfts
  promoted _ _ _ hp := h.pair_promoted hvector hfts hk hp
  kept limit _ _ _ hp := h.pair_kept hvector hfts hk limit hp

end

end Retriever.Lawful

/-! ## The two retrievers -/

/-- What is merged, sorted by a comparison of scores and keys. -/
theorem sorted_eq {C F κ κ' : Type} [DecidableEq κ'] [LinearOrder κ] {mapKey : C → κ'}
    {keyOf : C → κ} (hmap : ∀ a b, mapKey a = mapKey b ↔ keyOf a = keyOf b)
    (compare : F → F → Rat) (f : Fused C → F) (k : Rat) (channels : List (Channel C))
    (h : ∀ a b : Fused C, keyOf a.candidate ≠ keyOf b.candidate →
      (compare (f a) (f b) ≤ 0 ↔ Precedes keyOf a b)) :
    ((merge mapKey k channels).map f).insertionSort (fun a b => compare a b ≤ 0) =
      (RankFusion.fuse keyOf k channels).map f := by
  rw [merge_congr hmap]
  exact (map_fuse f channels fun a b hne => (h a b hne).symm).symm

/-- The code units of a decimal number are those of its digits. -/
theorem units_toString (n : Nat) :
    units (toString n) = (toString n).toList.map (·.val.toUInt16) := by
  have hdigits : ∀ cs : List Char, (∀ c ∈ cs, c.isDigit = true) →
      (cs.flatMap fun c => if c.val < 0x10000 then [c.val.toUInt16]
        else [(0xd800 + (c.val - 0x10000) / 0x400).toUInt16,
          (0xdc00 + (c.val - 0x10000) % 0x400).toUInt16]) = cs.map (·.val.toUInt16) := by
    intro cs h
    induction cs with
    | nil => rfl
    | cons c cs ih =>
      obtain ⟨hc, hcs⟩ := List.forall_mem_cons.mp h
      have hsmall : c.val < 0x10000 := by
        rw [Char.isDigit, Bool.and_eq_true, decide_eq_true_iff, decide_eq_true_iff] at hc
        exact UInt32.lt_of_le_of_lt hc.2 (by decide)
      rw [List.flatMap_cons, if_pos hsmall, ih hcs]
      rfl
  exact hdigits _ fun c hc => JoinedText.isDigit_of_mem_toString hc

theorem digit_toNat {c : Char} (h : c.isDigit = true) :
    0x30 ≤ c.val.toUInt16.toNat ∧ Char.ofNat c.val.toUInt16.toNat = c := by
  rw [Char.isDigit, Bool.and_eq_true, decide_eq_true_iff, decide_eq_true_iff] at h
  have hlow : 48 ≤ c.val.toNat := h.1
  have hhigh : c.val.toNat ≤ 57 := h.2
  have hunit : c.val.toUInt16.toNat = c.val.toNat := by
    rw [UInt32.toNat_toUInt16]
    exact Nat.mod_eq_of_lt (by omega)
  rw [hunit]
  exact ⟨hlow, Char.ofNat_toNat c⟩

theorem count_units_toString (n : Nat) : (units (toString n)).count 0x23 = 0 := by
  rw [units_toString]
  refine List.count_eq_zero.mpr fun h => ?_
  obtain ⟨c, hc, heq⟩ := List.mem_map.mp h
  have hlow := (digit_toNat (JoinedText.isDigit_of_mem_toString hc)).1
  rw [heq] at hlow
  exact absurd hlow (by decide)

theorem units_toString_inj {m n : Nat} (h : units (toString m) = units (toString n)) : m = n := by
  have hback : ∀ n : Nat, (units (toString n)).map (fun u => Char.ofNat u.toNat) =
      (toString n).toList := by
    intro n
    have hsame : ∀ c ∈ (toString n).toList, Char.ofNat c.val.toUInt16.toNat = id c := fun c hc =>
      (digit_toNat (JoinedText.isDigit_of_mem_toString hc)).2
    rw [units_toString, List.map_map]
    exact (List.map_congr_left hsame).trans (List.map_id _)
  exact JoinedText.toString_inj (by rw [← hback m, ← hback n, h])

namespace Memory

def keyOf (c : RankedMemoryCandidate) : List Nat ×ₗ Nat := toLex (codes c.memoryId, c.version)

/-- `DurableMemoryRetriever`. -/
def retriever : Retriever RankedMemoryCandidate FusedMemory (List Nat ×ₗ Nat) where
  keyOf := keyOf
  withScore := withScore
  key f := keyOf f.toRankedMemoryCandidate
  score f := f.score
  channel f := f.channel
  fuse := fuse

/-- The key of the map tells id and version. -/
theorem mapKey_eq_iff (a b : RankedMemoryCandidate) : mapKey a = mapKey b ↔ keyOf a = keyOf b := by
  unfold mapKey keyOf
  rw [toLex.injective.eq_iff, Prod.mk.injEq, codes_injective.eq_iff]
  constructor
  · intro h
    have hcount : a.memoryId.count 0x23 = b.memoryId.count 0x23 := by
      have htotal := congrArg (List.count 0x23) h
      rw [List.count_append, List.count_append, List.count_cons_self, List.count_cons_self,
        count_units_toString, count_units_toString] at htotal
      exact Nat.add_right_cancel htotal
    obtain ⟨hid, hversion⟩ := JoinedText.append_cons_inj hcount h
    exact ⟨hid, units_toString_inj hversion⟩
  · rintro ⟨hid, hversion⟩
    rw [hid, hversion]

theorem compareFused_le_iff (a b : FusedMemory) :
    compareFused a b ≤ 0 ↔ b.score < a.score ∨ a.score = b.score ∧
      keyOf a.toRankedMemoryCandidate ≤ keyOf b.toRankedMemoryCandidate := by
  unfold compareFused keyOf
  rw [Prod.Lex.toLex_le_toLex]
  by_cases hs : b.score = a.score
  · rw [if_neg (not_not_intro hs)]
    by_cases hid : a.memoryId = b.memoryId
    · rw [if_neg (not_not_intro hid)]
      have hcast : (a.version : Rat) - b.version ≤ 0 ↔ a.version ≤ b.version := by
        rw [sub_nonpos, Nat.cast_le]
      rw [hcast, hs, hid]
      simp
    · rw [if_pos hid]
      have hne : codes a.memoryId ≠ codes b.memoryId := fun h => hid (codes_injective h)
      by_cases hlt : codes a.memoryId < codes b.memoryId
      · rw [if_pos hlt]
        simp [hs, hlt]
      · rw [if_neg hlt]
        simp [hs, hlt, hne]
  · rw [if_pos hs]
    have hlt : b.score - a.score ≤ 0 ↔ b.score < a.score :=
      sub_nonpos.trans ⟨fun h => lt_of_le_of_ne h hs, le_of_lt⟩
    rw [hlt]
    exact ⟨.inl, fun h => h.resolve_right fun h => hs h.1.symm⟩

theorem lawful : retriever.Lawful where
  key_withScore _ _ _ := rfl
  score_withScore _ _ _ := rfl
  channel_withScore _ _ _ := rfl
  fuse_eq k channels :=
    sorted_eq mapKey_eq_iff compareFused
      (fun e => withScore e.candidate e.score (label e.channels)) k channels fun _ _ _ =>
        compareFused_le_iff _ _

end Memory

namespace Knowledge

def keyOf (c : RankedKnowledgeCandidate) : List Nat := codes c.chunkId

/-- `DurableKnowledgeRetriever`. -/
def retriever : Retriever RankedKnowledgeCandidate FusedKnowledge (List Nat) where
  keyOf := keyOf
  withScore := withScore
  key f := keyOf f.toRankedKnowledgeCandidate
  score f := f.score
  channel f := f.channel
  fuse := fuse

/-- The comparison says nothing of a chunk and itself, which no sort asks. -/
theorem compareFused_le_iff {a b : FusedKnowledge}
    (hne : keyOf a.toRankedKnowledgeCandidate ≠ keyOf b.toRankedKnowledgeCandidate) :
    compareFused a b ≤ 0 ↔ b.score < a.score ∨ a.score = b.score ∧
      keyOf a.toRankedKnowledgeCandidate ≤ keyOf b.toRankedKnowledgeCandidate := by
  unfold compareFused
  by_cases hs : b.score = a.score
  · rw [if_neg (not_not_intro hs)]
    by_cases hlt : codes a.chunkId < codes b.chunkId
    · rw [if_pos hlt]
      have hle : keyOf a.toRankedKnowledgeCandidate ≤ keyOf b.toRankedKnowledgeCandidate :=
        le_of_lt hlt
      simp [hs, hle]
    · rw [if_neg hlt]
      have hnle : ¬keyOf a.toRankedKnowledgeCandidate ≤ keyOf b.toRankedKnowledgeCandidate :=
        fun hle => hlt (lt_of_le_of_ne hle hne)
      simp [hs, hnle]
  · rw [if_pos hs]
    have hlt : b.score - a.score ≤ 0 ↔ b.score < a.score :=
      sub_nonpos.trans ⟨fun h => lt_of_le_of_ne h hs, le_of_lt⟩
    rw [hlt]
    exact ⟨.inl, fun h => h.resolve_right fun h => hs h.1.symm⟩

theorem mapKey_eq_iff (a b : RankedKnowledgeCandidate) :
    a.chunkId = b.chunkId ↔ keyOf a = keyOf b := codes_injective.eq_iff.symm

theorem lawful : retriever.Lawful where
  key_withScore _ _ _ := rfl
  score_withScore _ _ _ := rfl
  channel_withScore _ _ _ := rfl
  fuse_eq k channels :=
    sorted_eq mapKey_eq_iff compareFused
      (fun e => withScore e.candidate e.score (label e.channels)) k channels fun _ _ hne =>
        compareFused_le_iff hne

end Knowledge

/-- Keys that tell the same elements apart are without repetition together. -/
theorem nodup_map_iff {α β γ : Type} {f : α → β} {g : α → γ} (h : ∀ a b, f a = f b ↔ g a = g b)
    {l : List α} : (l.map f).Nodup ↔ (l.map g).Nodup := by
  rw [List.Nodup, List.Nodup, List.pairwise_map, List.pairwise_map]
  exact iff_of_eq (congrArg (l.Pairwise ·) (funext fun a => funext fun b =>
    propext (not_congr (h a b))))

/-- **Both retrievers fuse exactly.** -/
theorem fuse_exact {k : Rat} (hk : 0 < k) :
    (∀ vector fts : List Memory.RankedMemoryCandidate, (vector.map Memory.mapKey).Nodup →
      (fts.map Memory.mapKey).Nodup → Memory.retriever.Exact k vector fts) ∧
    ∀ vector fts : List Knowledge.RankedKnowledgeCandidate, (vector.map (·.chunkId)).Nodup →
      (fts.map (·.chunkId)).Nodup → Knowledge.retriever.Exact k vector fts := by
  constructor
  · intro vector fts hvector hfts
    exact Memory.lawful.exact_of_nodup ((nodup_map_iff Memory.mapKey_eq_iff).mp hvector)
      ((nodup_map_iff Memory.mapKey_eq_iff).mp hfts) hk
  · intro vector fts hvector hfts
    exact Knowledge.lawful.exact_of_nodup ((nodup_map_iff Knowledge.mapKey_eq_iff).mp hvector)
      ((nodup_map_iff Knowledge.mapKey_eq_iff).mp hfts) hk

/-- A memory that both searches find, its content as each has it. -/
def found (content : String) : Memory.RankedMemoryCandidate :=
  ⟨units "m", 1, 1, content, "fact", none, .null⟩

theorem fuse_exact_found : 0 < (60 : Rat) ∧ Memory.retriever.Exact 60 [found "a"] [found "a"] :=
  ⟨by norm_num, (fuse_exact (k := 60) (by norm_num)).1 _ _ (by decide) (by decide)⟩

theorem not_order_independent : ¬∀ (k : Rat) (vector fts : List Memory.RankedMemoryCandidate),
    0 < k → (vector.map Memory.mapKey).Nodup → (fts.map Memory.mapKey).Nodup →
      Memory.retriever.fuse k [⟨"fts", fts⟩, ⟨"vector", vector⟩] =
        Memory.retriever.fuseBoth k vector fts := by
  intro h
  have hsame := congrArg (List.map (·.content))
    (h 60 [found "a"] [found "b"] (by norm_num) (by decide) (by decide))
  exact absurd hsame (by decide)

end VegaRevenue.AiRuntime.RankedRetrieval
