import Mathlib.Algebra.GroupWithZero.Nat
import Mathlib.Data.List.Nodup
import VegaRevenue.Shared.Number

/-!
# The context of a prompt

`ContextAssembler` selects the retrieved entries whose texts, cut to a length, fit in a total.

* `selectEntries_spec` — what a loop selects, and the texts and records it makes of it
* `deduplicated` — which of several entries with one id is kept
* `length_truncate_le`, `length_truncate_of_lt` — how long a cut text is
* `assemble_respects_iff` — when the context respects its budget
-/

namespace VegaRevenue.AiRuntime.ContextAssembler

/-! ## Entries -/

/-- A string by its UTF-16 units, which `length` counts and `slice` cuts. -/
abbrev Units := List UInt16

def units (s : String) : Units :=
  s.toList.flatMap fun c =>
    if c.val < 0x10000 then [c.val.toUInt16]
    else [(0xd800 + (c.val - 0x10000) / 0x400).toUInt16, (0xdc00 + (c.val - 0x10000) % 0x400).toUInt16]

structure MemoryEntry where
  memoryId : String
  type : Units
  content : Units
  relevance : JsNumber
  channel : Option String := none

structure KnowledgeEntry where
  knowledgeId : String
  domain : Units
  content : Units
  relevance : JsNumber
  channel : Option String := none

structure ContextProvenance where
  sourceId : String
  channel : String
  relevance : JsNumber

/-- `ContextAssemblerBudget`, with the defaults of the constructor. -/
structure Budget where
  maxMemoryItems : Nat := 10
  maxKnowledgeItems : Nat := 10
  perItemMaxChars : Nat := 2000
  totalRetrievalMaxChars : Nat := 12000

/-- What `assemble` returns of the retrieved entries. -/
structure RetrievedContext where
  memoryContext : List Units
  knowledgeContext : List Units
  memoryProvenance : List ContextProvenance
  knowledgeProvenance : List ContextProvenance

/-! ## The code -/

/-- `text.slice(0, end)`; a negative end counts from the end of the text. -/
def sliceTo (text : Units) (stop : Int) : Units :=
  if 0 ≤ stop then text.take stop.toNat else text.take (text.length + stop).toNat

def truncate (perItemMaxChars : Nat) (text : Units) : Units :=
  if text.length ≤ perItemMaxChars then text
  else sliceTo text (perItemMaxChars - 3) ++ units "..."

/-- `[label] content`. -/
def labelled (label content : Units) : Units := units "[" ++ label ++ units "] " ++ content

def MemoryEntry.text (m : MemoryEntry) : Units := labelled m.type m.content

def KnowledgeEntry.text (k : KnowledgeEntry) : Units := labelled k.domain k.content

def MemoryEntry.provenance (m : MemoryEntry) : ContextProvenance where
  sourceId := m.memoryId
  channel := m.channel.getD "unknown"
  relevance := m.relevance

def KnowledgeEntry.provenance (k : KnowledgeEntry) : ContextProvenance where
  sourceId := k.knowledgeId
  channel := k.channel.getD "unknown"
  relevance := k.relevance

/-- The filter of the two `deduplicate` functions, with the ids seen so far. -/
def deduplicate {α : Type} (id : α → String) (seen : List String) : List α → List α
  | [] => []
  | e :: es =>
    if id e ∈ seen then deduplicate id seen es else e :: deduplicate id (id e :: seen) es

def deduplicateMemory : List MemoryEntry → List MemoryEntry := deduplicate MemoryEntry.memoryId []

def deduplicateKnowledge : List KnowledgeEntry → List KnowledgeEntry :=
  deduplicate KnowledgeEntry.knowledgeId []

/-- What a loop has made, and what remains of the total. -/
structure Selection where
  texts : List Units
  provenance : List ContextProvenance
  remaining : Nat

/-- The loops over the memory and over the knowledge entries. -/
def selectEntries {α : Type} (text : α → Units) (provenance : α → ContextProvenance)
    (s : Selection) : List α → Selection
  | [] => s
  | e :: es =>
    if s.remaining = 0 then s
    else if s.remaining < (text e).length then s
    else
      selectEntries text provenance
        ⟨s.texts ++ [text e], s.provenance ++ [provenance e], s.remaining - (text e).length⟩ es

def assemble (b : Budget) (rawMemory : List MemoryEntry) (rawKnowledge : List KnowledgeEntry) :
    RetrievedContext :=
  let memory := selectEntries (fun m => truncate b.perItemMaxChars m.text) MemoryEntry.provenance
    ⟨[], [], b.totalRetrievalMaxChars⟩ ((deduplicateMemory rawMemory).take b.maxMemoryItems)
  let knowledge :=
    selectEntries (fun k => truncate b.perItemMaxChars k.text) KnowledgeEntry.provenance
      ⟨[], [], memory.remaining⟩ ((deduplicateKnowledge rawKnowledge).take b.maxKnowledgeItems)
  ⟨memory.texts, knowledge.texts, memory.provenance, knowledge.provenance⟩

/-! ## Loops -/

variable {α : Type} {text : α → Units} {provenance : α → ContextProvenance}

variable (text provenance) in
/-- **A loop selects a prefix of its entries**, stops at the first that does not fit, and takes what
it selects from the total. -/
theorem selectEntries_spec (es : List α) : ∀ s : Selection, ∃ selected rest,
    es = selected ++ rest ∧
      selectEntries text provenance s es =
        ⟨s.texts ++ selected.map text, s.provenance ++ selected.map provenance,
          s.remaining - (selected.map fun e => (text e).length).sum⟩ ∧
      (selected.map fun e => (text e).length).sum ≤ s.remaining := by
  induction es with
  | nil => exact fun s => ⟨[], [], rfl, by simp [selectEntries], by simp⟩
  | cons e es ih =>
    intro s
    rw [selectEntries]
    by_cases hsome : s.remaining = 0
    · rw [if_pos hsome]
      exact ⟨[], e :: es, rfl, by simp, by simp⟩
    by_cases hfits : s.remaining < (text e).length
    · rw [if_neg hsome, if_pos hfits]
      exact ⟨[], e :: es, rfl, by simp, by simp⟩
    · obtain ⟨selected, rest, rfl, heq, hsum⟩ := ih
        ⟨s.texts ++ [text e], s.provenance ++ [provenance e], s.remaining - (text e).length⟩
      refine ⟨e :: selected, rest, rfl, ?_, ?_⟩
      · rw [if_neg hsome, if_neg hfits, heq]
        simp [Nat.sub_sub]
      · dsimp only at hsum
        simp only [List.map_cons, List.sum_cons]
        omega

/-- A loop selects nothing iff its first entry does not fit. -/
theorem selectEntries_texts_eq_nil {remaining : Nat} {es : List α} :
    (selectEntries text provenance ⟨[], [], remaining⟩ es).texts = [] ↔
      ∀ e ∈ es.head?, remaining = 0 ∨ remaining < (text e).length := by
  cases es with
  | nil => simp [selectEntries]
  | cons e es =>
    rw [selectEntries]
    by_cases hsome : remaining = 0
    · simp [hsome]
    by_cases hfits : remaining < (text e).length
    · simp [hsome, hfits]
    · obtain ⟨selected, rest, -, heq, -⟩ := selectEntries_spec text provenance es
        ⟨[text e], [provenance e], remaining - (text e).length⟩
      simp [hsome, hfits, heq]

/-! ## De-duplication -/

/-- The first entry of every id, in order. -/
structure Deduplicated (id : α → String) (raw kept : List α) : Prop where
  sublist : kept.Sublist raw
  nodup : (kept.map id).Nodup
  complete : ∀ e ∈ raw, id e ∈ kept.map id
  first : ∀ e ∈ kept, raw.find? (fun f => id f = id e) = some e

theorem deduplicate_spec (id : α → String) (es : List α) : ∀ seen,
    (deduplicate id seen es).Sublist es ∧ ((deduplicate id seen es).map id).Nodup ∧
      (∀ e ∈ es, id e ∈ seen ∨ id e ∈ (deduplicate id seen es).map id) ∧
      ∀ e ∈ deduplicate id seen es, id e ∉ seen ∧ es.find? (fun f => id f = id e) = some e := by
  induction es with
  | nil => intro seen; simp [deduplicate]
  | cons e es ih =>
    intro seen
    rw [deduplicate]
    by_cases hseen : id e ∈ seen
    · obtain ⟨hsub, hnodup, hcomplete, hfirst⟩ := ih seen
      rw [if_pos hseen]
      refine ⟨hsub.cons e, hnodup, ?_, fun f hf => ?_⟩
      · intro f hf
        rcases List.mem_cons.mp hf with rfl | hf
        · exact .inl hseen
        · exact hcomplete f hf
      · obtain ⟨hnew, hfind⟩ := hfirst f hf
        have hne : id e ≠ id f := fun h => hnew (h ▸ hseen)
        exact ⟨hnew, by simpa [List.find?_cons, hne] using hfind⟩
    · obtain ⟨hsub, hnodup, hcomplete, hfirst⟩ := ih (id e :: seen)
      rw [if_neg hseen]
      refine ⟨hsub.cons_cons e, ?_, ?_, fun f hf => ?_⟩
      · rw [List.map_cons, List.nodup_cons]
        refine ⟨fun hmem => ?_, hnodup⟩
        obtain ⟨f, hf, hid⟩ := List.mem_map.mp hmem
        exact (hfirst f hf).1 (hid ▸ List.mem_cons_self)
      · intro f hf
        rw [List.map_cons, List.mem_cons]
        rcases List.mem_cons.mp hf with rfl | hf
        · exact .inr (.inl rfl)
        · rcases hcomplete f hf with hold | hkept
          · rcases List.mem_cons.mp hold with hid | hold
            · exact .inr (.inl hid)
            · exact .inl hold
          · exact .inr (.inr hkept)
      · rcases List.mem_cons.mp hf with rfl | hf
        · exact ⟨hseen, by simp⟩
        · obtain ⟨hnew, hfind⟩ := hfirst f hf
          have hne : id e ≠ id f := fun h => hnew (h ▸ List.mem_cons_self)
          refine ⟨fun hold => hnew (List.mem_cons_of_mem _ hold), ?_⟩
          simpa [List.find?_cons, hne] using hfind

/-- **De-duplication keeps the first entry of every id.** -/
theorem deduplicated (id : α → String) (raw : List α) :
    Deduplicated id raw (deduplicate id [] raw) := by
  obtain ⟨hsub, hnodup, hcomplete, hfirst⟩ := deduplicate_spec id raw []
  exact ⟨hsub, hnodup, fun e he => (hcomplete e he).resolve_left List.not_mem_nil,
    fun e he => (hfirst e he).2⟩

theorem head?_deduplicate (id : α → String) (raw : List α) :
    (deduplicate id [] raw).head? = raw.head? := by
  cases raw <;> simp [deduplicate]

/-! ## Cut texts -/

theorem three_le_labelled (label content : Units) : 3 ≤ (labelled label content).length := by
  have hbrackets : (units "[").length = 1 ∧ (units "] ").length = 2 := by decide
  simp only [labelled, List.length_append]
  omega

theorem length_ellipsis : (units "...").length = 3 := by decide

/-- **A limit with room for the ellipsis is kept.** -/
theorem length_truncate_le {limit : Nat} (h : 3 ≤ limit) (text : Units) :
    (truncate limit text).length ≤ limit := by
  unfold truncate sliceTo
  by_cases hfits : text.length ≤ limit
  · rw [if_pos hfits]
    exact hfits
  · rw [if_neg hfits, if_pos (by omega), List.length_append, List.length_take, length_ellipsis]
    omega

/-- A smaller limit makes the text longer: the end counts from behind. -/
theorem length_truncate_of_lt {limit : Nat} (h : limit < 3) {text : Units}
    (htext : 3 ≤ text.length) : (truncate limit text).length = text.length + limit := by
  unfold truncate sliceTo
  rw [if_neg (by omega), if_neg (by omega), List.length_append, List.length_take, length_ellipsis]
  omega

/-! ## The budget -/

/-- What is promised of the texts of one kind, and of their records. -/
structure RespectsItems (id : α → String) (text : α → Units) (provenance : α → ContextProvenance)
    (maxItems perItemMaxChars : Nat) (raw : List α) (texts : List Units)
    (records : List ContextProvenance) : Prop where
  items : texts.length ≤ maxItems
  perItem : ∀ t ∈ texts, t.length ≤ perItemMaxChars
  sourceIds : (records.map ContextProvenance.sourceId).Nodup
  selected : ∃ kept selected, Deduplicated id raw kept ∧ selected <+: kept ∧
    texts = selected.map (fun e => truncate perItemMaxChars (text e)) ∧
      records = selected.map provenance

/-- **The context respects its budget.** -/
structure Respects (b : Budget) (rawMemory : List MemoryEntry) (rawKnowledge : List KnowledgeEntry)
    (r : RetrievedContext) : Prop where
  memory : RespectsItems MemoryEntry.memoryId MemoryEntry.text MemoryEntry.provenance
    b.maxMemoryItems b.perItemMaxChars rawMemory r.memoryContext r.memoryProvenance
  knowledge : RespectsItems KnowledgeEntry.knowledgeId KnowledgeEntry.text KnowledgeEntry.provenance
    b.maxKnowledgeItems b.perItemMaxChars rawKnowledge r.knowledgeContext r.knowledgeProvenance
  total : ((r.memoryContext ++ r.knowledgeContext).map List.length).sum ≤ b.totalRetrievalMaxChars

section

variable {id : α → String} {maxItems limit remaining : Nat} {raw : List α}

/-- The loop over one kind of entries. -/
def selectKind (id : α → String) (text : α → Units) (provenance : α → ContextProvenance)
    (maxItems limit remaining : Nat) (raw : List α) : Selection :=
  selectEntries (fun e => truncate limit (text e)) provenance ⟨[], [], remaining⟩
    ((deduplicate id [] raw).take maxItems)

/-- The total bounds what the loop selects together with what it leaves. -/
theorem sum_selectKind :
    ((selectKind id text provenance maxItems limit remaining raw).texts.map List.length).sum +
      (selectKind id text provenance maxItems limit remaining raw).remaining = remaining := by
  obtain ⟨selected, rest, -, heq, hsum⟩ := selectEntries_spec
    (fun e => truncate limit (text e)) provenance
    ((deduplicate id [] raw).take maxItems) ⟨[], [], remaining⟩
  rw [selectKind, heq]
  simp only [List.nil_append, List.map_map, Function.comp_def] at hsum ⊢
  omega

/-- Of one kind, everything but the limit of a text is kept under every budget. -/
theorem respectsItems_iff (hid : ∀ e, (provenance e).sourceId = id e) :
    RespectsItems id text provenance maxItems limit raw
        (selectKind id text provenance maxItems limit remaining raw).texts
        (selectKind id text provenance maxItems limit remaining raw).provenance ↔
      ∀ t ∈ (selectKind id text provenance maxItems limit remaining raw).texts,
        t.length ≤ limit := by
  refine ⟨RespectsItems.perItem, fun hlimit => ?_⟩
  obtain ⟨selected, rest, hes, heq, -⟩ := selectEntries_spec
    (fun e => truncate limit (text e)) provenance
    ((deduplicate id [] raw).take maxItems) ⟨[], [], remaining⟩
  have hpre : selected <+: (deduplicate id [] raw).take maxItems := ⟨rest, hes.symm⟩
  have hkept : selected <+: deduplicate id [] raw := hpre.trans (List.take_prefix _ _)
  have hids : (selected.map id).Nodup :=
    (deduplicated id raw).nodup.sublist (hkept.sublist.map id)
  rw [selectKind, heq] at hlimit ⊢
  constructor
  · have hle := hpre.length_le
    simp only [List.nil_append, List.length_map, List.length_take] at hle ⊢
    omega
  · exact hlimit
  · simpa [Function.comp_def, hid] using hids
  · exact ⟨_, selected, deduplicated id raw, hkept, by simp, by simp⟩

/-- Without room for the ellipsis every text is too long, so that none may be selected. -/
theorem forall_texts_le_iff_nil (hroom : limit < 3) (htext : ∀ e, 3 ≤ (text e).length) :
    (∀ t ∈ (selectKind id text provenance maxItems limit remaining raw).texts,
        t.length ≤ limit) ↔
      (selectKind id text provenance maxItems limit remaining raw).texts = [] := by
  obtain ⟨selected, rest, -, heq, -⟩ := selectEntries_spec
    (fun e => truncate limit (text e)) provenance
    ((deduplicate id [] raw).take maxItems) ⟨[], [], remaining⟩
  rw [selectKind, heq, List.nil_append]
  cases selected with
  | nil => simp
  | cons e es =>
    refine iff_of_false (fun h => ?_) (by simp)
    have hle : (truncate limit (text e)).length ≤ limit := h _ List.mem_cons_self
    have hlen := length_truncate_of_lt hroom (htext e)
    have hpos := htext e
    omega

theorem texts_eq_nil_iff (hroom : limit < 3) (htext : ∀ e, 3 ≤ (text e).length) :
    (selectKind id text provenance maxItems limit remaining raw).texts = [] ↔
      ∀ e ∈ raw.head?, maxItems = 0 ∨ remaining < (text e).length + limit := by
  rw [selectKind, selectEntries_texts_eq_nil, List.head?_take]
  by_cases hmax : maxItems = 0
  · simp [hmax]
  rw [if_neg hmax, head?_deduplicate]
  refine forall₂_congr fun e _ => ?_
  have hpos := htext e
  rw [length_truncate_of_lt hroom hpos]
  omega

/-- **The texts of one kind keep the limit** iff it has room for the ellipsis, or no entry of the
kind is selected. -/
theorem forall_texts_le_iff (htext : ∀ e, 3 ≤ (text e).length) :
    (∀ t ∈ (selectKind id text provenance maxItems limit remaining raw).texts, t.length ≤ limit) ↔
      3 ≤ limit ∨
        ∀ e ∈ raw.head?, maxItems = 0 ∨ remaining < (text e).length + limit := by
  by_cases hroom : 3 ≤ limit
  · refine iff_of_true (fun t ht => ?_) (.inl hroom)
    obtain ⟨selected, rest, -, heq, -⟩ := selectEntries_spec
      (fun e => truncate limit (text e)) provenance
      ((deduplicate id [] raw).take maxItems) ⟨[], [], remaining⟩
    rw [selectKind, heq, List.nil_append] at ht
    obtain ⟨e, -, rfl⟩ := List.mem_map.mp ht
    exact length_truncate_le hroom _
  · have hlt : limit < 3 := by omega
    rw [forall_texts_le_iff_nil hlt htext, texts_eq_nil_iff hlt htext, or_iff_right hroom]

end

theorem assemble_eq (b : Budget) (rawMemory : List MemoryEntry)
    (rawKnowledge : List KnowledgeEntry) :
    assemble b rawMemory rawKnowledge =
      let memory := selectKind MemoryEntry.memoryId MemoryEntry.text MemoryEntry.provenance
        b.maxMemoryItems b.perItemMaxChars b.totalRetrievalMaxChars rawMemory
      let knowledge := selectKind KnowledgeEntry.knowledgeId KnowledgeEntry.text
        KnowledgeEntry.provenance b.maxKnowledgeItems b.perItemMaxChars memory.remaining
        rawKnowledge
      ⟨memory.texts, knowledge.texts, memory.provenance, knowledge.provenance⟩ := rfl

/-- **The budget is respected exactly** when the limit of a text has room for the ellipsis, or the
first entry of either kind is already left out: it is cut to a text that is longer than it was. -/
theorem assemble_respects_iff (b : Budget) (rawMemory : List MemoryEntry)
    (rawKnowledge : List KnowledgeEntry) :
    Respects b rawMemory rawKnowledge (assemble b rawMemory rawKnowledge) ↔
      3 ≤ b.perItemMaxChars ∨
        (∀ m ∈ rawMemory.head?, b.maxMemoryItems = 0 ∨
          b.totalRetrievalMaxChars < m.text.length + b.perItemMaxChars) ∧
        ∀ k ∈ rawKnowledge.head?, b.maxKnowledgeItems = 0 ∨
          b.totalRetrievalMaxChars < k.text.length + b.perItemMaxChars := by
  have hmemory : ∀ m : MemoryEntry, 3 ≤ m.text.length := fun m => three_le_labelled _ _
  have hknowledge : ∀ k : KnowledgeEntry, 3 ≤ k.text.length := fun k => three_le_labelled _ _
  rw [assemble_eq]
  dsimp only
  generalize hm : selectKind MemoryEntry.memoryId MemoryEntry.text MemoryEntry.provenance
    b.maxMemoryItems b.perItemMaxChars b.totalRetrievalMaxChars rawMemory = memory
  generalize hk : selectKind KnowledgeEntry.knowledgeId KnowledgeEntry.text
    KnowledgeEntry.provenance b.maxKnowledgeItems b.perItemMaxChars memory.remaining
    rawKnowledge = knowledge
  have htotalM : (memory.texts.map List.length).sum + memory.remaining
      = b.totalRetrievalMaxChars := hm ▸ sum_selectKind
  have htotalK : (knowledge.texts.map List.length).sum + knowledge.remaining
      = memory.remaining := hk ▸ sum_selectKind
  have hrespects : Respects b rawMemory rawKnowledge
      ⟨memory.texts, knowledge.texts, memory.provenance, knowledge.provenance⟩ ↔
      (∀ t ∈ memory.texts, t.length ≤ b.perItemMaxChars) ∧
        ∀ t ∈ knowledge.texts, t.length ≤ b.perItemMaxChars := by
    refine ⟨fun h => ⟨h.memory.perItem, h.knowledge.perItem⟩, fun ⟨h₁, h₂⟩ => ⟨?_, ?_, ?_⟩⟩
    · subst hm
      exact (respectsItems_iff fun _ => rfl).mpr h₁
    · subst hk
      exact (respectsItems_iff fun _ => rfl).mpr h₂
    · dsimp only
      rw [List.map_append, List.sum_append]
      omega
  rw [hrespects, ← hk, forall_texts_le_iff hknowledge, ← hm, forall_texts_le_iff hmemory, hm]
  by_cases hroom : 3 ≤ b.perItemMaxChars
  · simp [hroom]
  rw [or_iff_right hroom, or_iff_right hroom, or_iff_right hroom]
  refine and_congr_right fun hnone => ?_
  -- Nothing of the memory is selected: the knowledge has the whole total.
  have hnil : memory.texts = [] := by
    rw [← hm]
    exact (texts_eq_nil_iff (by omega) hmemory).mpr hnone
  rw [hnil] at htotalM
  rw [show memory.remaining = b.totalRetrievalMaxChars by simpa using htotalM]

/-- A budget of two characters for a text. -/
def twoChars : Budget where
  perItemMaxChars := 2

def workingEntry : MemoryEntry where
  memoryId := "m"
  type := units "working"
  content := units "ab"
  relevance := .finite 1

/-- The text `[working] ab`, of twelve characters, is cut to one of fourteen. -/
theorem assemble_not_respects :
    (assemble twoChars [workingEntry] []).memoryContext = [units "[working] a..."] ∧
      ¬ Respects twoChars [workingEntry] [] (assemble twoChars [workingEntry] []) := by
  have heq : (assemble twoChars [workingEntry] []).memoryContext = [units "[working] a..."] := by
    decide +kernel
  refine ⟨heq, fun h => ?_⟩
  have hle := h.memory.perItem (units "[working] a...") (heq ▸ List.mem_singleton_self _)
  exact absurd hle (by decide +kernel)

end VegaRevenue.AiRuntime.ContextAssembler
