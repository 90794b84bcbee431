import Mathlib.Data.Prod.Lex
import VegaRevenue.Lib.StableSort
import VegaRevenue.LlmGateway.Router

/-!
# The order of the candidates

`rankCandidates` sorts by score and then by the id of the model, which providers may share; of the
first place alone it refuses to be tied.

* `rankCandidates_eq_error_iff` — it fails iff the best place is tied
* `mem_ranked`, `nodup_ranked`, `sorted_ranked` — what it returns otherwise
* `ranking_iff` — when the ranking is a function of the set of models
-/

namespace VegaRevenue.LlmGateway

open StableSort

/-! ## Scores -/

/-- Scores in the order of their keys: priority, cost, latency. -/
def Score.key (s : Score) : Rat ×ₗ Rat ×ₗ Nat := toLex (s.priority, toLex (s.cost, s.latency))

theorem Score.key_inj {s t : Score} : s.key = t.key ↔ s = t := by
  cases s
  cases t
  simp [Score.key]

variable (collation : Collation) (q : LLMModelQuery)

/-- One key before the others. -/
theorem isLE_then {α : Type} [LinearOrder α] {a b : α} {o : Ordering} :
    ((compare a b).then o).isLE = true ↔ a < b ∨ a = b ∧ o.isLE = true := by
  rw [Ordering.isLE_then_iff_or, compare_lt_iff_lt, compare_eq_iff_eq]

/-- The relation that `rankCandidates` sorts by. -/
abbrev Before (a b : LLMModel) : Prop := (compareModels collation q a b).isLE = true

variable {collation q}

theorem before_iff {a b : LLMModel} :
    Before collation q a b ↔
      (score q a).key < (score q b).key ∨
        score q a = score q b ∧ (collation.localeCompare a.modelId b.modelId).isLE = true := by
  unfold Before compareModels
  rw [← Score.key_inj, Ordering.then_assoc, isLE_then, isLE_then, isLE_then]
  generalize score q a = s
  generalize score q b = t
  simp only [Score.key, Prod.Lex.toLex_lt_toLex, toLex_inj, Prod.mk.injEq]
  tauto

theorem key_le_of_before {a b : LLMModel} (h : Before collation q a b) :
    (score q a).key ≤ (score q b).key := by
  rcases before_iff.mp h with hlt | ⟨heq, -⟩
  · exact hlt.le
  · rw [heq]

variable (collation) in
theorem localeCompare_total (a b : String) :
    (collation.localeCompare a b).isLE = true ∨ (collation.localeCompare b a).isLE = true := by
  rw [collation.swap a b]
  cases collation.localeCompare a b <;> simp

instance : Std.Total (Before collation q) where
  total := by
    intro a b
    rw [before_iff, before_iff]
    rcases lt_trichotomy (score q a).key (score q b).key with h | h | h
    · exact .inl (.inl h)
    · have hscore := Score.key_inj.mp h
      rcases localeCompare_total collation a.modelId b.modelId with hle | hle
      · exact .inl (.inr ⟨hscore, hle⟩)
      · exact .inr (.inr ⟨hscore.symm, hle⟩)
    · exact .inr (.inl h)

instance : IsTrans LLMModel (Before collation q) where
  trans := by
    intro a b c hab hbc
    rw [before_iff] at hab hbc ⊢
    rcases hab with hab | ⟨hab, hleft⟩
    · rcases hbc with hbc | ⟨hbc, -⟩
      · exact .inl (hab.trans hbc)
      · exact .inl (hbc ▸ hab)
    · rcases hbc with hbc | ⟨hbc, hright⟩
      · exact .inl (hab ▸ hbc)
      · exact .inr ⟨hab.trans hbc, collation.trans _ _ _ hleft hright⟩

/-- Two models that the order does not tell apart. -/
def Alike (collation : Collation) (q : LLMModelQuery) (a b : LLMModel) : Prop :=
  score q a = score q b ∧ collation.localeCompare a.modelId b.modelId = .eq

theorem alike_iff {a b : LLMModel} :
    Alike collation q a b ↔ Before collation q a b ∧ Before collation q b a := by
  rw [before_iff, before_iff, collation.swap a.modelId b.modelId, Alike]
  rcases lt_trichotomy (score q a).key (score q b).key with h | h | h
  · have hne : score q a ≠ score q b := fun heq => h.ne (by rw [heq])
    simp [h.not_gt, hne, hne.symm]
  · have hscore := Score.key_inj.mp h
    cases collation.localeCompare a.modelId b.modelId <;> simp [hscore]
  · have hne : score q a ≠ score q b := fun heq => h.ne (by rw [heq])
    simp [h.not_gt, hne]

/-! ## What is ranked -/

/-- The models that the query asks for; an empty family or id asks for none in particular. -/
structure Fits (q : LLMModelQuery) (m : LLMModel) : Prop where
  active : m.lifecycle = .active
  context : q.maxTokens ≤ m.maxContextTokens
  structured : q.structuredOutputRequired = true → m.supportsStructuredOutput = true
  budget : ∀ budget, q.budget = some budget →
    (if 0 < m.costPerOutputTokenUsd then m.costPerOutputTokenUsd * q.maxTokens else 0) ≤
        budget.maxCostUsd ∧
      q.maxTokens ≤ budget.maxTokens
  family : ∀ family, q.modelFamily = some family → family ≠ "" → m.family = some family
  modelId : ∀ modelId, q.modelId = some modelId → modelId ≠ "" → m.modelId = modelId

theorem named_iff {constraint value : Option String} :
    (blank constraint || value = constraint) = true ↔
      ∀ name, constraint = some name → name ≠ "" → value = some name := by
  cases constraint with
  | none => simp [blank]
  | some name => by_cases hname : name = "" <;> simp [blank, hname]

/-- **The filter keeps what the query asks for.** -/
theorem eligible_iff {m : LLMModel} : eligible q m = true ↔ Fits q m := by
  unfold eligible
  rw [Bool.and_eq_true, Bool.and_eq_true, Bool.and_eq_true, Bool.and_eq_true, Bool.and_eq_true,
    named_iff, named_iff]
  constructor
  · rintro ⟨⟨⟨⟨⟨hactive, hcontext⟩, hstructured⟩, hbudget⟩, hfamily⟩, hmodelId⟩
    refine ⟨by simpa using hactive, by simpa using hcontext, ?_, ?_, hfamily, ?_⟩
    · intro hrequired
      simpa [hrequired] using hstructured
    · intro budget hb
      simpa [hb] using hbudget
    · intro modelId hid hne
      exact Option.some.inj (hmodelId modelId hid hne)
  · rintro ⟨hactive, hcontext, hstructured, hbudget, hfamily, hmodelId⟩
    refine ⟨⟨⟨⟨⟨by simpa using hactive, by simpa using hcontext⟩, ?_⟩, ?_⟩, hfamily⟩, ?_⟩
    · cases hrequired : q.structuredOutputRequired with
      | false => rfl
      | true => simpa using hstructured hrequired
    · cases hb : q.budget with
      | none => rfl
      | some budget => simpa using hbudget budget hb
    · intro modelId hid hne
      rw [hmodelId modelId hid hne]

variable (collation q) in
/-- The candidates in order. -/
def ranked (models : List LLMModel) : List LLMModel :=
  (models.filter (eligible q)).insertionSort (Before collation q)

variable {models : List LLMModel}

theorem mem_ranked {m : LLMModel} : m ∈ ranked collation q models ↔ m ∈ models ∧ Fits q m := by
  rw [ranked, mem_sort, List.mem_filter, eligible_iff]

variable (collation q) in
theorem nodup_ranked (h : models.Nodup) : (ranked collation q models).Nodup :=
  (List.perm_insertionSort _ _).nodup_iff.mpr (h.filter _)

variable (collation q models) in
theorem sorted_ranked :
    (ranked collation q models).Pairwise fun a b => (score q a).key ≤ (score q b).key :=
  (List.pairwise_insertionSort _ _).imp key_le_of_before

/-! ## The first place -/

/-- Two of the best models have the same score. -/
def TiedBest (q : LLMModelQuery) (models : List LLMModel) : Prop :=
  ∃ a ∈ models, ∃ b ∈ models, Fits q a ∧ Fits q b ∧ a ≠ b ∧ score q a = score q b ∧
    ∀ c ∈ models, Fits q c → (score q a).key ≤ (score q c).key

theorem tiedBest_iff {first : LLMModel} {rest : List LLMModel} (h : models.Nodup)
    (hranked : ranked collation q models = first :: rest) :
    TiedBest q models ↔ ∃ b ∈ rest, score q b = score q first := by
  have hmem (m : LLMModel) : m ∈ first :: rest ↔ m ∈ models ∧ Fits q m := by
    rw [← hranked]
    exact mem_ranked
  have hnodup := nodup_ranked collation q h
  have hsorted := sorted_ranked collation q models
  rw [hranked] at hnodup hsorted
  have hfirst := (hmem first).mp List.mem_cons_self
  constructor
  · rintro ⟨a, ha, b, hb, hfa, hfb, hab, hscore, hbest⟩
    have hle := hbest first hfirst.1 hfirst.2
    have hsame (m : LLMModel) (hm : m ∈ rest) (hms : score q m = score q a) :
        score q m = score q first := by
      refine Score.key_inj.mp (le_antisymm ?_ ((List.pairwise_cons.mp hsorted).1 m hm))
      rw [hms]
      exact hle
    rcases List.mem_cons.mp ((hmem a).mpr ⟨ha, hfa⟩) with rfl | harest
    · rcases List.mem_cons.mp ((hmem b).mpr ⟨hb, hfb⟩) with rfl | hbrest
      · exact absurd rfl hab
      · exact ⟨b, hbrest, hscore.symm⟩
    · exact ⟨a, harest, hsame a harest rfl⟩
  · rintro ⟨b, hb, hscore⟩
    have hbm := (hmem b).mp (List.mem_cons_of_mem first hb)
    refine ⟨first, hfirst.1, b, hbm.1, hfirst.2, hbm.2, ?_, hscore.symm, ?_⟩
    · rintro rfl
      exact (List.nodup_cons.mp hnodup).1 hb
    · intro c hc hfc
      rcases List.mem_cons.mp ((hmem c).mpr ⟨hc, hfc⟩) with rfl | hcrest
      · exact le_refl _
      · exact (List.pairwise_cons.mp hsorted).1 c hcrest

variable (collation q) in
/-- **It fails iff the best place is tied.** -/
theorem rankCandidates_eq (h : models.Nodup) :
    (TiedBest q models ∧
      ∃ tied, rankCandidates collation q models = .error (.ambiguousRouting tied)) ∨
    (¬ TiedBest q models ∧
      rankCandidates collation q models = .ok (ranked collation q models)) := by
  unfold rankCandidates
  dsimp only
  split
  next hnil =>
    have hranked : ranked collation q models = [] := hnil
    refine .inr ⟨?_, by rw [hranked]⟩
    rintro ⟨a, ha, -, -, hfits, -⟩
    have hmem : a ∈ ranked collation q models := mem_ranked.mpr ⟨ha, hfits⟩
    rw [hranked] at hmem
    exact absurd hmem List.not_mem_nil
  next first rest hcons =>
    have hranked : ranked collation q models = first :: rest := hcons
    have htied : TiedBest q models ↔
        1 < ((first :: rest).filter fun m => score q m = score q first).length := by
      rw [tiedBest_iff h hranked, List.filter_cons_of_pos (by simp), List.length_cons,
        Nat.lt_add_left_iff_pos, List.length_pos_iff_exists_mem]
      simp
    rw [hcons]
    by_cases hbest : TiedBest q models
    · exact .inl ⟨hbest, _, if_pos (htied.mp hbest)⟩
    · refine .inr ⟨hbest, ?_⟩
      rw [if_neg fun hlength => hbest (htied.mpr hlength), hranked]

theorem tiedBest_perm {models' : List LLMModel} (h : models'.Perm models) :
    TiedBest q models' ↔ TiedBest q models := by
  unfold TiedBest
  simp only [h.mem_iff]

/-! ## Independence of the order -/

/-- Two rankings are the same, or both refuse a tie. -/
def SameRanking (a b : Except Thrown (List LLMModel)) : Prop :=
  (∃ models, a = .ok models ∧ b = .ok models) ∨
    ∃ tied tied', a = .error (.ambiguousRouting tied) ∧ b = .error (.ambiguousRouting tied')

/-- One of the models that fit has a better score than all the others. -/
def UniqueBest (q : LLMModelQuery) (models : List LLMModel) : Prop :=
  ∃ m ∈ models, Fits q m ∧
    ∀ m' ∈ models, Fits q m' → m' ≠ m → (score q m).key < (score q m').key

/-- What the ranking of a set of models is to be. -/
structure Ranking (collation : Collation) (q : LLMModelQuery) (models : List LLMModel) : Prop where
  same : ∀ models', models'.Perm models →
    SameRanking (rankCandidates collation q models') (rankCandidates collation q models)
  exact : ∀ candidates, rankCandidates collation q models = .ok candidates →
    candidates.Nodup ∧ ∀ m, m ∈ candidates ↔ m ∈ models ∧ Fits q m
  sorted : ∀ candidates, rankCandidates collation q models = .ok candidates →
    candidates.Pairwise fun a b => (score q a).key ≤ (score q b).key
  unique : UniqueBest q models → ∃ candidates, rankCandidates collation q models = .ok candidates

theorem not_tiedBest_of_uniqueBest (h : UniqueBest q models) : ¬ TiedBest q models := by
  obtain ⟨m, hm, hfm, hbetter⟩ := h
  rintro ⟨a, ha, b, hb, hfa, hfb, hab, hscore, hbest⟩
  have hbeaten (c : LLMModel) (hc : c ∈ models) (hfc : Fits q c)
      (hcs : (score q c).key ≤ (score q m).key) : c = m := by
    by_contra hne
    exact absurd (hbetter c hc hfc hne) hcs.not_gt
  have ham := hbeaten a ha hfa (hbest m hm hfm)
  have hbm := hbeaten b hb hfb (by
    rw [← hscore]
    exact hbest m hm hfm)
  exact hab (ham.trans hbm.symm)

/-- What holds of every ranking, whatever the order of the models. -/
theorem ranking_of_same (h : models.Nodup)
    (hsame : ∀ models', models'.Perm models →
      SameRanking (rankCandidates collation q models') (rankCandidates collation q models)) :
    Ranking collation q models := by
  have hranked (candidates : List LLMModel)
      (hok : rankCandidates collation q models = .ok candidates) :
      candidates = ranked collation q models := by
    rcases rankCandidates_eq collation q h with ⟨-, tied, herr⟩ | ⟨-, hrank⟩
    · rw [herr] at hok
      cases hok
    · rw [hrank] at hok
      exact (Except.ok.inj hok).symm
  refine ⟨hsame, ?_, ?_, ?_⟩
  · intro candidates hok
    rw [hranked candidates hok]
    exact ⟨nodup_ranked _ _ h, fun m => mem_ranked⟩
  · intro candidates hok
    rw [hranked candidates hok]
    exact sorted_ranked _ _ _
  · intro hunique
    rcases rankCandidates_eq collation q h with ⟨htied, -⟩ | ⟨-, hrank⟩
    · exact absurd htied (not_tiedBest_of_uniqueBest hunique)
    · exact ⟨_, hrank⟩

theorem tellsApart_iff :
    TellsApart (Before collation q) (models.filter (eligible q)) ↔
      ∀ a ∈ models, ∀ b ∈ models, Fits q a → Fits q b → Alike collation q a b → a = b := by
  simp only [TellsApart, List.mem_filter, eligible_iff, alike_iff, and_imp]
  constructor
  · exact fun h a ha b hb hfa hfb hab hba => h a ha hfa b hb hfb hab hba
  · exact fun h a ha hfa b hb hfb hab hba => h a ha b hb hfa hfb hab hba

/-- Every order of the models that fit comes from an order of all models. -/
theorem exists_perm_filter {l : List LLMModel} (h : l.Perm (models.filter (eligible q))) :
    ∃ models' : List LLMModel, models'.Perm models ∧ models'.filter (eligible q) = l := by
  refine ⟨l ++ models.filter fun m => !eligible q m,
    (h.append_right _).trans (List.filter_append_perm _ _), ?_⟩
  have hl : l.filter (eligible q) = l := by
    rw [List.filter_eq_self]
    intro m hm
    exact (List.mem_filter.mp (h.subset hm)).2
  rw [List.filter_append, hl, List.filter_filter]
  simp

/-- **When the ranking is a function of the set of models**: the best place is tied, or no two of
the models that fit have the same score and ids that compare equal. -/
theorem ranking_iff (collation : Collation) (q : LLMModelQuery) {models : List LLMModel}
    (h : models.Nodup) :
    Ranking collation q models ↔
      TiedBest q models ∨
        ∀ a ∈ models, ∀ b ∈ models, Fits q a → Fits q b → Alike collation q a b → a = b := by
  have hrank (models' : List LLMModel) (hperm : models'.Perm models) :=
    rankCandidates_eq collation q (hperm.nodup_iff.mpr h)
  constructor
  · intro hranking
    by_cases htied : TiedBest q models
    · exact .inl htied
    refine .inr (tellsApart_iff.mp ((orderIndependent_iff (h.filter _)).mp ?_))
    intro l hl
    obtain ⟨models', hperm, rfl⟩ := exists_perm_filter hl
    have hok := ((hrank models (.refl _)).resolve_left fun herr => htied herr.1).2
    have hok' := ((hrank models' hperm).resolve_left
      fun herr => htied ((tiedBest_perm hperm).mp herr.1)).2
    rcases hranking.same models' hperm with ⟨candidates, h₁, h₂⟩ | ⟨_, _, herr, -⟩
    · rw [hok'] at h₁
      rw [hok] at h₂
      exact (Except.ok.inj h₁).trans (Except.ok.inj h₂).symm
    · rw [hok'] at herr
      cases herr
  · intro hcondition
    refine ranking_of_same h fun models' hperm => ?_
    rcases hrank models (.refl _) with ⟨htied, tied, herr⟩ | ⟨htied, hok⟩
    · rcases hrank models' hperm with ⟨-, tied', herr'⟩ | ⟨htied', -⟩
      · exact .inr ⟨tied', tied, herr', herr⟩
      · exact absurd ((tiedBest_perm hperm).mpr htied) htied'
    · rcases hrank models' hperm with ⟨htied', -⟩ | ⟨-, hok'⟩
      · exact absurd ((tiedBest_perm hperm).mp htied') htied
      · refine .inl ⟨_, hok', ?_⟩
        have hapart := tellsApart_iff.mpr (hcondition.resolve_left htied)
        rw [hok]
        exact congrArg Except.ok (sort_eq_of_perm hapart (hperm.filter _)).symm

/-! ## One id at two providers -/

def offered (providerId modelId : String) (priority : Rat) : LLMModel where
  modelId := modelId
  providerId := providerId
  capabilities := ["chat"]
  maxContextTokens := 128000
  costPerInputTokenUsd := 1 / 1000
  costPerOutputTokenUsd := 1 / 1000
  supportsStructuredOutput := true
  latencyClass := "background"
  lifecycle := .active
  priority := priority

def chatQuery : LLMModelQuery where
  capability := "chat"
  maxTokens := 100
  structuredOutputRequired := false
  budget := none
  latencyClass := "background"
  modelFamily := none
  modelId := none

/-- Behind the first place the providers of one model are in the order of the rows. -/
theorem not_ranking_shared_id :
    ¬ Ranking codeUnits chatQuery
      [offered "openai" "small" 1, offered "openai" "large" 2, offered "azure" "large" 2] := by
  intro h
  have hperm : [offered "openai" "small" 1, offered "azure" "large" 2,
      offered "openai" "large" 2].Perm
      [offered "openai" "small" 1, offered "openai" "large" 2, offered "azure" "large" 2] :=
    (List.Perm.swap _ _ _).cons _
  have hrows := eq_ok_of_toOption (x := rankCandidates codeUnits chatQuery
    [offered "openai" "small" 1, offered "openai" "large" 2, offered "azure" "large" 2])
    (a := [offered "openai" "small" 1, offered "openai" "large" 2, offered "azure" "large" 2])
    (by decide +kernel)
  have hswapped := eq_ok_of_toOption (x := rankCandidates codeUnits chatQuery
    [offered "openai" "small" 1, offered "azure" "large" 2, offered "openai" "large" 2])
    (a := [offered "openai" "small" 1, offered "azure" "large" 2, offered "openai" "large" 2])
    (by decide +kernel)
  have hsame := h.same _ hperm
  rw [hrows, hswapped] at hsame
  rcases hsame with ⟨models, hone, hother⟩ | ⟨_, _, herr, -⟩
  · have heq := (Except.ok.inj hone).trans (Except.ok.inj hother).symm
    exact absurd heq (by decide +kernel)
  · cases herr

theorem ranking_distinct_ids :
    Ranking codeUnits chatQuery [offered "openai" "small" 1, offered "openai" "large" 2] := by
  refine (ranking_iff codeUnits chatQuery (by decide)).mpr (.inr ?_)
  intro a ha b hb _ _ halike
  have hscore : score chatQuery a = score chatQuery b := halike.1
  simp only [List.mem_cons, List.not_mem_nil, or_false] at ha hb
  rcases ha with rfl | rfl <;> rcases hb with rfl | rfl
  · rfl
  · exact absurd hscore (by decide +kernel)
  · exact absurd hscore (by decide +kernel)
  · rfl

end VegaRevenue.LlmGateway
