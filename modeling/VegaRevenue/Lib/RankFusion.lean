import Mathlib.Algebra.Order.BigOperators.Group.List
import Mathlib.Algebra.Order.Field.Basic
import Mathlib.Algebra.Order.Field.Rat
import Mathlib.Data.List.Induction
import Mathlib.Data.List.Sort
import Mathlib.Tactic.Linarith

/-!
# Reciprocal rank fusion

Ranked lists are merged into one: an element scores `1 / (k + rank)` in each list it occurs in, and
the merged list is ordered by score, then by key.

* `merge_spec` — the entry of a key, its score and the lists it comes from
* `order_perm` — the order of the merged list does not depend on that of the lists
* `idxOf_le_of_promoted` — an element whose scores grow and whose rivals' do not moves up
-/

namespace RankFusion

variable {C κ : Type} [DecidableEq κ] {keyOf : C → κ} {k : Rat}

/-- A ranked list with its name. -/
structure Channel (C : Type) where
  name : String
  candidates : List C

/-- A merged element: what was found first, the score so far and the lists it occurs in. -/
structure Fused (C : Type) where
  candidate : C
  score : Rat
  channels : List String

/-! ## Merging -/

/-- The entry after another occurrence. -/
def Fused.again (e : Fused C) (contribution : Rat) (name : String) : Fused C :=
  { e with
    score := e.score + contribution
    channels := if name ∈ e.channels then e.channels else e.channels ++ [name] }

def add (keyOf : C → κ) (contribution : Rat) (name : String) (c : C) :
    List (Fused C) → List (Fused C)
  | [] => [⟨c, contribution, [name]⟩]
  | e :: entries =>
    if keyOf e.candidate = keyOf c then e.again contribution name :: entries
    else e :: add keyOf contribution name c entries

/-- The candidates of a list, the first of them of the rank given. -/
def addRanked (keyOf : C → κ) (k : Rat) (name : String) :
    Nat → List C → List (Fused C) → List (Fused C)
  | _, [], entries => entries
  | rank, c :: cs, entries =>
    addRanked keyOf k name (rank + 1) cs (add keyOf (1 / (k + rank)) name c entries)

def addChannel (keyOf : C → κ) (k : Rat) (entries : List (Fused C)) (channel : Channel C) :
    List (Fused C) :=
  addRanked keyOf k channel.name 1 channel.candidates entries

def merge (keyOf : C → κ) (k : Rat) (channels : List (Channel C)) : List (Fused C) :=
  channels.foldl (addChannel keyOf k) []

/-- Keys that tell the same candidates apart merge alike. -/
theorem merge_congr {κ' : Type} [DecidableEq κ'] {f : C → κ} {g : C → κ'}
    (h : ∀ a b, f a = f b ↔ g a = g b) (k : Rat) (channels : List (Channel C)) :
    merge f k channels = merge g k channels := by
  have hadd : ∀ contribution name c entries,
      add f contribution name c entries = add g contribution name c entries := by
    intro contribution name c entries
    induction entries with
    | nil => rfl
    | cons e entries ih => rw [add, add, ih, if_congr (h e.candidate c) rfl rfl]
  have hranked : ∀ name rank cs entries,
      addRanked f k name rank cs entries = addRanked g k name rank cs entries := by
    intro name rank cs
    induction cs generalizing rank with
    | nil => exact fun _ => rfl
    | cons c cs ih =>
      intro entries
      rw [addRanked, addRanked, hadd, ih]
  unfold merge
  refine congrArg (List.foldl · [] channels) (funext fun entries => funext fun channel => ?_)
  exact hranked _ _ _ _

/-! ## What a key comes to -/

/-- The entry of a key. -/
def entry (keyOf : C → κ) (key : κ) (entries : List (Fused C)) : Option (Fused C) :=
  entries.find? fun e => keyOf e.candidate = key

def keys (keyOf : C → κ) (entries : List (Fused C)) : List κ := entries.map (keyOf ·.candidate)

/-- An occurrence of the key makes an entry, or adds to the one there is. -/
def noted (contribution : Rat) (name : String) (c : C) : Option (Fused C) → Fused C
  | none => ⟨c, contribution, [name]⟩
  | some e => e.again contribution name

theorem entry_cons (key : κ) (e : Fused C) (entries : List (Fused C)) :
    entry keyOf key (e :: entries) =
      if keyOf e.candidate = key then some e else entry keyOf key entries := by
  unfold entry
  rw [List.find?_cons]
  by_cases h : keyOf e.candidate = key
  · simp [h]
  · simp [h]

theorem entry_add (contribution : Rat) (name : String) (c : C) (entries : List (Fused C))
    (key : κ) :
    entry keyOf key (add keyOf contribution name c entries) =
      if key = keyOf c then some (noted contribution name c (entry keyOf key entries))
      else entry keyOf key entries := by
  induction entries with
  | nil =>
    rw [add, entry_cons]
    by_cases h : key = keyOf c
    · simp [h, entry, noted]
    · simp [h, entry, Ne.symm h]
  | cons e entries ih =>
    rw [add]
    by_cases he : keyOf e.candidate = keyOf c
    · rw [if_pos he, entry_cons, entry_cons]
      by_cases h : key = keyOf c
      · subst h
        rw [if_pos he, if_pos (show keyOf (e.again contribution name).candidate = _ from he),
          if_pos rfl]
        rfl
      · have hne : keyOf e.candidate ≠ key := fun hk => h (hk.symm.trans he)
        rw [if_neg (show keyOf (e.again contribution name).candidate ≠ key from hne), if_neg hne,
          if_neg h]
    · rw [if_neg he, entry_cons, entry_cons, ih]
      by_cases h : key = keyOf c
      · subst h
        rw [if_neg he, if_neg he, if_pos rfl]
      · rw [if_neg h, if_neg h]

theorem keys_add (contribution : Rat) (name : String) (c : C) (entries : List (Fused C)) :
    keys keyOf (add keyOf contribution name c entries) =
      if keyOf c ∈ keys keyOf entries then keys keyOf entries
      else keys keyOf entries ++ [keyOf c] := by
  induction entries with
  | nil => rfl
  | cons e entries ih =>
    rw [add]
    by_cases he : keyOf e.candidate = keyOf c
    · rw [if_pos he]
      have hmem : keyOf c ∈ keys keyOf (e :: entries) := by
        rw [← he]
        exact List.mem_cons_self
      rw [if_pos hmem]
      rfl
    · rw [if_neg he]
      show keyOf e.candidate :: keys keyOf (add keyOf contribution name c entries) = _
      rw [ih]
      by_cases hmem : keyOf c ∈ keys keyOf entries
      · have hmem' : keyOf c ∈ keys keyOf (e :: entries) := List.mem_cons_of_mem _ hmem
        rw [if_pos hmem, if_pos hmem']
        rfl
      · have hne : keyOf c ∉ keys keyOf (e :: entries) := by
          intro h
          rcases List.mem_cons.mp h with h | h
          · exact he h.symm
          · exact hmem h
        rw [if_neg hmem, if_neg hne]
        rfl

/-! ## What a list adds -/

/-- The candidate of the key in a ranked list. -/
def candidate (keyOf : C → κ) (key : κ) (cs : List C) : Option C := cs.find? (keyOf · = key)

theorem candidate_cons (key : κ) (c : C) (cs : List C) :
    candidate keyOf key (c :: cs) = if keyOf c = key then some c else candidate keyOf key cs := by
  unfold candidate
  rw [List.find?_cons]
  by_cases h : keyOf c = key
  · simp [h]
  · simp [h]

theorem candidate_eq_none_iff {key : κ} {cs : List C} :
    candidate keyOf key cs = none ↔ key ∉ cs.map keyOf := by
  unfold candidate
  rw [List.find?_eq_none, List.mem_map, not_exists]
  refine forall_congr' fun c => ?_
  rw [not_and, decide_eq_true_iff]

/-- `1 / (k + rank)`, where the list has the key. -/
def contribution (keyOf : C → κ) (k : Rat) (key : κ) (cs : List C) : Rat :=
  if key ∈ cs.map keyOf then 1 / (k + ((cs.map keyOf).idxOf key + 1 : Nat)) else 0

theorem entry_addRanked (name : String) (rank : Nat) {cs : List C} (hn : (cs.map keyOf).Nodup)
    (entries : List (Fused C)) (key : κ) :
    entry keyOf key (addRanked keyOf k name rank cs entries) =
      match candidate keyOf key cs with
      | none => entry keyOf key entries
      | some c =>
        some (noted (1 / (k + ((cs.map keyOf).idxOf key + rank : Nat))) name c
          (entry keyOf key entries)) := by
  induction cs generalizing rank entries with
  | nil => rfl
  | cons c cs ih =>
    obtain ⟨hc, hcs⟩ := List.nodup_cons.mp hn
    rw [addRanked, ih (rank + 1) hcs, entry_add, candidate_cons, List.map_cons, List.idxOf_cons]
    by_cases h : keyOf c = key
    · -- the list does not have the key again
      subst h
      rw [candidate_eq_none_iff.mpr hc, if_pos rfl, if_pos rfl]
      simp
    · rw [if_neg h, if_neg (Ne.symm h)]
      have hbeq : (keyOf c == key) = false := beq_eq_false_iff_ne.mpr h
      rw [hbeq, cond_false]
      cases candidate keyOf key cs with
      | none => rfl
      | some d =>
        dsimp only
        rw [show (cs.map keyOf).idxOf key + (rank + 1) = (cs.map keyOf).idxOf key + 1 + rank by omega]

theorem mem_keys_add {contribution : Rat} {name : String} {c : C} {entries : List (Fused C)}
    {key : κ} :
    key ∈ keys keyOf (add keyOf contribution name c entries) ↔
      key ∈ keys keyOf entries ∨ key = keyOf c := by
  rw [keys_add]
  split
  next hmem =>
    refine ⟨.inl, ?_⟩
    rintro (h | rfl)
    · exact h
    · exact hmem
  · rw [List.mem_append, List.mem_singleton]

theorem nodup_keys_add {contribution : Rat} {name : String} {c : C} {entries : List (Fused C)}
    (h : (keys keyOf entries).Nodup) :
    (keys keyOf (add keyOf contribution name c entries)).Nodup := by
  rw [keys_add]
  split
  · exact h
  next hmem =>
    refine h.append (List.nodup_singleton _) fun key hkey hnew => ?_
    rw [List.mem_singleton.mp hnew] at hkey
    exact hmem hkey

theorem mem_keys_addRanked {name : String} {rank : Nat} {cs : List C} {entries : List (Fused C)}
    {key : κ} :
    key ∈ keys keyOf (addRanked keyOf k name rank cs entries) ↔
      key ∈ keys keyOf entries ∨ key ∈ cs.map keyOf := by
  induction cs generalizing rank entries with
  | nil => simp [addRanked]
  | cons c cs ih => rw [addRanked, ih, mem_keys_add, List.map_cons, List.mem_cons, or_assoc]

theorem nodup_keys_addRanked {name : String} {rank : Nat} {cs : List C}
    {entries : List (Fused C)} (h : (keys keyOf entries).Nodup) :
    (keys keyOf (addRanked keyOf k name rank cs entries)).Nodup := by
  induction cs generalizing rank entries with
  | nil => exact h
  | cons c cs ih => exact ih (nodup_keys_add h)

/-! ## What all lists add -/

theorem merge_concat (channels : List (Channel C)) (channel : Channel C) :
    merge keyOf k (channels ++ [channel]) = addChannel keyOf k (merge keyOf k channels) channel := by
  unfold merge
  rw [List.foldl_append]
  rfl

theorem mem_keys_merge {channels : List (Channel C)} {key : κ} :
    key ∈ keys keyOf (merge keyOf k channels) ↔
      ∃ channel ∈ channels, key ∈ channel.candidates.map keyOf := by
  induction channels using List.reverseRecOn with
  | nil => simp [merge, keys]
  | append_singleton channels channel ih =>
    rw [merge_concat, addChannel, mem_keys_addRanked, ih]
    simp [or_and_right, exists_or]

theorem nodup_keys_merge (channels : List (Channel C)) :
    (keys keyOf (merge keyOf k channels)).Nodup := by
  induction channels using List.reverseRecOn with
  | nil => exact List.nodup_nil
  | append_singleton channels channel ih =>
    rw [merge_concat]
    exact nodup_keys_addRanked ih

/-- The score of a key: what all lists add. -/
def score (keyOf : C → κ) (k : Rat) (channels : List (Channel C)) (key : κ) : Rat :=
  (channels.map fun channel => contribution keyOf k key channel.candidates).sum

/-- The lists that have the key. -/
def namesOf (keyOf : C → κ) (channels : List (Channel C)) (key : κ) : List String :=
  (channels.filter fun channel => key ∈ channel.candidates.map keyOf).map (·.name)

theorem score_concat (channels : List (Channel C)) (channel : Channel C) (key : κ) :
    score keyOf k (channels ++ [channel]) key =
      score keyOf k channels key + contribution keyOf k key channel.candidates := by
  unfold score
  rw [List.map_append, List.sum_append, List.map_singleton, List.sum_singleton]

theorem namesOf_concat (channels : List (Channel C)) (channel : Channel C) (key : κ) :
    namesOf keyOf (channels ++ [channel]) key = namesOf keyOf channels key ++
      if key ∈ channel.candidates.map keyOf then [channel.name] else [] := by
  unfold namesOf
  rw [List.filter_append, List.map_append]
  by_cases h : key ∈ channel.candidates.map keyOf
  · rw [if_pos h, List.filter_singleton, decide_eq_true h]
    rfl
  · rw [if_neg h, List.filter_singleton, decide_eq_false h]
    rfl

/-- A key that no list has scores nothing. -/
theorem score_eq_zero {channels : List (Channel C)} {key : κ}
    (h : ∀ channel ∈ channels, key ∉ channel.candidates.map keyOf) :
    score keyOf k channels key = 0 :=
  List.sum_eq_zero fun q hq => by
    obtain ⟨channel, hchannel, rfl⟩ := List.mem_map.mp hq
    exact if_neg (h channel hchannel)

theorem namesOf_eq_nil {channels : List (Channel C)} {key : κ}
    (h : ∀ channel ∈ channels, key ∉ channel.candidates.map keyOf) :
    namesOf keyOf channels key = [] := by
  unfold namesOf
  rw [List.map_eq_nil_iff, List.filter_eq_nil_iff]
  exact fun channel hchannel hkey => h channel hchannel (of_decide_eq_true hkey)

theorem candidate_flatMap_eq_none_iff {channels : List (Channel C)} {key : κ} :
    candidate keyOf key (channels.flatMap (·.candidates)) = none ↔
      ∀ channel ∈ channels, key ∉ channel.candidates.map keyOf := by
  rw [candidate_eq_none_iff, List.map_flatMap, List.mem_flatMap, not_exists]
  exact forall_congr' fun channel => not_and

/-- **The entry of a key is its first candidate, with what all lists add and the lists that have
it.** -/
theorem entry_merge {channels : List (Channel C)} (hnames : (channels.map (·.name)).Nodup)
    (hn : ∀ channel ∈ channels, (channel.candidates.map keyOf).Nodup) (key : κ) :
    entry keyOf key (merge keyOf k channels) =
      (candidate keyOf key (channels.flatMap (·.candidates))).map fun c =>
        ⟨c, score keyOf k channels key, namesOf keyOf channels key⟩ := by
  induction channels using List.reverseRecOn with
  | nil => rfl
  | append_singleton channels channel ih =>
    have hnew : channel.name ∉ channels.map (·.name) := by
      rw [List.map_append] at hnames
      exact fun h => List.disjoint_of_nodup_append hnames h List.mem_cons_self
    have hprev := ih (hnames.sublist (List.map_append ▸ List.sublist_append_left _ _))
      fun c hc => hn c (List.mem_append_left _ hc)
    have hlast := hn channel (List.mem_append_right channels List.mem_cons_self)
    have hfirst : candidate keyOf key ((channels ++ [channel]).flatMap (·.candidates)) =
        (candidate keyOf key (channels.flatMap (·.candidates))).or
          (candidate keyOf key channel.candidates) := by
      unfold candidate
      rw [List.flatMap_append, List.find?_append, List.flatMap_singleton]
    have hother : channel.name ∉ namesOf keyOf channels key := fun h =>
      hnew (List.map_subset _ (List.filter_subset_self _) h)
    rw [merge_concat, addChannel, entry_addRanked channel.name 1 hlast, hprev, hfirst,
      score_concat, namesOf_concat]
    cases hc : candidate keyOf key channel.candidates with
    | none =>
      have hnot := candidate_eq_none_iff.mp hc
      rw [contribution, if_neg hnot, if_neg hnot, add_zero, List.append_nil, Option.or_none]
    | some c =>
      have hhas : key ∈ channel.candidates.map keyOf := by
        by_contra h
        rw [candidate_eq_none_iff.mpr h] at hc
        cases hc
      rw [contribution, if_pos hhas, if_pos hhas]
      cases hold : candidate keyOf key (channels.flatMap (·.candidates)) with
      | none =>
        have habsent := candidate_flatMap_eq_none_iff.mp hold
        rw [score_eq_zero habsent, namesOf_eq_nil habsent, zero_add]
        rfl
      | some d =>
        show some (Fused.again _ _ _) = _
        rw [Fused.again, if_neg hother]
        rfl

/-- The entry of an element is the element. -/
theorem entry_of_mem {entries : List (Fused C)} (hn : (keys keyOf entries).Nodup) {e : Fused C}
    (he : e ∈ entries) : entry keyOf (keyOf e.candidate) entries = some e := by
  induction entries with
  | nil => cases he
  | cons d entries ih =>
    obtain ⟨hd, hrest⟩ := List.nodup_cons.mp hn
    rw [entry_cons]
    rcases List.mem_cons.mp he with rfl | he
    · rw [if_pos rfl]
    · have hne : keyOf d.candidate ≠ keyOf e.candidate := fun h =>
        hd (List.mem_map.mpr ⟨e, he, h.symm⟩)
      rw [if_neg hne]
      exact ih hrest he

/-- What a merged element is. -/
theorem of_mem_merge {channels : List (Channel C)} (hnames : (channels.map (·.name)).Nodup)
    (hn : ∀ channel ∈ channels, (channel.candidates.map keyOf).Nodup) {e : Fused C}
    (he : e ∈ merge keyOf k channels) :
    candidate keyOf (keyOf e.candidate) (channels.flatMap (·.candidates)) = some e.candidate ∧
      e.score = score keyOf k channels (keyOf e.candidate) ∧
      e.channels = namesOf keyOf channels (keyOf e.candidate) := by
  have hentry := entry_of_mem (nodup_keys_merge channels) he
  rw [entry_merge hnames hn] at hentry
  obtain ⟨c, hc, heq⟩ := Option.map_eq_some_iff.mp hentry
  have hcandidate : c = e.candidate := congrArg Fused.candidate heq
  exact ⟨hcandidate ▸ hc, (congrArg Fused.score heq).symm, (congrArg Fused.channels heq).symm⟩

/-! ## The order -/

section Order

variable [LinearOrder κ]

/-- By score, the highest first, then by key. -/
def Precedes (keyOf : C → κ) (a b : Fused C) : Prop :=
  b.score < a.score ∨ a.score = b.score ∧ keyOf a.candidate ≤ keyOf b.candidate

instance (keyOf : C → κ) (a b : Fused C) : Decidable (Precedes keyOf a b) :=
  inferInstanceAs (Decidable (_ ∨ _))

instance (keyOf : C → κ) : Std.Total (Precedes keyOf) where
  total a b := by
    rcases lt_trichotomy a.score b.score with h | h | h
    · exact .inr (.inl h)
    · rcases le_total (keyOf a.candidate) (keyOf b.candidate) with hk | hk
      · exact .inl (.inr ⟨h, hk⟩)
      · exact .inr (.inr ⟨h.symm, hk⟩)
    · exact .inl (.inl h)

instance (keyOf : C → κ) : IsTrans (Fused C) (Precedes keyOf) where
  trans a b c := by
    rintro (hab | ⟨hab, hkab⟩) (hbc | ⟨hbc, hkbc⟩)
    · exact .inl (hbc.trans hab)
    · exact .inl (hbc ▸ hab)
    · exact .inl (hab ▸ hbc)
    · exact .inr ⟨hab.trans hbc, hkab.trans hkbc⟩

def fuse (keyOf : C → κ) (k : Rat) (channels : List (Channel C)) : List (Fused C) :=
  (merge keyOf k channels).insertionSort (Precedes keyOf)

theorem mem_fuse {channels : List (Channel C)} {e : Fused C} :
    e ∈ fuse keyOf k channels ↔ e ∈ merge keyOf k channels :=
  (List.perm_insertionSort _ _).mem_iff

theorem keys_fuse_perm (channels : List (Channel C)) :
    (keys keyOf (fuse keyOf k channels)).Perm (keys keyOf (merge keyOf k channels)) :=
  (List.perm_insertionSort _ _).map _

theorem nodup_keys_fuse (channels : List (Channel C)) :
    (keys keyOf (fuse keyOf k channels)).Nodup :=
  (keys_fuse_perm channels).nodup_iff.mpr (nodup_keys_merge channels)

theorem mem_keys_fuse {channels : List (Channel C)} {key : κ} :
    key ∈ keys keyOf (fuse keyOf k channels) ↔
      ∃ channel ∈ channels, key ∈ channel.candidates.map keyOf :=
  (keys_fuse_perm channels).mem_iff.trans mem_keys_merge

/-- `x` stands before `y` in the order of these scores. -/
def Before (s : κ → Rat) (x y : κ) : Prop := s y < s x ∨ s x = s y ∧ x < y

omit [DecidableEq κ] in
theorem Before.asymm {s : κ → Rat} {x y : κ} (h : Before s x y) : ¬Before s y x := by
  rintro (h' | ⟨heq, hk'⟩)
  · rcases h with h | ⟨heq, -⟩
    · exact absurd h' (not_lt_of_gt h)
    · exact absurd heq (ne_of_gt h').symm
  · rcases h with h | ⟨-, hk⟩
    · exact absurd heq (ne_of_lt h)
    · exact absurd hk (not_lt_of_gt hk')

/-- **The merged list is strictly ordered by score, then key.** -/
theorem keys_fuse_pairwise {channels : List (Channel C)}
    (hnames : (channels.map (·.name)).Nodup)
    (hn : ∀ channel ∈ channels, (channel.candidates.map keyOf).Nodup) :
    (keys keyOf (fuse keyOf k channels)).Pairwise (Before (score keyOf k channels)) := by
  have hsorted : (fuse keyOf k channels).Pairwise (Precedes keyOf) :=
    List.pairwise_insertionSort _ _
  have hnodup : (keys keyOf (fuse keyOf k channels)).Nodup := nodup_keys_fuse channels
  rw [keys, List.Nodup, List.pairwise_map] at hnodup
  rw [keys, List.pairwise_map]
  refine (hsorted.and hnodup).imp_of_mem fun {a b} ha hb h => ?_
  have hsa := (of_mem_merge hnames hn (mem_fuse.mp ha)).2.1
  have hsb := (of_mem_merge hnames hn (mem_fuse.mp hb)).2.1
  obtain ⟨h | ⟨heq, hle⟩, hne⟩ := h
  · left
    rwa [hsa, hsb] at h
  · right
    rw [hsa, hsb] at heq
    exact ⟨heq, lt_of_le_of_ne hle hne⟩

omit [DecidableEq κ] in
/-- Scores order the same keys in one way. -/
theorem eq_of_pairwise_before {s : κ → Rat} {K K' : List κ} (hK : K.Pairwise (Before s))
    (hK' : K'.Pairwise (Before s)) (hperm : K.Perm K') : K = K' :=
  hperm.eq_of_pairwise (fun _ _ _ _ h h' => absurd h' h.asymm) hK hK'

/-- **The order of the keys does not depend on that of the lists.** -/
theorem keys_fuse_eq_of_perm {channels channels' : List (Channel C)}
    (hnames : (channels.map (·.name)).Nodup)
    (hn : ∀ channel ∈ channels, (channel.candidates.map keyOf).Nodup)
    (hperm : channels.Perm channels') :
    keys keyOf (fuse keyOf k channels') = keys keyOf (fuse keyOf k channels) := by
  have hscore : score keyOf k channels' = score keyOf k channels :=
    funext fun key => (hperm.map _).sum_eq.symm
  have hsorted' : (keys keyOf (fuse keyOf k channels')).Pairwise
      (Before (score keyOf k channels')) :=
    keys_fuse_pairwise ((hperm.map _).nodup_iff.mp hnames)
      fun c hc => hn c (hperm.mem_iff.mpr hc)
  rw [hscore] at hsorted'
  refine eq_of_pairwise_before hsorted' (keys_fuse_pairwise hnames hn) ?_
  refine (List.perm_ext_iff_of_nodup (nodup_keys_fuse _) (nodup_keys_fuse _)).mpr fun key => ?_
  rw [mem_keys_fuse, mem_keys_fuse]
  exact exists_congr fun channel => and_congr_left fun _ => hperm.mem_iff.symm

omit [DecidableEq κ] [LinearOrder κ] in
/-- A sort looks at pairs of elements with different keys only. -/
theorem map_insertionSort_of_nodup {α β : Type} {r : α → α → Prop} {s : β → β → Prop}
    [DecidableRel r] [DecidableRel s] (f : α → β) (key : α → κ) {l : List α}
    (hn : (l.map key).Nodup)
    (h : ∀ a ∈ l, ∀ b ∈ l, key a ≠ key b → (r a b ↔ s (f a) (f b))) :
    (l.insertionSort r).map f = (l.map f).insertionSort s := by
  induction l with
  | nil => rfl
  | cons a l ih =>
    obtain ⟨ha, hrest⟩ := List.nodup_cons.mp hn
    have hne : ∀ b ∈ l.insertionSort r, key a ≠ key b := fun b hb heq =>
      ha (List.mem_map.mpr ⟨b, (List.mem_insertionSort r).mp hb, heq.symm⟩)
    have hmem : ∀ b ∈ l.insertionSort r, b ∈ a :: l := fun b hb =>
      List.mem_cons_of_mem a ((List.mem_insertionSort r).mp hb)
    rw [List.map_cons, List.insertionSort_cons, List.insertionSort_cons,
      ← ih hrest fun b hb c hc => h b (List.mem_cons_of_mem a hb) c (List.mem_cons_of_mem a hc)]
    refine List.map_orderedInsert r s f _ a (fun b hb => ?_) fun b hb => ?_
    · exact h b (hmem b hb) a List.mem_cons_self (hne b hb).symm
    · exact h a List.mem_cons_self b (hmem b hb) (hne b hb)

/-- A comparison that is the order of score and key, on elements with different keys, sorts the same
way. -/
theorem map_fuse {β : Type} {s : β → β → Prop} [DecidableRel s] (f : Fused C → β)
    (channels : List (Channel C))
    (h : ∀ a b : Fused C, keyOf a.candidate ≠ keyOf b.candidate →
      (Precedes keyOf a b ↔ s (f a) (f b))) :
    (fuse keyOf k channels).map f = ((merge keyOf k channels).map f).insertionSort s :=
  map_insertionSort_of_nodup f (keyOf ·.candidate) (nodup_keys_merge channels)
    fun a _ b _ hne => h a b hne

/-! ## Moving up -/

omit [DecidableEq κ] in
/-- Where an element stands is how many stand before it. -/
theorem idxOf_eq_countP [DecidableEq κ] {s : κ → Rat} {K : List κ} (hK : K.Pairwise (Before s))
    {key : κ} (hkey : key ∈ K) (p : κ → Bool) (hp : ∀ x, p x = true ↔ Before s x key) :
    K.idxOf key = K.countP p := by
  have hself : p key = false := by
    rw [← Bool.not_eq_true, hp]
    exact fun h => h.asymm h
  induction K with
  | nil => cases hkey
  | cons x K ih =>
    obtain ⟨hx, hrest⟩ := List.pairwise_cons.mp hK
    by_cases h : x = key
    · subst h
      have hnone : K.countP p = 0 := List.countP_eq_zero.mpr fun y hy hpy =>
        (hx y hy).asymm ((hp y).mp hpy)
      rw [List.idxOf_cons_self, List.countP_cons, hself, hnone]
      rfl
    · have hmem : key ∈ K := (List.mem_cons.mp hkey).resolve_left (Ne.symm h)
      have hbeq : (x == key) = false := beq_eq_false_iff_ne.mpr h
      rw [List.idxOf_cons, hbeq, cond_false, List.countP_cons, (hp x).mpr (hx key hmem),
        ih hrest hmem]
      rfl

omit [DecidableEq κ] in
/-- **An element whose score does not fall, among others whose scores do not rise, does not move
down.** -/
theorem idxOf_le_of_scores [DecidableEq κ] {s s' : κ → Rat} {K K' : List κ}
    (hK : K.Pairwise (Before s)) (hK' : K'.Pairwise (Before s')) (hperm : K'.Perm K) {key : κ}
    (hkey : key ∈ K) (hup : s key ≤ s' key) (hothers : ∀ x, x ≠ key → s' x ≤ s x) :
    K'.idxOf key ≤ K.idxOf key := by
  classical
  rw [idxOf_eq_countP hK hkey (Before s · key) fun x => decide_eq_true_iff,
    idxOf_eq_countP hK' (hperm.mem_iff.mpr hkey) (Before s' · key) fun x => decide_eq_true_iff,
    hperm.countP_eq]
  refine List.countP_mono_left fun x _ hx => ?_
  rw [decide_eq_true_iff] at hx ⊢
  have hne : x ≠ key := by
    rintro rfl
    exact hx.asymm hx
  have hle := hothers x hne
  rcases hx with hlt | ⟨heq, hlt⟩
  · exact .inl (lt_of_le_of_lt hup (lt_of_lt_of_le hlt hle))
  · rcases lt_or_eq_of_le (hup.trans (heq ▸ hle)) with hs | hs
    · exact .inl hs
    · exact .inr ⟨hs.symm, hlt⟩

end Order

/-- The list with `key` moved up, past the elements of `q`. -/
def Promoted (key : κ) (K K' : List κ) : Prop :=
  ∃ p q r, K = p ++ q ++ key :: r ∧ K' = p ++ key :: q ++ r

omit [DecidableEq κ] in
theorem Promoted.perm {key : κ} {K K' : List κ} (h : Promoted key K K') : K'.Perm K := by
  obtain ⟨p, q, r, rfl, rfl⟩ := h
  rw [List.append_assoc, List.append_assoc]
  exact (List.perm_middle.symm : (key :: q ++ r).Perm (q ++ key :: r)).append_left p

theorem Promoted.idxOf_self {key : κ} {K K' : List κ} (h : Promoted key K K') (hn : K.Nodup) :
    K'.idxOf key ≤ K.idxOf key := by
  obtain ⟨p, q, r, rfl, rfl⟩ := h
  have hp : key ∉ p ++ q := fun hmem =>
    List.disjoint_of_nodup_append hn hmem List.mem_cons_self
  have hp' : key ∉ p := fun hmem => hp (List.mem_append_left q hmem)
  have hbefore : (p ++ q ++ key :: r).idxOf key = p.length + q.length := by
    rw [List.idxOf_append, if_neg hp, List.idxOf_cons_self, List.length_append, Nat.zero_add]
  have hafter : (p ++ key :: q ++ r).idxOf key = p.length := by
    rw [List.append_assoc, List.idxOf_append, if_neg hp', List.cons_append, List.idxOf_cons_self,
      Nat.zero_add]
  omega

/-- The others keep their place or move down by one. -/
theorem Promoted.idxOf_other {key : κ} {K K' : List κ} (h : Promoted key K K') {x : κ}
    (hx : x ≠ key) : K.idxOf x ≤ K'.idxOf x := by
  obtain ⟨p, q, r, rfl, rfl⟩ := h
  have hbeq : (key == x) = false := beq_eq_false_iff_ne.mpr (Ne.symm hx)
  rw [List.append_assoc, List.append_assoc]
  by_cases hp : x ∈ p
  · rw [List.idxOf_append, if_pos hp, List.idxOf_append, if_pos hp]
  · have hbefore : (q ++ key :: r).idxOf x ≤ (q ++ r).idxOf x + 1 := by
      rw [List.idxOf_append, List.idxOf_append, List.idxOf_cons, hbeq, cond_false]
      split
      · omega
      · omega
    have hafter : (key :: q ++ r).idxOf x = (q ++ r).idxOf x + 1 := by
      rw [List.cons_append, List.idxOf_cons, hbeq, cond_false]
    have hskip : ∀ l : List κ, (p ++ l).idxOf x = l.idxOf x + p.length := fun l => by
      rw [List.idxOf_append, if_neg hp]
    rw [hskip, hskip, hafter]
    omega

/-- One list is the other with `key` moved up, or the same. -/
def Lifted (keyOf : C → κ) (key : κ) (channel channel' : Channel C) : Prop :=
  channel'.name = channel.name ∧
    (channel'.candidates.map keyOf = channel.candidates.map keyOf ∨
      Promoted key (channel.candidates.map keyOf) (channel'.candidates.map keyOf))

theorem one_div_add_antitone (hk : 0 < k) {m n : Nat} (h : m ≤ n) :
    1 / (k + (n + 1 : Nat)) ≤ 1 / (k + (m + 1 : Nat)) := by
  have hm : (0 : Rat) ≤ ((m + 1 : Nat) : Rat) := Nat.cast_nonneg _
  refine one_div_le_one_div_of_le (by linarith) ?_
  have hcast : ((m + 1 : Nat) : Rat) ≤ ((n + 1 : Nat) : Rat) := Nat.cast_le.mpr (by omega)
  linarith

theorem Lifted.contribution_self (hk : 0 < k) {key : κ} {channel channel' : Channel C}
    (h : Lifted keyOf key channel channel') (hn : (channel.candidates.map keyOf).Nodup) :
    contribution keyOf k key channel.candidates ≤ contribution keyOf k key channel'.candidates := by
  unfold contribution
  rcases h.2 with heq | hpromoted
  · rw [heq]
  · rw [if_congr hpromoted.perm.mem_iff rfl rfl]
    split
    · exact one_div_add_antitone hk (hpromoted.idxOf_self hn)
    · exact le_refl _

theorem Lifted.contribution_other (hk : 0 < k) {key : κ} {channel channel' : Channel C}
    (h : Lifted keyOf key channel channel') {x : κ} (hx : x ≠ key) :
    contribution keyOf k x channel'.candidates ≤ contribution keyOf k x channel.candidates := by
  unfold contribution
  rcases h.2 with heq | hpromoted
  · rw [heq]
  · rw [if_congr hpromoted.perm.mem_iff rfl rfl]
    split
    · exact one_div_add_antitone hk (hpromoted.idxOf_other hx)
    · exact le_refl _

omit [DecidableEq κ] in
theorem Lifted.mem_iff {key : κ} {channel channel' : Channel C}
    (h : Lifted keyOf key channel channel') (x : κ) :
    x ∈ channel'.candidates.map keyOf ↔ x ∈ channel.candidates.map keyOf := by
  rcases h.2 with heq | hpromoted
  · rw [heq]
  · exact hpromoted.perm.mem_iff

omit [DecidableEq κ] in
theorem Lifted.nodup {key : κ} {channel channel' : Channel C}
    (h : Lifted keyOf key channel channel') (hn : (channel.candidates.map keyOf).Nodup) :
    (channel'.candidates.map keyOf).Nodup := by
  rcases h.2 with heq | hpromoted
  · rw [heq]
    exact hn
  · exact hpromoted.perm.nodup_iff.mpr hn

section

variable {key : κ} {channels channels' : List (Channel C)}

omit [DecidableEq κ] in
theorem lifted_names (h : List.Forall₂ (Lifted keyOf key) channels channels') :
    channels'.map (·.name) = channels.map (·.name) := by
  induction h with
  | nil => rfl
  | cons hd _ ih => rw [List.map_cons, List.map_cons, ih, hd.1]

omit [DecidableEq κ] in
theorem lifted_nodup (h : List.Forall₂ (Lifted keyOf key) channels channels')
    (hn : ∀ channel ∈ channels, (channel.candidates.map keyOf).Nodup) :
    ∀ channel ∈ channels', (channel.candidates.map keyOf).Nodup := by
  induction h with
  | nil => exact fun _ hmem => absurd hmem List.not_mem_nil
  | cons hd _ ih =>
    obtain ⟨hfirst, hrest⟩ := List.forall_mem_cons.mp hn
    exact List.forall_mem_cons.mpr ⟨hd.nodup hfirst, ih hrest⟩

omit [DecidableEq κ] in
theorem lifted_mem (h : List.Forall₂ (Lifted keyOf key) channels channels') (x : κ) :
    (∃ channel ∈ channels', x ∈ channel.candidates.map keyOf) ↔
      ∃ channel ∈ channels, x ∈ channel.candidates.map keyOf := by
  induction h with
  | nil => rfl
  | cons hd _ ih => rw [List.exists_mem_cons_iff, List.exists_mem_cons_iff, hd.mem_iff, ih]

theorem lifted_score_self (hk : 0 < k) (h : List.Forall₂ (Lifted keyOf key) channels channels')
    (hn : ∀ channel ∈ channels, (channel.candidates.map keyOf).Nodup) :
    score keyOf k channels key ≤ score keyOf k channels' key := by
  unfold score
  induction h with
  | nil => exact le_refl _
  | cons hd _ ih =>
    obtain ⟨hfirst, hrest⟩ := List.forall_mem_cons.mp hn
    rw [List.map_cons, List.map_cons, List.sum_cons, List.sum_cons]
    exact add_le_add (hd.contribution_self hk hfirst) (ih hrest)

theorem lifted_score_other (hk : 0 < k) (h : List.Forall₂ (Lifted keyOf key) channels channels')
    {x : κ} (hx : x ≠ key) : score keyOf k channels' x ≤ score keyOf k channels x := by
  unfold score
  induction h with
  | nil => exact le_refl _
  | cons hd _ ih =>
    rw [List.map_cons, List.map_cons, List.sum_cons, List.sum_cons]
    exact add_le_add (hd.contribution_other hk hx) ih

/-- **An element that is moved up in some of the lists does not move down in the merged one.** -/
theorem idxOf_fuse_le [LinearOrder κ] (hk : 0 < k) (hnames : (channels.map (·.name)).Nodup)
    (hn : ∀ channel ∈ channels, (channel.candidates.map keyOf).Nodup)
    (h : List.Forall₂ (Lifted keyOf key) channels channels')
    (hkey : key ∈ keys keyOf (fuse keyOf k channels)) :
    (keys keyOf (fuse keyOf k channels')).idxOf key ≤
      (keys keyOf (fuse keyOf k channels)).idxOf key := by
  refine idxOf_le_of_scores (keys_fuse_pairwise hnames hn)
    (keys_fuse_pairwise (lifted_names h ▸ hnames) (lifted_nodup h hn)) ?_ hkey
    (lifted_score_self hk h hn) fun x hx => lifted_score_other hk h hx
  refine (List.perm_ext_iff_of_nodup (nodup_keys_fuse _) (nodup_keys_fuse _)).mpr fun x => ?_
  rw [mem_keys_fuse, mem_keys_fuse, lifted_mem h x]

end

end RankFusion
