import Mathlib.Data.List.DropRight
import Mathlib.Data.List.Infix

/-!
# Cuts of a text

A text is cut behind the first occurrence of a separator, in front of the last occurrence of a
character, and a start or an end is taken from it once. It is also cut into slices of one length.

* `behind_eq_none_iff`, `behind_append` — the first occurrence
* `beforeLast_append`, `exists_beforeLast` — the last occurrence
* `beforeLast_eq_self_iff`, `withoutStart_eq_self_iff`, `withoutEnd_eq_self_iff` — what is left as
  it is
* `toChunks_eq_slices` — the slices as they are made one after the other
* `infix_flatten_iff` — what occurs in texts that are joined
-/

namespace VegaRevenue.TextCuts

variable {α : Type*} [DecidableEq α]

/-! ## Occurrences -/

omit [DecidableEq α] in
/-- An occurrence starts with its first character. -/
theorem infix_of_append_left {a : α} {as l r : List α} (h : a ∉ l) (hocc : a :: as <:+: l ++ r) :
    a :: as <:+: r := by
  induction l with
  | nil => exact hocc
  | cons b l ih =>
    rcases List.infix_cons_iff.mp hocc with hfront | hrest
    · obtain rfl := (List.cons_prefix_cons.mp hfront).1
      exact absurd List.mem_cons_self h
    · exact ih (fun ha => h (List.mem_cons_of_mem b ha)) hrest

omit [DecidableEq α] in
/-! ## The first occurrence -/

/-- What stands behind the first occurrence of a separator. -/
def behind (sep : List α) : List α → Option (List α)
  | [] => if sep = [] then some [] else none
  | c :: cs => if sep <+: c :: cs then some ((c :: cs).drop sep.length) else behind sep cs

theorem behind_eq_none_iff (sep cs : List α) : behind sep cs = none ↔ ¬ sep <:+: cs := by
  induction cs with
  | nil => simp [behind, List.infix_nil]
  | cons c cs ih =>
    rw [behind, List.infix_cons_iff]
    by_cases hfront : sep <+: c :: cs
    · simp [hfront]
    · simp [hfront, ih]

theorem behind_suffix {sep cs y : List α} (h : behind sep cs = some y) : y <:+ cs := by
  induction cs with
  | nil =>
    unfold behind at h
    split at h
    · cases h
      exact List.suffix_rfl
    · cases h
  | cons c cs ih =>
    unfold behind at h
    split at h
    · cases h
      exact List.drop_suffix _ _
    · exact (ih h).trans (List.suffix_cons c cs)

/-- A text without the first character of the separator is skipped. -/
theorem behind_append {a : α} {as x : List α} (h : a ∉ x) (y : List α) :
    behind (a :: as) (x ++ (a :: as) ++ y) = some y := by
  induction x with
  | nil =>
    have hfront : a :: as <+: a :: (as ++ y) := List.prefix_append (a :: as) y
    rw [List.nil_append, List.cons_append, behind, if_pos hfront, ← List.cons_append,
      List.drop_left]
  | cons b x ih =>
    have hne : ¬ a :: as <+: b :: (x ++ (a :: as) ++ y) := by
      intro hfront
      obtain rfl := (List.cons_prefix_cons.mp hfront).1
      exact h List.mem_cons_self
    rw [List.cons_append, List.cons_append, behind, if_neg hne]
    exact ih fun ha => h (List.mem_cons_of_mem b ha)

/-! ## The last occurrence -/

/-- What stands before the last occurrence of a character; all, if there is none. -/
def beforeLast (a : α) (cs : List α) : List α :=
  if a ∈ cs then (cs.rdropWhile (· ≠ a)).dropLast else cs

theorem beforeLast_of_not_mem {a : α} {cs : List α} (h : a ∉ cs) : beforeLast a cs = cs :=
  if_neg h

theorem beforeLast_append {a : α} {y : List α} (h : a ∉ y) (x : List α) :
    beforeLast a (x ++ a :: y) = x := by
  have hrest : (x ++ a :: y).rdropWhile (· ≠ a) = x ++ [a] := by
    have hy : ∀ c ∈ y.reverse, (decide (c ≠ a)) = true := by
      intro c hc
      have hne : c ≠ a := fun hca => h (hca ▸ List.mem_reverse.mp hc)
      simpa using hne
    unfold List.rdropWhile
    rw [List.reverse_append, List.reverse_cons, List.append_assoc,
      List.dropWhile_append_of_pos hy]
    simp
  rw [beforeLast, if_pos (by simp), hrest, List.dropLast_concat]

/-- A character that occurs has a last occurrence. -/
theorem exists_beforeLast {a : α} {cs : List α} (h : a ∈ cs) :
    ∃ y, cs = beforeLast a cs ++ a :: y ∧ a ∉ y := by
  obtain ⟨x, y, rfl, hy⟩ : ∃ x y, cs = x ++ a :: y ∧ a ∉ y := by
    obtain ⟨y, x, heq, hy⟩ := List.eq_append_cons_of_mem (List.mem_reverse.mpr h)
    refine ⟨x.reverse, y.reverse, ?_, by simpa using hy⟩
    rw [← List.reverse_reverse cs, heq]
    simp
  exact ⟨y, by rw [beforeLast_append hy], hy⟩

theorem prefix_beforeLast (a : α) (cs : List α) : beforeLast a cs <+: cs := by
  by_cases h : a ∈ cs
  · obtain ⟨y, heq, -⟩ := exists_beforeLast h
    exact ⟨a :: y, heq.symm⟩
  · rw [beforeLast_of_not_mem h]

theorem beforeLast_eq_self_iff {a : α} {cs : List α} : beforeLast a cs = cs ↔ a ∉ cs := by
  refine ⟨fun heq h => ?_, beforeLast_of_not_mem⟩
  obtain ⟨y, hy, -⟩ := exists_beforeLast h
  have hlen := congrArg List.length hy
  rw [heq] at hlen
  simp at hlen

/-! ## Starts and ends -/

def withoutStart (p cs : List α) : List α := if p <+: cs then cs.drop p.length else cs

def withoutEnd (a : α) (cs : List α) : List α := if cs.getLast? = some a then cs.dropLast else cs

theorem withoutStart_append (p cs : List α) : withoutStart p (p ++ cs) = cs := by
  rw [withoutStart, if_pos (List.prefix_append p cs), List.drop_left]

theorem withoutStart_suffix (p cs : List α) : withoutStart p cs <:+ cs := by
  unfold withoutStart
  split
  · exact List.drop_suffix _ _
  · exact List.suffix_rfl

theorem withoutStart_eq_self_iff {p cs : List α} (hp : p ≠ []) :
    withoutStart p cs = cs ↔ ¬ p <+: cs := by
  refine ⟨fun heq h => ?_, fun h => if_neg h⟩
  obtain ⟨rest, rfl⟩ := h
  rw [withoutStart_append] at heq
  have hlen := congrArg List.length heq
  rw [List.length_append] at hlen
  exact hp (List.length_eq_zero_iff.mp (by omega))

theorem withoutEnd_concat (a : α) (cs : List α) : withoutEnd a (cs ++ [a]) = cs := by
  rw [withoutEnd, if_pos (by simp), List.dropLast_concat]

theorem prefix_withoutEnd (a : α) (cs : List α) : withoutEnd a cs <+: cs := by
  unfold withoutEnd
  split
  · exact List.dropLast_prefix cs
  · exact List.prefix_rfl

theorem exists_withoutEnd {a : α} {cs : List α} (h : cs.getLast? = some a) :
    cs = withoutEnd a cs ++ [a] := by
  obtain ⟨rest, rfl⟩ := List.getLast?_eq_some_iff.mp h
  rw [withoutEnd_concat]

theorem withoutEnd_eq_self_iff {a : α} {cs : List α} :
    withoutEnd a cs = cs ↔ cs.getLast? ≠ some a := by
  refine ⟨fun heq h => ?_, fun h => if_neg h⟩
  have hlen := congrArg List.length (exists_withoutEnd h)
  rw [heq] at hlen
  simp at hlen

/-! ## Slices -/

section

omit [DecidableEq α]

variable {β : Type*} {n : Nat}

/-- The slices that begin at the multiples of `n`. -/
def slices (n : Nat) (cs : List α) : List (List α) :=
  (List.range ((cs.length + n - 1) / n)).map fun k => (cs.drop (k * n)).take n

theorem slices_of_ne_nil (hn : 0 < n) {cs : List α} (h : cs ≠ []) :
    slices n cs = cs.take n :: slices n (cs.drop n) := by
  have hpos := List.length_pos_iff.mpr h
  have hcount : (cs.length + n - 1) / n = ((cs.drop n).length + n - 1) / n + 1 := by
    rw [List.length_drop]
    rcases Nat.lt_or_ge n cs.length with hlt | hge
    · rw [show cs.length + n - 1 = (cs.length - n + n - 1) + n by omega, Nat.add_div_right _ hn]
    · rw [show cs.length - n + n - 1 = n - 1 by omega, Nat.div_eq_of_lt (by omega : n - 1 < n)]
      rw [show cs.length + n - 1 = (cs.length - 1) + n by omega, Nat.add_div_right _ hn,
        Nat.div_eq_of_lt (by omega : cs.length - 1 < n)]
  unfold slices
  rw [hcount, List.range_succ_eq_map, List.map_cons, List.map_map, Nat.zero_mul, List.drop_zero]
  refine congrArg _ (List.map_congr_left fun k _ => ?_)
  rw [Function.comp_apply, List.drop_drop, Nat.succ_mul, Nat.add_comm]

theorem slices_nil (hn : 0 < n) : slices n ([] : List α) = [] := by
  unfold slices
  rw [List.length_nil, Nat.div_eq_of_lt (by omega)]
  rfl

/-- The slice that is being made, and the slices before it. -/
theorem toChunks_go_eq (hn : 0 < n) (cs : List α) {a : Array α} (done : Array (List α))
    (ha : a.toList ≠ []) (hsize : a.size ≤ n) :
    List.toChunks.go n cs a done = done.toList ++ slices n (a.toList ++ cs) := by
  induction cs generalizing a done with
  | nil =>
    rw [List.toChunks.go, List.append_nil, slices_of_ne_nil hn ha,
      List.take_of_length_le (by simpa using hsize), List.drop_eq_nil_of_le (by simpa using hsize),
      slices_nil hn]
    simp
  | cons c cs ih =>
    rw [List.toChunks.go]
    by_cases hfull : a.size = n
    · rw [if_pos (by simpa using hfull), ih (done.push a.toList) (by simp) (by simp; omega),
        slices_of_ne_nil hn (List.append_ne_nil_of_left_ne_nil ha _),
        List.take_left' (by simpa using hfull), List.drop_left' (by simpa using hfull)]
      simp
    · rw [if_neg (by simpa using hfull), ih done (by simp) (by simp; omega)]
      simp

/-- **The slices as they are made one after the other.** -/
theorem toChunks_eq_slices (hn : 0 < n) {cs : List α} : cs.toChunks n = slices n cs := by
  cases cs with
  | nil => rw [slices_nil hn, List.toChunks]
  | cons c cs =>
    cases n with
    | zero => cases hn
    | succ n =>
      rw [List.toChunks, toChunks_go_eq hn cs #[] (by simp) (by simp)]
      · simp
      · simp

theorem map_slices (f : α → β) (cs : List α) : slices n (cs.map f) = (slices n cs).map (List.map f) := by
  unfold slices
  rw [List.length_map, List.map_map]
  refine List.map_congr_left fun k _ => ?_
  rw [Function.comp_apply, List.map_take, List.map_drop]

theorem getElem?_slices {cs slice : List α} {k : Nat} (h : (slices n cs)[k]? = some slice) :
    slice = (cs.drop (k * n)).take n := by
  unfold slices at h
  rw [List.getElem?_map, Option.map_eq_some_iff] at h
  obtain ⟨j, hj, rfl⟩ := h
  obtain ⟨hlt, rfl⟩ := List.getElem?_eq_some_iff.mp hj
  rw [List.getElem_range]

/-! ## Texts that are joined -/

/-- **What occurs in texts that are joined occurs in one of them, or across a border.** -/
theorem infix_flatten_iff {m : List α} (hm : m ≠ []) {texts : List (List α)} :
    m <:+: texts.flatten ↔ (∃ text ∈ texts, m <:+: text) ∨
      ∃ left right x y, texts = left ++ right ∧ m = x ++ y ∧ x ≠ [] ∧ y ≠ [] ∧
        x <:+ left.flatten ∧ y <+: right.flatten := by
  constructor
  · intro h
    induction texts with
    | nil => exact absurd (List.eq_nil_of_infix_nil h) hm
    | cons text texts ih =>
      rw [List.flatten_cons, List.infix_append_iff_ne_nil] at h
      rcases h with hfirst | hrest | ⟨x, y, hx, hy, rfl, hsuffix, hprefix⟩
      · exact .inl ⟨text, List.mem_cons_self, hfirst⟩
      · rcases ih hrest with ⟨text', htext, hin⟩ | ⟨left, right, x, y, rfl, hxy, hx, hy, hs, hp⟩
        · exact .inl ⟨text', List.mem_cons_of_mem _ htext, hin⟩
        · exact .inr ⟨text :: left, right, x, y, rfl, hxy, hx, hy,
            hs.trans (List.suffix_append _ _), hp⟩
      · exact .inr ⟨[text], texts, x, y, rfl, rfl, hx, hy, by simpa using hsuffix, hprefix⟩
  · rintro (⟨text, htext, h⟩ | ⟨left, right, x, y, rfl, rfl, -, -, ⟨s, hs⟩, ⟨t, ht⟩⟩)
    · exact h.trans (List.infix_of_mem_flatten htext)
    · refine ⟨s, t, ?_⟩
      rw [List.flatten_append, ← hs, ← ht]
      simp

end

end VegaRevenue.TextCuts
