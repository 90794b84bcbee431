import Mathlib.Data.List.Basic

/-!
# Texts joined by a separator

A joined text tells the pieces between its separators, and nothing of which of them belong to one
part.

* `joined_eq_iff` — two lists of parts are joined alike iff their pieces, read through, are the same
* `eq_of_joined` — they are the same where each part has as many separators in both
-/

namespace JoinedText

variable {α : Type*} [DecidableEq α] {sep : α} {ps qs : List (List α)}

/-- The parts with a separator between them. -/
def joined (sep : α) : List (List α) → List α
  | [] => []
  | [p] => p
  | p :: ps => p ++ sep :: joined sep ps

/-- What stands between the separators, in the parts and around them. -/
def pieces (sep : α) (ps : List (List α)) : List (List α) := ps.flatMap (·.splitOn sep)

omit [DecidableEq α] in
theorem joined_cons (p : List α) (hne : ps ≠ []) :
    joined sep (p :: ps) = p ++ sep :: joined sep ps := by
  cases ps with
  | nil => exact absurd rfl hne
  | cons q ps => rfl

theorem splitOn_joined (hne : ps ≠ []) : (joined sep ps).splitOn sep = pieces sep ps := by
  induction ps with
  | nil => exact absurd rfl hne
  | cons p ps ih =>
    rw [pieces, List.flatMap_cons]
    by_cases hps : ps = []
    · subst hps
      rw [List.flatMap_nil, List.append_nil]
      rfl
    · have hsplit : (p ++ sep :: joined sep ps).splitOnP (· == sep) =
          p.splitOnP (· == sep) ++ (joined sep ps).splitOnP (· == sep) :=
        List.splitOnP_append_cons p (joined sep ps) (beq_self_eq_true sep)
      rw [joined_cons p hps, List.splitOn_eq_splitOnP, hsplit]
      exact congrArg (p.splitOn sep ++ ·) (ih hps)

/-- **Two lists of parts are joined alike iff their pieces are the same.** -/
theorem joined_eq_iff (hp : ps ≠ []) (hq : qs ≠ []) :
    joined sep ps = joined sep qs ↔ pieces sep ps = pieces sep qs := by
  rw [← splitOn_joined hp, ← splitOn_joined hq]
  constructor
  · intro h
    rw [h]
  · intro h
    have hback := congrArg [sep].intercalate h
    rwa [List.intercalate_splitOn, List.intercalate_splitOn] at hback

theorem pieces_append : pieces sep (ps ++ qs) = pieces sep ps ++ pieces sep qs :=
  List.flatMap_append

theorem pieces_singleton {p : List α} (h : sep ∉ p) : pieces sep [p] = [p] := by
  rw [pieces, List.flatMap_singleton, List.splitOn_eq_splitOnP]
  exact List.splitOnP_eq_singleton fun c hc =>
    beq_eq_false_iff_ne.mpr fun heq => h (heq ▸ hc)

/-- A last part without separators is told. -/
theorem joined_concat_eq_iff {p q : List α} (hp : sep ∉ p) (hq : sep ∉ q) :
    joined sep (ps ++ [p]) = joined sep (qs ++ [q]) ↔ pieces sep ps = pieces sep qs ∧ p = q := by
  rw [joined_eq_iff (List.append_ne_nil_of_right_ne_nil _ (List.cons_ne_nil _ _))
    (List.append_ne_nil_of_right_ne_nil _ (List.cons_ne_nil _ _)), pieces_append, pieces_append,
    pieces_singleton hp, pieces_singleton hq]
  constructor
  · intro h
    obtain ⟨hids, hlast⟩ := List.append_inj' h rfl
    exact ⟨hids, (List.cons.inj hlast).1⟩
  · rintro ⟨hids, rfl⟩
    rw [hids]

/-- Two first parts with as many separators end at the same place. -/
theorem append_cons_inj {p q P Q : List α} (hc : p.count sep = q.count sep)
    (h : p ++ sep :: P = q ++ sep :: Q) : p = q ∧ P = Q := by
  induction p generalizing q with
  | nil =>
    cases q with
    | nil => exact ⟨rfl, (List.cons.inj h).2⟩
    | cons c q =>
      obtain ⟨rfl, -⟩ := List.cons.inj h
      rw [List.count_nil, List.count_cons_self] at hc
      exact absurd hc (Nat.succ_ne_zero _).symm
  | cons a p ih =>
    cases q with
    | nil =>
      obtain ⟨rfl, -⟩ := List.cons.inj h
      rw [List.count_nil, List.count_cons_self] at hc
      exact absurd hc (Nat.succ_ne_zero _)
    | cons c q =>
      obtain ⟨rfl, htail⟩ := List.cons.inj h
      rw [List.count_cons, List.count_cons] at hc
      obtain ⟨rfl, hrest⟩ := ih (Nat.add_right_cancel hc) htail
      exact ⟨rfl, hrest⟩

/-- **Parts with as many separators, one by one, are told by the joined text.** -/
theorem eq_of_joined (hc : ps.map (List.count sep) = qs.map (List.count sep))
    (h : joined sep ps = joined sep qs) : ps = qs := by
  induction ps generalizing qs with
  | nil => exact (List.map_eq_nil_iff.mp hc.symm).symm
  | cons p ps ih =>
    obtain ⟨q, qs, rfl⟩ := List.exists_cons_of_ne_nil fun (hq : qs = []) => by
      subst hq
      cases hc
    obtain ⟨hhead, htail⟩ := List.cons.inj hc
    by_cases hps : ps = []
    · subst hps
      obtain rfl := List.map_eq_nil_iff.mp htail.symm
      exact congrArg ([·]) h
    · have hqs : qs ≠ [] := fun hq => hps (List.map_eq_nil_iff.mp (by rw [htail, hq]; rfl))
      rw [joined_cons p hps, joined_cons q hqs] at h
      obtain ⟨rfl, hrest⟩ := append_cons_inj hhead h
      rw [ih htail hrest]

/-! ## Numbers among the parts -/

theorem isDigit_of_mem_toString {n : Nat} {c : Char} (h : c ∈ (toString n).toList) :
    c.isDigit = true := by
  rw [show toString n = Nat.repr n from rfl, Nat.toList_repr] at h
  exact Nat.isDigit_of_mem_toDigits (by decide) (by decide) h

theorem count_toString {c : Char} (hc : c.isDigit = false) (n : Nat) :
    (toString n).toList.count c = 0 :=
  List.count_eq_zero.mpr fun h => by simp [isDigit_of_mem_toString h] at hc

theorem toString_inj {m n : Nat} (h : (toString m).toList = (toString n).toList) : m = n := by
  rw [show toString m = Nat.repr m from rfl, show toString n = Nat.repr n from rfl,
    Nat.toList_repr, Nat.toList_repr] at h
  have hback := congrArg (Nat.ofDigitChars 10 · 0) h
  simpa only [Nat.ofDigitChars_ten_toDigits] using hback

end JoinedText
