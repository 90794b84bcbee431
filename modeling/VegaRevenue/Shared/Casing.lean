import Mathlib.Data.List.DropRight
import VegaRevenue.Shared.Text

/-!
# The lower case of Unicode

`toLowerCase` maps every character by the tables of Unicode, but a capital sigma by what stands
around it. The tables are a parameter; what the algorithm relies on is part of them.

* `toLowerCase_idem` — a text in lower case stays as it is
* `trim_toLowerCase_trim` — the lower case of a trimmed text is trimmed
-/

namespace VegaRevenue

/-! ## Trimmed texts -/

/-- Neither end of the text is white space. -/
def Trimmed (cs : List Char) : Prop :=
  (∀ c ∈ cs.head?, jsSpace c = false) ∧ ∀ c ∈ cs.getLast?, jsSpace c = false

theorem toList_trim (s : String) :
    (trim s).toList = (s.toList.dropWhile jsSpace).rdropWhile jsSpace := by
  unfold trim List.rdropWhile
  rw [String.toList_ofList]

theorem head?_dropWhile {α : Type} {p : α → Bool} (l : List α) :
    ∀ c ∈ (l.dropWhile p).head?, p c = false := by
  intro c hc
  have hhead := List.head?_dropWhile_not p l
  rw [hc] at hhead
  exact hhead

/-- What is left between the two ends that are dropped. -/
theorem ends_of_dropWhile {α : Type} {p : α → Bool} (l : List α) :
    (∀ c ∈ ((l.dropWhile p).rdropWhile p).head?, p c = false) ∧
      ∀ c ∈ ((l.dropWhile p).rdropWhile p).getLast?, p c = false := by
  constructor
  · intro c hc
    obtain ⟨rest, hrest⟩ := List.rdropWhile_prefix p (l.dropWhile p)
    have hhead : (l.dropWhile p).head? = some c := by
      rw [← hrest, List.head?_append, hc]
      rfl
    exact head?_dropWhile l c hhead
  · intro c hc
    have hne : (l.dropWhile p).rdropWhile p ≠ [] := by
      intro hnil
      rw [hnil] at hc
      cases hc
    have hlast := List.getLast?_eq_getLast_of_ne_nil hne
    rw [hc] at hlast
    have hnot := List.rdropWhile_last_not p (l.dropWhile p) hne
    rw [← Option.some.inj hlast] at hnot
    simpa using hnot

/-- A list that ends in neither way has nothing to drop. -/
theorem dropWhile_rdropWhile_eq_self {α : Type} {p : α → Bool} {l : List α}
    (hhead : ∀ c ∈ l.head?, p c = false) (hlast : ∀ c ∈ l.getLast?, p c = false) :
    (l.dropWhile p).rdropWhile p = l := by
  have hdrop : l.dropWhile p = l := by
    cases l with
    | nil => rfl
    | cons c cs =>
      have hc := hhead c rfl
      rw [List.dropWhile_cons_of_neg (by rw [hc]; nofun)]
  rw [hdrop, List.rdropWhile_eq_self_iff]
  intro hne
  have hl := hlast (l.getLast hne) (List.getLast?_eq_getLast_of_ne_nil hne)
  simp [hl]

theorem trimmed_trim (s : String) : Trimmed (trim s).toList := by
  rw [toList_trim]
  exact ends_of_dropWhile s.toList

theorem trim_of_trimmed {s : String} (h : Trimmed s.toList) : trim s = s := by
  apply String.toList_inj.mp
  rw [toList_trim]
  exact dropWhile_rdropWhile_eq_self h.1 h.2

/-! ## Lower case -/

/-- What `toLowerCase` reads of the Unicode character database. -/
structure Casing where
  /-- The full mapping, without a context. -/
  lower : Char → List Char
  cased : Char → Bool
  caseIgnorable : Char → Bool
  lower_sigma : lower 'Σ' = ['σ'] ∧ lower 'ς' = ['ς']
  lower_ne_nil : ∀ c, lower c ≠ []
  lower_lower : ∀ c, ∀ d ∈ lower c, lower d = [d]
  lower_space : ∀ c, ∀ d ∈ lower c, jsSpace d = jsSpace c
  /-- The replacement character is no letter and stands between words. -/
  replacement : cased '\ufffd' = false ∧ caseIgnorable '\ufffd' = false

namespace Casing

variable (u : Casing)

/-- A capital sigma ends a word: a cased character stands before it and none after it. -/
def finalSigma (before after : List Char) : Bool :=
  (before.dropWhile u.caseIgnorable).head?.any u.cased &&
    !(after.dropWhile u.caseIgnorable).head?.any u.cased

/-- The lower case of one character; the characters before it are in reverse. -/
def lowerAt (before : List Char) (c : Char) (after : List Char) : List Char :=
  if c = 'Σ' ∧ u.finalSigma before after then ['ς'] else u.lower c

def lowerFrom : (before cs : List Char) → List Char
  | _, [] => []
  | before, c :: after => u.lowerAt before c after ++ lowerFrom (c :: before) after

/-- `s.toLowerCase()`. -/
def toLowerCase (s : String) : String := String.ofList (u.lowerFrom [] s.toList)

variable {u}

theorem lowerAt_ne_nil (before : List Char) (c : Char) (after : List Char) :
    u.lowerAt before c after ≠ [] := by
  unfold lowerAt
  split
  · exact List.cons_ne_nil _ _
  · exact u.lower_ne_nil c

theorem lowerAt_lower (before : List Char) (c : Char) (after : List Char) :
    ∀ d ∈ u.lowerAt before c after, u.lower d = [d] := by
  unfold lowerAt
  split
  · intro d hd
    rw [List.mem_singleton.mp hd]
    exact u.lower_sigma.2
  · exact u.lower_lower c

theorem lowerAt_space (before : List Char) {c : Char} (after : List Char)
    (hc : jsSpace c = false) : ∀ d ∈ u.lowerAt before c after, jsSpace d = false := by
  unfold lowerAt
  split
  · intro d hd
    rw [List.mem_singleton.mp hd]
    decide
  · intro d hd
    rw [u.lower_space c d hd]
    exact hc

theorem lowerFrom_lower (cs : List Char) :
    ∀ before, ∀ d ∈ u.lowerFrom before cs, u.lower d = [d] := by
  induction cs with
  | nil => exact fun _ _ hd => absurd hd List.not_mem_nil
  | cons c after ih =>
    intro before d hd
    rcases List.mem_append.mp hd with hd | hd
    · exact lowerAt_lower before c after d hd
    · exact ih (c :: before) d hd

/-- No capital sigma is its own lower case. -/
theorem ne_sigma_of_lower {d : Char} (h : u.lower d = [d]) : d ≠ 'Σ' := by
  rintro rfl
  rw [u.lower_sigma.1] at h
  exact absurd h (by decide)

/-- The lower case of a text between two others; the text before it is in reverse. -/
def lowerIn (u : Casing) : (before cs after : List Char) → List Char
  | _, [], _ => []
  | before, c :: cs, after => u.lowerAt before c (cs ++ after) ++ lowerIn u (c :: before) cs after

theorem lowerFrom_append (cs after : List Char) :
    ∀ before, u.lowerFrom before (cs ++ after) =
      u.lowerIn before cs after ++ u.lowerFrom (cs.reverse ++ before) after := by
  induction cs with
  | nil => exact fun _ => rfl
  | cons c cs ih =>
    intro before
    rw [List.cons_append, lowerFrom, lowerIn, ih, List.reverse_cons, List.append_assoc,
      List.append_assoc, List.singleton_append]

theorem lowerFrom_eq_lowerIn (before cs : List Char) :
    u.lowerFrom before cs = u.lowerIn before cs [] := by
  have happend := lowerFrom_append (u := u) cs [] before
  rwa [List.append_nil, lowerFrom, List.append_nil] at happend

theorem lowerIn_append (xs ys after : List Char) :
    ∀ before, u.lowerIn before (xs ++ ys) after =
      u.lowerIn before xs (ys ++ after) ++ u.lowerIn (xs.reverse ++ before) ys after := by
  induction xs with
  | nil => exact fun _ => rfl
  | cons c xs ih =>
    intro before
    rw [List.cons_append, lowerIn, lowerIn, ih, List.reverse_cons, List.append_assoc,
      List.append_assoc, List.append_assoc, List.singleton_append]

theorem lowerIn_of_lower (cs after before : List Char) (h : ∀ d ∈ cs, u.lower d = [d]) :
    u.lowerIn before cs after = cs := by
  induction cs generalizing before with
  | nil => rfl
  | cons c cs ih =>
    have hc := h c List.mem_cons_self
    have hat : u.lowerAt before c (cs ++ after) = [c] := by
      unfold lowerAt
      rw [if_neg fun hsigma => ne_sigma_of_lower hc hsigma.1, hc]
    rw [lowerIn, hat, ih (c :: before) fun d hd => h d (List.mem_cons_of_mem c hd),
      List.singleton_append]

theorem lowerFrom_of_lower (cs before : List Char) (h : ∀ d ∈ cs, u.lower d = [d]) :
    u.lowerFrom before cs = cs := by
  rw [lowerFrom_eq_lowerIn]
  exact lowerIn_of_lower cs [] before h

/-- **A text in lower case stays as it is.** -/
theorem toLowerCase_idem (s : String) : u.toLowerCase (u.toLowerCase s) = u.toLowerCase s := by
  apply String.toList_inj.mp
  unfold toLowerCase
  rw [String.toList_ofList, String.toList_ofList]
  exact lowerFrom_of_lower _ [] (lowerFrom_lower s.toList [])

theorem head_lowerFrom (before : List Char) {cs : List Char}
    (h : ∀ c ∈ cs.head?, jsSpace c = false) :
    ∀ d ∈ (u.lowerFrom before cs).head?, jsSpace d = false := by
  cases cs with
  | nil => exact fun _ hd => nomatch hd
  | cons c after =>
    intro d hd
    rw [lowerFrom, List.head?_append_of_ne_nil _ (lowerAt_ne_nil before c after)] at hd
    exact lowerAt_space before after (h c rfl) d (List.mem_of_mem_head? hd)

theorem last_lowerFrom (cs : List Char) :
    ∀ before, (∀ c ∈ cs.getLast?, jsSpace c = false) →
      ∀ d ∈ (u.lowerFrom before cs).getLast?, jsSpace d = false := by
  induction cs with
  | nil => exact fun _ _ _ hd => nomatch hd
  | cons c after ih =>
    intro before h d hd
    cases after with
    | nil =>
      rw [lowerFrom, lowerFrom, List.append_nil] at hd
      exact lowerAt_space before [] (h c rfl) d (List.mem_of_mem_getLast? hd)
    | cons c' after =>
      have hne : u.lowerFrom (c :: before) (c' :: after) ≠ [] :=
        List.append_ne_nil_of_left_ne_nil (lowerAt_ne_nil _ _ _) _
      rw [lowerFrom, List.getLast?_append_of_ne_nil _ hne] at hd
      exact ih (c :: before) (fun e he => h e (by rw [List.getLast?_cons_cons]; exact he)) d hd

/-- **The lower case of a trimmed text is trimmed.** -/
theorem trim_toLowerCase_trim (s : String) :
    trim (u.toLowerCase (trim s)) = u.toLowerCase (trim s) := by
  obtain ⟨hhead, hlast⟩ := trimmed_trim s
  apply trim_of_trimmed
  unfold toLowerCase
  rw [String.toList_ofList]
  exact ⟨head_lowerFrom [] hhead, last_lowerFrom _ [] hlast⟩

/-! ## The lower case in place -/

theorem length_lowerAt (before : List Char) (c : Char) (after : List Char) :
    (u.lowerAt before c after).length = (u.lower c).length := by
  unfold lowerAt
  split
  · rename_i hsigma
    rw [hsigma.1, u.lower_sigma.1]
    rfl
  · rfl

/-- What stands around a text changes its lower case, but not the length. -/
theorem length_lowerIn (cs : List Char) :
    ∀ before after, (u.lowerIn before cs after).length = (cs.flatMap u.lower).length := by
  induction cs with
  | nil => exact fun _ _ => rfl
  | cons c cs ih =>
    intro before after
    rw [lowerIn, List.length_append, length_lowerAt, ih, List.flatMap_cons, List.length_append]

theorem lowerAt_space_eq (before : List Char) (c : Char) (after : List Char) :
    ∀ d ∈ u.lowerAt before c after, jsSpace d = jsSpace c := by
  unfold lowerAt
  split
  · rename_i hsigma
    intro d hd
    rw [List.mem_singleton.mp hd, hsigma.1]
    decide
  · exact u.lower_space c

/-- What has a trimmed lower case is trimmed. -/
theorem trimmed_of_lowerFrom {cs : List Char} (h : Trimmed (u.lowerFrom [] cs)) : Trimmed cs := by
  constructor
  · intro c hc
    obtain ⟨rest, rfl⟩ := List.head?_eq_some_iff.mp hc
    obtain ⟨d, ds, hat⟩ := List.exists_cons_of_ne_nil (lowerAt_ne_nil (u := u) [] c rest)
    have hd : d ∈ u.lowerAt [] c rest := by
      rw [hat]
      exact List.mem_cons_self
    rw [← lowerAt_space_eq [] c rest d hd]
    refine h.1 d ?_
    rw [lowerFrom, hat]
    rfl
  · intro c hc
    obtain ⟨rest, rfl⟩ := List.getLast?_eq_some_iff.mp hc
    have hne := lowerAt_ne_nil (u := u) (rest.reverse ++ []) c []
    have hlast := List.getLast?_eq_getLast_of_ne_nil hne
    rw [← lowerAt_space_eq (rest.reverse ++ []) c [] _ (List.getLast_mem hne)]
    refine h.2 _ ?_
    rw [lowerFrom_append, lowerFrom, lowerFrom, List.append_nil,
      List.getLast?_append_of_ne_nil _ hne]
    exact hlast

end Casing

/-! ## A table for ASCII -/

/-- The lower case of the letters of ASCII and of the capital sigma. -/
def asciiLower (c : Char) : Char :=
  if 0x41 ≤ c.toNat ∧ c.toNat ≤ 0x5A then Char.ofNat (c.toNat + 0x20)
  else if c = 'Σ' then 'σ'
  else c

theorem asciiLower_letter {c : Char} (h : 0x41 ≤ c.toNat ∧ c.toNat ≤ 0x5A) :
    asciiLower (asciiLower c) = asciiLower c ∧ jsSpace (asciiLower c) = jsSpace c := by
  have hall : ∀ n ∈ List.range 26,
      asciiLower (asciiLower (Char.ofNat (0x41 + n))) = asciiLower (Char.ofNat (0x41 + n)) ∧
        jsSpace (asciiLower (Char.ofNat (0x41 + n))) = jsSpace (Char.ofNat (0x41 + n)) := by decide
  have hc : Char.ofNat (0x41 + (c.toNat - 0x41)) = c := by
    rw [Nat.add_sub_cancel' h.1, Char.ofNat_toNat]
  have hn := hall (c.toNat - 0x41) (List.mem_range.mpr (by omega))
  rw [hc] at hn
  exact hn

theorem asciiLower_facts (c : Char) :
    asciiLower (asciiLower c) = asciiLower c ∧ jsSpace (asciiLower c) = jsSpace c := by
  by_cases hletter : 0x41 ≤ c.toNat ∧ c.toNat ≤ 0x5A
  · exact asciiLower_letter hletter
  · by_cases hsigma : c = 'Σ'
    · subst hsigma
      decide
    · have hc : asciiLower c = c := by simp [asciiLower, hletter, hsigma]
      simp [hc]

/-- The tables as far as ASCII goes. -/
def asciiCasing : Casing where
  lower := fun c => [asciiLower c]
  cased := fun c => c.isAlpha
  caseIgnorable := fun c => c = '.'
  lower_sigma := by decide
  lower_ne_nil := fun c => List.cons_ne_nil _ _
  lower_lower := by
    intro c d hd
    rw [List.mem_singleton.mp hd, (asciiLower_facts c).1]
  lower_space := by
    intro c d hd
    rw [List.mem_singleton.mp hd, (asciiLower_facts c).2]
  replacement := by decide

end VegaRevenue
