import Mathlib.Data.List.Chain
import VegaRevenue.Shared.Casing

/-!
# JavaScript strings with lone surrogates

A `String` has characters only. A string of the program may hold halves of a surrogate pair that
stand alone; UTF-8 cannot write them, and `Buffer.from` puts U+FFFD in their place.

* `isWellFormed_iff` — a string without them is a `String`
* `toLowerCase_trim_ofString`, `isWellFormed_toLowerCase_trim` — they survive `trim` and
  `toLowerCase`, which on the others are those of `String`
-/

namespace VegaRevenue

/-- A character, or a surrogate without its partner. -/
inductive CodePoint where
  | scalar (c : Char)
  | surrogate (n : Fin 0x800)
deriving DecidableEq

namespace CodePoint

/-- A pair of surrogates has the first in the lower half of their range. -/
def pairs : CodePoint → CodePoint → Bool
  | surrogate n, surrogate m => n.val < 0x400 && 0x400 ≤ m.val
  | _, _ => false

def isScalar : CodePoint → Bool
  | scalar _ => true
  | surrogate _ => false

/-- What UTF-8 can write of it. -/
def char : CodePoint → Char
  | scalar c => c
  | surrogate _ => '\ufffd'

def space : CodePoint → Bool
  | scalar c => jsSpace c
  | surrogate _ => false

end CodePoint

open CodePoint

/-- A string by its code points; two surrogates that are a pair are one character of it. -/
structure JsText where
  points : List CodePoint
  paired : points.IsChain fun p q => p.pairs q = false

namespace JsText

theorem ext_points {s t : JsText} (h : s.points = t.points) : s = t := by
  cases s
  cases t
  cases h
  rfl

/-! ## Well-formed strings -/

theorem isChain_scalars (cs : List Char) :
    (cs.map scalar).IsChain fun p q => p.pairs q = false := by
  induction cs with
  | nil => exact .nil
  | cons c cs ih =>
    rw [List.map_cons, List.isChain_cons]
    exact ⟨fun _ _ => rfl, ih⟩

def ofString (s : String) : JsText := ⟨s.toList.map scalar, isChain_scalars s.toList⟩

theorem points_ofString (s : String) : (ofString s).points = s.toList.map scalar := rfl

/-- `s.isWellFormed()`. -/
def isWellFormed (s : JsText) : Bool := s.points.all isScalar

/-- `s.toWellFormed()`, the string UTF-8 writes. -/
def toWellFormed (s : JsText) : String := String.ofList (s.points.map char)

theorem map_char_scalar (cs : List Char) : (cs.map scalar).map char = cs := by
  rw [List.map_map]
  exact List.map_id cs

theorem toWellFormed_ofString (s : String) : (ofString s).toWellFormed = s := by
  unfold toWellFormed ofString
  rw [map_char_scalar, String.ofList_toList]

theorem ofString_inj {s t : String} : ofString s = ofString t ↔ s = t := by
  constructor
  · intro h
    rw [← toWellFormed_ofString s, h, toWellFormed_ofString]
  · rintro rfl
    rfl

theorem map_scalar_char {ps : List CodePoint} (h : ps.all isScalar = true) :
    (ps.map char).map scalar = ps := by
  rw [List.map_map]
  calc ps.map (scalar ∘ char) = ps.map id := by
        apply List.map_congr_left
        intro p hp
        cases p with
        | scalar c => rfl
        | surrogate n => exact nomatch List.all_eq_true.mp h _ hp
    _ = ps := List.map_id ps

theorem isWellFormed_ofString (s : String) : (ofString s).isWellFormed = true := by
  unfold isWellFormed ofString
  simp [isScalar]

/-- **A string without lone surrogates is a `String`.** -/
theorem isWellFormed_iff (s : JsText) : s.isWellFormed = true ↔ ∃ t, s = ofString t := by
  constructor
  · intro h
    refine ⟨s.toWellFormed, ext_points ?_⟩
    have hpoints : (ofString s.toWellFormed).points = (s.points.map char).map scalar := by
      simp only [ofString, toWellFormed, String.toList_ofList]
    rw [hpoints, map_scalar_char h]
  · rintro ⟨t, rfl⟩
    exact isWellFormed_ofString t

/-! ## `trim` -/

/-- `s.trim()`. -/
def trim (s : JsText) : JsText where
  points := (s.points.dropWhile space).rdropWhile space
  paired :=
    s.paired.infix
      ((List.rdropWhile_prefix space _).isInfix.trans (List.dropWhile_suffix space).isInfix)

theorem dropWhile_scalars (cs : List Char) :
    (cs.map scalar).dropWhile space = (cs.dropWhile jsSpace).map scalar := by
  rw [List.dropWhile_map]
  rfl

theorem rdropWhile_scalars (cs : List Char) :
    (cs.map scalar).rdropWhile space = (cs.rdropWhile jsSpace).map scalar := by
  unfold List.rdropWhile
  rw [← List.map_reverse, dropWhile_scalars, List.map_reverse]

theorem trim_ofString (s : String) : (ofString s).trim = ofString (VegaRevenue.trim s) := by
  apply ext_points
  simp only [trim, ofString, toList_trim, dropWhile_scalars, rdropWhile_scalars]

/-- White space has no surrogates. -/
theorem all_isScalar_dropWhile (ps : List CodePoint) :
    (ps.dropWhile space).all isScalar = ps.all isScalar := by
  induction ps with
  | nil => rfl
  | cons p ps ih =>
    cases p with
    | surrogate n => rfl
    | scalar c =>
      cases hc : (scalar c).space with
      | true => rw [List.dropWhile_cons_of_pos hc, ih, List.all_cons, isScalar, Bool.true_and]
      | false => rw [List.dropWhile_cons_of_neg (by rw [hc]; nofun)]

theorem isWellFormed_trim (s : JsText) : s.trim.isWellFormed = s.isWellFormed := by
  unfold isWellFormed trim List.rdropWhile
  rw [List.all_reverse, all_isScalar_dropWhile, List.all_reverse, all_isScalar_dropWhile]

/-! ## `toLowerCase` -/

variable (u : Casing)

/-- A surrogate keeps its value and stands between words. -/
def lowerPoints : (before : List Char) → List CodePoint → List CodePoint
  | _, [] => []
  | before, scalar c :: after =>
    (u.lowerAt before c (after.map char)).map scalar ++ lowerPoints (c :: before) after
  | before, surrogate n :: after => surrogate n :: lowerPoints ('\ufffd' :: before) after

variable {u}

theorem head?_lowerPoints {n : Fin 0x800} {ps : List CodePoint} {before : List Char}
    (h : (lowerPoints u before ps).head? = some (surrogate n)) :
    ps.head? = some (surrogate n) := by
  match ps with
  | [] => exact h
  | scalar c :: after =>
    rw [lowerPoints] at h
    cases hat : u.lowerAt before c (after.map char) with
    | nil => exact absurd hat (Casing.lowerAt_ne_nil before c _)
    | cons d ds =>
      rw [hat] at h
      cases h
  | surrogate m :: after => exact h

theorem isChain_lowerPoints (ps : List CodePoint) :
    ∀ before, (ps.IsChain fun p q => p.pairs q = false) →
      (lowerPoints u before ps).IsChain fun p q => p.pairs q = false := by
  induction ps with
  | nil => exact fun _ _ => .nil
  | cons p after ih =>
    intro before h
    cases p with
    | scalar c =>
      rw [lowerPoints, List.isChain_append]
      refine ⟨isChain_scalars _, ih _ (List.isChain_cons.mp h).2, ?_⟩
      intro p hp q _
      obtain ⟨d, -, rfl⟩ := List.mem_map.mp (List.mem_of_mem_getLast? hp)
      rfl
    | surrogate n =>
      rw [lowerPoints, List.isChain_cons]
      refine ⟨?_, ih _ (List.isChain_cons.mp h).2⟩
      intro q hq
      cases q with
      | scalar d => rfl
      | surrogate m => exact (List.isChain_cons.mp h).1 _ (head?_lowerPoints hq)

variable (u) in
/-- `s.toLowerCase()`. -/
def toLowerCase (s : JsText) : JsText :=
  ⟨lowerPoints u [] s.points, isChain_lowerPoints s.points [] s.paired⟩

theorem lowerPoints_scalars (cs : List Char) :
    ∀ before, lowerPoints u before (cs.map scalar) = (u.lowerFrom before cs).map scalar := by
  induction cs with
  | nil => exact fun _ => rfl
  | cons c after ih =>
    intro before
    rw [List.map_cons, lowerPoints, map_char_scalar, ih, Casing.lowerFrom, List.map_append]

theorem all_isScalar_lowerPoints (ps : List CodePoint) :
    ∀ before, (lowerPoints u before ps).all isScalar = ps.all isScalar := by
  induction ps with
  | nil => exact fun _ => rfl
  | cons p after ih =>
    intro before
    cases p with
    | scalar c =>
      rw [lowerPoints, List.all_append, ih, List.all_cons, isScalar, Bool.true_and]
      simp [isScalar]
    | surrogate n => rfl

theorem toLowerCase_trim_ofString (s : String) :
    (ofString s).trim.toLowerCase u = ofString (u.toLowerCase (VegaRevenue.trim s)) := by
  rw [trim_ofString]
  apply ext_points
  simp only [toLowerCase, ofString, Casing.toLowerCase, String.toList_ofList, lowerPoints_scalars]

theorem isWellFormed_toLowerCase_trim (s : JsText) :
    (s.trim.toLowerCase u).isWellFormed = s.isWellFormed := by
  rw [← isWellFormed_trim s]
  exact all_isScalar_lowerPoints _ []

/-! ## A trimmed text in lower case -/

end JsText

end VegaRevenue
