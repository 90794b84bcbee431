import Mathlib.Data.List.Basic
import Mathlib.Tactic.Common

/-!
# The `uuid` type of Postgres

A text is cast to the thirty-two digits it spells, in groups of four; a column of the type gives the
text back in lower case, with hyphens.

* `castUuid_castUuid` — the text a column gives back is the one it keeps
-/

namespace VegaRevenue

def upperHex : List (Char × Char) :=
  [('A', 'a'), ('B', 'b'), ('C', 'c'), ('D', 'd'), ('E', 'e'), ('F', 'f')]

/-- A hexadecimal digit in lower case. -/
def hexDigit (c : Char) : Option Char :=
  if c ∈ "0123456789abcdef".toList then some c else (upperHex.find? fun p => p.1 = c).map Prod.snd

/-- The digits a text starts with. -/
def hexDigits : Nat → List Char → Option (List Char × List Char)
  | 0, text => some ([], text)
  | _ + 1, [] => none
  | n + 1, c :: text => do
    let digit ← hexDigit c
    let (digits, rest) ← hexDigits n text
    pure (digit :: digits, rest)

/-- A hyphen may follow a group. -/
def skipHyphen : List Char → List Char
  | '-' :: rest => rest
  | text => text

def hexGroups : Nat → List Char → Option (List (List Char) × List Char)
  | 0, text => some ([], text)
  | n + 1, text => do
    let (group, rest) ← hexDigits 4 text
    -- no hyphen is skipped after the last group
    let (groups, rest) ← hexGroups n (if n = 0 then rest else skipHyphen rest)
    pure (group :: groups, rest)

/-- The text a column gives back: groups of eight, four, four, four and twelve digits. -/
def uuidText : List (List Char) → List Char
  | [a, b, c, d, e, f, g, h] =>
    a ++ (b ++ '-' :: (c ++ '-' :: (d ++ '-' :: (e ++ '-' :: (f ++ (g ++ h))))))
  | _ => []

/-- What closes the digits, and the text after what opens them. -/
def braces : List Char → List Char × List Char
  | '\x7b' :: rest => (['\x7d'], rest)
  | text => ([], text)

/-- `text::uuid`, none where it is no UUID. -/
def castUuid (text : String) : Option String :=
  (hexGroups 8 (braces text.toList).2).bind fun (groups, rest) =>
    if rest = (braces text.toList).1 then some (String.ofList (uuidText groups)) else none

/-! ## The text is cast to itself -/

theorem hexDigit_hexDigit {c c' : Char} (h : hexDigit c = some c') : hexDigit c' = some c' := by
  unfold hexDigit at h
  split at h
  next hc =>
    cases h
    exact if_pos hc
  next =>
    have hall : ∀ p ∈ upperHex, hexDigit p.2 = some p.2 := by decide
    obtain ⟨p, hp, rfl⟩ := Option.map_eq_some_iff.mp h
    exact hall p (List.mem_of_find?_eq_some hp)

/-- Digits in lower case. -/
def LowerHex (digits : List Char) : Prop := ∀ c ∈ digits, hexDigit c = some c

theorem hexDigits_spec {n : Nat} {text digits rest : List Char}
    (h : hexDigits n text = some (digits, rest)) : digits.length = n ∧ LowerHex digits := by
  induction n generalizing text digits with
  | zero =>
    cases h
    exact ⟨rfl, fun c hc => absurd hc List.not_mem_nil⟩
  | succ n ih =>
    cases text with
    | nil => cases h
    | cons c text =>
      unfold hexDigits at h
      obtain ⟨digit, hdigit, h⟩ := Option.bind_eq_some_iff.mp h
      obtain ⟨⟨digits', rest'⟩, hdigits, h⟩ := Option.bind_eq_some_iff.mp h
      cases h
      obtain ⟨hlength, hlower⟩ := ih hdigits
      refine ⟨congrArg (· + 1) hlength, fun c' hc' => ?_⟩
      rcases List.mem_cons.mp hc' with rfl | hc'
      · exact hexDigit_hexDigit hdigit
      · exact hlower c' hc'

theorem hexGroups_spec {n : Nat} {text rest : List Char} {groups : List (List Char)}
    (h : hexGroups n text = some (groups, rest)) :
    groups.length = n ∧ ∀ group ∈ groups, group.length = 4 ∧ LowerHex group := by
  induction n generalizing text groups with
  | zero =>
    cases h
    exact ⟨rfl, fun group hg => absurd hg List.not_mem_nil⟩
  | succ n ih =>
    unfold hexGroups at h
    obtain ⟨⟨group, rest₁⟩, hgroup, h⟩ := Option.bind_eq_some_iff.mp h
    obtain ⟨⟨groups', rest'⟩, hgroups, h⟩ := Option.bind_eq_some_iff.mp h
    cases h
    obtain ⟨hlength, hall⟩ := ih hgroups
    refine ⟨congrArg (· + 1) hlength, fun group' hg => ?_⟩
    rcases List.mem_cons.mp hg with rfl | hg
    · exact hexDigits_spec hgroup
    · exact hall group' hg

/-- Digits in lower case are read as they stand. -/
theorem hexDigits_append {digits : List Char} (h : LowerHex digits) (rest : List Char) :
    hexDigits digits.length (digits ++ rest) = some (digits, rest) := by
  induction digits with
  | nil => rfl
  | cons c digits ih =>
    show (hexDigit c).bind _ = _
    rw [h c (.head _), Option.bind_some]
    show (hexDigits digits.length (digits ++ rest)).bind _ = _
    rw [ih fun c' hc' => h c' (.tail _ hc')]
    rfl

/-- A hyphen is no digit. -/
theorem skipHyphen_append {digits : List Char} (hlength : digits.length = 4) (h : LowerHex digits)
    (rest : List Char) : skipHyphen (digits ++ rest) = digits ++ rest := by
  cases digits with
  | nil => cases hlength
  | cons c digits =>
    rw [List.cons_append]
    unfold skipHyphen
    split
    next heq =>
      cases heq
      exact absurd (h '-' (.head _)) (by decide)
    · rfl

/-- A group that no hyphen follows, and one that a hyphen follows. -/
theorem hexGroups_append {n : Nat} {group : List Char} (hlength : group.length = 4)
    (h : LowerHex group) {text : List Char} (hskip : n ≠ 0 → skipHyphen text = text)
    {groups : List (List Char)} {rest : List Char} (hrest : hexGroups n text = some (groups, rest)) :
    hexGroups (n + 1) (group ++ text) = some (group :: groups, rest) := by
  have hgroup := hexDigits_append h text
  rw [hlength] at hgroup
  unfold hexGroups
  rw [hgroup]
  show (hexGroups n (if n = 0 then text else skipHyphen text)).bind _ = _
  have htext : (if n = 0 then text else skipHyphen text) = text := by
    split
    · rfl
    next hn => exact hskip hn
  rw [htext, hrest]
  rfl

theorem hexGroups_hyphen {n : Nat} (hn : n ≠ 0) {group : List Char} (hlength : group.length = 4)
    (h : LowerHex group) {text : List Char} {groups : List (List Char)} {rest : List Char}
    (hrest : hexGroups n text = some (groups, rest)) :
    hexGroups (n + 1) (group ++ '-' :: text) = some (group :: groups, rest) := by
  have hgroup := hexDigits_append h ('-' :: text)
  rw [hlength] at hgroup
  unfold hexGroups
  rw [hgroup]
  show (hexGroups n (if n = 0 then _ else skipHyphen ('-' :: text))).bind _ = _
  rw [if_neg hn]
  show (hexGroups n text).bind _ = _
  rw [hrest]
  rfl

theorem hexGroups_uuidText {groups : List (List Char)} (hlength : groups.length = 8)
    (hall : ∀ group ∈ groups, group.length = 4 ∧ LowerHex group) :
    hexGroups 8 (uuidText groups) = some (groups, []) := by
  obtain ⟨a, b, c, d, e, f, g, h, rfl⟩ : ∃ a b c d e f g h, groups = [a, b, c, d, e, f, g, h] := by
    match groups, hlength with
    | [a, b, c, d, e, f, g, h], _ => exact ⟨a, b, c, d, e, f, g, h, rfl⟩
  simp only [List.mem_cons, List.not_mem_nil, or_false, forall_eq_or_imp, forall_eq] at hall
  obtain ⟨⟨ha, ha'⟩, ⟨hb, hb'⟩, ⟨hc, hc'⟩, ⟨hd, hd'⟩, ⟨he, he'⟩, ⟨hf, hf'⟩, ⟨hg, hg'⟩, hh, hh'⟩ := hall
  have hlast : hexGroups 1 h = some ([h], []) := by
    have hread : hexGroups 1 (h ++ []) = some ([h], []) :=
      hexGroups_append hh hh' (fun hn => absurd rfl hn) rfl
    rwa [List.append_nil] at hread
  have hpair := hexGroups_append hg hg'
    (fun _ => by rw [← List.append_nil h]; exact skipHyphen_append hh hh' []) hlast
  have htail := hexGroups_append hf hf' (fun _ => skipHyphen_append hg hg' _) hpair
  have hdashes := hexGroups_hyphen (by decide) hb hb' <| hexGroups_hyphen (by decide) hc hc' <|
    hexGroups_hyphen (by decide) hd hd' <| hexGroups_hyphen (by decide) he he' htail
  exact hexGroups_append ha ha' (fun _ => skipHyphen_append hb hb' _) hdashes

/-- No brace opens the digits. -/
theorem braces_append {digits : List Char} (hlength : digits.length = 4) (h : LowerHex digits)
    (rest : List Char) : braces (digits ++ rest) = ([], digits ++ rest) := by
  cases digits with
  | nil => cases hlength
  | cons c digits =>
    rw [List.cons_append]
    unfold braces
    split
    next heq =>
      cases heq
      exact absurd (h _ (.head _)) (by decide)
    · rfl

/-- **The text a column gives back is the one it keeps.** -/
theorem castUuid_castUuid {text canonical : String} (h : castUuid text = some canonical) :
    castUuid canonical = some canonical := by
  unfold castUuid at h
  obtain ⟨⟨groups, rest⟩, hgroups, h⟩ := Option.bind_eq_some_iff.mp h
  dsimp only at h
  split at h
  next =>
    cases h
    obtain ⟨hlength, hall⟩ := hexGroups_spec hgroups
    have hbraces : braces (uuidText groups) = ([], uuidText groups) := by
      match groups, hlength, hall with
      | [a, _, _, _, _, _, _, _], _, hall =>
        obtain ⟨ha, ha'⟩ := hall a (.head _)
        exact braces_append ha ha' _
    unfold castUuid
    rw [String.toList_ofList, hbraces]
    dsimp only
    rw [hexGroups_uuidText hlength hall, Option.bind_some]
    exact if_pos rfl
  next => cases h

example : castUuid "\x7bA0EEBC99-9c0b4ef8bb6d6bb9bd380a11\x7d" =
    some "a0eebc99-9c0b-4ef8-bb6d-6bb9bd380a11" := by decide +kernel

end VegaRevenue
