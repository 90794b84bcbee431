import Mathlib.Data.Bool.AllAny
import VegaRevenue.AiRuntime.ContextAssembler
import VegaRevenue.Lib.Backtracking
import VegaRevenue.Shared.Text

/-!
# The scrubber of personal data

`RegexPIIScrubber` replaces addresses, social security numbers, cards and phone numbers, each kind
by one global replacement.

* `scrub_complete` — a scrubbed text has none of them, and scrubbing it again changes nothing
-/

namespace VegaRevenue.PiiScrubber

open AiRuntime.ContextAssembler (Units units)
open Backtracking Backtracking.Pattern

/-! ## Classes -/

def unit (c : Char) : UInt16 := c.val.toUInt16

/-- `\d`. -/
def digit (c : UInt16) : Bool := 0x30 ≤ c && c ≤ 0x39

/-- `[a-zA-Z]`. -/
def letter (c : UInt16) : Bool := (0x41 ≤ c && c ≤ 0x5A) || (0x61 ≤ c && c ≤ 0x7A)

/-- `\w`. -/
def word (c : UInt16) : Bool := letter c || digit c || c = unit '_'

/-- `\s`. -/
def space (c : UInt16) : Bool := jsSpace (Char.ofNat c.toNat)

/-- `\b`. -/
def boundary : Pattern UInt16 := look fun prev next => prev.any word != next.any word

def char (c : Char) : Pattern UInt16 := one (· = unit c)

/-! ## Patterns -/

/-- `/[a-zA-Z0-9._%+-]+@[a-zA-Z0-9.-]+\.[a-zA-Z]{2,}/g`. -/
def EMAIL : Pattern UInt16 :=
  seq (many (fun c => letter c || digit c || (units "._%+-").contains c) 1)
    (seq (char '@')
      (seq (many (fun c => letter c || digit c || (units ".-").contains c) 1)
        (seq (char '.') (many letter 2))))

/-- `/\b\d{3}-\d{2}-\d{4}\b/g`. -/
def SSN : Pattern UInt16 :=
  seq boundary
    (seq (seq (times 3 (one digit))
      (seq (char '-') (seq (times 2 (one digit)) (seq (char '-') (times 4 (one digit))))))
      boundary)

/-- `/\b(?:\d[ -]?){13,19}\b/g`. -/
def CARD : Pattern UInt16 :=
  seq boundary
    (seq (between 13 19 (seq (one digit) (opt (one fun c => c = unit ' ' || c = unit '-'))))
      boundary)

/-- `[\s.-]?`. -/
def separator : Pattern UInt16 := opt (one fun c => space c || c = unit '.' || c = unit '-')

/-- `\+?\d{1,3}[\s.-]?`. -/
def countryCode : Pattern UInt16 :=
  seq (opt (char '+')) (seq (between 1 3 (one digit)) separator)

/-- `\(?\d{2,4}\)?[\s.-]?`. -/
def areaCode : Pattern UInt16 :=
  seq (opt (char '(')) (seq (between 2 4 (one digit)) (seq (opt (char ')')) separator))

/-- `\d{3,4}[\s.-]?\d{3,4}(?!\d)`. -/
def subscriber : Pattern UInt16 :=
  seq (between 3 4 (one digit))
    (seq separator (seq (between 3 4 (one digit)) (look fun _ next => !next.any digit)))

/-- `/(?<!\d)(\+?\d{1,3}[\s.-]?)?(\(?\d{2,4}\)?[\s.-]?)?\d{3,4}[\s.-]?\d{3,4}(?!\d)/g`. -/
def PHONE : Pattern UInt16 :=
  seq (look fun prev _ => !prev.any digit) (seq (opt countryCode) (seq (opt areaCode) subscriber))

/-! ## Scrubbing -/

def digitCount (value : Units) : Nat := value.countP digit

/-- `[REDACTED_…]`. -/
def mark (kind : String) : Units := unit '[' :: (units ("REDACTED_" ++ kind) ++ [unit ']'])

def scrub (content : Units) : Units :=
  if content = [] then content
  else
    let scrubbed := replaceAll EMAIL (fun _ => mark "EMAIL") content
    let scrubbed := replaceAll SSN (fun _ => mark "SSN") scrubbed
    let scrubbed :=
      replaceAll CARD (fun m => if 13 ≤ digitCount m then mark "CARD" else m) scrubbed
    replaceAll PHONE (fun m => if 7 ≤ digitCount m then mark "PHONE" else m) scrubbed

/-! ## What the patterns match -/

/-- No bracket, which every mark begins and ends with. -/
def Plain (c : UInt16) : Prop := c ≠ unit '[' ∧ c ≠ unit ']'

theorem plain_of {cls : UInt16 → Bool}
    (h : cls (unit '[') = false ∧ cls (unit ']') = false) : ∀ c, cls c = true → Plain c := by
  intro c hc
  constructor
  · rintro rfl
    rw [h.1] at hc
    cases hc
  · rintro rfl
    rw [h.2] at hc
    cases hc

theorem within_digit : Within Plain (one digit) := within_one (plain_of (by decide))

theorem within_char {c : Char} (h : unit '[' ≠ unit c ∧ unit ']' ≠ unit c) :
    Within Plain (char c) :=
  within_one (plain_of ⟨decide_eq_false h.1, decide_eq_false h.2⟩)

theorem within_separator : Within Plain separator := (within_one (plain_of (by decide))).opt

theorem within_EMAIL : Within Plain EMAIL :=
  (within_many (plain_of (by decide)) 1).seq
    ((within_char (by decide)).seq
      ((within_many (plain_of (by decide)) 1).seq
        ((within_char (by decide)).seq (within_many (plain_of (by decide)) 2))))

theorem within_SSN : Within Plain SSN :=
  (within_look _).seq
    (((within_digit.times 3).seq ((within_char (by decide)).seq ((within_digit.times 2).seq
      ((within_char (by decide)).seq (within_digit.times 4))))).seq (within_look _))

theorem within_CARD : Within Plain CARD :=
  (within_look _).seq
    (((within_digit.seq (within_one (plain_of (by decide))).opt).between 13 19).seq (within_look _))

theorem within_PHONE : Within Plain PHONE :=
  (within_look _).seq
    (((within_char (by decide)).opt.seq ((within_digit.between 1 3).seq within_separator)).opt.seq
      (((within_char (by decide)).opt.seq ((within_digit.between 2 4).seq
        ((within_char (by decide)).opt.seq within_separator))).opt.seq
          ((within_digit.between 3 4).seq (within_separator.seq
            ((within_digit.between 3 4).seq (within_look _))))))

theorem atLeast_digit : AtLeast digit 1 (one digit) := atLeast_one fun _ h => h

theorem atLeast_EMAIL : AtLeast (· = unit '@') 1 EMAIL :=
  (atLeast_zero _).seq ((atLeast_one fun _ h => h).seq (atLeast_zero _))

theorem atLeast_SSN : AtLeast digit 9 SSN :=
  (atLeast_zero _).seq
    (((atLeast_digit.times 3).seq ((atLeast_zero _).seq ((atLeast_digit.times 2).seq
      ((atLeast_zero _).seq (atLeast_digit.times 4))))).seq (atLeast_zero _))

theorem atLeast_CARD : AtLeast digit 13 CARD :=
  (atLeast_zero _).seq (((atLeast_digit.seq (atLeast_zero _)).between 13 19).seq (atLeast_zero _))

theorem atLeast_subscriber : AtLeast digit 6 subscriber :=
  (atLeast_digit.between 3 4).seq ((atLeast_zero _).seq
    ((atLeast_digit.between 3 4).seq (atLeast_zero _)))

theorem atLeast_PHONE : AtLeast digit 6 PHONE :=
  (atLeast_zero _).seq ((atLeast_zero _).seq ((atLeast_zero _).seq atLeast_subscriber))

/-! ## Marks -/

/-- What is inside the marks. -/
def inside (kind : String) : Units := units ("REDACTED_" ++ kind)

def kinds : List String := ["EMAIL", "SSN", "CARD", "PHONE"]

theorem inert_of {P : Pattern UInt16} {q : UInt16 → Bool} {n : Nat} {kind : String}
    (hwithin : Within Plain P) (hleast : AtLeast q (n + 1) P)
    (hq : ∀ c ∈ inside kind, q c = false) : Inert P (unit '[') (inside kind) (unit ']') := by
  intro prev m next hm
  refine ⟨fun h => (hwithin _ _ _ hm _ h).1 rfl, fun h => (hwithin _ _ _ hm _ h).2 rfl, ?_⟩
  obtain ⟨c, hc, hqc⟩ := hleast.exists_mem hm
  refine ⟨c, hc, fun hin => ?_⟩
  rw [hq c hin] at hqc
  cases hqc

theorem inside_facts : ∀ kind ∈ kinds, ∀ c ∈ inside kind, digit c = false ∧ c ≠ unit '@' := by
  have hall : ∀ kind ∈ kinds, ((inside kind).all fun c => digit c = false ∧ c ≠ unit '@') = true := by
    decide
  exact fun kind hkind => List.all_iff_forall_prop.mp (hall kind hkind)

theorem inert_EMAIL {kind : String} (h : kind ∈ kinds) :
    Inert EMAIL (unit '[') (inside kind) (unit ']') :=
  inert_of within_EMAIL atLeast_EMAIL fun c hc => decide_eq_false (inside_facts kind h c hc).2

theorem inert_SSN {kind : String} (h : kind ∈ kinds) :
    Inert SSN (unit '[') (inside kind) (unit ']') :=
  inert_of within_SSN atLeast_SSN fun c hc => (inside_facts kind h c hc).1

theorem inert_CARD {kind : String} (h : kind ∈ kinds) :
    Inert CARD (unit '[') (inside kind) (unit ']') :=
  inert_of within_CARD atLeast_CARD fun c hc => (inside_facts kind h c hc).1

/-! ## Patterns between word boundaries -/

/-- A match begins with a digit, and its word characters are digits; it stands between word
boundaries and sees no more of what is around. -/
structure Bounded (P : Pattern UInt16) : Prop where
  first : ∀ prev m next, Matches P prev m next → m.head?.any digit = true
  within : Within (fun c => word c = true → digit c = true) P
  before : ∀ prev m next, Matches P prev m next → prev.any word = false
  after : ∀ prev m next, Matches P prev m next → (lastOr prev m).any word ≠ next.any word
  congr : ∀ prev prev' m next next', prev.any word = prev'.any word →
    next.any word = next'.any word → Matches P prev m next → Matches P prev' m next'

theorem word_of_digit {c : UInt16} (h : digit c = true) : word c = true := by
  unfold word
  rw [h, Bool.or_true, Bool.true_or]

theorem matches_bounded_iff {core : Pattern UInt16} (hblind : Blind core)
    {prev : Option UInt16} {m : Units} {next : Option UInt16} :
    Matches (seq boundary (seq core boundary)) prev m next ↔
      Matches core none m none ∧ prev.any word ≠ (m.head?.or next).any word ∧
        (lastOr prev m).any word ≠ next.any word := by
  constructor
  · rintro ⟨m₁, m₂, rfl, ⟨rfl, hbefore⟩, m₃, m₄, rfl, hcore, rfl, hafter⟩
    rw [bne_iff_ne] at hbefore hafter
    simp only [List.nil_append, List.append_nil, lastOr_nil] at hbefore hafter hcore ⊢
    exact ⟨hblind _ _ _ _ _ hcore, hbefore, hafter⟩
  · rintro ⟨hcore, hbefore, hafter⟩
    refine ⟨[], m, rfl, ⟨rfl, bne_iff_ne.mpr hbefore⟩, m, [], (List.append_nil m).symm, ?_, rfl, ?_⟩
    · exact hblind _ _ _ _ _ hcore
    · exact bne_iff_ne.mpr hafter

theorem bounded_of {core : Pattern UInt16} (hblind : Blind core)
    (hfirst : ∀ m, Matches core none m none → m.head?.any digit = true)
    (hwithin : Within (fun c => word c = true → digit c = true) core) :
    Bounded (seq boundary (seq core boundary)) where
  first _ _ _ h := hfirst _ ((matches_bounded_iff hblind).mp h).1
  within _ _ _ h := hwithin _ _ _ ((matches_bounded_iff hblind).mp h).1
  before prev m next h := by
    obtain ⟨hcore, hbefore, -⟩ := (matches_bounded_iff hblind).mp h
    have hdigit := hfirst m hcore
    cases m with
    | nil => cases hdigit
    | cons c m =>
      rw [List.head?_cons, Option.any_some] at hdigit
      rw [List.head?_cons, Option.some_or, Option.any_some, word_of_digit hdigit] at hbefore
      exact Bool.eq_false_iff.mpr hbefore
  after _ _ _ h := ((matches_bounded_iff hblind).mp h).2.2
  congr prev prev' m next next' hprev hnext h := by
    obtain ⟨hcore, hbefore, hafter⟩ := (matches_bounded_iff hblind).mp h
    have hdigit := hfirst m hcore
    cases m with
    | nil => cases hdigit
    | cons c m =>
      rw [List.head?_cons, Option.some_or, hprev] at hbefore
      rw [lastOr_cons, hnext] at hafter
      refine (matches_bounded_iff hblind).mpr ⟨hcore, ?_, hafter⟩
      rw [List.head?_cons, Option.some_or]
      exact hbefore

theorem digit_of_word {cls : UInt16 → Bool}
    (h : ∀ c, cls c = true → digit c = true ∨ word c = false) (c : UInt16) (hc : cls c = true)
    (hw : word c = true) : digit c = true := by
  rcases h c hc with hd | hn
  · exact hd
  · rw [hn] at hw
    cases hw

theorem within_words_digit : Within (fun c => word c = true → digit c = true) (one digit) :=
  within_one fun _ h _ => h

theorem within_words_char {c : Char} (h : word (unit c) = false) :
    Within (fun c => word c = true → digit c = true) (char c) :=
  within_one (digit_of_word fun d hd => .inr (by rw [of_decide_eq_true hd, h]))

theorem bounded_SSN : Bounded SSN := by
  refine bounded_of ?_ ?_ ?_
  · exact ((blind_one _).times 3).seq ((blind_one _).seq (((blind_one _).times 2).seq
      ((blind_one _).seq ((blind_one _).times 4))))
  · rintro m ⟨m₁, m₂, rfl, ⟨m₃, m₄, rfl, ⟨c, rfl, hc⟩, -⟩, -⟩
    exact hc
  · exact (within_words_digit.times 3).seq ((within_words_char (by decide)).seq
      ((within_words_digit.times 2).seq ((within_words_char (by decide)).seq
        (within_words_digit.times 4))))

theorem bounded_CARD : Bounded CARD := by
  refine bounded_of ?_ ?_ ?_
  · exact ((blind_one _).seq (blind_one _).opt).between 13 19
  · rintro m ⟨m₁, m₂, rfl, ⟨m₃, m₄, rfl, ⟨m₅, m₆, rfl, ⟨c, rfl, hc⟩, -⟩, -⟩, -⟩
    exact hc
  · refine (within_words_digit.seq (within_one (digit_of_word fun c hc => .inr ?_)).opt).between 13 19
    rw [Bool.or_eq_true, decide_eq_true_iff, decide_eq_true_iff] at hc
    rcases hc with rfl | rfl
    · decide
    · decide

theorem Bounded.ne_nil {P : Pattern UInt16} (hP : Bounded P) {prev : Option UInt16} {m : Units}
    {next : Option UInt16} (h : Matches P prev m next) : m ≠ [] := by
  rintro rfl
  exact absurd (hP.first _ _ _ h) (by decide)

theorem any_word_of_digit {c : Option UInt16} (h : c.any digit = true) : c.any word = true := by
  cases c with
  | none => cases h
  | some c => exact word_of_digit h

/-- A match whose last character is of a word ends with a digit. -/
theorem Bounded.last {P : Pattern UInt16} (hP : Bounded P) {prev : Option UInt16} {m : Units}
    {next : Option UInt16} (h : Matches P prev m next) (hw : (lastOr prev m).any word = true) :
    (lastOr prev m).any digit = true := by
  obtain ⟨c, hc, hlast⟩ : ∃ c ∈ m, lastOr prev m = some c := exists_lastOr (hP.ne_nil h)
  rw [hlast] at hw ⊢
  exact hP.within _ _ _ h c hc hw

/-- Before a mark a match ends with a digit. -/
theorem Bounded.last_before_mark {P : Pattern UInt16} (hP : Bounded P) {prev : Option UInt16}
    {m : Units} (h : Matches P prev m (some (unit '['))) : (lastOr prev m).any digit = true := by
  have hafter := hP.after _ _ _ h
  have hmark : (some (unit '[')).any word = false := by decide
  rw [hmark] at hafter
  exact hP.last h ((Bool.not_eq_false _).mp hafter)

theorem transfers_bounded {P Q : Pattern UInt16} (hP : Bounded P) (hQ : Bounded Q)
    (good : Units → Prop) : Transfers P good (Hit Q) (unit '[') (unit ']') where
  left prev hit m y next hhit _ hm := by
    -- the match begins with a digit, so what is replaced does not end with a word character
    have hfirst := hP.first _ _ _ hm
    have hafter := hQ.after _ _ _ hhit
    have hnext : (m ++ y).head?.any word = true := by
      cases m with
      | nil => cases hfirst
      | cons c m => exact any_word_of_digit hfirst
    rw [hnext] at hafter
    have hmark : (some (unit ']')).any word = false := by decide
    exact hP.congr _ _ _ _ _ (hmark.trans (Bool.eq_false_iff.mpr hafter).symm) rfl hm
  right prev m hit post hhit _ hm := by
    have hbefore := hQ.before _ _ _ hhit
    rw [any_word_of_digit (hP.last_before_mark hm)] at hbefore
    cases hbefore

/-! ## Phone numbers -/

/-- Some digits, at least and at most as many as given. -/
def Digits (least most : Nat) (ds : Units) : Prop :=
  least ≤ ds.length ∧ ds.length ≤ most ∧ ∀ c ∈ ds, digit c = true

def separates (c : UInt16) : Bool := space c || c = unit '.' || c = unit '-'

/-- One separator or none. -/
def Separator (sep : Units) : Prop := (∃ c, sep = [c] ∧ separates c = true) ∨ sep = []

def Sign (c : Char) (sign : Units) : Prop := sign = [unit c] ∨ sign = []

def CountryCode (m : Units) : Prop :=
  ∃ sign ds sep, m = sign ++ (ds ++ sep) ∧ Sign '+' sign ∧ Digits 1 3 ds ∧ Separator sep

def AreaCode (m : Units) : Prop :=
  ∃ opening ds closing sep, m = opening ++ (ds ++ (closing ++ sep)) ∧ Sign '(' opening ∧
    Digits 2 4 ds ∧ Sign ')' closing ∧ Separator sep

def Subscriber (m : Units) : Prop :=
  ∃ ds sep ds', m = ds ++ (sep ++ ds') ∧ Digits 3 4 ds ∧ Separator sep ∧ Digits 3 4 ds'

section

variable {prev next : Option UInt16} {m : Units}

theorem matches_digits_iff {least most : Nat} (h : least ≤ most) :
    Matches (between least most (one digit)) prev m next ↔ Digits least most m :=
  matches_between_one h

theorem matches_sign_iff {c : Char} : Matches (opt (char c)) prev m next ↔ Sign c m := by
  refine or_congr_left ⟨?_, ?_⟩
  · rintro ⟨d, rfl, hd⟩
    rw [of_decide_eq_true hd]
  · rintro rfl
    exact ⟨unit c, rfl, decide_eq_true rfl⟩

theorem matches_countryCode_iff : Matches countryCode prev m next ↔ CountryCode m := by
  constructor
  · rintro ⟨sign, _, rfl, hsign, ds, sep, rfl, hds, hsep⟩
    exact ⟨sign, ds, sep, rfl, matches_sign_iff.mp hsign, (matches_digits_iff (by decide)).mp hds,
      hsep⟩
  · rintro ⟨sign, ds, sep, rfl, hsign, hds, hsep⟩
    exact ⟨sign, ds ++ sep, rfl, matches_sign_iff.mpr hsign, ds, sep, rfl,
      (matches_digits_iff (by decide)).mpr hds, hsep⟩

theorem matches_areaCode_iff : Matches areaCode prev m next ↔ AreaCode m := by
  constructor
  · rintro ⟨opening, _, rfl, hopening, ds, _, rfl, hds, closing, sep, rfl, hclosing, hsep⟩
    exact ⟨opening, ds, closing, sep, rfl, matches_sign_iff.mp hopening,
      (matches_digits_iff (by decide)).mp hds, matches_sign_iff.mp hclosing, hsep⟩
  · rintro ⟨opening, ds, closing, sep, rfl, hopening, hds, hclosing, hsep⟩
    exact ⟨opening, ds ++ (closing ++ sep), rfl, matches_sign_iff.mpr hopening, ds, closing ++ sep,
      rfl, (matches_digits_iff (by decide)).mpr hds, closing, sep, rfl,
      matches_sign_iff.mpr hclosing, hsep⟩

theorem matches_subscriber_iff :
    Matches subscriber prev m next ↔ Subscriber m ∧ next.any digit = false := by
  constructor
  · rintro ⟨ds, _, rfl, hds, sep, _, rfl, hsep, ds', _, rfl, hds', rfl, hnext⟩
    rw [List.append_nil]
    exact ⟨⟨ds, sep, ds', rfl, (matches_digits_iff (by decide)).mp hds, hsep,
      (matches_digits_iff (by decide)).mp hds'⟩, Bool.not_eq_true' _ ▸ hnext⟩
  · rintro ⟨⟨ds, sep, ds', rfl, hds, hsep, hds'⟩, hnext⟩
    exact ⟨ds, sep ++ ds', rfl, (matches_digits_iff (by decide)).mpr hds, sep, ds', rfl, hsep, ds',
      [], (List.append_nil ds').symm, (matches_digits_iff (by decide)).mpr hds', rfl,
      (Bool.not_eq_true' _).mpr hnext⟩

/-- What a phone number is. -/
theorem matches_PHONE_iff :
    Matches PHONE prev m next ↔ prev.any digit = false ∧ next.any digit = false ∧
      ∃ country area s, m = country ++ (area ++ s) ∧ (CountryCode country ∨ country = []) ∧
        (AreaCode area ∨ area = []) ∧ Subscriber s := by
  constructor
  · rintro ⟨_, _, rfl, ⟨rfl, hprev⟩, country, _, rfl, hcountry, area, s, rfl, harea, hs⟩
    obtain ⟨hs, hnext⟩ := matches_subscriber_iff.mp hs
    exact ⟨(Bool.not_eq_true' _).mp hprev, hnext, country, area, s, rfl,
      hcountry.imp_left matches_countryCode_iff.mp, harea.imp_left matches_areaCode_iff.mp, hs⟩
  · rintro ⟨hprev, hnext, country, area, s, rfl, hcountry, harea, hs⟩
    exact ⟨[], _, rfl, ⟨rfl, (Bool.not_eq_true' _).mpr hprev⟩, country, _, rfl,
      hcountry.imp_left matches_countryCode_iff.mpr, area, s, rfl,
      harea.imp_left matches_areaCode_iff.mpr, matches_subscriber_iff.mpr ⟨hs, hnext⟩⟩

end

/-! ## The preferred number -/

theorem digit_cases {c : UInt16} (h : digit c = true) : c ∈ units "0123456789" := by
  unfold digit at h
  rw [Bool.and_eq_true, decide_eq_true_iff, decide_eq_true_iff] at h
  have hlow : 0x30 ≤ c.toNat := h.1
  have hhigh : c.toNat ≤ 0x39 := h.2
  have hall : ∀ n ∈ List.range 10, UInt16.ofNat (0x30 + n) ∈ units "0123456789" := by decide
  have hc := hall (c.toNat - 0x30) (List.mem_range.mpr (by omega))
  rwa [Nat.add_sub_cancel' hlow, UInt16.ofNat_toNat] at hc

theorem not_digit_of_separates {c : UInt16} (h : separates c = true) : digit c = false := by
  rw [Bool.eq_false_iff]
  intro hd
  have hall : ∀ d ∈ units "0123456789", separates d = false :=
    List.all_iff_forall_prop.mp (by decide)
  rw [hall c (digit_cases hd)] at h
  cases h

/-- The end of a number, after the separator. -/
def ending : Pattern UInt16 :=
  seq (between 3 4 (one digit)) (look fun _ next => !next.any digit)

theorem prefers_ending (prev : Option UInt16) (rest : Units) :
    Prefers (fun n => 4 ≤ digitCount (rest.take n)) (run ending prev rest) := by
  rw [ending, run_between_succ_seq]
  refine prefers_append (fun n hn => ?_) (prefers_of_length_le ?_)
  · exact ((atLeast_digit.times 4).seq (atLeast_zero _)).of_mem_run hn
  · rw [run, run_times_one]
    split
    · rw [List.flatMap_singleton, List.length_map, run]
      split
      · exact Nat.le_refl 1
      · exact Nat.zero_le 1
    · exact Nat.zero_le 1

theorem run_ending_of_not_digit {prev : Option UInt16} {c : UInt16} {rest : Units}
    (hc : digit c = false) : run ending prev (c :: rest) = [] := by
  refine List.eq_nil_iff_forall_not_mem.mpr fun n hn => ?_
  obtain ⟨m, post, heq, -, m₁, m₂, rfl, h₁, -⟩ := mem_run.mp hn
  obtain ⟨hleast, -, hall⟩ := (matches_digits_iff (by decide)).mp h₁
  cases m₁ with
  | nil => exact absurd hleast (by decide)
  | cons d m₁ =>
    rw [List.cons_append, List.cons_append] at heq
    obtain ⟨rfl, -⟩ := List.cons.inj heq
    rw [hall c List.mem_cons_self] at hc
    cases hc

theorem prefers_separated (prev : Option UInt16) (rest : Units) :
    Prefers (fun n => 4 ≤ digitCount (rest.take n)) (run (seq separator ending) prev rest) := by
  rw [separator, run_seq_opt]
  cases rest with
  | nil => exact prefers_ending prev []
  | cons c rest =>
    rw [run_one_seq]
    split
    next hc =>
      have hdigit : digit c = false := not_digit_of_separates hc
      rw [run_ending_of_not_digit hdigit, List.append_nil]
      refine prefers_map ?_
      have hskip : (fun n => 4 ≤ digitCount ((c :: rest).take (1 + n))) =
          fun n => 4 ≤ digitCount (rest.take n) := by
        funext n
        rw [Nat.add_comm, List.take_succ_cons, digitCount, List.countP_cons_of_neg (by simp [hdigit])]
        rfl
      rw [hskip]
      exact prefers_ending (some c) rest
    · exact prefers_ending prev (c :: rest)

theorem prefers_subscriber (prev : Option UInt16) (rest : Units) :
    Prefers (fun n => 7 ≤ digitCount (rest.take n)) (run subscriber prev rest) := by
  show Prefers _ (run (seq (between 3 (3 + 1) (one digit)) (seq separator ending)) prev rest)
  rw [run_between_succ_seq]
  refine prefers_append (fun n hn => ?_) ?_
  · exact ((atLeast_digit.times 4).seq ((atLeast_zero _).seq
      ((atLeast_digit.between 3 4).seq (atLeast_zero _)))).of_mem_run hn
  · rw [run, run_times_one]
    split
    next hthree =>
      rw [List.flatMap_singleton]
      refine prefers_map ?_
      have hdigits : digitCount (rest.take 3) = 3 := by
        obtain ⟨m, post, rfl, hm, hmatch⟩ := mem_run.mp
          (show 3 ∈ run (times 3 (one digit)) prev rest by
            rw [run_times_one, if_pos hthree]
            exact List.mem_cons_self)
        obtain ⟨-, hall⟩ := matches_times_one.mp hmatch
        rw [List.take_left' hm, digitCount, List.countP_eq_length.mpr hall, hm]
      have hskip : (fun n => 7 ≤ digitCount (rest.take (3 + n))) =
          fun n => 4 ≤ digitCount ((rest.drop 3).take n) := by
        funext n
        rw [List.take_add, digitCount, List.countP_append]
        refine propext ?_
        unfold digitCount at hdigits ⊢
        omega
      rw [hskip]
      exact prefers_separated _ _
    · rintro ⟨n, hn, -⟩
      cases hn

/-- **If a number with seven digits begins here, one is matched first.** -/
theorem prefers_PHONE (prev : Option UInt16) (rest : Units) :
    Prefers (fun n => 7 ≤ digitCount (rest.take n)) (run PHONE prev rest) := by
  rw [PHONE, run_seq_look, run_seq_opt, run_seq_opt]
  split
  · refine prefers_append (fun n hn => ?_) (prefers_append (fun n hn => ?_) ?_)
    · have hleast : AtLeast digit 7 (seq countryCode (seq (opt areaCode) subscriber)) :=
        ((atLeast_zero _).seq ((atLeast_digit.between 1 3).seq (atLeast_zero _))).seq
          ((atLeast_zero _).seq atLeast_subscriber)
      exact hleast.of_mem_run hn
    · have hleast : AtLeast digit 8 (seq areaCode subscriber) :=
        ((atLeast_zero _).seq ((atLeast_digit.between 2 4).seq (atLeast_zero _))).seq
          atLeast_subscriber
      exact Nat.le_of_succ_le (hleast.of_mem_run hn)
    · exact prefers_subscriber prev rest
  · rintro ⟨n, hn, -⟩
    cases hn

/-! ## What is left of numbers -/

theorem Subscriber.digitCount {s : Units} (h : Subscriber s) : 6 ≤ digitCount s := by
  have hmatch : Matches subscriber none s none := matches_subscriber_iff.mpr ⟨h, rfl⟩
  exact atLeast_subscriber _ _ _ hmatch

theorem AreaCode.digitCount {area : Units} (h : AreaCode area) : 2 ≤ digitCount area := by
  have hmatch : Matches areaCode none area none := matches_areaCode_iff.mpr h
  have hleast : AtLeast digit 2 areaCode :=
    (atLeast_zero _).seq ((atLeast_digit.between 2 4).seq (atLeast_zero _))
  exact hleast _ _ _ hmatch

theorem CountryCode.digitCount {country : Units} (h : CountryCode country) :
    1 ≤ digitCount country := by
  have hmatch : Matches countryCode none country none := matches_countryCode_iff.mpr h
  have hleast : AtLeast digit 1 countryCode :=
    (atLeast_zero _).seq ((atLeast_digit.between 1 3).seq (atLeast_zero _))
  exact hleast _ _ _ hmatch

theorem Digits.digitCount {least most : Nat} {ds : Units} (h : Digits least most ds) :
    digitCount ds = ds.length := List.countP_eq_length.mpr h.2.2

theorem digitCount_append (a b : Units) : digitCount (a ++ b) = digitCount a + digitCount b :=
  List.countP_append

/-- Two blocks of three digits. -/
def Blocks (m b sep b' : Units) : Prop :=
  m = b ++ (sep ++ b') ∧ Digits 3 3 b ∧ Separator sep ∧ Digits 3 3 b'

/-- A number with fewer than seven digits is two blocks of three. -/
theorem blocks_of_matches {prev next : Option UInt16} {m : Units} (h : Matches PHONE prev m next)
    (hfew : ¬7 ≤ digitCount m) : ∃ b sep b', Blocks m b sep b' := by
  obtain ⟨-, -, country, area, s, rfl, hcountry, harea, hs⟩ := matches_PHONE_iff.mp h
  have hsix := hs.digitCount
  rw [digitCount_append, digitCount_append] at hfew
  have hcountry : country = [] := hcountry.resolve_left fun h => by
    have := h.digitCount
    omega
  have harea : area = [] := harea.resolve_left fun h => by
    have := h.digitCount
    omega
  subst hcountry harea
  obtain ⟨ds, sep, ds', rfl, hds, hsep, hds'⟩ := hs
  rw [digitCount_append, digitCount_append, hds.digitCount, hds'.digitCount] at hfew
  have hleast := hds.1
  have hleast' := hds'.1
  exact ⟨ds, sep, ds', rfl, ⟨hleast, by omega, hds.2.2⟩, hsep, ⟨hleast', by omega, hds'.2.2⟩⟩

/-- Seven digits. -/
def Long (m : Units) : Prop := 7 ≤ digitCount m

/-- No number begins after a digit. -/
theorem not_matchAt_after_digit {c : UInt16} (hc : digit c = true) (rest : Units) :
    ¬MatchAt PHONE Long (some c) rest := by
  rintro ⟨m, post, -, hmatch, -⟩
  have hprev : digit c = false := (matches_PHONE_iff.mp hmatch).1
  rw [hc] at hprev
  cases hprev

theorem free_after_digit {c : UInt16} {ds rest : Units} (hc : digit c = true)
    (hds : ∀ d ∈ ds, digit d = true) (h : Free PHONE Long (lastOr (some c) ds) rest) :
    Free PHONE Long (some c) (ds ++ rest) := by
  induction ds generalizing c with
  | nil => exact h
  | cons d ds ih =>
    obtain ⟨hd, hrest⟩ := List.forall_mem_cons.mp hds
    exact ⟨not_matchAt_after_digit hc _, ih hd hrest h⟩

/-! ## Numbers that begin with a block -/

/-- Digits at the start are a part of the block there. -/
theorem digits_in_block {b tail ds r : Units} (hds : ∀ c ∈ ds, digit c = true)
    (htail : tail.head?.any digit = false) (h : b ++ tail = ds ++ r) :
    ∃ b', b = ds ++ b' ∧ r = b' ++ tail := by
  rcases List.append_eq_append_iff.mp h with ⟨k, rfl, rfl⟩ | ⟨k, rfl, rfl⟩
  · cases k with
    | nil => exact ⟨[], by rw [List.append_nil, List.append_nil], rfl⟩
    | cons c k =>
      rw [List.cons_append, List.head?_cons, Option.any_some,
        hds c (List.mem_append_right _ List.mem_cons_self)] at htail
      cases htail
  · exact ⟨k, rfl, rfl⟩

theorem sign_eq_nil {b tail sign r : Units} {c : Char} (hc : digit (unit c) = false)
    (hb : ∀ d ∈ b, digit d = true) (hne : b ≠ []) (hsign : Sign c sign)
    (h : b ++ tail = sign ++ r) : sign = [] := by
  rcases hsign with rfl | rfl
  · cases b with
    | nil => exact absurd rfl hne
    | cons d b =>
      obtain ⟨rfl, -⟩ := List.cons.inj h
      rw [hb _ List.mem_cons_self] at hc
      cases hc
  · rfl

/-- A number that begins with a block of three digits has no country code, or the block is its
country code and an area code follows. -/
theorem number_of_block {b tail country area s : Units} (hb : Digits 3 3 b)
    (htail : tail.head?.any digit = false) (hcountry : CountryCode country ∨ country = [])
    (harea : AreaCode area ∨ area = []) (hs : Subscriber s)
    (h : b ++ tail = country ++ (area ++ s)) :
    (∃ area', b ++ tail = area' ++ s ∧ (AreaCode area' ∨ area' = [])) ∨
      ∃ sep, tail = sep ++ (area ++ s) ∧ Separator sep ∧ AreaCode area := by
  obtain ⟨hlow, hhigh, hall⟩ := hb
  rcases hcountry with ⟨sign, ds, sep, rfl, hsign, ⟨hone, hmost, hds⟩, hsep⟩ | rfl
  case inr => exact .inl ⟨area, h, harea⟩
  have hne : b ≠ [] := List.ne_nil_of_length_pos (by omega)
  simp only [List.append_assoc] at h
  have hsign : sign = [] := sign_eq_nil (by decide) hall hne hsign h
  subst hsign
  obtain ⟨b', rfl, hrest⟩ := digits_in_block hds htail h
  rw [List.length_append] at hlow hhigh
  by_cases hb' : b' = []
  · subst hb'
    rw [List.append_nil]
    rw [List.append_nil] at hall
    rw [List.length_nil, Nat.add_zero] at hlow
    rcases harea with harea | rfl
    · exact .inr ⟨sep, hrest.symm, hsep, harea⟩
    · refine .inl ⟨ds ++ sep, ?_, .inl ⟨[], ds, [], sep, rfl, .inr rfl, ?_, .inr rfl, hsep⟩⟩
      · rw [List.append_assoc]
        exact congrArg (ds ++ ·) hrest.symm
      · exact ⟨by omega, by omega, hds⟩
  -- a digit is left of the block, so there is no separator
  have hall' : ∀ c ∈ b', digit c = true := fun c hc => hall c (List.mem_append_right _ hc)
  have hpos : 0 < b'.length := List.length_pos_iff.mpr hb'
  have hsep : sep = [] := by
    rcases hsep with ⟨c, rfl, hc⟩ | rfl
    · cases b' with
      | nil => exact absurd rfl hb'
      | cons d b' =>
        obtain ⟨rfl, -⟩ := List.cons.inj hrest
        have hd := hall' _ List.mem_cons_self
        rw [not_digit_of_separates hc] at hd
        cases hd
    · rfl
  subst hsep
  rcases harea with ⟨opening, ds₂, closing, sep₂, rfl, hopening, ⟨htwo, -, hds₂⟩, hclosing, hsep₂⟩ | rfl
  · simp only [List.append_assoc] at hrest
    have hopening : opening = [] := sign_eq_nil (by decide) hall' hb' hopening hrest.symm
    subst hopening
    obtain ⟨b'', rfl, htail'⟩ := digits_in_block hds₂ htail hrest.symm
    rw [List.length_append] at hlow hhigh
    have hb'' : b'' = [] := List.length_eq_zero_iff.mp (by omega)
    subst hb''
    refine .inl ⟨(ds ++ ds₂) ++ (closing ++ sep₂), ?_,
      .inl ⟨[], ds ++ ds₂, closing, sep₂, rfl, .inr rfl, ?_, hclosing, hsep₂⟩⟩
    · rw [List.append_nil, ← List.nil_append tail, ← htail']
      simp
    · rw [List.append_nil] at hall
      refine ⟨?_, ?_, hall⟩
      · rw [List.length_append]
        omega
      · rw [List.length_append]
        omega
  · obtain ⟨ds₂, sep₂, ds₃, rfl, ⟨hthree, -, hds₂⟩, -, -⟩ := hs
    obtain ⟨b'', rfl, -⟩ := digits_in_block hds₂ htail hrest.symm
    rw [List.length_append] at hhigh
    omega

theorem ne_nil_of_matches_PHONE (prev : Option UInt16) (m : Units) (next : Option UInt16)
    (h : Matches PHONE prev m next) : m ≠ [] := atLeast_PHONE.ne_nil h

/-- An area code and the number after it are a long number. -/
theorem matches_of_areaCode {prev next : Option UInt16} {area s : Units}
    (hprev : prev.any digit = false) (hnext : next.any digit = false) (harea : AreaCode area)
    (hs : Subscriber s) : Matches PHONE prev (area ++ s) next ∧ Long (area ++ s) := by
  refine ⟨matches_PHONE_iff.mpr
    ⟨hprev, hnext, [], area, s, rfl, .inr rfl, .inl harea, hs⟩, ?_⟩
  have htwo := harea.digitCount
  have hsix := hs.digitCount
  show 7 ≤ digitCount _
  rw [digitCount_append]
  omega

/-- A free text has no area code and number after its separator. -/
theorem not_free_of_areaCode {prev : Option UInt16} {sep area s y : Units} (hsep : Separator sep)
    (harea : AreaCode area) (hs : Subscriber s)
    (hhead : (sep ++ ((area ++ s) ++ y)).head?.any digit = false)
    (hnext : y.head?.any digit = false) : ¬Free PHONE Long prev (sep ++ ((area ++ s) ++ y)) := by
  intro hfree
  rcases hsep with ⟨c, rfl, hc⟩ | rfl
  · have hdigit : (some c).any digit = false := not_digit_of_separates hc
    obtain ⟨hmatch, hlong⟩ := matches_of_areaCode hdigit hnext harea hs
    exact hfree.not_matches ne_nil_of_matches_PHONE hmatch hlong
  -- without a separator the area code is in brackets, and counts without them too
  obtain ⟨opening, ds, closing, sep, rfl, hopening, hds, hclosing, hsep⟩ := harea
  rcases hopening with rfl | rfl
  · have harea : AreaCode (ds ++ (closing ++ sep)) :=
      ⟨[], ds, closing, sep, rfl, .inr rfl, hds, hclosing, hsep⟩
    have hdigit : (some (unit '(')).any digit = false := by decide
    obtain ⟨hmatch, hlong⟩ := matches_of_areaCode hdigit hnext harea hs
    exact Free.not_matches ne_nil_of_matches_PHONE (x := [unit '(']) hfree hmatch hlong
  · cases ds with
    | nil => exact absurd hds.1 (by decide)
    | cons d ds =>
      have hd : digit d = false := hhead
      rw [hds.2.2 d List.mem_cons_self] at hd
      cases hd

/-- **After a block that stays, no long number begins at the next one.** -/
theorem not_matchAt_block {prev : Option UInt16} {b b' out : Units} {c : UInt16}
    (hb : Digits 3 3 b) (hc : separates c = true) (hb' : Digits 3 3 b')
    (hfirst : ¬MatchAt PHONE Long prev (b ++ ([c] ++ (b' ++ out))))
    (hprev : prev.any digit = false) (hout : out.head?.any digit = false)
    (hrest : Free PHONE Long (lastOr (some c) b') out) :
    ¬MatchAt PHONE Long (some c) (b' ++ out) := by
  rintro ⟨m, y, heq, hmatch, hlong⟩
  obtain ⟨-, hnext, country, area, s, rfl, hcountry, harea, hs⟩ := matches_PHONE_iff.mp hmatch
  have hlong : 7 ≤ digitCount (country ++ (area ++ s)) := hlong
  -- the number is longer than the block
  obtain ⟨tail, htail, rfl⟩ : ∃ tail, b' ++ tail = country ++ (area ++ s) ∧ out = tail ++ y := by
    rcases List.append_eq_append_iff.mp heq with ⟨k, hk, rfl⟩ | ⟨k, hk, -⟩
    · exact ⟨k, hk.symm, rfl⟩
    · have hcount := hb'.digitCount
      have hmost := hb'.2.1
      rw [hk] at hcount hmost
      rw [digitCount_append] at hcount
      omega
  have hdigit : tail.head?.any digit = false := by
    cases tail with
    | nil => rfl
    | cons d tail => exact hout
  rcases number_of_block hb' hdigit hcountry harea hs htail with
    ⟨area', hnumber, harea'⟩ | ⟨sep, rfl, hsep, hcode⟩
  · -- the block before it is the country code
    have hcountry : CountryCode (b ++ [c]) :=
      ⟨[], b, [c], rfl, .inr rfl, ⟨Nat.le_trans (by decide) hb.1, hb.2⟩, .inl ⟨c, rfl, hc⟩⟩
    refine hfirst ⟨(b ++ [c]) ++ (area' ++ s), y, ?_, ?_, ?_⟩
    · rw [← hnumber]
      simp
    · exact matches_PHONE_iff.mpr ⟨hprev, hnext, b ++ [c], area', s, rfl, .inl hcountry, harea', hs⟩
    · rw [← htail, hnumber] at hlong
      show 7 ≤ digitCount _
      rw [digitCount_append]
      omega
  · rw [List.append_assoc] at hout hrest
    exact not_free_of_areaCode hsep hcode hs hout hnext hrest

/-- Where two blocks of three digits stay, no long number begins at them. -/
theorem free_blocks {prev : Option UInt16} {m b sep b' out : Units} (hm : Blocks m b sep b')
    (hfirst : ¬MatchAt PHONE Long prev (m ++ out)) (hprev : prev.any digit = false)
    (hout : out.head?.any digit = false) (hrest : Free PHONE Long (lastOr prev m) out) :
    Free PHONE Long prev (m ++ out) := by
  obtain ⟨rfl, hb, hsep, hb'⟩ := hm
  simp only [List.append_assoc, lastOr_append] at hfirst hrest ⊢
  obtain ⟨e, he, hlast⟩ : ∃ e ∈ b, lastOr prev b = some e :=
    exists_lastOr (List.ne_nil_of_length_pos (Nat.lt_of_lt_of_le (by decide) hb.1))
  have hdigit : digit e = true := hb.2.2 e he
  obtain ⟨d, ds, rfl⟩ := List.exists_cons_of_length_pos (Nat.lt_of_lt_of_le (by decide) hb.1)
  obtain ⟨hd, hds⟩ := List.forall_mem_cons.mp hb.2.2
  rw [lastOr_cons] at hlast
  refine ⟨hfirst, free_after_digit hd hds ?_⟩
  rw [hlast]
  rcases hsep with ⟨c, rfl, hc⟩ | rfl
  · refine ⟨not_matchAt_after_digit hdigit _, ?_⟩
    have hsecond := not_matchAt_block hb hc hb' hfirst hprev hout hrest
    obtain ⟨d', ds', rfl⟩ := List.exists_cons_of_length_pos (Nat.lt_of_lt_of_le (by decide) hb'.1)
    obtain ⟨hd', hds'⟩ := List.forall_mem_cons.mp hb'.2.2
    exact ⟨hsecond, free_after_digit hd' hds' hrest⟩
  · rw [lastOr_nil, lastOr_cons, hlast] at hrest
    show Free PHONE Long (some e) (b' ++ out)
    exact free_after_digit hdigit hb'.2.2 hrest

/-! ## A scrubbed text -/

/-- What a phone number is replaced by. -/
def scrubPhone (m : Units) : Units := if 7 ≤ digitCount m then mark "PHONE" else m

theorem scrubPhone_cases (m : Units) : scrubPhone m = m ∨ scrubPhone m = mark "PHONE" := by
  unfold scrubPhone
  split
  · exact .inr rfl
  · exact .inl rfl

theorem mark_eq (kind : String) : mark kind = unit '[' :: (inside kind ++ [unit ']']) := rfl

theorem inert_PHONE {kind : String} (h : kind ∈ kinds) :
    Inert PHONE (unit '[') (inside kind) (unit ']') :=
  inert_of within_PHONE atLeast_PHONE fun c hc => (inside_facts kind h c hc).1

theorem last_digit_of_PHONE {prev : Option UInt16} {m : Units} {next : Option UInt16}
    (h : Matches PHONE prev m next) : (lastOr prev m).any digit = true := by
  obtain ⟨-, -, country, area, s, rfl, -, -, ds, sep, ds', rfl, -, -, hds⟩ := matches_PHONE_iff.mp h
  rw [lastOr_append, lastOr_append, lastOr_append, lastOr_append]
  obtain ⟨c, hc, hlast⟩ : ∃ c ∈ ds', lastOr (lastOr (lastOr (lastOr (lastOr prev country) area) ds) sep) ds' = some c :=
    exists_lastOr (List.ne_nil_of_length_pos (Nat.lt_of_lt_of_le (by decide) hds.1))
  rw [hlast]
  exact hds.2.2 c hc

theorem digits_head {least most : Nat} {ds : Units} (h : Digits (least + 1) most ds) (r : Units) :
    (ds ++ r).head?.any digit = true := by
  cases ds with
  | nil => exact absurd h.1 (Nat.not_succ_le_zero least)
  | cons d ds => exact h.2.2 d List.mem_cons_self

/-- A number that does not begin with a digit begins with a sign, and is one without it. -/
theorem matches_tail_of_PHONE {prev : Option UInt16} {c : UInt16} {m : Units}
    {next : Option UInt16} (h : Matches PHONE prev (c :: m) next) (hc : digit c = false) :
    Matches PHONE (some c) m next ∧ digitCount m = digitCount (c :: m) := by
  refine ⟨?_, (List.countP_cons_of_neg (by rw [hc]; decide)).symm⟩
  obtain ⟨-, hnext, country, area, s, hparts, hcountry, harea, hs⟩ := matches_PHONE_iff.mp h
  -- the number does not begin with these digits
  have hno : ∀ {least most ds r}, Digits (least + 1) most ds → c :: m ≠ ds ++ r := by
    intro least most ds r hds heq
    have hhead := digits_head hds r
    rw [← heq, List.head?_cons, Option.any_some, hc] at hhead
    cases hhead
  refine matches_PHONE_iff.mpr ⟨hc, hnext, ?_⟩
  rcases hcountry with ⟨sign, ds, sep, rfl, rfl | rfl, hds, hsep⟩ | rfl
  · obtain ⟨-, rfl⟩ := List.cons.inj hparts
    exact ⟨ds ++ sep, area, s, rfl, .inl ⟨[], ds, sep, rfl, .inr rfl, hds, hsep⟩, harea, hs⟩
  · rw [List.nil_append, List.append_assoc] at hparts
    exact absurd hparts (hno hds)
  rcases harea with ⟨opening, ds, closing, sep, rfl, rfl | rfl, hds, hclosing, hsep⟩ | rfl
  · obtain ⟨-, rfl⟩ := List.cons.inj hparts
    exact ⟨[], ds ++ (closing ++ sep), s, rfl, .inr rfl,
      .inl ⟨[], ds, closing, sep, rfl, .inr rfl, hds, hclosing, hsep⟩, hs⟩
  · rw [List.nil_append, List.nil_append, List.append_assoc] at hparts
    exact absurd hparts (hno hds)
  · obtain ⟨ds, sep, ds', rfl, hds, -, -⟩ := hs
    have hparts : c :: m = ds ++ (sep ++ ds') := hparts
    exact absurd hparts (hno hds)

/-- No number ends before another one. -/
theorem not_matches_before_hit {prev : Option UInt16} {m hit post : Units}
    (hhit : Hit PHONE (lastOr prev m) hit post) (next : Option UInt16) :
    ¬Matches PHONE prev m next := by
  intro hm
  have hlast := last_digit_of_PHONE hm
  rw [(matches_PHONE_iff.mp hhit).1] at hlast
  cases hlast

theorem head_of_matchAt {prev : Option UInt16} {rest : Units} (h : MatchAt PHONE Long prev rest) :
    ∃ n, (run PHONE prev rest).head? = some n ∧ 7 ≤ digitCount (rest.take n) := by
  obtain ⟨m, post, rfl, hmatch, hlong⟩ := h
  refine prefers_PHONE prev (m ++ post) ⟨m.length, mem_run.mpr ⟨m, post, rfl, rfl, hmatch⟩, ?_⟩
  show 7 ≤ digitCount ((m ++ post).take m.length)
  rw [List.take_left' rfl]
  exact hlong

theorem matchAt_of_scan {prev : Option UInt16} {m post out : Units}
    (h : Scan PHONE scrubPhone (lastOr prev m) post out) (hm : MatchAt PHONE Long prev (m ++ out)) :
    MatchAt PHONE Long prev (m ++ post) := by
  have hedited : Edited (fun _ _ => True) (Hit PHONE) (mark "PHONE") prev (m ++ post) (m ++ out) :=
    (h.edited_or_kept scrubPhone_cases).copies fun _ _ _ _ => trivial
  refine hedited.matchAt (inert_PHONE (by decide)) ?_ hm
  exact fun _ _ _ _ hhit _ hmatch => absurd hmatch (not_matches_before_hit hhit _)

theorem head_of_scan {prev : Option UInt16} {rest out : Units}
    (h : Scan PHONE scrubPhone prev rest out) (hrest : rest.head?.any digit = false) :
    out.head?.any digit = false := by
  have hb : (mark "PHONE").head? = some (unit '[') := rfl
  obtain ⟨y, rfl, hsame | ⟨hmark, -⟩⟩ :=
    (h.edited_or_kept scrubPhone_cases).split hb (List.nil_append out).symm List.not_mem_nil
  · rw [hsame]
    exact hrest
  · rw [hmark]
    decide

/-- **Scrubbing phone numbers leaves none that is long.** -/
theorem free_of_scan {prev prevOut : Option UInt16} {rest out : Units}
    (h : Scan PHONE scrubPhone prev rest out)
    (hprev : prevOut = prev ∨ prevOut = some (unit ']') ∧ prev.any digit = true ∧
      rest.head?.any digit = false) : Free PHONE Long prevOut out := by
  induction h generalizing prevOut with
  | nil prev => trivial
  | @copy before c cs out hnone h ih =>
    have hfree : Free PHONE Long (some c) out := ih (.inl rfl)
    refine ⟨fun hm => ?_, hfree⟩
    rcases hprev with rfl | ⟨rfl, -, hc⟩
    · have hrest : MatchAt PHONE Long prevOut ([c] ++ cs) := matchAt_of_scan h hm
      obtain ⟨n, hn, -⟩ := head_of_matchAt hrest
      rw [List.singleton_append, hnone] at hn
      cases hn
    · -- after a mark a number begins with a sign, and begins after it too
      obtain ⟨m, y, heq, hmatch, hlong⟩ := hm
      cases m with
      | nil => exact ne_nil_of_matches_PHONE _ _ _ hmatch rfl
      | cons d m =>
        obtain ⟨rfl, rfl⟩ := List.cons.inj heq
        obtain ⟨htail, hcount⟩ := matches_tail_of_PHONE hmatch hc
        have hlong : 7 ≤ digitCount (c :: m) := hlong
        rw [← hcount] at hlong
        exact Free.not_matches (x := []) ne_nil_of_matches_PHONE hfree htail hlong
  | @hit before m post out hne hfirst h ih =>
    have hmatch := Scan.matches hfirst
    obtain ⟨hbefore, hafter, -⟩ := matches_PHONE_iff.mp hmatch
    by_cases hlong : 7 ≤ digitCount m
    · have hfree : Free PHONE Long (some (unit ']')) out :=
        ih (.inr ⟨rfl, last_digit_of_PHONE hmatch, hafter⟩)
      rw [scrubPhone, if_pos hlong, mark_eq]
      have hparts : unit '[' :: (inside "PHONE" ++ [unit ']']) ++ out =
          (unit '[' :: inside "PHONE") ++ unit ']' :: out := by simp
      rw [hparts]
      have hinert : Inert PHONE (unit '[') (inside "PHONE") (unit ']') := inert_PHONE (by decide)
      refine free_mark hinert (fun c hc => ?_) prevOut hfree
      exact (List.mem_cons.mp hc).symm
    · rw [scrubPhone, if_neg hlong]
      have hprev : prevOut = before := hprev.resolve_right fun h => by
        rw [hbefore] at h
        cases h.2.1
      subst hprev
      obtain ⟨b, sep, b', hblocks⟩ := blocks_of_matches hmatch hlong
      refine free_blocks hblocks (fun hm => ?_) hbefore (head_of_scan h hafter) (ih (.inl rfl))
      obtain ⟨n, hn, hcount⟩ := head_of_matchAt (matchAt_of_scan h hm)
      obtain rfl : m.length = n := Option.some.inj (hfirst.symm.trans hn)
      rw [List.take_left' rfl] at hcount
      exact hlong hcount

/-! ## What the replacements leave of each other -/

theorem blind_EMAIL : Blind EMAIL :=
  (blind_many _ 1).seq ((blind_one _).seq ((blind_many _ 1).seq
    ((blind_one _).seq (blind_many _ 2))))

theorem transfers_PHONE {P : Pattern UInt16} (hP : Bounded P) (good : Units → Prop) :
    Transfers P good (Hit PHONE) (unit '[') (unit ']') where
  left prev hit m y next hhit _ hm := by
    -- a number is not followed by a digit
    have hfirst := hP.first _ _ _ hm
    have hafter : (m ++ y).head?.any digit = false := (matches_PHONE_iff.mp hhit).2.1
    cases m with
    | nil => cases hfirst
    | cons c m =>
      rw [List.cons_append, List.head?_cons] at hafter
      rw [List.head?_cons, hafter] at hfirst
      cases hfirst
  right prev m hit post hhit _ hm := by
    have hlast := hP.last_before_mark hm
    rw [(matches_PHONE_iff.mp hhit).1] at hlast
    cases hlast

/-- Nothing is left to scrub. -/
structure Scrubbed (text : Units) : Prop where
  email : Free EMAIL (fun _ => True) none text
  ssn : Free SSN (fun _ => True) none text
  card : Free CARD (fun m => 13 ≤ digitCount m) none text
  phone : Free PHONE Long none text

section

variable {E : Option UInt16 → Units → Prop} {H : Option UInt16 → Units → Units → Prop}
  {prev : Option UInt16} {rest out : Units} {kind : String}

theorem free_EMAIL (hkind : kind ∈ kinds) (h : Edited E H (mark kind) prev rest out)
    (hfree : Free EMAIL (fun _ => True) prev rest) : Free EMAIL (fun _ => True) prev out :=
  (h.of_free hfree).free (inert_EMAIL hkind) (blind_EMAIL.transfers _ _ _) (fun _ _ _ h => h)
    (.inl rfl)

theorem free_SSN (hkind : kind ∈ kinds)
    (ht : Transfers SSN (fun _ => True) H (unit '[') (unit ']'))
    (h : Edited E H (mark kind) prev rest out) (hfree : Free SSN (fun _ => True) prev rest) :
    Free SSN (fun _ => True) prev out :=
  (h.of_free hfree).free (inert_SSN hkind) ht (fun _ _ _ h => h) (.inl rfl)

theorem free_CARD {good : Units → Prop} (hkind : kind ∈ kinds)
    (ht : Transfers CARD good H (unit '[') (unit ']')) (h : Edited E H (mark kind) prev rest out)
    (hfree : Free CARD good prev rest) : Free CARD good prev out :=
  (h.of_free hfree).free (inert_CARD hkind) ht (fun _ _ _ h => h) (.inl rfl)

end

theorem not_matchAt_of_run {P : Pattern UInt16} {good : Units → Prop} (prev : Option UInt16)
    (c : UInt16) (cs : Units) (h : run P prev (c :: cs) = []) : ¬MatchAt P good prev (c :: cs) := by
  rintro ⟨m, post, heq, hmatch, -⟩
  rw [heq] at h
  exact run_eq_nil h hmatch

def scrubCard (m : Units) : Units := if 13 ≤ digitCount m then mark "CARD" else m

theorem edited_EMAIL (text : Units) :
    Edited (fun prev rest => run EMAIL prev rest = []) (Hit EMAIL) (mark "EMAIL") none text
      (replaceAll EMAIL (fun _ => mark "EMAIL") text) :=
  (scan_replace (fun _ _ _ h => atLeast_EMAIL.ne_nil h) _ none text).edited

theorem edited_SSN (text : Units) :
    Edited (fun prev rest => run SSN prev rest = []) (Hit SSN) (mark "SSN") none text
      (replaceAll SSN (fun _ => mark "SSN") text) :=
  (scan_replace (fun _ _ _ h => bounded_SSN.ne_nil h) _ none text).edited

theorem edited_CARD (text : Units) :
    Edited (fun prev rest => run CARD prev rest = []) (Hit CARD) (mark "CARD") none text
      (replaceAll CARD scrubCard text) := by
  have hscan := scan_replace (fun _ _ _ h => bounded_CARD.ne_nil h) scrubCard none text
  -- what is matched has at least thirteen digits
  exact (hscan.congr fun _ _ _ h => if_pos (atLeast_CARD _ _ _ h)).edited

theorem scan_PHONE (text : Units) :
    Scan PHONE scrubPhone none text (replaceAll PHONE scrubPhone text) :=
  scan_replace ne_nil_of_matches_PHONE scrubPhone none text

theorem scrub_eq {content : Units} (h : content ≠ []) :
    scrub content = replaceAll PHONE scrubPhone (replaceAll CARD scrubCard
      (replaceAll SSN (fun _ => mark "SSN") (replaceAll EMAIL (fun _ => mark "EMAIL") content))) :=
  if_neg h

/-- **A scrubbed text has nothing left to scrub.** -/
theorem scrubbed_scrub (content : Units) : Scrubbed (scrub content) := by
  by_cases hnil : content = []
  · subst hnil
    exact ⟨trivial, trivial, trivial, trivial⟩
  rw [scrub_eq hnil]
  have h₁ := edited_EMAIL content
  have h₂ := edited_SSN (replaceAll EMAIL (fun _ => mark "EMAIL") content)
  have h₃ := edited_CARD
    (replaceAll SSN (fun _ => mark "SSN") (replaceAll EMAIL (fun _ => mark "EMAIL") content))
  have hscan := scan_PHONE (replaceAll CARD scrubCard
    (replaceAll SSN (fun _ => mark "SSN") (replaceAll EMAIL (fun _ => mark "EMAIL") content)))
  have h₄ := hscan.edited_or_kept scrubPhone_cases
  refine ⟨?_, ?_, ?_, free_of_scan hscan (.inl rfl)⟩
  · refine free_EMAIL (by decide) h₄ (free_EMAIL (by decide) h₃ (free_EMAIL (by decide) h₂ ?_))
    exact h₁.free (inert_EMAIL (by decide)) (blind_EMAIL.transfers _ _ _) not_matchAt_of_run (.inl rfl)
  · refine free_SSN (by decide) (transfers_PHONE bounded_SSN _) h₄
      (free_SSN (by decide) (transfers_bounded bounded_SSN bounded_CARD _) h₃ ?_)
    exact h₂.free (inert_SSN (by decide)) (transfers_bounded bounded_SSN bounded_SSN _)
      not_matchAt_of_run (.inl rfl)
  · refine free_CARD (by decide) (transfers_PHONE bounded_CARD _) h₄ ?_
    exact h₃.free (inert_CARD (by decide)) (transfers_bounded bounded_CARD bounded_CARD _)
      not_matchAt_of_run (.inl rfl)

theorem Scrubbed.scrub_eq_self {text : Units} (h : Scrubbed text) : scrub text = text := by
  by_cases hnil : text = []
  · exact if_pos hnil
  rw [scrub_eq hnil]
  have hemail := scan_replace (fun _ _ _ h => atLeast_EMAIL.ne_nil h) (fun _ => mark "EMAIL") none text
  have hssn := scan_replace (fun _ _ _ h => bounded_SSN.ne_nil h) (fun _ => mark "SSN") none text
  have hcard := scan_replace (fun _ _ _ h => bounded_CARD.ne_nil h) scrubCard none text
  have hphone := scan_PHONE text
  have hemail : replaceAll EMAIL (fun _ => mark "EMAIL") text = text :=
    hemail.eq_self (fun _ hno => absurd trivial hno) h.email
  have hssn : replaceAll SSN (fun _ => mark "SSN") text = text :=
    hssn.eq_self (fun _ hno => absurd trivial hno) h.ssn
  have hcard : replaceAll CARD scrubCard text = text :=
    hcard.eq_self (fun _ hno => if_neg hno) h.card
  rw [hemail, hssn, hcard]
  exact hphone.eq_self (fun _ hno => if_neg hno) h.phone

/-- No part of the text is matched and good. -/
def Absent (P : Pattern UInt16) (good : Units → Prop) (text : Units) : Prop :=
  ∀ before m after, text = before ++ (m ++ after) →
    Matches P before.getLast? m after.head? → ¬good m

theorem absent_of_free {P : Pattern UInt16} {good : Units → Prop} {text : Units}
    (hpos : ∀ prev m next, Matches P prev m next → m ≠ []) (h : Free P good none text) :
    Absent P good text := by
  rintro before m after rfl hmatch
  rw [← lastOr_none] at hmatch
  exact h.not_matches hpos hmatch

/-- **Scrubbing is idempotent, and complete for the patterns.** -/
theorem scrub_complete (content : Units) :
    scrub (scrub content) = scrub content ∧
      Absent EMAIL (fun _ => True) (scrub content) ∧ Absent SSN (fun _ => True) (scrub content) ∧
      Absent CARD (fun m => 13 ≤ digitCount m) (scrub content) ∧
      Absent PHONE (fun m => 7 ≤ digitCount m) (scrub content) := by
  have h := scrubbed_scrub content
  refine ⟨h.scrub_eq_self, ?_, ?_, ?_, ?_⟩
  · exact absent_of_free (fun _ _ _ h => atLeast_EMAIL.ne_nil h) h.email
  · exact absent_of_free (fun _ _ _ h => bounded_SSN.ne_nil h) h.ssn
  · exact absent_of_free (fun _ _ _ h => bounded_CARD.ne_nil h) h.card
  · exact absent_of_free ne_nil_of_matches_PHONE h.phone

end VegaRevenue.PiiScrubber
