import Mathlib.Algebra.Group.Nat.Defs
import Mathlib.Data.List.Basic
import Mathlib.Tactic.Common

/-!
# Instants as ISO 8601 text

An instant is a number of milliseconds since 1970. Its text is the date and the time of day in UTC,
`YYYY-MM-DDTHH:mm:ss.sssZ`; a year that has no four digits is signed and has six.

* `daysOf_civil` — a day is the day of its date
* `parse_format` — the text of an instant reads as the instant
-/

namespace IsoDate

/-! ## Dates -/

/-- A date of the proleptic Gregorian calendar. -/
structure Civil where
  year : Int
  month : Nat
  day : Nat
deriving DecidableEq

/-- The year of a day of an era of four hundred years, and the day of the year. The years are
counted from March on, so that a leap day is the last of its year. -/
def yearOfEra (ofEra : Nat) : Nat × Nat :=
  let century := min (ofEra / 36524) 3
  let ofCentury := ofEra - 36524 * century
  let leap := ofCentury / 1461
  let ofLeap := ofCentury - 1461 * leap
  let single := min (ofLeap / 365) 3
  (100 * century + 4 * leap + single, ofLeap - 365 * single)

/-- The days of an era before a year of it. -/
def daysBefore (year : Nat) : Nat := 365 * year + year / 4 - year / 100

/-- The months counted from March on. -/
def monthOf (march : Nat) : Nat := if march < 10 then march + 3 else march - 9

def marchOf (month : Nat) : Nat := if month ≤ 2 then month + 9 else month - 3

/-- The month and the day of a day of the year. -/
def monthOfYear (ofYear : Nat) : Nat × Nat :=
  let march := (5 * ofYear + 2) / 153
  (monthOf march, ofYear - (153 * march + 2) / 5 + 1)

def dayOfYear (month day : Nat) : Nat := (153 * marchOf month + 2) / 5 + day - 1

/-- The date of a day of a year of an era. -/
def dateOf (era : Int) (year ofYear : Nat) : Civil :=
  let (month, day) := monthOfYear ofYear
  { year := 400 * era + year + if month ≤ 2 then 1 else 0
    month := month
    day := day }

/-- The date of a day, counted from 1970. -/
def civil (days : Int) : Civil :=
  let (year, ofYear) := yearOfEra ((days + 719468) % 146097).toNat
  dateOf ((days + 719468) / 146097) year ofYear

/-- The day of a date, counted from the first era. -/
def dayOf (date : Civil) : Int :=
  let year := date.year - if date.month ≤ 2 then 1 else 0
  146097 * (year / 400) + daysBefore (year % 400).toNat + dayOfYear date.month date.day

/-- The day of a date. -/
def daysOf (date : Civil) : Int := dayOf date - 719468

theorem yearOfEra_spec {ofEra : Nat} (h : ofEra < 146097) :
    (yearOfEra ofEra).1 < 400 ∧ (yearOfEra ofEra).2 ≤ 365 ∧
      daysBefore (yearOfEra ofEra).1 + (yearOfEra ofEra).2 = ofEra := by
  have hcentury : 36524 * min (ofEra / 36524) 3 ≤ ofEra := by omega
  have hofCentury : ofEra - 36524 * min (ofEra / 36524) 3 ≤ 36524 := by omega
  unfold yearOfEra daysBefore
  dsimp only
  have hle : min (ofEra / 36524) 3 ≤ 3 := by omega
  generalize min (ofEra / 36524) 3 = century at *
  generalize hc : ofEra - 36524 * century = ofCentury at *
  have hleap : ofCentury / 1461 ≤ 24 := by omega
  have hofLeap : ofCentury - 1461 * (ofCentury / 1461) < 1461 := by omega
  have hback : 1461 * (ofCentury / 1461) ≤ ofCentury := by omega
  generalize ofCentury / 1461 = leap at *
  generalize hl : ofCentury - 1461 * leap = ofLeap at *
  have hsingle : min (ofLeap / 365) 3 ≤ 3 := by omega
  have hofYear : ofLeap - 365 * min (ofLeap / 365) 3 ≤ 365 := by omega
  have hyear : 365 * min (ofLeap / 365) 3 ≤ ofLeap := by omega
  generalize min (ofLeap / 365) 3 = single at *
  have hfour : (100 * century + 4 * leap + single) / 4 = 25 * century + leap := by omega
  have hhundred : (100 * century + 4 * leap + single) / 100 = century := by omega
  omega

theorem monthOf_spec {march : Nat} (h : march ≤ 11) :
    monthOf march ≤ 12 ∧ marchOf (monthOf march) = march := by
  unfold marchOf monthOf
  by_cases hm : march < 10
  · simp only [if_pos hm]
    rw [if_neg (by omega)]
    omega
  · simp only [if_neg hm]
    rw [if_pos (by omega)]
    omega

theorem monthOfYear_spec {ofYear : Nat} (h : ofYear ≤ 365) :
    (monthOfYear ofYear).1 ≤ 12 ∧ (monthOfYear ofYear).2 ≤ 31 ∧
      dayOfYear (monthOfYear ofYear).1 (monthOfYear ofYear).2 = ofYear := by
  have hmarch : (5 * ofYear + 2) / 153 ≤ 11 := by omega
  have hday : (153 * ((5 * ofYear + 2) / 153) + 2) / 5 ≤ ofYear := by omega
  have hlast : ofYear - (153 * ((5 * ofYear + 2) / 153) + 2) / 5 ≤ 30 := by omega
  obtain ⟨hmonth, hback⟩ := monthOf_spec hmarch
  unfold monthOfYear dayOfYear
  dsimp only
  rw [hback]
  omega

theorem dayOf_dateOf (era : Int) {year ofYear : Nat} (hyear : year < 400) (hofYear : ofYear ≤ 365) :
    dayOf (dateOf era year ofYear) = 146097 * era + (daysBefore year + ofYear : Nat) := by
  obtain ⟨-, -, hday⟩ := monthOfYear_spec hofYear
  unfold dayOf dateOf
  generalize monthOfYear ofYear = date at hday ⊢
  obtain ⟨month, day⟩ := date
  dsimp only at hday ⊢
  rw [hday, Int.add_sub_cancel]
  have h400 : (400 * era + (year : Int)) % 400 = year := by omega
  have hera : (400 * era + (year : Int)) / 400 = era := by omega
  rw [h400, hera, Int.toNat_natCast]
  omega

/-- A day is the day of its date. -/
theorem daysOf_civil (days : Int) : daysOf (civil days) = days := by
  have hofEra : ((days + 719468) % 146097).toNat < 146097 := by omega
  have hdays : days + 719468 =
      146097 * ((days + 719468) / 146097) + ((days + 719468) % 146097).toNat := by omega
  obtain ⟨hyear, hofYear, hsum⟩ := yearOfEra_spec hofEra
  unfold daysOf civil
  rw [dayOf_dateOf _ hyear hofYear, hsum, ← hdays, Int.add_sub_cancel]

theorem civil_month_le (days : Int) : (civil days).month ≤ 12 ∧ (civil days).day ≤ 31 := by
  have hofEra : ((days + 719468) % 146097).toNat < 146097 := by omega
  obtain ⟨-, hofYear, -⟩ := yearOfEra_spec hofEra
  obtain ⟨hmonth, hday, -⟩ := monthOfYear_spec hofYear
  exact ⟨hmonth, hday⟩

/-! ## Text -/

/-- The digits of a number, filled up with zeros. -/
def pad (width n : Nat) : List Char :=
  List.replicate (width - (Nat.toDigits 10 n).length) '0' ++ Nat.toDigits 10 n

def yearText (year : Int) : List Char :=
  if 0 ≤ year ∧ year < 10000 then pad 4 year.toNat
  else (if year < 0 then '-' else '+') :: pad 6 year.natAbs

/-- The text of an instant. -/
def format (instant : Int) : String :=
  let date := civil (instant / 86400000)
  let time := (instant % 86400000).toNat
  String.ofList <|
    yearText date.year ++ '-' :: pad 2 date.month ++ '-' :: pad 2 date.day ++
    'T' :: pad 2 (time / 3600000) ++ ':' :: pad 2 (time / 60000 % 60) ++
    ':' :: pad 2 (time / 1000 % 60) ++ '.' :: pad 3 (time % 1000) ++ ['Z']

/-- Reads a number of so many digits. -/
def number (width : Nat) (text : List Char) : Option (Nat × List Char) :=
  let digits := text.take width
  if digits.length = width ∧ digits.all Char.isDigit then
    some (Nat.ofDigitChars 10 digits 0, text.drop width)
  else none

/-- Reads one character. -/
def expect (c : Char) : List Char → Option (List Char)
  | c' :: rest => if c' = c then some rest else none
  | [] => none

/-- Reads a character and the number after it. -/
def after (c : Char) (width : Nat) (text : List Char) : Option (Nat × List Char) :=
  (expect c text).bind (number width)

/-- Reads a number up to the first character that is no digit. -/
def digitsOf (text : List Char) : Nat × List Char :=
  (Nat.ofDigitChars 10 (text.takeWhile Char.isDigit) 0, text.dropWhile Char.isDigit)

def readYear : List Char → Option (Int × List Char)
  | '+' :: rest => some ((digitsOf rest).1, (digitsOf rest).2)
  | '-' :: rest => some (-(digitsOf rest).1, (digitsOf rest).2)
  | text => (number 4 text).map fun (n, rest) => (n, rest)

/-- The instant of a text. -/
def parse (text : String) : Option Int := do
  let (year, text) ← readYear text.toList
  let (month, text) ← after '-' 2 text
  let (day, text) ← after '-' 2 text
  let (hour, text) ← after 'T' 2 text
  let (minute, text) ← after ':' 2 text
  let (second, text) ← after ':' 2 text
  let (milli, text) ← after '.' 3 text
  let _ ← expect 'Z' text
  pure (daysOf ⟨year, month, day⟩ * 86400000 +
    (((hour * 60 + minute) * 60 + second) * 1000 + milli : Nat))

theorem all_isDigit_pad (width n : Nat) : (pad width n).all Char.isDigit = true := by
  rw [List.all_eq_true]
  intro c hc
  rcases List.mem_append.mp hc with hc | hc
  · rw [(List.mem_replicate.mp hc).2]
    rfl
  · exact Nat.isDigit_of_mem_toDigits (by decide) (by decide) hc

theorem ofDigitChars_pad (width n : Nat) : Nat.ofDigitChars 10 (pad width n) 0 = n := by
  unfold pad
  rw [Nat.ofDigitChars_append, Nat.ofDigitChars_replicate_zero, Nat.mul_zero,
    Nat.ofDigitChars_ten_toDigits]

theorem length_pad {width n : Nat} (hwidth : 0 < width) (h : n < 10 ^ width) :
    (pad width n).length = width := by
  have hle := (Nat.length_toDigits_le_iff (by decide) hwidth).mpr h
  unfold pad
  rw [List.length_append, List.length_replicate]
  omega

/-- A padded number is read back, and what follows it is left. -/
theorem number_pad {width n : Nat} (hwidth : 0 < width) (h : n < 10 ^ width) (rest : List Char) :
    number width (pad width n ++ rest) = some (n, rest) := by
  have hlength := length_pad hwidth h
  have htake : (pad width n ++ rest).take width = pad width n := by
    rw [List.take_append_of_le_length (Nat.le_of_eq hlength.symm), List.take_of_length_le
      (Nat.le_of_eq hlength)]
  unfold number
  rw [htake, if_pos ⟨hlength, all_isDigit_pad width n⟩, ofDigitChars_pad,
    List.drop_append_of_le_length (Nat.le_of_eq hlength.symm), List.drop_of_length_le
      (Nat.le_of_eq hlength), List.nil_append]

theorem digitsOf_pad (width n : Nat) {c : Char} (hc : c.isDigit = false) (rest : List Char) :
    digitsOf (pad width n ++ c :: rest) = (n, c :: rest) := by
  have hall := List.all_eq_true.mp (all_isDigit_pad width n)
  unfold digitsOf
  rw [List.takeWhile_append_of_pos hall, List.dropWhile_append_of_pos hall,
    List.takeWhile_cons_of_neg (by simp [hc]), List.dropWhile_cons_of_neg (by simp [hc]),
    List.append_nil, ofDigitChars_pad]

theorem readYear_of_isDigit {c : Char} (hc : c.isDigit = true) (rest : List Char) :
    readYear (c :: rest) = (number 4 (c :: rest)).map fun (n, rest) => ((n : Int), rest) := by
  unfold readYear
  split
  next h =>
    cases h
    exact absurd hc (by decide)
  next h =>
    cases h
    exact absurd hc (by decide)
  · rfl

theorem readYear_yearText (year : Int) (rest : List Char) :
    readYear (yearText year ++ '-' :: rest) = some (year, '-' :: rest) := by
  unfold yearText
  split
  next h =>
    have hn : year.toNat < 10 ^ 4 := by omega
    have hread := number_pad (by decide) hn ('-' :: rest)
    -- four digits begin with no sign
    cases hp : pad 4 year.toNat with
    | nil =>
      have hlength := length_pad (by decide) hn
      rw [hp] at hlength
      cases hlength
    | cons c cs =>
      have hc := List.all_eq_true.mp (all_isDigit_pad 4 year.toNat) c (by rw [hp]; exact .head _)
      rw [hp, List.cons_append] at hread
      rw [List.cons_append, readYear_of_isDigit hc, hread, Option.map_some]
      simp only [Int.toNat_of_nonneg h.1]
  next h =>
    split
    next hneg =>
      rw [List.cons_append, readYear, digitsOf_pad 6 _ (by rfl)]
      simp only [Option.some.injEq, Prod.mk.injEq, and_true]
      omega
    next hpos =>
      rw [List.cons_append, readYear, digitsOf_pad 6 _ (by rfl)]
      simp only [Option.some.injEq, Prod.mk.injEq, and_true]
      omega

theorem after_pad (c : Char) {width n : Nat} (hwidth : 0 < width) (h : n < 10 ^ width)
    (rest : List Char) : after c width (c :: (pad width n ++ rest)) = some (n, rest) := by
  have hc : expect c (c :: (pad width n ++ rest)) = some (pad width n ++ rest) := if_pos rfl
  unfold after
  rw [hc, Option.bind_some, number_pad hwidth h]

/-- **The text of an instant reads as the instant.** -/
theorem parse_format (instant : Int) : parse (format instant) = some instant := by
  obtain ⟨hmonth, hday⟩ := civil_month_le (instant / 86400000)
  have hdays := daysOf_civil (instant / 86400000)
  have htime : (instant % 86400000).toNat < 86400000 := by omega
  unfold parse format
  generalize civil (instant / 86400000) = date at hmonth hday hdays ⊢
  generalize ht : (instant % 86400000).toNat = time at htime ⊢
  dsimp only
  have hhour : time / 3600000 < 10 ^ 2 := by omega
  have hminute : time / 60000 % 60 < 10 ^ 2 := by omega
  have hsecond : time / 1000 % 60 < 10 ^ 2 := by omega
  have hmilli : time % 1000 < 10 ^ 3 := by omega
  rw [String.toList_ofList]
  simp only [List.append_assoc, List.cons_append]
  rw [readYear_yearText]
  show (after '-' 2 _).bind _ = _
  rw [after_pad '-' (by decide) (by omega), Option.bind_some]
  show (after '-' 2 _).bind _ = _
  rw [after_pad '-' (by decide) (by omega), Option.bind_some]
  show (after 'T' 2 _).bind _ = _
  rw [after_pad 'T' (by decide) hhour, Option.bind_some]
  show (after ':' 2 _).bind _ = _
  rw [after_pad ':' (by decide) hminute, Option.bind_some]
  show (after ':' 2 _).bind _ = _
  rw [after_pad ':' (by decide) hsecond, Option.bind_some]
  show (after '.' 3 _).bind _ = _
  rw [after_pad '.' (by decide) hmilli, Option.bind_some]
  have hsum : ((time / 3600000 * 60 + time / 60000 % 60) * 60 + time / 1000 % 60) * 1000 +
      time % 1000 = time := by omega
  show some (daysOf ⟨date.year, date.month, date.day⟩ * 86400000 + _) = _
  rw [hsum, hdays]
  congr 1
  omega

example : format 951782400000 = "2000-02-29T00:00:00.000Z" := by decide +kernel

end IsoDate
