import VegaRevenue.Shared.DeepEqual

/-!
# Business hours

`InMemorySequenceSchedulePolicy` moves a due time in steps until it lies in the business hours, at
most fourteen of them. A time is its number of milliseconds.

* `advance_early`, `advance_late`, `advance_idle` — what a step does
* `loop_evening`, `loop_idle`, `loop_idle_eleven` — what the steps come to
* `scheduled_iff` — when a step of a sequence is due in business hours and not early
-/

namespace VegaRevenue.Outreach.SchedulePolicy

open VegaRevenue.StrictToolSchemaValidator (inheritedNames)

structure BusinessHoursPolicy where
  timezone : String
  workDays : List Int
  startHour : Int
  endHour : Int

/-! ## Clocks -/

/-- `getUTCDay`; the first of January 1970 was a Thursday. -/
def getUTCDay (t : Int) : Int := (t / 86400000 + 4) % 7

def getUTCHours (t : Int) : Int := t / 3600000 % 24

/-- `setUTCMinutes(0, 0, 0)`. -/
def truncHour (t : Int) : Int := t / 3600000 * 3600000

/-- `setUTCHours(hour, 0, 0, 0)`. -/
def setUTCHours (t hour : Int) : Int := t / 86400000 * 86400000 + hour * 3600000

/-! ## The code -/

def offsets : List (String × Int) :=
  [("America/New_York", 4 * 60 * 60 * 1000), ("America/Chicago", 5 * 60 * 60 * 1000),
    ("America/Denver", 6 * 60 * 60 * 1000), ("America/Los_Angeles", 7 * 60 * 60 * 1000),
    ("Europe/London", 0), ("Europe/Paris", -1 * 60 * 60 * 1000),
    ("Asia/Dubai", -4 * 60 * 60 * 1000), ("Asia/Tokyo", -9 * 60 * 60 * 1000)]

/-- The offset of a time zone, none where `offsets[timezone]` is no number but what the table
inherits; a time with it is no date. -/
def timezoneOffsetMs (timezone : String) : Option Int :=
  if timezone = "UTC" then some 0
  else
    match offsets.lookup timezone with
    | some offset => some offset
    | none => if inheritedNames.contains timezone then none else some 0

def isWorkDay (p : BusinessHoursPolicy) (t : Int) : Bool := p.workDays.contains (getUTCDay t)

def inHours (p : BusinessHoursPolicy) (t : Int) : Bool :=
  p.startHour ≤ getUTCHours t && getUTCHours t < p.endHour

/-- The step of a candidate that is not returned. -/
def advance (p : BusinessHoursPolicy) (candidate : Int) : Int :=
  let next := truncHour (candidate + 60 * 60 * 1000)
  if !isWorkDay p candidate || getUTCHours candidate < p.startHour then
    setUTCHours next p.startHour
  else next

def loop (p : BusinessHoursPolicy) : (safety : Nat) → (candidate : Int) → Int
  | 0, candidate => candidate
  | safety + 1, candidate =>
    if isWorkDay p candidate && inHours p candidate then candidate
    else loop p safety (advance p candidate)

/-- `computeNextDueAt`, none where it returns no valid date. -/
def computeNextDueAt (base delayMs : Int) (businessHours : Option BusinessHoursPolicy) :
    Option Int :=
  match businessHours with
  | none => some (base + delayMs)
  | some p =>
    match timezoneOffsetMs p.timezone with
    | none => none
    | some tzOffset => some (loop p 14 (base + delayMs + tzOffset) - tzOffset)

/-! ## Hours of a day -/

/-- The full hour of a day. -/
def hourOf (day hour : Int) : Int := day * 86400000 + hour * 3600000

/-- A time lies on a day, in an hour of it. -/
structure Within (day hour t : Int) : Prop where
  low : hourOf day hour ≤ t
  high : t < hourOf day (hour + 1)
  hours : 0 ≤ hour ∧ hour < 24

theorem within_self (t : Int) : Within (t / 86400000) (getUTCHours t) t := by
  unfold getUTCHours
  constructor
  · unfold hourOf
    omega
  · unfold hourOf
    omega
  · omega

theorem within_hourOf {day hour : Int} (h : 0 ≤ hour ∧ hour < 24) :
    Within day hour (hourOf day hour) := by
  refine ⟨Int.le_refl _, ?_, h⟩
  unfold hourOf
  omega

namespace Within

variable {day hour t : Int}

theorem day_eq (h : Within day hour t) : t / 86400000 = day := by
  obtain ⟨hlow, hhigh, hhours⟩ := h
  unfold hourOf at hlow hhigh
  omega

theorem getUTCHours_eq (h : Within day hour t) : getUTCHours t = hour := by
  obtain ⟨hlow, hhigh, hhours⟩ := h
  unfold hourOf at hlow hhigh
  unfold getUTCHours
  omega

theorem getUTCDay_eq (h : Within day hour t) : getUTCDay t = (day + 4) % 7 := by
  rw [getUTCDay, h.day_eq]

theorem truncHour_next (h : Within day hour t) :
    truncHour (t + 60 * 60 * 1000) = hourOf day (hour + 1) := by
  obtain ⟨hlow, hhigh, hhours⟩ := h
  unfold hourOf at hlow hhigh ⊢
  unfold truncHour
  omega

end Within

theorem setUTCHours_hourOf {day hour start : Int} (h : 0 ≤ hour ∧ hour < 24) :
    setUTCHours (hourOf day hour) start = hourOf day start := by
  rw [setUTCHours, (within_hourOf h).day_eq]
  rfl

theorem hourOf_midnight (day : Int) : hourOf day 24 = hourOf (day + 1) 0 := by
  unfold hourOf
  omega

/-! ## Steps -/

/-- A day of the week on which the policy works. -/
def Works (p : BusinessHoursPolicy) (day : Int) : Prop := (day + 4) % 7 ∈ p.workDays

instance (p : BusinessHoursPolicy) (day : Int) : Decidable (Works p day) :=
  inferInstanceAs (Decidable ((day + 4) % 7 ∈ p.workDays))

/-- **Business hours**: a work day, between start and end. -/
structure Open (p : BusinessHoursPolicy) (t : Int) : Prop where
  day : getUTCDay t ∈ p.workDays
  hours : p.startHour ≤ getUTCHours t ∧ getUTCHours t < p.endHour

variable {p : BusinessHoursPolicy} {day hour t : Int}

theorem open_iff (h : Within day hour t) :
    Open p t ↔ Works p day ∧ p.startHour ≤ hour ∧ hour < p.endHour := by
  rw [Works, ← h.getUTCDay_eq, ← h.getUTCHours_eq]
  exact ⟨fun ⟨hday, hhours⟩ => ⟨hday, hhours⟩, fun ⟨hday, hhours⟩ => ⟨hday, hhours⟩⟩

theorem isWorkDay_iff (h : Within day hour t) : isWorkDay p t = true ↔ Works p day := by
  rw [isWorkDay, h.getUTCDay_eq, Works, List.contains_iff_mem]

theorem returned_iff : (isWorkDay p t && inHours p t) = true ↔ Open p t := by
  simp only [isWorkDay, inHours, Bool.and_eq_true, List.contains_iff_mem, decide_eq_true_eq]
  exact ⟨fun ⟨hday, hhours⟩ => ⟨hday, hhours⟩, fun ⟨hday, hhours⟩ => ⟨hday, hhours⟩⟩

theorem loop_of_open (h : Open p t) (n : Nat) : loop p n t = t := by
  cases n with
  | zero => rfl
  | succ n => rw [loop, if_pos (returned_iff.mpr h)]

theorem loop_of_not_open (h : ¬ Open p t) (n : Nat) : loop p (n + 1) t = loop p n (advance p t) := by
  rw [loop, if_neg fun hopen => h (returned_iff.mp hopen)]

/-- Before the start of a work day: to the start. -/
theorem advance_early (h : Within day hour t) (hearly : hour < p.startHour)
    (hlast : hour < 23) : advance p t = hourOf day p.startHour := by
  have hhours := h.hours
  unfold advance
  rw [if_pos (by simp [h.getUTCHours_eq, hearly]), h.truncHour_next, setUTCHours_hourOf (by omega)]

/-- From the start of a work day on: to the next hour. -/
theorem advance_late (h : Within day hour t) (hworks : Works p day) (hlate : p.startHour ≤ hour) :
    advance p t = hourOf day (hour + 1) := by
  have hwork : isWorkDay p t = true := (isWorkDay_iff h).mpr hworks
  unfold advance
  rw [if_neg (by simp [hwork, h.getUTCHours_eq, hlate]), h.truncHour_next]

/-- On any other day: to the start, which may be behind. -/
theorem advance_idle (h : Within day hour t) (hidle : ¬ Works p day) (hlast : hour < 23) :
    advance p t = hourOf day p.startHour := by
  have hhours := h.hours
  have hwork : isWorkDay p t = false := by
    rw [Bool.eq_false_iff]
    exact fun hwork => hidle ((isWorkDay_iff h).mp hwork)
  unfold advance
  rw [if_pos (by simp [hwork]), h.truncHour_next, setUTCHours_hourOf (by omega)]

/-- In its last hour: to the start of the next day. -/
theorem advance_idle_last (h : Within day 23 t) (hidle : ¬ Works p day) :
    advance p t = hourOf (day + 1) p.startHour := by
  have hwork : isWorkDay p t = false := by
    rw [Bool.eq_false_iff]
    exact fun hwork => hidle ((isWorkDay_iff h).mp hwork)
  have hnext : truncHour (t + 60 * 60 * 1000) = hourOf (day + 1) 0 := by
    rw [h.truncHour_next]
    exact hourOf_midnight day
  unfold advance
  rw [if_pos (by simp [hwork]), hnext, setUTCHours_hourOf (by omega)]

/-! ## What the steps come to -/

/-- A policy that works at all, in hours of a day. -/
structure Valid (p : BusinessHoursPolicy) : Prop where
  works : p.workDays ≠ []
  days : ∀ d ∈ p.workDays, 0 ≤ d ∧ d ≤ 6
  hours : 0 ≤ p.startHour ∧ p.startHour < p.endHour ∧ p.endHour ≤ 24

theorem exists_works (hp : Valid p) (day : Int) : ∃ k : Nat, k ≤ 6 ∧ Works p (day + k) := by
  obtain ⟨d, hd⟩ := List.exists_mem_of_ne_nil _ hp.works
  have hrange := hp.days d hd
  refine ⟨((d - day - 4) % 7).toNat, by omega, ?_⟩
  have hday : (day + ((d - day - 4) % 7).toNat + 4) % 7 = d := by omega
  rw [Works, hday]
  exact hd

/-- The evening of a work day is passed hour by hour. -/
theorem loop_evening (hp : Valid p) (hworks : Works p day) (m n : Nat) : ∀ hour : Int,
    p.endHour ≤ hour → hour + n ≤ 24 →
      loop p (n + m) (hourOf day hour) = loop p m (hourOf day (hour + n)) := by
  have hhours := hp.hours
  induction n with
  | zero =>
    intro hour _ _
    rw [Nat.zero_add, Int.natCast_zero, Int.add_zero]
  | succ n ih =>
    intro hour hlate hn
    have hwithin : Within day hour (hourOf day hour) := within_hourOf (by omega)
    have hclosed : ¬ Open p (hourOf day hour) := by
      rw [open_iff hwithin]
      omega
    rw [Nat.add_right_comm, loop_of_not_open hclosed, advance_late hwithin hworks (by omega),
      ih (hour + 1) (by omega) (by omega)]
    congr 2
    omega

/-- A day that is no work day is not left from its start. -/
theorem loop_idle (hp : Valid p) (hidle : ¬ Works p day) (hstart : p.startHour < 23) (n : Nat) :
    loop p n (hourOf day p.startHour) = hourOf day p.startHour := by
  have hhours := hp.hours
  have hwithin : Within day p.startHour (hourOf day p.startHour) := within_hourOf (by omega)
  have hclosed : ¬ Open p (hourOf day p.startHour) := fun h => hidle ((open_iff hwithin).mp h).1
  induction n with
  | zero => rfl
  | succ n ih => rw [loop_of_not_open hclosed, advance_idle hwithin hidle hstart, ih]

/-- A start at eleven in the evening is passed day by day. -/
theorem loop_idle_eleven (hp : Valid p) (hstart : p.startHour = 23) (n : Nat) : ∀ day : Int,
    (∃ k : Nat, k ≤ n ∧ Works p (day + k)) →
      Open p (loop p n (hourOf day 23)) ∧ hourOf day 23 ≤ loop p n (hourOf day 23) := by
  have hhours := hp.hours
  have hopen (day : Int) (hworks : Works p day) : Open p (hourOf day 23) :=
    (open_iff (within_hourOf (by omega))).mpr ⟨hworks, by omega⟩
  induction n with
  | zero =>
    rintro day ⟨k, hk, hworks⟩
    obtain rfl : k = 0 := by omega
    rw [Int.natCast_zero, Int.add_zero] at hworks
    exact ⟨hopen day hworks, Int.le_refl _⟩
  | succ n ih =>
    rintro day ⟨k, hk, hworks⟩
    by_cases hday : Works p day
    · rw [loop_of_open (hopen day hday)]
      exact ⟨hopen day hday, Int.le_refl _⟩
    · have hwithin : Within day 23 (hourOf day 23) := within_hourOf (by omega)
      have hclosed : ¬ Open p (hourOf day 23) := fun h => hday ((open_iff hwithin).mp h).1
      have hpos : k ≠ 0 := by
        rintro rfl
        rw [Int.natCast_zero, Int.add_zero] at hworks
        exact hday hworks
      have hnext : day + 1 + (k - 1 : Nat) = day + k := by omega
      rw [loop_of_not_open hclosed, advance_idle_last hwithin hday, hstart]
      obtain ⟨hreached, hle⟩ := ih (day + 1) ⟨k - 1, by omega, by rw [hnext]; exact hworks⟩
      refine ⟨hreached, Int.le_trans ?_ hle⟩
      unfold hourOf
      omega

/-- From midnight the hours of a work day are reached in a step; another day is not left. -/
theorem loop_midnight (hp : Valid p) (hstart : p.startHour < 23) (n : Nat) :
    Open p (loop p n (hourOf day 0)) ↔ Works p day ∧ (n ≠ 0 ∨ p.startHour = 0) := by
  have hhours := hp.hours
  have hwithin : Within day 0 (hourOf day 0) := within_hourOf (by omega)
  have hwithin' : Within day p.startHour (hourOf day p.startHour) := within_hourOf (by omega)
  by_cases hworks : Works p day
  · by_cases hzero : p.startHour = 0
    · have hopen : Open p (hourOf day 0) := (open_iff hwithin).mpr ⟨hworks, by omega⟩
      rw [loop_of_open hopen]
      exact iff_of_true hopen ⟨hworks, .inr hzero⟩
    · have hclosed : ¬ Open p (hourOf day 0) := by
        rw [open_iff hwithin]
        omega
      cases n with
      | zero => exact iff_of_false hclosed (by omega)
      | succ n =>
        have hopen : Open p (hourOf day p.startHour) :=
          (open_iff hwithin').mpr ⟨hworks, by omega⟩
        rw [loop_of_not_open hclosed, advance_early hwithin (by omega) (by omega),
          loop_of_open hopen]
        exact iff_of_true hopen ⟨hworks, .inl (Nat.succ_ne_zero n)⟩
  · have hclosed : ¬ Open p (hourOf day 0) := fun h => hworks ((open_iff hwithin).mp h).1
    have hclosed' : ¬ Open p (hourOf day p.startHour) :=
      fun h => hworks ((open_iff hwithin').mp h).1
    refine iff_of_false ?_ fun h => hworks h.1
    cases n with
    | zero => exact hclosed
    | succ n =>
      rw [loop_of_not_open hclosed, advance_idle hwithin hworks (by omega),
        loop_idle hp hworks hstart]
      exact hclosed'

theorem le_loop_midnight (hp : Valid p) (hworks : Works p day) (n : Nat) :
    hourOf day 0 ≤ loop p n (hourOf day 0) := by
  have hhours := hp.hours
  have hwithin : Within day 0 (hourOf day 0) := within_hourOf (by omega)
  have hwithin' : Within day p.startHour (hourOf day p.startHour) := within_hourOf (by omega)
  by_cases hopen : Open p (hourOf day 0)
  · exact Int.le_of_eq (loop_of_open hopen n).symm
  · have hearly : 0 < p.startHour := by
      rw [open_iff hwithin] at hopen
      by_contra hle
      exact hopen ⟨hworks, by omega⟩
    cases n with
    | zero => exact Int.le_refl _
    | succ n =>
      rw [loop_of_not_open hopen, advance_early hwithin hearly (by omega),
        loop_of_open ((open_iff hwithin').mpr ⟨hworks, by omega⟩)]
      unfold hourOf
      omega

/-! ## Due times -/

/-- Where the steps reach business hours without going back. -/
def Reachable (p : BusinessHoursPolicy) (day hour : Int) : Prop :=
  (Works p day ∧ (hour < p.endHour ∨
    Works p (day + 1) ∧ (11 ≤ hour ∨ hour = 10 ∧ p.startHour = 0))) ∨
  ¬ Works p day ∧ (p.startHour = 23 ∨ hour = 23 ∧ Works p (day + 1))

/-- What is promised of a candidate. -/
def Reaches (p : BusinessHoursPolicy) (t r : Int) : Prop := t ≤ r ∧ Open p r

theorem reaches_early (hp : Valid p) (h : Within day hour t) (hworks : Works p day)
    (hearly : hour < p.endHour) : Reaches p t (loop p 14 t) := by
  have hhours := hp.hours
  by_cases hstart : p.startHour ≤ hour
  · have hopen : Open p t := (open_iff h).mpr ⟨hworks, hstart, hearly⟩
    rw [loop_of_open hopen]
    exact ⟨Int.le_refl _, hopen⟩
  · have hclosed : ¬ Open p t := by
      rw [open_iff h]
      omega
    have hwithin : Within day p.startHour (hourOf day p.startHour) := within_hourOf (by omega)
    have hopen : Open p (hourOf day p.startHour) := (open_iff hwithin).mpr ⟨hworks, by omega⟩
    rw [loop_of_not_open hclosed, advance_early h (by omega) (by omega), loop_of_open hopen]
    refine ⟨?_, hopen⟩
    have hhigh := h.high
    unfold hourOf at hhigh ⊢
    omega

/-- After hours it takes the steps to midnight, and one more unless work starts there. -/
theorem reaches_late_iff (hp : Valid p) (h : Within day hour t) (hworks : Works p day)
    (hlate : p.endHour ≤ hour) :
    Reaches p t (loop p 14 t) ↔
      Works p (day + 1) ∧ (11 ≤ hour ∨ hour = 10 ∧ p.startHour = 0) := by
  have hhours := hp.hours
  have hrange := h.hours
  have hclosed : ¬ Open p t := by
    rw [open_iff h]
    omega
  rw [loop_of_not_open hclosed, advance_late h hworks (by omega)]
  by_cases hten : 10 ≤ hour
  · have hsteps : 13 = (23 - hour).toNat + (hour - 10).toNat := by omega
    have hmidnight : hour + 1 + ((23 - hour).toNat : Int) = 24 := by omega
    rw [hsteps, loop_evening hp hworks _ _ (hour + 1) (by omega) (by omega), hmidnight,
      hourOf_midnight]
    have hle : t ≤ hourOf (day + 1) 0 := by
      have hhigh := h.high
      unfold hourOf at hhigh ⊢
      omega
    constructor
    · intro hreaches
      obtain ⟨hnext, hstep⟩ := (loop_midnight hp (by omega) _).mp hreaches.2
      exact ⟨hnext, by omega⟩
    · rintro ⟨hnext, hstep⟩
      refine ⟨Int.le_trans hle (le_loop_midnight hp hnext _), ?_⟩
      exact (loop_midnight hp (by omega) _).mpr ⟨hnext, by omega⟩
  · have hevening := loop_evening hp hworks 0 13 (hour + 1) (by omega) (by omega)
    rw [Nat.add_zero] at hevening
    rw [hevening, loop]
    refine iff_of_false (fun hreaches => ?_) (by omega)
    have hwithin : Within day (hour + 1 + (13 : Nat)) (hourOf day (hour + 1 + (13 : Nat))) :=
      within_hourOf (by omega)
    have hopen := (open_iff hwithin).mp hreaches.2
    omega

/-- Another day is left in its last hour only, or where work starts in that hour. -/
theorem reaches_idle_iff (hp : Valid p) (h : Within day hour t) (hidle : ¬ Works p day) :
    Reaches p t (loop p 14 t) ↔ p.startHour = 23 ∨ hour = 23 ∧ Works p (day + 1) := by
  have hhours := hp.hours
  have hrange := h.hours
  have hhigh := h.high
  have hclosed : ¬ Open p t := fun hopen => hidle ((open_iff h).mp hopen).1
  rw [loop_of_not_open hclosed]
  by_cases hlast : hour = 23
  · subst hlast
    rw [advance_idle_last h hidle]
    by_cases heleven : p.startHour = 23
    · rw [heleven]
      obtain ⟨k, hk, hworks⟩ := exists_works hp (day + 1)
      obtain ⟨hopen, hle⟩ := loop_idle_eleven hp heleven 13 (day + 1) ⟨k, by omega, hworks⟩
      refine iff_of_true ⟨Int.le_trans ?_ hle, hopen⟩ (.inl rfl)
      unfold hourOf at hhigh ⊢
      omega
    · have hwithin : Within (day + 1) p.startHour (hourOf (day + 1) p.startHour) :=
        within_hourOf (by omega)
      by_cases hnext : Works p (day + 1)
      · have hopen : Open p (hourOf (day + 1) p.startHour) :=
          (open_iff hwithin).mpr ⟨hnext, by omega⟩
        rw [loop_of_open hopen]
        refine iff_of_true ⟨?_, hopen⟩ (.inr ⟨rfl, hnext⟩)
        unfold hourOf at hhigh ⊢
        omega
      · rw [loop_idle hp hnext (by omega)]
        refine iff_of_false (fun hreaches => hnext ((open_iff hwithin).mp hreaches.2).1) ?_
        rintro (heq | ⟨-, hworks⟩)
        · exact heleven heq
        · exact hnext hworks
  · rw [advance_idle h hidle (by omega)]
    by_cases heleven : p.startHour = 23
    · rw [heleven]
      obtain ⟨k, hk, hworks⟩ := exists_works hp day
      obtain ⟨hopen, hle⟩ := loop_idle_eleven hp heleven 13 day ⟨k, by omega, hworks⟩
      refine iff_of_true ⟨Int.le_trans ?_ hle, hopen⟩ (.inl rfl)
      unfold hourOf at hhigh ⊢
      omega
    · have hwithin : Within day p.startHour (hourOf day p.startHour) := within_hourOf (by omega)
      rw [loop_idle hp hidle (by omega)]
      refine iff_of_false (fun hreaches => hidle ((open_iff hwithin).mp hreaches.2).1) ?_
      rintro (heq | ⟨heq, -⟩)
      · exact heleven heq
      · exact hlast heq

/-- **Where business hours are reached.** -/
theorem reaches_iff (hp : Valid p) (h : Within day hour t) :
    Reaches p t (loop p 14 t) ↔ Reachable p day hour := by
  unfold Reachable
  by_cases hworks : Works p day
  · by_cases hearly : hour < p.endHour
    · exact iff_of_true (reaches_early hp h hworks hearly) (.inl ⟨hworks, .inl hearly⟩)
    · rw [reaches_late_iff hp h hworks (by omega)]
      simp [hworks, hearly]
  · rw [reaches_idle_iff hp h hworks]
    simp [hworks]

/-- **What is promised**: an instant in business hours, not before the due time, and the due time
itself where that is in business hours. -/
def Scheduled (p : BusinessHoursPolicy) (due : Int) (result : Option Int) : Prop :=
  ∃ tzOffset instant, timezoneOffsetMs p.timezone = some tzOffset ∧ result = some instant ∧
    due ≤ instant ∧ Open p (instant + tzOffset) ∧ (Open p (due + tzOffset) → instant = due)

/-- **A step is scheduled in business hours exactly** from a work day before they end, from its
evening if the steps suffice to the next day and that is a work day, and from another day in its
last hour before a work day, or where work starts in that hour. -/
theorem scheduled_iff (hp : Valid p) (base delayMs : Int) :
    Scheduled p (base + delayMs) (computeNextDueAt base delayMs (some p)) ↔
      ∃ tzOffset, timezoneOffsetMs p.timezone = some tzOffset ∧
        Reachable p ((base + delayMs + tzOffset) / 86400000)
          (getUTCHours (base + delayMs + tzOffset)) := by
  unfold Scheduled computeNextDueAt
  cases hoffset : timezoneOffsetMs p.timezone with
  | none => simp [hoffset]
  | some tzOffset =>
    simp only [hoffset, Option.some.injEq, exists_and_left, exists_eq_left']
    rw [← reaches_iff hp (within_self _), Reaches, Int.sub_add_cancel]
    constructor
    · rintro ⟨hle, hopen, -⟩
      exact ⟨by omega, hopen⟩
    · rintro ⟨hle, hopen⟩
      refine ⟨by omega, hopen, fun hdue => ?_⟩
      rw [loop_of_open hdue]
      omega

/-- Monday to Friday, nine to five. -/
def officeHours : BusinessHoursPolicy where
  timezone := "UTC"
  workDays := [1, 2, 3, 4, 5]
  startHour := 9
  endHour := 17

theorem officeHours_valid : Valid officeHours :=
  ⟨by decide, by decide, by decide⟩

/-- From the evening of Monday, the fifth of January 1970, to Tuesday morning. -/
theorem scheduled_next_morning :
    Scheduled officeHours (hourOf 4 20 + 0) (computeNextDueAt (hourOf 4 20) 0 (some officeHours)) ∧
      computeNextDueAt (hourOf 4 20) 0 (some officeHours) = some (hourOf 5 9) := by
  refine ⟨(scheduled_iff officeHours_valid _ _).mpr ⟨0, by decide, .inl ⟨by decide, .inr ?_⟩⟩,
    by decide⟩
  exact ⟨by decide, .inl (by decide)⟩

/-- What is due on Saturday noon is scheduled on Saturday at nine, three hours early and on no work
day; what is due on Friday evening is scheduled on Saturday, too. -/
theorem not_scheduled_saturday :
    computeNextDueAt (hourOf 2 12) 0 (some officeHours) = some (hourOf 2 9) ∧
    computeNextDueAt (hourOf 1 20) 0 (some officeHours) = some (hourOf 2 9) ∧
    ¬ Scheduled officeHours (hourOf 2 12 + 0)
      (computeNextDueAt (hourOf 2 12) 0 (some officeHours)) := by
  have hresult : computeNextDueAt (hourOf 2 12) 0 (some officeHours) = some (hourOf 2 9) := by
    decide
  refine ⟨hresult, by decide, ?_⟩
  rw [hresult]
  rintro ⟨tzOffset, instant, -, hinstant, hle, -⟩
  cases hinstant
  exact absurd hle (by decide)

end VegaRevenue.Outreach.SchedulePolicy
