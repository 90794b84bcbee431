import Mathlib.Data.Int.Order.Basic
import Mathlib.Data.List.Basic
import Mathlib.Tactic.Common

/-!
# A counter that expires

A counter is visited from time to time. A visit that finds it alive adds to it and sets how long it
is kept from then on; a visit that finds nothing begins it anew. A log lists the visits, the newest
first. The visits since the counter was last begun are its burst.

* `within_le_inBurst` — no older burst reaches into a span that the counter outlives
* `inBurst_le_within` — the visits of a burst that began in a span are in it
* `within_lt_inBurst` — a span that starts after the burst began misses its first visit
* `inBurst_le` — a burst has no more visits under a bound than the bound
-/

namespace ExpiringCounter

/-- The time of a visit, and the count it found. -/
structure Visit where
  time : Int
  found : Nat

/-- What a visit does, by the count it finds. -/
structure Rule where
  adds : Nat → Nat
  keeps : Nat → Int

/-- The count that a visit at `t` finds after the visits of the log. -/
def Rule.found (r : Rule) : List Visit → Int → Nat
  | [], _ => 0
  | v :: _, t => if t ≤ v.time + r.keeps v.found then v.found + r.adds v.found else 0

/-- The visits of a counter that was not there at first. -/
inductive Rule.Log (r : Rule) : List Visit → Prop
  | nil : r.Log []
  | visit {log : List Visit} {t : Int} (earlier : r.Log log) (later : ∀ v ∈ log, v.time ≤ t) :
    r.Log (⟨t, r.found log t⟩ :: log)

/-- When the burst began. -/
def began : List Visit → Int
  | [] => 0
  | v :: log => if v.found = 0 then v.time else began log

/-- How many visits of the burst found a count with `p`. -/
def inBurst (p : Nat → Bool) : List Visit → Nat
  | [] => 0
  | v :: log => (p v.found).toNat + if v.found = 0 then 0 else inBurst p log

/-- How many visits from `x` to `y` found a count with `p`. -/
def within (p : Nat → Bool) (x y : Int) (log : List Visit) : Nat :=
  log.countP fun v => p v.found && (x ≤ v.time && v.time ≤ y)

variable {r : Rule} {p : Nat → Bool} {log : List Visit} {v : Visit} {x y : Int}

theorem Rule.Log.earlier (h : r.Log (v :: log)) : r.Log log := by
  cases h with
  | visit hlog _ => exact hlog

theorem Rule.Log.time_le (h : r.Log (v :: log)) {u : Visit} (hu : u ∈ log) : u.time ≤ v.time := by
  cases h with
  | visit _ hlater => exact hlater u hu

theorem Rule.Log.found_eq (h : r.Log (v :: log)) : v.found = r.found log v.time := by
  cases h with
  | visit _ _ => rfl

/-- A visit that finds a count finds what the visit before it left. -/
theorem Rule.Log.found_of_alive {u : Visit} (h : r.Log (v :: u :: log)) (hv : v.found ≠ 0) :
    v.found = u.found + r.adds u.found := by
  have hfound := h.found_eq
  simp only [Rule.found] at hfound
  split at hfound
  · exact hfound
  · exact absurd hfound hv

/-- A visit that finds nothing comes after the span of the one before it. -/
theorem Rule.Log.lt_of_begins {u : Visit} (h : r.Log (v :: u :: log)) (hadds : 0 < r.adds u.found)
    (hv : v.found = 0) : u.time + r.keeps u.found < v.time := by
  have hfound := h.found_eq
  simp only [Rule.found] at hfound
  split at hfound
  · omega
  next hlt => exact not_le.mp hlt

theorem Rule.Log.found_nil (h : r.Log [v]) : v.found = 0 := h.found_eq

theorem began_le (h : r.Log (v :: log)) : began (v :: log) ≤ v.time := by
  induction log generalizing v with
  | nil =>
    unfold began
    rw [if_pos h.found_nil]
  | cons u log ih =>
    unfold began
    split
    · exact le_refl _
    · exact le_trans (ih h.earlier) (h.time_le List.mem_cons_self)

theorem within_cons : within p x y (v :: log) =
    within p x y log + if p v.found && (x ≤ v.time && v.time ≤ y) then 1 else 0 :=
  List.countP_cons

theorem within_eq_zero (h : ∀ v ∈ log, v.time < x) : within p x y log = 0 := by
  unfold within
  rw [List.countP_eq_zero]
  intro v hv
  have := h v hv
  simp only [Bool.and_eq_true, decide_eq_true_eq]
  omega

/-- The burst that a log ends in, where no earlier visit is within the span `w` before it. -/
theorem earlier_lt {w : Int} (h : r.Log (v :: log)) (hadds : ∀ c, 0 < r.adds c)
    (hkeeps : ∀ u ∈ log, w ≤ r.keeps u.found) (hv : v.found = 0) :
    ∀ u ∈ log, u.time < v.time - w := by
  cases log with
  | nil => exact fun u hu => absurd hu List.not_mem_nil
  | cons u₀ log =>
    intro u hu
    have hlt := h.lt_of_begins (hadds _) hv
    have hw := hkeeps u₀ List.mem_cons_self
    have hle : u.time ≤ u₀.time := by
      rcases List.mem_cons.mp hu with rfl | hu
      · exact le_refl _
      · exact h.earlier.time_le hu
    omega

/-- **No visit of an older burst is in a span that reaches back from the burst by no more than
every visit keeps the counter.** -/
theorem within_le_inBurst {w : Int} (h : r.Log log) (hadds : ∀ c, 0 < r.adds c)
    (hkeeps : ∀ u ∈ log, w ≤ r.keeps u.found) (hx : began log - w ≤ x) :
    within p x y log ≤ inBurst p log := by
  induction log with
  | nil => exact Nat.le_refl 0
  | cons v log ih =>
    have hlog : ∀ u ∈ log, w ≤ r.keeps u.found := fun u hu =>
      hkeeps u (List.mem_cons_of_mem _ hu)
    have hone : (if p v.found && (x ≤ v.time && v.time ≤ y) then 1 else 0) ≤ (p v.found).toNat := by
      cases p v.found <;> simp
      split <;> omega
    unfold inBurst
    rw [within_cons]
    unfold began at hx
    by_cases hv : v.found = 0
    · rw [if_pos hv] at hx ⊢
      rw [within_eq_zero fun u hu => lt_of_lt_of_le (earlier_lt h hadds hlog hv u hu) hx]
      omega
    · rw [if_neg hv] at hx ⊢
      have := ih h.earlier hlog hx
      omega

/-- The visits of a burst that began at `x` or later are all from `x` on. -/
theorem inBurst_le_within (h : r.Log log) (hx : x ≤ began log) (hy : ∀ v ∈ log, v.time ≤ y) :
    inBurst p log ≤ within p x y log := by
  induction log with
  | nil => exact Nat.le_refl 0
  | cons v log ih =>
    have htime : x ≤ v.time := le_trans hx (began_le h)
    have hin : (x ≤ v.time && v.time ≤ y : Bool) = true := by
      rw [Bool.and_eq_true, decide_eq_true_eq, decide_eq_true_eq]
      exact ⟨htime, hy v List.mem_cons_self⟩
    unfold inBurst
    rw [within_cons]
    unfold began at hx
    have hone : (p v.found).toNat ≤ if p v.found && (x ≤ v.time && v.time ≤ y) then 1 else 0 := by
      rw [hin]
      cases p v.found <;> simp
    split
    · omega
    next hv =>
      rw [if_neg hv] at hx
      have := ih h.earlier hx fun u hu => hy u (List.mem_cons_of_mem _ hu)
      omega

/-- **A span that starts after the burst began misses its first visit.** -/
theorem within_lt_inBurst (h : r.Log log) (hne : log ≠ []) (hx : began log < x)
    (hp : p 0 = true) : within p x y log < inBurst p log := by
  induction log with
  | nil => exact absurd rfl hne
  | cons v log ih =>
    unfold inBurst
    rw [within_cons]
    unfold began at hx
    by_cases hv : v.found = 0
    · rw [if_pos hv] at hx ⊢
      have hout : (x ≤ v.time && v.time ≤ y : Bool) = false := by
        rw [decide_eq_false (not_le.mpr hx), Bool.false_and]
      rw [within_eq_zero fun u hu => lt_of_le_of_lt (h.time_le hu) hx, hv, hp, hout]
      simp
    · rw [if_neg hv] at hx ⊢
      have hlog : log ≠ [] := by
        rintro rfl
        exact hv h.found_nil
      have hone : (if p v.found && (x ≤ v.time && v.time ≤ y) then 1 else 0) ≤
          (p v.found).toNat := by
        cases p v.found <;> simp
        split <;> omega
      have := ih h.earlier hlog hx
      omega

/-- A visit with `p` finds less than `limit`: so many visits does a burst have at most. -/
theorem inBurst_le {limit : Nat} (h : r.Log (v :: log)) (hadds : ∀ c, 0 < r.adds c)
    (hp : ∀ c, p c = true → c < limit) :
    inBurst p (v :: log) ≤ limit ∧ inBurst p (v :: log) ≤ v.found + r.adds v.found := by
  have hpos := hadds v.found
  have hone : (p v.found).toNat ≤ limit - v.found ∧ (p v.found).toNat ≤ 1 := by
    cases hv : p v.found with
    | false => simp
    | true =>
      have := hp _ hv
      simp only [Bool.toNat_true]
      omega
  induction log generalizing v with
  | nil =>
    unfold inBurst
    rw [if_pos h.found_nil]
    have := h.found_nil
    omega
  | cons u log ih =>
    have hu := hadds u.found
    have hbefore := ih h.earlier hu (by
      cases hv : p u.found with
      | false => simp
      | true =>
        have := hp _ hv
        simp only [Bool.toNat_true]
        omega)
    unfold inBurst
    split
    next hv => omega
    next hv =>
      have hfound := h.found_of_alive hv
      refine ⟨?_, by omega⟩
      cases hpv : p v.found with
      | false =>
        simp only [Bool.toNat_false]
        omega
      | true =>
        have := hp _ hpv
        simp only [Bool.toNat_true]
        omega

/-- No span of the length that every visit keeps the counter has more visits under a bound than the
bound. -/
theorem within_span_le {w : Int} {limit : Nat} (h : r.Log log) (hadds : ∀ c, 0 < r.adds c)
    (hkeeps : ∀ u ∈ log, w ≤ r.keeps u.found) (hp : ∀ c, p c = true → c < limit) :
    within p x (x + w) log ≤ limit := by
  induction log with
  | nil => exact Nat.zero_le limit
  | cons v log ih =>
    by_cases hv : v.time ≤ x + w
    · have hx : began (v :: log) - w ≤ x := by
        have := began_le h
        omega
      exact Nat.le_trans (within_le_inBurst h hadds hkeeps hx) (inBurst_le h hadds hp).1
    · rw [within_cons, decide_eq_false hv, Bool.and_false, Bool.and_false]
      exact ih h.earlier fun u hu => hkeeps u (List.mem_cons_of_mem _ hu)

theorem inBurst_pos (h : r.Log log) (hne : log ≠ []) (hp : p 0 = true) : 0 < inBurst p log :=
  Nat.lt_of_le_of_lt (Nat.zero_le _)
    (within_lt_inBurst (y := 0) h hne (Int.lt_add_one_iff.mpr (le_refl (began log))) hp)

end ExpiringCounter
