import VegaRevenue.Outreach.RateLimits

/-!
# When composed rate limits decide rightly

The count under the key grows by one for each window that is asked, and it lives as long as the
window asked last says. So the refusals of several windows are owed to sends that passed only where
the first window allows a single send; and one window refuses rightly only while the count that it
finds is not older than the window.

* `owed_iff_fresh` — every refusal is owed iff it is of that kind
* `bounded_iff_beginnings` — no span admits too much iff not too many counts begin in it
* `composed_iff_spared` — the two together are all that composed limits take
-/

namespace VegaRevenue.Outreach.RedisRateLimiter

open ExpiringCounter

/-- No configured limit is zero. -/
def NoneZero (ws : List Window) : Prop := ∀ w ∈ ws, w.limit ≠ 0

/-- A window that refuses the evaluation `e` allows nothing at all; or no limit is zero, it is asked
first, it is the only one or allows one send, and the count it meets began within its span. -/
def FreshRefusal (ws : List Window) (w : Window) (e : Visit) (earlier : List Visit) : Prop :=
  w.limit = 0 ∨
    (NoneZero ws ∧ ws.head? = some w ∧ (ws.length = 1 ∨ w.limit = 1) ∧
      e.time - w.span ≤ began (e :: earlier))

/-- Every evaluation whose count exceeds a limit is refused freshly. -/
def FreshRefusals (ws : List Window) : List Visit → Prop
  | [] => True
  | e :: earlier =>
    (∀ w, refusing ws e.found = some w → FreshRefusal ws w e earlier) ∧ FreshRefusals ws earlier

/-- In no span of a window do more than twice its limit of evaluations find nothing counted. -/
def BeginningsBounded (ws : List Window) (log : List Visit) : Prop :=
  NoneZero ws → ∀ w ∈ ws, ∀ x, within (fun c => c = 0) x (x + w.span) log ≤ 2 * w.limit

def passes (ws : List Window) (c : Nat) : Bool := (refusing ws c).isNone

/-! ## What a count decides -/

/-- A count that passes leaves room under every limit. -/
theorem lt_limit_of_passes {ws : List Window} {c : Nat} (h : refusing ws c = none) :
    ∀ w ∈ ws, c < w.limit := by
  induction ws generalizing c with
  | nil => exact fun w hw => absurd hw List.not_mem_nil
  | cons w rest ih =>
    rw [refusing] at h
    split at h
    next hle =>
      intro v hv
      rcases List.mem_cons.mp hv with rfl | hv
      · omega
      · have := ih h v hv
        omega
    · cases h

/-- The window that refuses, and its place. -/
theorem exists_of_refusing {ws : List Window} {c : Nat} {w : Window}
    (h : refusing ws c = some w) :
    ∃ before after, ws = before ++ w :: after ∧ w.limit < c + before.length + 1 := by
  induction ws generalizing c with
  | nil => cases h
  | cons v rest ih =>
    rw [refusing] at h
    split at h
    · obtain ⟨before, after, heq, hlt⟩ := ih h
      refine ⟨v :: before, after, by rw [heq, List.cons_append], ?_⟩
      rw [List.length_cons]
      omega
    next hle =>
      obtain rfl := Option.some.inj h
      exact ⟨[], rest, rfl, by rw [List.length_nil]; omega⟩

/-- What a pass leaves under a limit, by the place of its window. -/
theorem le_limit_of_passes {before after : List Window} {w : Window} {c : Nat}
    (h : refusing (before ++ w :: after) c = none) : c + before.length + 1 ≤ w.limit := by
  induction before generalizing c with
  | nil => exact lt_limit_of_passes h w List.mem_cons_self
  | cons v before ih =>
    rw [List.cons_append, refusing] at h
    split at h
    · have := ih h
      rw [List.length_cons]
      omega
    · cases h

theorem asked_of_passes {ws : List Window} {c : Nat} (h : refusing ws c = none) :
    asked ws c = ws := by
  induction ws generalizing c with
  | nil => rfl
  | cons w rest ih =>
    rw [refusing] at h
    split at h
    next hle => rw [asked, if_pos hle, ih h]
    · cases h

theorem mem_of_mem_asked {ws : List Window} {c : Nat} {w : Window} (h : w ∈ asked ws c) :
    w ∈ ws := by
  induction ws generalizing c with
  | nil => exact h
  | cons v rest ih =>
    rw [asked] at h
    split at h
    · rcases List.mem_cons.mp h with rfl | h
      · exact List.mem_cons_self
      · exact List.mem_cons_of_mem _ (ih h)
    · rw [List.mem_singleton.mp h]
      exact List.mem_cons_self

theorem adds_pos (w : Window) (rest : List Window) (c : Nat) :
    0 < (visits (w :: rest)).adds c := List.length_pos_iff.mpr (asked_ne_nil c)

section

variable {f : Window} {rest : List Window}
  (hws : (f :: rest).Pairwise fun w v => w.windowSeconds < v.windowSeconds)

include hws

theorem span_le_of_mem {w : Window} (hw : w ∈ f :: rest) : f.span ≤ w.span := by
  rcases List.mem_cons.mp hw with rfl | hw
  · exact le_refl _
  · have := (List.pairwise_cons.mp hws).1 w hw
    unfold Window.span
    omega

theorem span_le_last {w : Window} (hw : w ∈ f :: rest) :
    w.span ≤ ((f :: rest).getLast (List.cons_ne_nil f rest)).span := by
  have hsplit := List.dropLast_append_getLast (List.cons_ne_nil f rest)
  rw [← hsplit] at hw hws
  rcases List.mem_append.mp hw with hw | hw
  · have := (List.pairwise_append.mp hws).2.2 w hw _ (List.mem_singleton_self _)
    unfold Window.span
    omega
  · rw [List.mem_singleton.mp hw]

/-- Every evaluation keeps the count for the span of the first window at least. -/
theorem first_span_le_kept (c : Nat) : f.span ≤ kept (f :: rest) c := by
  unfold kept
  rw [List.getLast?_eq_some_getLast (asked_ne_nil c)]
  exact span_le_of_mem hws (mem_of_mem_asked (List.getLast_mem _))

/-- One that passes keeps it for the span of every window. -/
theorem span_le_kept {c : Nat} (hc : refusing (f :: rest) c = none) {w : Window}
    (hw : w ∈ f :: rest) : w.span ≤ kept (f :: rest) c := by
  unfold kept
  rw [asked_of_passes hc, List.getLast?_eq_some_getLast (List.cons_ne_nil f rest)]
  exact span_le_last hws hw

/-- The first window refuses only over its own limit. -/
theorem limit_le_of_first {c : Nat} (h : refusing (f :: rest) c = some f) : f.limit ≤ c := by
  by_contra hlt
  rw [refusing, if_pos (by omega)] at h
  obtain ⟨before, after, heq, -⟩ := exists_of_refusing h
  have hmem : f ∈ rest := by
    rw [heq]
    exact List.mem_append_right _ List.mem_cons_self
  exact absurd ((List.pairwise_cons.mp hws).1 f hmem) (lt_irrefl _)

/-- Where no limit is zero and the refusals are fresh, what finds nothing counted passes. -/
theorem refusing_zero {log : List Visit} (hlog : (visits (f :: rest)).Log log)
    (hfresh : FreshRefusals (f :: rest) log) (hnone : NoneZero (f :: rest)) (hne : log ≠ []) :
    refusing (f :: rest) 0 = none := by
  induction log with
  | nil => exact absurd rfl hne
  | cons e earlier ih =>
    by_cases hearlier : earlier = []
    · subst hearlier
      cases hrefusing : refusing (f :: rest) 0 with
      | none => rfl
      | some w =>
        have hfound : refusing (f :: rest) e.found = some w := by rw [hlog.found_nil, hrefusing]
        obtain ⟨before, after, heq, -⟩ := exists_of_refusing hrefusing
        rcases hfresh.1 w hfound with hzero | ⟨-, hhead, -⟩
        · refine absurd hzero (hnone w ?_)
          rw [heq]
          exact List.mem_append_right _ List.mem_cons_self
        · obtain rfl := Option.some.inj hhead
          exact absurd (Nat.le_zero.mp (limit_le_of_first hws hrefusing))
            (hnone f List.mem_cons_self)
    · exact ih hlog.earlier hfresh.2 hearlier

end

/-! ## The sends of a burst -/

theorem passes_eq_true {ws : List Window} {c : Nat} : passes ws c = true ↔ refusing ws c = none :=
  Option.isNone_iff_eq_none

theorem lt_limit {ws : List Window} {w : Window} (hw : w ∈ ws) (c : Nat)
    (h : passes ws c = true) : c < w.limit := lt_limit_of_passes (passes_eq_true.mp h) w hw

/-- A single window lets the first sends of a burst pass, up to its limit. -/
theorem le_inBurst_single {f : Window} {u : Visit} {log : List Visit}
    (h : (visits [f]).Log (u :: log)) (hf : f.limit ≠ 0) :
    min f.limit (u.found + 1) ≤ inBurst (passes [f]) (u :: log) := by
  have hone : ∀ c, c + 1 ≤ f.limit → (passes [f] c).toNat = 1 := by
    intro c hc
    rw [passes_eq_true.mpr (by rw [refusing, if_pos hc, refusing])]
    rfl
  induction log generalizing u with
  | nil =>
    unfold inBurst
    rw [if_pos h.found_nil, h.found_nil, hone 0 (by omega)]
    omega
  | cons v log ih =>
    unfold inBurst
    split
    next hu =>
      rw [hu, hone 0 (by omega)]
      omega
    next hu =>
      have hfound := h.found_of_alive hu
      have hadds : (visits [f]).adds v.found = 1 := by
        simp only [visits, asked]
        split <;> rfl
      have hbefore := ih h.earlier
      by_cases hle : u.found + 1 ≤ f.limit
      · rw [hone _ hle]
        omega
      · omega

/-- Where several windows let all of a burst pass, it counts twice as fast as they pass. -/
theorem two_mul_inBurst_le {f v : Window} {rest : List Window} {u : Visit} {log : List Visit}
    (h : (visits (f :: v :: rest)).Log (u :: log))
    (hpass : ∀ e ∈ u :: log, refusing (f :: v :: rest) e.found = none) :
    2 * inBurst (passes (f :: v :: rest)) (u :: log) ≤ u.found + 2 := by
  induction log generalizing u with
  | nil =>
    unfold inBurst
    rw [if_pos h.found_nil]
    cases passes (f :: v :: rest) u.found <;> simp
  | cons e log ih =>
    unfold inBurst
    split
    · cases passes (f :: v :: rest) u.found <;> simp
    next hu =>
      have hfound := h.found_of_alive hu
      have hadds : 2 ≤ (visits (f :: v :: rest)).adds e.found := by
        show 2 ≤ (asked _ _).length
        rw [asked_of_passes (hpass e (List.mem_cons_of_mem _ List.mem_cons_self))]
        simp
      have hbefore := ih h.earlier fun e he => hpass e (List.mem_cons_of_mem _ he)
      have hone := Bool.toNat_le (passes (f :: v :: rest) u.found)
      omega

/-- Several windows, the first of which allows more than one send, refuse nothing freshly. -/
theorem passes_of_fresh {f : Window} {rest : List Window} {log : List Visit}
    (hfresh : FreshRefusals (f :: rest) log) (hnone : NoneZero (f :: rest))
    (halone : ¬((f :: rest).length = 1 ∨ f.limit = 1)) :
    ∀ u ∈ log, refusing (f :: rest) u.found = none := by
  induction log with
  | nil => exact fun u hu => absurd hu List.not_mem_nil
  | cons e earlier ih =>
    intro u hu
    rcases List.mem_cons.mp hu with rfl | hu
    · cases hrefused : refusing (f :: rest) u.found with
      | none => rfl
      | some w =>
        obtain ⟨before, after, heq, -⟩ := exists_of_refusing hrefused
        rcases hfresh.1 w hrefused with hzero | ⟨-, hhead, halone', -⟩
        · refine absurd hzero (hnone w ?_)
          rw [heq]
          exact List.mem_append_right _ List.mem_cons_self
        · obtain rfl := Option.some.inj hhead
          exact absurd halone' halone
    · exact ih hfresh.2 u hu

/-! ## One refusal -/

section

variable {f : Window} {rest : List Window}
  (hws : (f :: rest).Pairwise fun w v => w.windowSeconds < v.windowSeconds)
  {e : Visit} {earlier : List Visit} (hlog : (visits (f :: rest)).Log (e :: earlier))
  (hfresh : FreshRefusals (f :: rest) earlier)

include hws hlog hfresh

/-- A fresh refusal of the first window: its limit was used up by sends within its span. -/
theorem owed_of_fresh {w : Window} (hrefused : refusing (f :: rest) e.found = some w)
    (h : FreshRefusal (f :: rest) w e earlier) :
    w.limit ≤ within (passes (f :: rest)) (e.time - w.span) e.time earlier := by
  rcases h with hzero | ⟨hnone, hhead, halone, hbegan⟩
  · omega
  obtain rfl := Option.some.inj hhead
  have hlimit := limit_le_of_first hws hrefused
  have hpos : 0 < f.limit := Nat.pos_of_ne_zero (hnone f List.mem_cons_self)
  cases earlier with
  | nil =>
    have := hlog.found_nil
    omega
  | cons u log =>
    have halive : e.found ≠ 0 := by omega
    have hburst : f.limit ≤ inBurst (passes (f :: rest)) (u :: log) := by
      rcases halone with hsingle | hone
      · obtain rfl : rest = [] := List.length_eq_zero_iff.mp (by simpa using hsingle)
        have hle := le_inBurst_single hlog.earlier hpos.ne'
        have hfound := hlog.found_of_alive halive
        have hadds : (visits [f]).adds u.found = 1 := by
          simp only [visits, asked]
          split <;> rfl
        omega
      · have hzero := refusing_zero hws hlog.earlier hfresh hnone (List.cons_ne_nil u log)
        have := inBurst_pos hlog.earlier (List.cons_ne_nil u log) (passes_eq_true.mpr hzero)
        omega
    rw [began, if_neg halive] at hbegan
    exact hburst.trans (inBurst_le_within hlog.earlier hbegan fun v hv => hlog.time_le hv)

/-- Where every earlier evaluation passed and two windows count together, no refusal of a limit
over one is owed. -/
theorem not_owed_of_two {v : Window} {rest' : List Window} (hrest : rest = v :: rest')
    (hlimit : 1 < f.limit) (hpass : ∀ u ∈ earlier, refusing (f :: rest) u.found = none)
    (hzero : refusing (f :: rest) 0 = none) {w : Window}
    (hrefused : refusing (f :: rest) e.found = some w) :
    within (passes (f :: rest)) (e.time - w.span) e.time earlier < w.limit := by
  by_contra howed
  obtain ⟨before, after, heq, hlt⟩ := exists_of_refusing hrefused
  have hw : w ∈ f :: rest := by
    rw [heq]
    exact List.mem_append_right _ List.mem_cons_self
  have halive : e.found ≠ 0 := by
    intro hdead
    rw [hdead, hzero] at hrefused
    cases hrefused
  cases earlier with
  | nil => exact halive hlog.found_nil
  | cons u log =>
    have hbegan : began (u :: log) - w.span ≤ e.time - w.span :=
      Int.sub_le_sub_right ((began_le hlog.earlier).trans (hlog.time_le List.mem_cons_self)) _
    have hrecent := within_le_inBurst (p := passes (f :: rest)) (y := e.time) hlog.earlier
      (adds_pos f rest) (fun u hu => span_le_kept hws (hpass u hu) hw) hbegan
    subst hrest
    have htwice := two_mul_inBurst_le hlog.earlier hpass
    have hroom := hpass u List.mem_cons_self
    rw [heq] at hroom
    have hplace := le_limit_of_passes hroom
    -- so the count of one send already refuses, at the first window
    have hfirst : before = [] := by
      rw [← List.length_eq_zero_iff]
      omega
    subst hfirst
    obtain rfl : f = w := by simpa using congrArg List.head? heq
    rw [List.length_nil] at hplace
    omega

/-- An owed refusal of a limit over zero comes from the first window, over a count begun within its
span; several windows together may only allow one send. -/
theorem fresh_of_owed {w : Window} (hrefused : refusing (f :: rest) e.found = some w)
    (howed : w.limit ≤ within (passes (f :: rest)) (e.time - w.span) e.time earlier) :
    FreshRefusal (f :: rest) w e earlier := by
  by_cases hzero : w.limit = 0
  · exact .inl hzero
  right
  -- some send passed, so no limit is zero, and what finds nothing counted passes
  obtain ⟨u, hu, hpassed⟩ : ∃ u ∈ earlier, passes (f :: rest) u.found = true := by
    by_contra hno
    have : within (passes (f :: rest)) (e.time - w.span) e.time earlier = 0 := by
      unfold within
      rw [List.countP_eq_zero]
      intro u hu h
      exact hno ⟨u, hu, (Bool.and_eq_true_iff.mp h).1⟩
    omega
  have hne : earlier ≠ [] := List.ne_nil_of_mem hu
  have hnone : NoneZero (f :: rest) := fun v hv => (Nat.zero_lt_of_lt (lt_limit hv _ hpassed)).ne'
  have hstart := refusing_zero hws hlog.earlier hfresh hnone hne
  have halive : e.found ≠ 0 := by
    intro hdead
    rw [hdead, hstart] at hrefused
    cases hrefused
  by_cases halone : (f :: rest).length = 1 ∨ f.limit = 1
  · have hfirst : w = f := by
      rcases halone with hsingle | hone
      · obtain rfl : rest = [] := List.length_eq_zero_iff.mp (by simpa using hsingle)
        obtain ⟨before, after, heq, -⟩ := exists_of_refusing hrefused
        have hmem : w ∈ [f] := by
          rw [heq]
          exact List.mem_append_right _ List.mem_cons_self
        exact List.mem_singleton.mp hmem
      · rw [refusing, if_neg (by omega)] at hrefused
        exact (Option.some.inj hrefused).symm
    subst hfirst
    refine ⟨hnone, rfl, halone, ?_⟩
    rw [began, if_neg halive]
    by_contra hstale
    have hmissed := within_lt_inBurst (p := passes (w :: rest)) (y := e.time) hlog.earlier hne
      (not_le.mp hstale) (passes_eq_true.mpr hstart)
    cases earlier with
    | nil => exact hne rfl
    | cons u log =>
      have hroom : ∀ c, passes (w :: rest) c = true → c < w.limit := lt_limit List.mem_cons_self
      have hle := (inBurst_le hlog.earlier (adds_pos w rest) hroom).1
      omega
  · exfalso
    have hpass := passes_of_fresh hfresh hnone halone
    have hf := hnone f List.mem_cons_self
    cases rest with
    | nil => exact halone (.inl rfl)
    | cons v rest' =>
      have := not_owed_of_two hws hlog hfresh rfl (by omega) hpass hstart hrefused
      omega

end

/-! ## The log as a whole -/

theorem passedWithin_eq {ws : List Window} {log : List Evaluation} (x y : Date)
    (hlog : ∀ e ∈ log, e.refusedBy = refusing ws e.found) :
    passedWithin x y log = within (passes ws) x y (log.map Evaluation.visit) := by
  unfold passedWithin within
  rw [List.countP_map]
  refine List.countP_congr fun e he => ?_
  rw [hlog e he]
  rfl

section

variable {f : Window} {rest : List Window}
  (hws : (f :: rest).Pairwise fun w v => w.windowSeconds < v.windowSeconds)
  {log : List Evaluation} (hlog : (visits (f :: rest)).Log (log.map Evaluation.visit))
  (hverdict : ∀ e ∈ log, e.refusedBy = refusing (f :: rest) e.found)

include hws hlog hverdict

/-- **Every refusal is owed to sends that passed iff it is fresh.** -/
theorem owed_iff_fresh :
    RefusalsOwed log ↔ FreshRefusals (f :: rest) (log.map Evaluation.visit) := by
  induction log with
  | nil => exact Iff.rfl
  | cons e earlier ih =>
    have hearlier := fun u hu => hverdict u (List.mem_cons_of_mem e hu)
    have hrest := ih hlog.earlier hearlier
    rw [RefusalsOwed, List.map_cons, FreshRefusals, hrest, hverdict e List.mem_cons_self]
    refine and_congr_left fun hfresh => forall₂_congr fun w hrefused => ?_
    rw [passedWithin_eq _ _ hearlier]
    exact ⟨fresh_of_owed hws hlog hfresh hrefused, owed_of_fresh hws hlog hfresh hrefused⟩

/-- **Where every refusal is fresh, no span admits too many iff in none too many counts begin.** -/
theorem bounded_iff_beginnings
    (hfresh : FreshRefusals (f :: rest) (log.map Evaluation.visit)) :
    Bounded (f :: rest) log ↔ BeginningsBounded (f :: rest) (log.map Evaluation.visit) := by
  have hcount : ∀ x y, passedWithin x y log =
      within (passes (f :: rest)) x y (log.map Evaluation.visit) :=
    fun x y => passedWithin_eq x y hverdict
  constructor
  · intro hbounded hnone w hw x
    refine le_trans ?_ (hbounded w hw x)
    rw [hcount]
    by_cases hne : log.map Evaluation.visit = []
    · rw [hne]
      exact Nat.zero_le _
    · have hstart := refusing_zero hws hlog hfresh hnone hne
      refine List.countP_mono_left fun v hv h => ?_
      rw [Bool.and_eq_true, decide_eq_true_eq] at h
      rw [h.1, passes_eq_true.mpr hstart, h.2]
      rfl
  · intro hbegin w hw x
    rw [hcount]
    have hroom : ∀ c, passes (f :: rest) c = true → c < w.limit := lt_limit hw
    by_cases hnone : NoneZero (f :: rest)
    · by_cases halone : (f :: rest).length = 1 ∨ f.limit = 1
      · rcases halone with hsingle | hone
        · obtain rfl : rest = [] := List.length_eq_zero_iff.mp (by simpa using hsingle)
          obtain rfl := List.mem_singleton.mp hw
          have := within_span_le (x := x) hlog (adds_pos w [])
            (fun u _ => first_span_le_kept hws u.found) hroom
          omega
        · -- a first window that allows one send passes only what finds nothing counted
          refine le_trans ?_ (hbegin hnone w hw x)
          refine List.countP_mono_left fun v hv h => ?_
          rw [Bool.and_eq_true] at h
          have hfound := lt_limit List.mem_cons_self v.found h.1
          rw [h.2, Bool.and_true, decide_eq_true_eq]
          omega
      · have hpass := passes_of_fresh hfresh hnone halone
        have := within_span_le (x := x) hlog (adds_pos f rest)
          (fun u hu => span_le_kept hws (hpass u hu) hw) hroom
        omega
    · refine le_trans (Nat.le_of_eq ?_) (Nat.zero_le _)
      unfold within
      rw [List.countP_eq_zero]
      intro v _ h
      refine hnone fun u hu => ?_
      have := lt_limit hu v.found (Bool.and_eq_true_iff.mp h).1
      omega

end

/-! ## The first window alone -/

/-- A window alone is visited at the same times, and never finds more counted. -/
def Alone (alone log : List Evaluation) : Prop :=
  List.Forall₂ (fun e' e => e'.time = e.time ∧ e'.found ≤ e.found) alone log

theorem Alone.found_le {f : Window} {rest : List Window}
    (hws : (f :: rest).Pairwise fun w v => w.windowSeconds < v.windowSeconds)
    {alone log : List Evaluation} (h : Alone alone log) (t : Int) :
    (visits [f]).found (alone.map Evaluation.visit) t ≤
      (visits (f :: rest)).found (log.map Evaluation.visit) t := by
  cases h with
  | nil => exact Nat.le_refl 0
  | @cons e' e _ _ he _ =>
    have hkept : (visits [f]).keeps e'.found ≤ (visits (f :: rest)).keeps e.found := by
      show kept [f] e'.found ≤ kept (f :: rest) e.found
      rw [kept_single]
      exact first_span_le_kept hws _
    have hadds : (visits [f]).adds e'.found = 1 := by
      simp only [visits, asked]
      split <;> rfl
    have hpos := adds_pos f rest e.found
    have hfound := he.2
    simp only [List.map_cons, Rule.found, Evaluation.visit, he.1]
    split
    next hin =>
      rw [if_pos (by omega)]
      omega
    · exact Nat.zero_le _

theorem refusing_first_iff {f : Window} {rest : List Window}
    (hws : (f :: rest).Pairwise fun w v => w.windowSeconds < v.windowSeconds) {c : Nat} :
    refusing (f :: rest) c = some f ↔ f.limit ≤ c :=
  ⟨limit_le_of_first hws, fun h => by rw [refusing, if_neg (by omega)]⟩

/-- Where the first window refuses freshly, it refuses alone as well. -/
theorem le_alone_of_fresh {f : Window} {rest : List Window} (hrest : rest ≠ [])
    {e e' : Evaluation} {earlier alone : List Evaluation} (h : Alone alone earlier)
    (htime : e'.time = e.time)
    (hlog : (visits (f :: rest)).Log (e.visit :: earlier.map Evaluation.visit))
    (halone : (visits [f]).Log (e'.visit :: alone.map Evaluation.visit))
    (hfresh : FreshRefusal (f :: rest) f e.visit (earlier.map Evaluation.visit))
    (hle : f.limit ≤ e.found) : f.limit ≤ e'.found := by
  rcases hfresh with hzero | ⟨hnone, -, hsingle | hone, hbegan⟩
  · omega
  · exact absurd (List.length_eq_zero_iff.mp (by simpa using hsingle)) hrest
  · have halive : e.visit.found ≠ 0 := by
      show e.found ≠ 0
      omega
    rw [began, if_neg halive] at hbegan
    cases h with
    | nil => exact absurd hlog.found_nil halive
    | @cons u' u alone earlier hu _ =>
      -- the visit before it is within the span of the window, which alone keeps its count so long
      have hlast : e.time - f.span ≤ u.time := le_trans hbegan (began_le hlog.earlier)
      have hkept : e'.visit.time ≤ u'.visit.time + (visits [f]).keeps u'.visit.found := by
        show e'.time ≤ u'.time + kept [f] u'.found
        rw [kept_single, htime, hu.1]
        exact Int.le_add_of_sub_right_le hlast
      have hfound : e'.found = _ := halone.found_eq
      simp only [List.map_cons, Rule.found] at hfound
      rw [if_pos hkept] at hfound
      have := adds_pos f [] u'.visit.found
      omega

theorem verdicts_of_alone {f : Window} {rest : List Window}
    (hws : (f :: rest).Pairwise fun w v => w.windowSeconds < v.windowSeconds) (hrest : rest ≠ [])
    {alone log : List Evaluation} (h : Alone alone log)
    (hlog : (visits (f :: rest)).Log (log.map Evaluation.visit))
    (halone : (visits [f]).Log (alone.map Evaluation.visit))
    (hverdict : ∀ e ∈ log, e.refusedBy = refusing (f :: rest) e.found)
    (haverdict : ∀ e ∈ alone, e.refusedBy = refusing [f] e.found)
    (hfresh : FreshRefusals (f :: rest) (log.map Evaluation.visit)) :
    verdicts f log = verdicts f alone := by
  induction h with
  | nil => rfl
  | @cons e' e alone earlier he h ih =>
    have hsame : e.refusedBy = some f ↔ e'.refusedBy = some f := by
      rw [hverdict e List.mem_cons_self, haverdict e' List.mem_cons_self, refusing_first_iff hws,
        refusing_first_iff (List.pairwise_singleton _ f)]
      refine ⟨fun hle => ?_, fun hle => hle.trans he.2⟩
      exact le_alone_of_fresh hrest h he.1 hlog halone
        (hfresh.1 f ((refusing_first_iff hws).mpr hle)) hle
    have hrest' := ih hlog.earlier halone.earlier
      (fun u hu => hverdict u (List.mem_cons_of_mem _ hu))
      (fun u hu => haverdict u (List.mem_cons_of_mem _ hu)) hfresh.2
    unfold verdicts at hrest' ⊢
    rw [List.map_cons, List.map_cons, hrest', decide_eq_decide.mpr hsame]

theorem timeline_concat (ws : List Window) (ctx : Context) (channel : OutreachChannel)
    (start : Date) (waits : List Nat) (wait : Nat) :
    timeline ws ctx channel start (waits ++ [wait]) =
      (timeline ws ctx channel start waits).evaluate ws ctx channel wait := List.foldl_concat ..

/-- The two timelines of the same evaluations. -/
theorem alone_timeline {f : Window} {rest : List Window}
    (hws : (f :: rest).Pairwise fun w v => w.windowSeconds < v.windowSeconds) (ctx : Context)
    (channel : OutreachChannel) (start : Date) (waits : List Nat) :
    (timeline [f] ctx channel start waits).now = (timeline (f :: rest) ctx channel start waits).now ∧
      Alone (timeline [f] ctx channel start waits).log
        (timeline (f :: rest) ctx channel start waits).log := by
  induction waits using List.reverseRecOn with
  | nil => exact ⟨rfl, .nil⟩
  | append_singleton waits wait ih =>
    obtain ⟨hnow, hlogs⟩ := ih
    rw [timeline_concat, timeline_concat]
    unfold Timeline.evaluate
    dsimp only
    rw [(recorded_timeline f rest ctx channel start waits).live,
      (recorded_timeline f [] ctx channel start waits).live, hnow]
    exact ⟨rfl, .cons ⟨rfl, hlogs.found_le hws _⟩ hlogs⟩

/-! ## Composed limits -/

/-- Without a window nothing is asked and nothing refused. -/
theorem timeline_nil (ctx : Context) (channel : OutreachChannel) (start : Date)
    (waits : List Nat) : ∀ e ∈ (timeline [] ctx channel start waits).log, e.refusedBy = none := by
  induction waits using List.reverseRecOn with
  | nil => exact fun e he => absurd he List.not_mem_nil
  | append_singleton waits wait ih =>
    rw [timeline_concat]
    intro e he
    rcases List.mem_cons.mp he with rfl | he
    · rfl
    · exact ih e he

theorem refusalsOwed_of_none {log : List Evaluation} (h : ∀ e ∈ log, e.refusedBy = none) :
    RefusalsOwed log := by
  induction log with
  | nil => trivial
  | cons e earlier ih =>
    refine ⟨fun w hw => ?_, ih fun u hu => h u (List.mem_cons_of_mem _ hu)⟩
    rw [h e List.mem_cons_self] at hw
    cases hw

theorem freshRefusals_nil (log : List Visit) : FreshRefusals [] log := by
  induction log with
  | nil => trivial
  | cons e earlier ih =>
    refine ⟨fun w hw => ?_, ih⟩
    cases hw

/-- The evaluations, as visits of the key. -/
def visited (ws : List Window) (ctx : Context) (channel : OutreachChannel) (start : Date)
    (waits : List Nat) : List Visit :=
  (timeline ws ctx channel start waits).log.map Evaluation.visit

/-- **Composed limits neither refuse nor admit too much iff every refusal is fresh and not too many
counts begin in a span.** -/
theorem composed_iff_spared (config : Option RateLimitConfig) (ctx : Context)
    (channel : OutreachChannel) (start : Date) (waits : List Nat) :
    Composed (windows config) ctx channel start waits ↔
      FreshRefusals (windows config) (visited (windows config) ctx channel start waits) ∧
        BeginningsBounded (windows config)
          (visited (windows config) ctx channel start waits) := by
  have hws := windows_pairwise config
  unfold visited
  generalize windows config = ws at hws ⊢
  cases ws with
  | nil =>
    refine iff_of_true ⟨refusalsOwed_of_none (timeline_nil ctx channel start waits), ?_, ?_⟩
      ⟨freshRefusals_nil _, ?_⟩
    · exact fun w hw => absurd hw List.not_mem_nil
    · exact fun w rest h => by cases h
    · exact fun _ w hw => absurd hw List.not_mem_nil
  | cons f rest =>
    have hrecorded := recorded_timeline f rest ctx channel start waits
    have howed := owed_iff_fresh hws hrecorded.visits hrecorded.verdict
    constructor
    · intro h
      have hfresh := howed.mp h.owed
      exact ⟨hfresh, (bounded_iff_beginnings hws hrecorded.visits hrecorded.verdict hfresh).mp
        h.bounded⟩
    · rintro ⟨hfresh, hbegin⟩
      refine ⟨howed.mpr hfresh, (bounded_iff_beginnings hws hrecorded.visits hrecorded.verdict
        hfresh).mpr hbegin, ?_⟩
      intro w rest' heq
      obtain ⟨rfl, rfl⟩ := List.cons.inj heq
      by_cases hrest : rest = []
      · subst hrest
        rfl
      · have halone := recorded_timeline f [] ctx channel start waits
        exact verdicts_of_alone hws hrest (alone_timeline hws ctx channel start waits).2
          hrecorded.visits halone.visits hrecorded.verdict halone.verdict hfresh

/-! ## Limits that are composed wrongly -/

def sampleTimeline (config : RateLimitConfig) (waits : List Nat) : Timeline :=
  timeline (windows (some config)) sampleContext .email 0 waits

/-- With one send a second and a hundred a minute, a send five seconds after the only other one is
refused for the second, which admits it alone. With one send a second alone, a refused attempt
keeps the count: the next one is refused without a send in its second. With four a second and four
a minute, ten pass within a minute. -/
theorem limits_not_composed :
    ¬Composed (windows (some { perSecond := some 1, perMinute := some 100 })) sampleContext .email 0
        [0, 5000] ∧
      (sampleTimeline { perSecond := some 1, perMinute := some 100 } [0, 5000]).log.map
        Evaluation.refusedBy = [some ⟨1, 1, "per-second"⟩, none] ∧
      (sampleTimeline { perSecond := some 1 } [0, 5000]).log.map Evaluation.refusedBy =
        [none, none] ∧
      (sampleTimeline { perSecond := some 1 } [0, 600, 600]).log.map Evaluation.refusedBy =
        [some ⟨1, 1, "per-second"⟩, some ⟨1, 1, "per-second"⟩, none] ∧
      passedWithin 0 60000 (sampleTimeline { perSecond := some 4, perMinute := some 4 }
        (0 :: List.replicate 14 2000)).log = 10 := by
  refine ⟨fun h => ?_, by decide +kernel, by decide +kernel, by decide +kernel, by decide +kernel⟩
  exact absurd (h.owed.1 ⟨1, 1, "per-second"⟩ (by decide +kernel)) (by decide +kernel)

end VegaRevenue.Outreach.RedisRateLimiter
