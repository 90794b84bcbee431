import Mathlib.Data.List.Basic
import Mathlib.Data.List.TakeDrop
import Mathlib.Data.List.TakeWhile

/-!
# Patterns and their backtracking matcher

A pattern is matched at a place of a text; it sees the character before the place and the text from
it on. The matcher finds the lengths of all matches, the one it prefers first: the operators are
greedy. A text is scanned from the left, and what the pattern matches is replaced.

* `mem_run` — the matcher finds what the pattern means
* `scan_replace` — how a text and its replacement lie beside each other
* `test_iff` — a search finds what the pattern means
* `map_replaceFrom` — a replacement of characters that carry more than they stand for
* `Edited.free` — a replacement leaves no match of a pattern where the text in place has none
-/

namespace Backtracking

variable {α : Type}

inductive Pattern (α : Type) where
  /-- A character of a class. -/
  | one (p : α → Bool)
  /-- An assertion on the characters before and after the place. -/
  | look (t : Option α → Option α → Bool)
  | seq (r s : Pattern α)
  /-- `r?`. -/
  | opt (r : Pattern α)
  /-- `p{least,}`. -/
  | many (p : α → Bool) (least : Nat)

/-- The last character, or the one before the text. -/
def lastOr : Option α → List α → Option α
  | prev, [] => prev
  | _, c :: cs => lastOr (some c) cs

namespace Pattern

def empty : Pattern α := look fun _ _ => true

/-- `r{n}`. -/
def times : Nat → Pattern α → Pattern α
  | 0, _ => empty
  | n + 1, r => seq r (times n r)

/-- `r{0,n}`. -/
def atMost : Nat → Pattern α → Pattern α
  | 0, _ => empty
  | n + 1, r => opt (seq r (atMost n r))

/-- `r{m,n}`. -/
def between (m n : Nat) (r : Pattern α) : Pattern α := seq (times m r) (atMost (n - m) r)

/-- The lengths of the matches, the preferred one first. -/
def run : Pattern α → Option α → List α → List Nat
  | one p, _, rest => if rest.head?.any p then [1] else []
  | look t, prev, rest => if t prev rest.head? then [0] else []
  | seq r s, prev, rest =>
    (run r prev rest).flatMap fun n =>
      (run s (lastOr prev (rest.take n)) (rest.drop n)).map (n + ·)
  | opt r, prev, rest => run r prev rest ++ [0]
  | many p least, _, rest =>
    (List.range' least ((rest.takeWhile p).length + 1 - least)).reverse

/-! ## What a pattern means -/

/-- The pattern matches `m` between the characters given. -/
def Matches : Pattern α → Option α → List α → Option α → Prop
  | one p, _, m, _ => ∃ c, m = [c] ∧ p c = true
  | look t, prev, m, next => m = [] ∧ t prev next = true
  | seq r s, prev, m, next => ∃ m₁ m₂, m = m₁ ++ m₂ ∧
      Matches r prev m₁ (m₂.head?.or next) ∧ Matches s (lastOr prev m₁) m₂ next
  | opt r, prev, m, next => Matches r prev m next ∨ m = []
  | many p least, _, m, _ => least ≤ m.length ∧ ∀ c ∈ m, p c = true

end Pattern

open Pattern

@[simp] theorem lastOr_nil (prev : Option α) : lastOr prev [] = prev := rfl

@[simp] theorem lastOr_cons (prev : Option α) (c : α) (cs : List α) :
    lastOr prev (c :: cs) = lastOr (some c) cs := rfl

@[simp] theorem lastOr_append (prev : Option α) (m n : List α) :
    lastOr prev (m ++ n) = lastOr (lastOr prev m) n := by
  induction m generalizing prev with
  | nil => rfl
  | cons c m ih => exact ih (some c)

theorem lastOr_of_ne_nil {prev prev' : Option α} {m : List α} (h : m ≠ []) :
    lastOr prev m = lastOr prev' m := by
  cases m with
  | nil => exact absurd rfl h
  | cons c m => rfl

theorem exists_lastOr {prev : Option α} {m : List α} (h : m ≠ []) :
    ∃ c ∈ m, lastOr prev m = some c := by
  induction m generalizing prev with
  | nil => exact absurd rfl h
  | cons c m ih =>
    cases m with
    | nil => exact ⟨c, List.mem_cons_self, rfl⟩
    | cons d m =>
      obtain ⟨e, he, hlast⟩ : ∃ e ∈ d :: m, lastOr (some c) (d :: m) = some e :=
        ih (List.cons_ne_nil d m)
      exact ⟨e, List.mem_cons_of_mem c he, hlast⟩

theorem lastOr_none (m : List α) : lastOr none m = m.getLast? := by
  induction m with
  | nil => rfl
  | cons c m ih =>
    cases m with
    | nil => rfl
    | cons d m =>
      rw [List.getLast?_cons_cons, ← ih]
      rfl

theorem head?_append_or (m n : List α) : (m ++ n).head? = m.head?.or n.head? := by
  cases m with
  | nil => rfl
  | cons c m => rfl

/-- How a text begins with characters of a class. -/
theorem length_takeWhile_append {p : α → Bool} {m : List α} (hm : ∀ c ∈ m, p c = true)
    (post : List α) : ((m ++ post).takeWhile p).length = m.length + (post.takeWhile p).length := by
  rw [List.takeWhile_append_of_pos hm, List.length_append]

/-- **The matcher finds the lengths of what the pattern matches.** -/
theorem mem_run {r : Pattern α} {prev : Option α} {rest : List α} {n : Nat} :
    n ∈ run r prev rest ↔
      ∃ m post, rest = m ++ post ∧ m.length = n ∧ Matches r prev m post.head? := by
  induction r generalizing prev rest n with
  | one p =>
    cases rest with
    | nil =>
      refine ⟨fun h => absurd h List.not_mem_nil, ?_⟩
      rintro ⟨m, post, hrest, -, c, rfl, -⟩
      cases hrest
    | cons c rest =>
      rw [run, List.head?_cons, Option.any_some]
      constructor
      · intro h
        split at h
        next hc => exact ⟨[c], rest, rfl, (List.mem_singleton.mp h).symm, c, rfl, hc⟩
        · cases h
      · rintro ⟨m, post, hrest, rfl, d, rfl, hd⟩
        obtain ⟨rfl, rfl⟩ := List.cons.inj hrest
        rw [if_pos hd]
        exact List.mem_cons_self
  | look t =>
    rw [run]
    constructor
    · intro h
      split at h
      next ht => exact ⟨[], rest, rfl, (List.mem_singleton.mp h).symm, rfl, ht⟩
      · cases h
    · rintro ⟨m, post, rfl, rfl, rfl, ht⟩
      rw [List.nil_append, if_pos ht]
      exact List.mem_cons_self
  | seq r s ihr ihs =>
    rw [run, List.mem_flatMap]
    constructor
    · rintro ⟨k, hk, hn⟩
      obtain ⟨l, hl, rfl⟩ := List.mem_map.mp hn
      obtain ⟨m₁, post₁, rfl, rfl, hr⟩ := ihr.mp hk
      rw [List.take_left', List.drop_left'] at hl
      obtain ⟨m₂, post, rfl, rfl, hs⟩ := ihs.mp hl
      · rw [head?_append_or] at hr
        exact ⟨m₁ ++ m₂, post, (List.append_assoc _ _ _).symm, List.length_append, m₁, m₂, rfl, hr, hs⟩
      · rfl
      · rfl
    · rintro ⟨m, post, rfl, rfl, m₁, m₂, rfl, hr, hs⟩
      refine ⟨m₁.length, ihr.mpr ⟨m₁, m₂ ++ post, List.append_assoc _ _ _, rfl, ?_⟩, ?_⟩
      · rw [head?_append_or]
        exact hr
      · rw [List.append_assoc, List.take_left' rfl, List.drop_left' rfl, List.length_append]
        exact List.mem_map_of_mem (ihs.mpr ⟨m₂, post, rfl, rfl, hs⟩)
  | opt r ih =>
    rw [run, List.mem_append, ih, List.mem_singleton]
    constructor
    · rintro (⟨m, post, hrest, hlen, hr⟩ | rfl)
      · exact ⟨m, post, hrest, hlen, .inl hr⟩
      · exact ⟨[], rest, rfl, rfl, .inr rfl⟩
    · rintro ⟨m, post, hrest, hlen, hr | rfl⟩
      · exact .inl ⟨m, post, hrest, hlen, hr⟩
      · exact .inr hlen.symm
  | many p least =>
    rw [run, List.mem_reverse, List.mem_range'_1]
    constructor
    · rintro ⟨hleast, hn⟩
      have hle : n ≤ (rest.takeWhile p).length := by omega
      have hlen : (rest.take n).length = n :=
        List.length_take_of_le (Nat.le_trans hle (List.takeWhile_prefix p).length_le)
      refine ⟨rest.take n, rest.drop n, (List.take_append_drop n rest).symm, hlen, ?_, ?_⟩
      · rw [hlen]
        exact hleast
      · intro c hc
        have htake : rest.take n = (rest.takeWhile p).take n := by
          obtain ⟨tail, htail⟩ := List.takeWhile_prefix p (l := rest)
          conv_lhs => rw [← htail]
          exact List.take_append_of_le_length hle
        rw [htake] at hc
        exact List.mem_takeWhile_imp (List.mem_of_mem_take hc)
    · rintro ⟨m, post, rfl, rfl, hleast, hm⟩
      rw [length_takeWhile_append hm]
      omega

theorem run_eq_nil {r : Pattern α} {prev : Option α} {m post : List α}
    (h : run r prev (m ++ post) = []) : ¬Matches r prev m post.head? := fun hm => by
  have hmem : m.length ∈ run r prev (m ++ post) := mem_run.mpr ⟨m, post, rfl, rfl, hm⟩
  rw [h] at hmem
  cases hmem

/-! ## Repetitions of a class -/

section

variable {p : α → Bool} {prev next : Option α} {m : List α}

theorem matches_times_one {n : Nat} :
    Matches (times n (one p)) prev m next ↔ m.length = n ∧ ∀ c ∈ m, p c = true := by
  induction n generalizing prev m with
  | zero =>
    constructor
    · rintro ⟨rfl, -⟩
      exact ⟨rfl, fun _ h => absurd h List.not_mem_nil⟩
    · rintro ⟨hlen, -⟩
      exact ⟨List.length_eq_zero_iff.mp hlen, rfl⟩
  | succ n ih =>
    constructor
    · rintro ⟨m₁, m₂, rfl, ⟨c, rfl, hc⟩, h₂⟩
      obtain ⟨hlen, hall⟩ := ih.mp h₂
      exact ⟨by rw [List.singleton_append, List.length_cons, hlen], List.forall_mem_cons.mpr ⟨hc, hall⟩⟩
    · rintro ⟨hlen, hall⟩
      cases m with
      | nil => cases hlen
      | cons c m =>
        obtain ⟨hc, hrest⟩ := List.forall_mem_cons.mp hall
        exact ⟨[c], m, rfl, ⟨c, rfl, hc⟩, ih.mpr ⟨Nat.succ.inj hlen, hrest⟩⟩

theorem matches_atMost_one {n : Nat} :
    Matches (atMost n (one p)) prev m next ↔ m.length ≤ n ∧ ∀ c ∈ m, p c = true := by
  induction n generalizing prev m with
  | zero =>
    constructor
    · rintro ⟨rfl, -⟩
      exact ⟨Nat.le_refl 0, fun _ h => absurd h List.not_mem_nil⟩
    · rintro ⟨hlen, -⟩
      exact ⟨List.length_eq_zero_iff.mp (Nat.le_zero.mp hlen), rfl⟩
  | succ n ih =>
    constructor
    · rintro (⟨m₁, m₂, rfl, ⟨c, rfl, hc⟩, h₂⟩ | rfl)
      · obtain ⟨hlen, hall⟩ := ih.mp h₂
        exact ⟨Nat.succ_le_succ hlen, List.forall_mem_cons.mpr ⟨hc, hall⟩⟩
      · exact ⟨Nat.zero_le _, fun _ h => absurd h List.not_mem_nil⟩
    · rintro ⟨hlen, hall⟩
      cases m with
      | nil => exact .inr rfl
      | cons c m =>
        obtain ⟨hc, hrest⟩ := List.forall_mem_cons.mp hall
        exact .inl ⟨[c], m, rfl, ⟨c, rfl, hc⟩, ih.mpr ⟨Nat.le_of_succ_le_succ hlen, hrest⟩⟩

theorem matches_between_one {least most : Nat} (h : least ≤ most) :
    Matches (between least most (one p)) prev m next ↔
      least ≤ m.length ∧ m.length ≤ most ∧ ∀ c ∈ m, p c = true := by
  constructor
  · rintro ⟨m₁, m₂, rfl, h₁, h₂⟩
    obtain ⟨hlen₁, hall₁⟩ := matches_times_one.mp h₁
    obtain ⟨hlen₂, hall₂⟩ := matches_atMost_one.mp h₂
    rw [List.length_append]
    exact ⟨by omega, by omega, List.forall_mem_append.mpr ⟨hall₁, hall₂⟩⟩
  · rintro ⟨hleast, hmost, hall⟩
    refine ⟨m.take least, m.drop least, (List.take_append_drop _ _).symm, ?_, ?_⟩
    · exact matches_times_one.mpr ⟨List.length_take_of_le hleast,
        fun c hc => hall c (List.mem_of_mem_take hc)⟩
    · exact matches_atMost_one.mpr ⟨by rw [List.length_drop]; omega,
        fun c hc => hall c (List.mem_of_mem_drop hc)⟩

end

/-! ## What is preferred -/

theorem run_seq_look (t : Option α → Option α → Bool) (r : Pattern α) (prev : Option α)
    (rest : List α) :
    run (seq (look t) r) prev rest = if t prev rest.head? then run r prev rest else [] := by
  rw [run, run]
  split
  · rw [List.flatMap_singleton, List.take_zero, List.drop_zero, lastOr_nil]
    simp
  · rfl

theorem run_seq_opt (r s : Pattern α) (prev : Option α) (rest : List α) :
    run (seq (opt r) s) prev rest = run (seq r s) prev rest ++ run s prev rest := by
  rw [run, show run (opt r) prev rest = run r prev rest ++ [0] from rfl, List.flatMap_append,
    List.flatMap_singleton, List.take_zero, List.drop_zero, lastOr_nil]
  simp [run]

theorem run_one_seq (p : α → Bool) (s : Pattern α) (prev : Option α) (c : α) (rest : List α) :
    run (seq (one p) s) prev (c :: rest) =
      if p c then (run s (some c) rest).map (1 + ·) else [] := by
  rw [run, run, List.head?_cons, Option.any_some]
  split
  · rw [List.flatMap_singleton]
    rfl
  · rfl

theorem run_times_one (p : α → Bool) (n : Nat) (prev : Option α) (rest : List α) :
    run (times n (one p)) prev rest = if n ≤ (rest.takeWhile p).length then [n] else [] := by
  induction n generalizing prev rest with
  | zero => rfl
  | succ n ih =>
    cases rest with
    | nil => rfl
    | cons c rest =>
      rw [times, run_one_seq, ih, List.takeWhile_cons]
      by_cases hc : p c = true
      · rw [if_pos hc, if_pos hc, List.length_cons]
        by_cases hn : n ≤ (rest.takeWhile p).length
        · rw [if_pos hn, if_pos (Nat.succ_le_succ hn), List.map_singleton, Nat.add_comm]
        · rw [if_neg hn, if_neg fun h => hn (Nat.le_of_succ_le_succ h), List.map_nil]
      · rw [if_neg hc, if_neg hc]
        rfl

/-- The matches of `r{n,n+1}`, the longer one first. -/
theorem run_between_succ (p : α → Bool) (n : Nat) (prev : Option α) (rest : List α) :
    run (between n (n + 1) (one p)) prev rest =
      run (times (n + 1) (one p)) prev rest ++ run (times n (one p)) prev rest := by
  have hone : ∀ before tail, run (atMost 1 (one p)) before tail =
      (if tail.head?.any p then [1] else []) ++ [0] := by
    intro before tail
    show run (seq (one p) empty) before tail ++ [0] = _
    cases tail with
    | nil => rfl
    | cons c tail =>
      rw [run_one_seq]
      rfl
  have hmore : ∀ {tail : List α} {k : Nat}, k ≤ (tail.takeWhile p).length →
      (k + 1 ≤ (tail.takeWhile p).length ↔ (tail.drop k).head?.any p = true) := by
    intro tail k
    induction tail generalizing k with
    | nil => simp
    | cons c tail ih =>
      rw [List.takeWhile_cons]
      by_cases hc : p c = true
      · rw [if_pos hc, List.length_cons]
        cases k with
        | zero => simp [hc]
        | succ k =>
          intro hk
          rw [List.drop_succ_cons, Nat.add_le_add_iff_right]
          exact ih (Nat.le_of_succ_le_succ hk)
      · rw [if_neg hc]
        intro hk
        rw [Nat.le_zero.mp hk]
        simp [hc]
  have hatMost : n + 1 - n = 1 := Nat.add_sub_cancel_left n 1
  rw [between, hatMost, run, run_times_one, run_times_one]
  by_cases hn : n ≤ (rest.takeWhile p).length
  · rw [if_pos hn, List.flatMap_singleton, hone]
    by_cases hsucc : n + 1 ≤ (rest.takeWhile p).length
    · rw [if_pos hsucc, if_pos ((hmore hn).mp hsucc)]
      rfl
    · rw [if_neg hsucc, if_neg fun h => hsucc ((hmore hn).mpr h)]
      rfl
  · rw [if_neg hn, if_neg fun h => hn (Nat.le_of_succ_le h)]
    rfl

theorem run_between_succ_seq (p : α → Bool) (n : Nat) (s : Pattern α) (prev : Option α)
    (rest : List α) :
    run (seq (between n (n + 1) (one p)) s) prev rest =
      run (seq (times (n + 1) (one p)) s) prev rest ++ run (seq (times n (one p)) s) prev rest := by
  rw [run, run_between_succ, List.flatMap_append, run, run]

/-- Among these lengths, a good one is first if there is one. -/
def Prefers (good : Nat → Prop) (lengths : List Nat) : Prop :=
  (∃ n ∈ lengths, good n) → ∃ n, lengths.head? = some n ∧ good n

section

variable {good : Nat → Prop} {l l' : List Nat}

theorem prefers_append (hl : ∀ n ∈ l, good n) (h : Prefers good l') : Prefers good (l ++ l') := by
  rintro ⟨n, hn, hgood⟩
  cases l with
  | nil => exact h ⟨n, hn, hgood⟩
  | cons k l => exact ⟨k, rfl, hl k List.mem_cons_self⟩

theorem prefers_map {k : Nat} (h : Prefers (fun n => good (k + n)) l) :
    Prefers good (l.map (k + ·)) := by
  rintro ⟨n, hn, hgood⟩
  obtain ⟨i, hi, rfl⟩ := List.mem_map.mp hn
  obtain ⟨j, hj, hgood⟩ := h ⟨i, hi, hgood⟩
  exact ⟨k + j, by rw [List.head?_map, hj]; rfl, hgood⟩

theorem prefers_of_length_le (h : l.length ≤ 1) : Prefers good l := by
  rintro ⟨n, hn, hgood⟩
  cases l with
  | nil => cases hn
  | cons k l =>
    have hnil : l = [] := List.length_eq_zero_iff.mp (Nat.le_zero.mp (Nat.le_of_succ_le_succ h))
    subst hnil
    rw [List.mem_singleton] at hn
    exact ⟨k, rfl, hn ▸ hgood⟩

end

/-! ## What matches are made of -/

/-- Every character of a match is in `p`. -/
def Within (p : α → Prop) (r : Pattern α) : Prop :=
  ∀ prev m next, Matches r prev m next → ∀ c ∈ m, p c

/-- A match has `n` characters of `p`. -/
def AtLeast (p : α → Bool) (n : Nat) (r : Pattern α) : Prop :=
  ∀ prev m next, Matches r prev m next → n ≤ m.countP p

/-- The characters around a match do not matter. -/
def Blind (r : Pattern α) : Prop :=
  ∀ prev prev' m next next', Matches r prev m next → Matches r prev' m next'

section

variable {p : α → Prop} {q : α → Bool} {r s : Pattern α}

theorem within_one {cls : α → Bool} (h : ∀ c, cls c = true → p c) : Within p (one cls) := by
  rintro _ _ _ ⟨c, rfl, hc⟩ d hd
  rw [List.mem_singleton.mp hd]
  exact h c hc

theorem within_look (t : Option α → Option α → Bool) : Within p (look t) := by
  rintro _ _ _ ⟨rfl, -⟩ c hc
  cases hc

theorem Within.seq (hr : Within p r) (hs : Within p s) : Within p (seq r s) := by
  rintro _ _ _ ⟨m₁, m₂, rfl, h₁, h₂⟩ c hc
  rcases List.mem_append.mp hc with hc | hc
  · exact hr _ _ _ h₁ c hc
  · exact hs _ _ _ h₂ c hc

theorem Within.opt (hr : Within p r) : Within p (opt r) := by
  rintro _ _ _ (h | rfl) c hc
  · exact hr _ _ _ h c hc
  · cases hc

theorem within_many {cls : α → Bool} (h : ∀ c, cls c = true → p c) (least : Nat) :
    Within p (many cls least) := fun _ _ _ hm c hc => h c (hm.2 c hc)

theorem Within.times (hr : Within p r) (n : Nat) : Within p (times n r) := by
  induction n with
  | zero => exact within_look _
  | succ n ih => exact hr.seq ih

theorem Within.atMost (hr : Within p r) (n : Nat) : Within p (atMost n r) := by
  induction n with
  | zero => exact within_look _
  | succ n ih => exact (hr.seq ih).opt

theorem Within.between (hr : Within p r) (m n : Nat) : Within p (between m n r) :=
  (hr.times m).seq (hr.atMost (n - m))

theorem atLeast_zero (r : Pattern α) : AtLeast q 0 r := fun _ _ _ _ => Nat.zero_le _

theorem atLeast_one {cls : α → Bool} (h : ∀ c, cls c = true → q c = true) :
    AtLeast q 1 (one cls) := by
  rintro _ _ _ ⟨c, rfl, hc⟩
  rw [List.countP_singleton, if_pos (h c hc)]

theorem AtLeast.seq {m n : Nat} (hr : AtLeast q m r) (hs : AtLeast q n s) :
    AtLeast q (m + n) (seq r s) := by
  rintro _ _ _ ⟨m₁, m₂, rfl, h₁, h₂⟩
  rw [List.countP_append]
  exact Nat.add_le_add (hr _ _ _ h₁) (hs _ _ _ h₂)

theorem AtLeast.times {m : Nat} (hr : AtLeast q m r) (n : Nat) : AtLeast q (n * m) (times n r) := by
  induction n with
  | zero =>
    rw [Nat.zero_mul]
    exact atLeast_zero _
  | succ n ih =>
    rw [Nat.succ_mul, Nat.add_comm]
    exact hr.seq ih

theorem AtLeast.between {k : Nat} (hr : AtLeast q k r) (m n : Nat) :
    AtLeast q (m * k) (between m n r) := (hr.times m).seq (atLeast_zero _)

theorem AtLeast.of_mem_run {n k : Nat} (h : AtLeast q n r) {prev : Option α} {rest : List α}
    (hk : k ∈ run r prev rest) : n ≤ (rest.take k).countP q := by
  obtain ⟨m, post, rfl, rfl, hm⟩ := mem_run.mp hk
  rw [List.take_left' rfl]
  exact h _ _ _ hm

theorem AtLeast.ne_nil {n : Nat} (h : AtLeast q (n + 1) r) {prev : Option α} {m : List α}
    {next : Option α} (hm : Matches r prev m next) : m ≠ [] := by
  rintro rfl
  exact absurd (h _ _ _ hm) (Nat.not_succ_le_zero n)

theorem AtLeast.exists_mem {n : Nat} (h : AtLeast q (n + 1) r) {prev : Option α} {m : List α}
    {next : Option α} (hm : Matches r prev m next) : ∃ c ∈ m, q c = true :=
  List.countP_pos_iff.mp (Nat.lt_of_lt_of_le (Nat.succ_pos n) (h _ _ _ hm))

theorem blind_one (cls : α → Bool) : Blind (one cls) := fun _ _ _ _ _ h => h

theorem blind_many (cls : α → Bool) (least : Nat) : Blind (many cls least) := fun _ _ _ _ _ h => h

theorem Blind.seq (hr : Blind r) (hs : Blind s) : Blind (seq r s) := by
  rintro _ _ _ _ _ ⟨m₁, m₂, rfl, h₁, h₂⟩
  exact ⟨m₁, m₂, rfl, hr _ _ _ _ _ h₁, hs _ _ _ _ _ h₂⟩

theorem Blind.opt (hr : Blind r) : Blind (opt r) := by
  rintro _ _ _ _ _ (h | rfl)
  · exact .inl (hr _ _ _ _ _ h)
  · exact .inr rfl

theorem blind_empty : Blind (empty : Pattern α) := by
  rintro _ _ _ _ _ ⟨rfl, -⟩
  exact ⟨rfl, rfl⟩

theorem Blind.times (hr : Blind r) (n : Nat) : Blind (times n r) := by
  induction n with
  | zero => exact blind_empty
  | succ n ih => exact hr.seq ih

theorem Blind.atMost (hr : Blind r) (n : Nat) : Blind (atMost n r) := by
  induction n with
  | zero => exact blind_empty
  | succ n ih => exact (hr.seq ih).opt

theorem Blind.between (hr : Blind r) (m n : Nat) : Blind (between m n r) :=
  (hr.times m).seq (hr.atMost (n - m))

end

/-! ## Replacing -/

/-- What is matched is replaced by `f` of it; `skip` counts the characters left of a match. The
patterns that are replaced match no empty text. -/
def replaceFrom (r : Pattern α) (f : List α → List α) : Nat → Option α → List α → List α
  | _, _, [] => []
  | skip + 1, _, c :: cs => replaceFrom r f skip (some c) cs
  | 0, prev, c :: cs =>
    match (run r prev (c :: cs)).head? with
    | some (n + 1) => f ((c :: cs).take (n + 1)) ++ replaceFrom r f n (some c) cs
    | _ => c :: replaceFrom r f 0 (some c) cs

/-- `text.replace(/r/g, f)`. -/
def replaceAll (r : Pattern α) (f : List α → List α) (text : List α) : List α :=
  replaceFrom r f 0 none text

/-- `/r/.test(text)`. -/
def test (r : Pattern α) : Option α → List α → Bool
  | prev, [] => !(run r prev []).isEmpty
  | prev, c :: cs => !(run r prev (c :: cs)).isEmpty || test r (some c) cs

/-- A text is scanned: where nothing is matched its character stays, and what is matched first is
replaced. -/
inductive Scan (r : Pattern α) (f : List α → List α) : Option α → List α → List α → Prop
  | nil (prev : Option α) : Scan r f prev [] []
  | copy {prev : Option α} {c : α} {cs out : List α} (hnone : run r prev (c :: cs) = [])
      (h : Scan r f (some c) cs out) : Scan r f prev (c :: cs) (c :: out)
  | hit {prev : Option α} {m post out : List α} (hne : m ≠ [])
      (hfirst : (run r prev (m ++ post)).head? = some m.length)
      (h : Scan r f (lastOr prev m) post out) : Scan r f prev (m ++ post) (f m ++ out)

theorem replaceFrom_skip (r : Pattern α) (f : List α → List α) (prev : Option α)
    (m post : List α) :
    replaceFrom r f m.length prev (m ++ post) = replaceFrom r f 0 (lastOr prev m) post := by
  induction m generalizing prev with
  | nil => rfl
  | cons c m ih => exact ih (some c)

/-- **A replacement scans the text.** -/
theorem scan_replace {r : Pattern α} (hpos : ∀ prev m next, Matches r prev m next → m ≠ [])
    (f : List α → List α) (prev : Option α) (rest : List α) :
    Scan r f prev rest (replaceFrom r f 0 prev rest) := by
  induction hlen : rest.length using Nat.strongRecOn generalizing prev rest with
  | ind k ih =>
    cases rest with
    | nil => exact .nil prev
    | cons c cs =>
      subst hlen
      rw [replaceFrom]
      cases hrun : (run r prev (c :: cs)).head? with
      | none => exact .copy (List.head?_eq_none_iff.mp hrun) (ih _ (Nat.lt_succ_self _) _ _ rfl)
      | some n =>
        obtain ⟨m, post, hrest, hm, hmatch⟩ := mem_run.mp (List.mem_of_mem_head? hrun)
        cases m with
        | nil => exact absurd rfl (hpos _ _ _ hmatch)
        | cons d m =>
          rw [List.cons_append] at hrest
          obtain ⟨rfl, rfl⟩ := List.cons.inj hrest
          subst hm
          have htake : (c :: (m ++ post)).take (m.length + 1) = c :: m := by
            rw [List.take_succ_cons, List.take_left' rfl]
          rw [List.length_cons]
          dsimp only
          rw [htake, replaceFrom_skip]
          refine .hit (List.cons_ne_nil c m) hrun (ih _ ?_ _ _ rfl)
          rw [List.length_cons, List.length_append]
          omega

theorem Scan.matches {r : Pattern α} {prev : Option α} {m post : List α}
    (hfirst : (run r prev (m ++ post)).head? = some m.length) : Matches r prev m post.head? := by
  obtain ⟨m', post', heq, hlen, hmatch⟩ := mem_run.mp (List.mem_of_mem_head? hfirst)
  obtain ⟨rfl, rfl⟩ := List.append_inj heq hlen.symm
  exact hmatch

/-! ## Texts without a match -/

/-- A good match begins here. -/
def MatchAt (r : Pattern α) (good : List α → Prop) (prev : Option α) (rest : List α) : Prop :=
  ∃ m post, rest = m ++ post ∧ Matches r prev m post.head? ∧ good m

/-- No good match begins at any character. -/
def Free (r : Pattern α) (good : List α → Prop) : Option α → List α → Prop
  | _, [] => True
  | prev, c :: cs => ¬MatchAt r good prev (c :: cs) ∧ Free r good (some c) cs

theorem Free.append_right {r : Pattern α} {good : List α → Prop} {prev : Option α}
    {m post : List α} (h : Free r good prev (m ++ post)) : Free r good (lastOr prev m) post := by
  induction m generalizing prev with
  | nil => exact h
  | cons c m ih => exact ih h.2

/-- No part of the text is a good match where it stands. -/
theorem Free.not_matches {r : Pattern α} {good : List α → Prop}
    (hpos : ∀ prev m next, Matches r prev m next → m ≠ []) {prev : Option α} {x m y : List α}
    (h : Free r good prev (x ++ (m ++ y))) (hm : Matches r (lastOr prev x) m y.head?) : ¬good m := by
  have hfree := h.append_right
  cases m with
  | nil => exact absurd rfl (hpos _ _ _ hm)
  | cons c m => exact fun hgood => hfree.1 ⟨c :: m, y, rfl, hm, hgood⟩

/-! ## Edited texts -/

section

variable (E : Option α → List α → Prop) (H : Option α → List α → List α → Prop) (mark : List α)

/-- A text with a mark in place of some of its parts: `E` holds where a character stays, `H` of a
part that is replaced. -/
inductive Edited : Option α → List α → List α → Prop
  | nil (prev : Option α) : Edited prev [] []
  | copy {prev : Option α} {c : α} {cs out : List α} (he : E prev (c :: cs))
      (h : Edited (some c) cs out) : Edited prev (c :: cs) (c :: out)
  | put {prev : Option α} {m post out : List α} (hne : m ≠ []) (hh : H prev m post)
      (h : Edited (lastOr prev m) post out) : Edited prev (m ++ post) (mark ++ out)

end

/-- What a replaced part is: a match. -/
def Hit (r : Pattern α) (prev : Option α) (m post : List α) : Prop := Matches r prev m post.head?

theorem Scan.edited {r : Pattern α} {mark : List α} {prev : Option α} {rest out : List α}
    (h : Scan r (fun _ => mark) prev rest out) :
    Edited (fun prev rest => run r prev rest = []) (Hit r) mark prev rest out := by
  induction h with
  | nil prev => exact .nil prev
  | copy hnone _ ih => exact .copy hnone ih
  | hit hne hfirst _ ih => exact .put hne (Scan.matches hfirst) ih

section

variable {E : Option α → List α → Prop} {H : Option α → List α → List α → Prop} {mark : List α}
  {prev : Option α} {rest out : List α}

/-- A part that stays is copied. -/
theorem Edited.copies {m post : List α} (hm : ∀ x y, m = x ++ y → y ≠ [] →
      E (lastOr prev x) (y ++ post))
    (h : Edited E H mark (lastOr prev m) post out) : Edited E H mark prev (m ++ post) (m ++ out) := by
  induction m generalizing prev with
  | nil => exact h
  | cons c m ih =>
    refine .copy (hm [] (c :: m) rfl (List.cons_ne_nil c m)) (ih (fun x y hxy hy => ?_) h)
    exact hm (c :: x) y (by rw [hxy, List.cons_append]) hy

/-- A replacement that keeps some of what it matches and marks the rest. -/
theorem Scan.edited_or_kept {r : Pattern α} {f : List α → List α}
    (hf : ∀ m, f m = m ∨ f m = mark) (h : Scan r f prev rest out) :
    Edited (fun _ _ => True) (Hit r) mark prev rest out := by
  induction h with
  | nil prev => exact .nil prev
  | copy _ _ ih => exact .copy trivial ih
  | @hit prev m post out hne hfirst _ ih =>
    rcases hf m with hkeep | hmark
    · rw [hkeep]
      exact ih.copies fun _ _ _ _ => trivial
    · rw [hmark]
      exact .put hne (Scan.matches hfirst) ih

/-- A property of every place of the text holds where a character stays. -/
theorem Edited.of_free {P : Pattern α} {good : List α → Prop} (h : Edited E H mark prev rest out)
    (hfree : Free P good prev rest) :
    Edited (fun prev rest => ¬MatchAt P good prev rest) H mark prev rest out := by
  induction h with
  | nil prev => exact .nil prev
  | copy _ _ ih => exact .copy hfree.1 (ih hfree.2)
  | put hne hh _ ih => exact .put hne hh (ih hfree.append_right)

/-- What comes before a mark in the edited text came at that place of the text. -/
theorem Edited.split {b : α} (hb : mark.head? = some b) (h : Edited E H mark prev rest out)
    {m y : List α} (hout : out = m ++ y) (hm : b ∉ m) :
    ∃ y', rest = m ++ y' ∧ (y.head? = y'.head? ∨
      y.head? = some b ∧ ∃ hit post, y' = hit ++ post ∧ H (lastOr prev m) hit post) := by
  induction h generalizing m with
  | nil prev =>
    obtain ⟨rfl, rfl⟩ := List.append_eq_nil_iff.mp hout.symm
    exact ⟨[], rfl, .inl rfl⟩
  | @copy prev c cs out he h ih =>
    cases m with
    | nil =>
      rw [List.nil_append] at hout
      subst hout
      exact ⟨c :: cs, rfl, .inl rfl⟩
    | cons d m =>
      rw [List.cons_append] at hout
      obtain ⟨rfl, htail⟩ := List.cons.inj hout
      obtain ⟨y', rfl, hnext⟩ := ih htail fun hmem => hm (List.mem_cons_of_mem _ hmem)
      exact ⟨y', rfl, hnext⟩
  | @put prev hit post out hne hh h ih =>
    cases m with
    | nil =>
      rw [List.nil_append] at hout
      subst hout
      refine ⟨hit ++ post, rfl, .inr ⟨?_, hit, post, rfl, hh⟩⟩
      rw [head?_append_or, hb]
      rfl
    | cons d m =>
      have hhead := congrArg List.head? hout
      rw [head?_append_or, hb] at hhead
      exact absurd (Option.some.inj hhead ▸ List.mem_cons_self) hm

/-- No match of the pattern has to do with a mark that begins in `b` and ends in `e`. -/
def Inert (P : Pattern α) (b : α) (inside : List α) (e : α) : Prop :=
  ∀ prev m next, Matches P prev m next → b ∉ m ∧ e ∉ m ∧ ∃ c ∈ m, c ∉ inside

/-- A match beside a mark is one beside what the mark stands for. -/
structure Transfers (P : Pattern α) (good : List α → Prop)
    (H : Option α → List α → List α → Prop) (b e : α) : Prop where
  left : ∀ prev hit m y next, H prev hit (m ++ y) → good m → Matches P (some e) m next →
    Matches P (lastOr prev hit) m next
  right : ∀ prev m hit post, H (lastOr prev m) hit post → good m → Matches P prev m (some b) →
    Matches P prev m (hit ++ post).head?

theorem Blind.transfers {P : Pattern α} (h : Blind P) (good : List α → Prop) (b e : α) :
    Transfers P good H b e :=
  ⟨fun _ _ _ _ _ _ _ hm => h _ _ _ _ _ hm, fun _ _ _ _ _ _ hm => h _ _ _ _ _ hm⟩

/-- A mark has no match in it. -/
theorem free_mark {P : Pattern α} {good : List α → Prop} {b e : α} {inside : List α}
    (hinert : Inert P b inside e) {w : List α} (hw : ∀ c ∈ w, c ∈ inside ∨ c = b)
    (prev : Option α) (hout : Free P good (some e) out) : Free P good prev (w ++ e :: out) := by
  induction w generalizing prev with
  | nil =>
    refine ⟨?_, hout⟩
    rintro ⟨m, y, heq, hmatch, -⟩
    obtain ⟨-, he, c, hc, -⟩ := hinert _ _ _ hmatch
    cases m with
    | nil => cases hc
    | cons d m =>
      obtain ⟨rfl, -⟩ := List.cons.inj heq
      exact he List.mem_cons_self
  | cons d w ih =>
    refine ⟨?_, ih (fun c hc => hw c (List.mem_cons_of_mem d hc)) (some d)⟩
    rintro ⟨m, y, heq, hmatch, -⟩
    obtain ⟨hb, he, c, hc, hnot⟩ := hinert _ _ _ hmatch
    have hall : ∀ x ∈ m, x ∈ d :: w := by
      have hparts : (d :: w) ++ e :: out = m ++ y := heq
      rcases List.append_eq_append_iff.mp hparts with ⟨k, rfl, hk⟩ | ⟨k, hk, -⟩
      · cases k with
        | nil =>
          intro x hx
          rwa [List.append_nil] at hx
        | cons x k =>
          obtain ⟨rfl, -⟩ := List.cons.inj hk
          exact absurd (List.mem_append_right _ List.mem_cons_self) he
      · intro x hx
        rw [hk]
        exact List.mem_append_left _ hx
    rcases hw c (hall c hc) with hin | rfl
    · exact hnot hin
    · exact hb hc

/-- A match that begins in the edited text is a match that begins in the text. -/
theorem Edited.matchAt {P : Pattern α} {good : List α → Prop} {b e : α} {inside : List α}
    (hinert : Inert P b inside e) (hright : ∀ prev m hit post, H (lastOr prev m) hit post →
      good m → Matches P prev m (some b) → Matches P prev m (hit ++ post).head?)
    (h : Edited E H (b :: (inside ++ [e])) prev rest out) {prevOut : Option α}
    (hm : MatchAt P good prevOut out) : MatchAt P good prevOut rest := by
  obtain ⟨m, y, rfl, hmatch, hgood⟩ := hm
  obtain ⟨hb, -, d, hd, -⟩ := hinert _ _ _ hmatch
  obtain ⟨y', rfl, hnext⟩ := h.split rfl rfl hb
  refine ⟨m, y', rfl, ?_, hgood⟩
  rcases hnext with hsame | ⟨hmark, hit, post, rfl, hhit⟩
  · exact hsame ▸ hmatch
  · rw [hmark] at hmatch
    rw [lastOr_of_ne_nil (List.ne_nil_of_mem hd)] at hhit
    exact hright prevOut m hit post hhit hgood hmatch

/-- **An edited text has no good match where the text has none at the characters that stay.** -/
theorem Edited.free {P : Pattern α} {good : List α → Prop} {b e : α} {inside : List α}
    (hinert : Inert P b inside e) (ht : Transfers P good H b e)
    (hE : ∀ prev c cs, E prev (c :: cs) → ¬MatchAt P good prev (c :: cs))
    (h : Edited E H (b :: (inside ++ [e])) prev rest out) {prevOut : Option α}
    (hprev : prevOut = prev ∨
      prevOut = some e ∧ ∃ before hit, H before hit rest ∧ prev = lastOr before hit) :
    Free P good prevOut out := by
  induction h generalizing prevOut with
  | nil prev => trivial
  | @copy prev c cs out he h ih =>
    refine ⟨fun hm => ?_, ih (.inl rfl)⟩
    obtain ⟨m, y, hrest, hmatch, hgood⟩ := (Edited.copy he h).matchAt hinert ht.right hm
    refine hE _ _ _ he ⟨m, y, hrest, ?_, hgood⟩
    rcases hprev with rfl | ⟨rfl, before, hit, hhit, rfl⟩
    · exact hmatch
    · rw [hrest] at hhit
      exact ht.left before hit m y _ hhit hgood hmatch
  | @put prev hit post out hne hh h ih =>
    have hrest : Free P good (some e) out := ih (.inr ⟨rfl, prev, hit, hh, rfl⟩)
    have hmark : b :: (inside ++ [e]) ++ out = b :: inside ++ e :: out := by simp
    rw [hmark]
    refine free_mark hinert (fun c hc => ?_) prevOut hrest
    rcases List.mem_cons.mp hc with rfl | hc
    · exact .inr rfl
    · exact .inl hc

/-- **A text stays as it is where what it has of matches is replaced by itself.** -/
theorem Scan.eq_self {r : Pattern α} {f : List α → List α} {good : List α → Prop}
    (hf : ∀ m, ¬good m → f m = m) (h : Scan r f prev rest out) (hfree : Free r good prev rest) :
    out = rest := by
  induction h with
  | nil => rfl
  | copy _ _ ih => rw [ih hfree.2]
  | @hit prev m post out hne hfirst h ih =>
    have hbad : ¬good m := by
      cases m with
      | nil => exact absurd rfl hne
      | cons c m => exact fun hgood => hfree.1 ⟨c :: m, post, rfl, Scan.matches hfirst, hgood⟩
    rw [hf m hbad, ih hfree.append_right]

/-- Functions that agree on what is matched replace alike. -/
theorem Scan.congr {r : Pattern α} {f g : List α → List α}
    (hfg : ∀ prev m next, Matches r prev m next → f m = g m) (h : Scan r f prev rest out) :
    Scan r g prev rest out := by
  induction h with
  | nil prev => exact .nil prev
  | copy hnone _ ih => exact .copy hnone ih
  | hit hne hfirst _ ih =>
    rw [hfg _ _ _ (Scan.matches hfirst)]
    exact .hit hne hfirst ih

end

/-! ## Searching -/

/-- **A text is found to match where some part of it does where it stands.** -/
theorem test_iff {r : Pattern α} {prev : Option α} {text : List α} :
    test r prev text = true ↔ ∃ before m after, text = before ++ (m ++ after) ∧
      Matches r (lastOr prev before) m after.head? := by
  have hhere : ∀ (prev : Option α) (rest : List α), (!(run r prev rest).isEmpty) = true ↔
      ∃ m after, rest = m ++ after ∧ Matches r prev m after.head? := by
    intro prev rest
    rw [Bool.not_eq_true', List.isEmpty_eq_false_iff_exists_mem]
    constructor
    · rintro ⟨n, hn⟩
      obtain ⟨m, after, hrest, -, hm⟩ := mem_run.mp hn
      exact ⟨m, after, hrest, hm⟩
    · rintro ⟨m, after, rfl, hm⟩
      exact ⟨m.length, mem_run.mpr ⟨m, after, rfl, rfl, hm⟩⟩
  induction text generalizing prev with
  | nil =>
    rw [test, hhere]
    constructor
    · rintro ⟨m, after, heq, hm⟩
      exact ⟨[], m, after, heq, hm⟩
    · rintro ⟨before, m, after, heq, hm⟩
      obtain ⟨hbefore, hrest⟩ := List.append_eq_nil_iff.mp heq.symm
      subst hbefore
      exact ⟨m, after, hrest.symm, hm⟩
  | cons c cs ih =>
    rw [test, Bool.or_eq_true, hhere]
    constructor
    · rintro (⟨m, after, heq, hm⟩ | hrest)
      · exact ⟨[], m, after, heq, hm⟩
      · obtain ⟨before, m, after, rfl, hm⟩ := ih.mp hrest
        exact ⟨c :: before, m, after, rfl, hm⟩
    · rintro ⟨before, m, after, heq, hm⟩
      cases before with
      | nil => exact .inl ⟨m, after, heq, hm⟩
      | cons d before =>
        obtain ⟨rfl, rfl⟩ := List.cons.inj heq
        exact .inr (ih.mpr ⟨before, m, after, rfl, hm⟩)

/-! ## Texts whose characters carry more -/

section

variable {β : Type} (w : β → α)

/-- The pattern on what the characters stand for. -/
def Pattern.comap : Pattern α → Pattern β
  | one p => one fun c => p (w c)
  | look t => look fun prev next => t (prev.map w) (next.map w)
  | seq r s => seq (comap r) (comap s)
  | opt r => opt (comap r)
  | many p least => many (fun c => p (w c)) least

theorem lastOr_map (prev : Option β) (m : List β) :
    lastOr (prev.map w) (m.map w) = (lastOr prev m).map w := by
  induction m generalizing prev with
  | nil => rfl
  | cons c m ih => exact ih (some c)

theorem run_comap (r : Pattern α) (prev : Option β) (rest : List β) :
    run (comap w r) prev rest = run r (prev.map w) (rest.map w) := by
  induction r generalizing prev rest with
  | one p =>
    rw [comap, run, run, List.head?_map, Option.any_map]
  | look t => rw [comap, run, run, List.head?_map]
  | seq r s ihr ihs =>
    rw [comap, run, run, ihr]
    refine List.flatMap_congr fun n _ => ?_
    rw [ihs, ← lastOr_map, List.map_take, List.map_drop]
  | opt r ih => rw [comap, run, run, ih]
  | many p least =>
    rw [comap, run, run, List.takeWhile_map, List.length_map]
    rfl

variable {w}

/-- **A replacement of characters that carry more replaces what they stand for.** -/
theorem map_replaceFrom {r : Pattern α} {f : List β → List β} {g : List α → List α}
    (hf : ∀ m, (f m).map w = g (m.map w)) (skip : Nat) (prev : Option β) (rest : List β) :
    (replaceFrom (comap w r) f skip prev rest).map w =
      replaceFrom r g skip (prev.map w) (rest.map w) := by
  induction rest generalizing skip prev with
  | nil => cases skip <;> rfl
  | cons c cs ih =>
    cases skip with
    | succ skip => exact ih skip (some c)
    | zero =>
      rw [List.map_cons, replaceFrom, replaceFrom, run_comap, List.map_cons]
      cases (run r (prev.map w) (w c :: cs.map w)).head? with
      | none => exact congrArg (w c :: ·) (ih 0 (some c))
      | some n =>
        cases n with
        | zero => exact congrArg (w c :: ·) (ih 0 (some c))
        | succ n =>
          dsimp only
          rw [List.map_append, hf, List.map_take, List.map_cons]
          exact congrArg _ (ih n (some c))

/-- What a replacement leaves was there, or is part of what a match is replaced by. -/
theorem mem_replaceFrom {r : Pattern β} {f : List β → List β} {x : β} {skip : Nat}
    {prev : Option β} {rest : List β} (h : x ∈ replaceFrom r f skip prev rest) :
    x ∈ rest ∨ ∃ m, (∀ c ∈ m, c ∈ rest) ∧ x ∈ f m := by
  have hcons : ∀ {c : β} {cs : List β}, (x ∈ cs ∨ ∃ m, (∀ c ∈ m, c ∈ cs) ∧ x ∈ f m) →
      x ∈ c :: cs ∨ ∃ m, (∀ d ∈ m, d ∈ c :: cs) ∧ x ∈ f m := by
    rintro c cs (hx | ⟨m, hm, hx⟩)
    · exact .inl (List.mem_cons_of_mem _ hx)
    · exact .inr ⟨m, fun d hd => List.mem_cons_of_mem _ (hm d hd), hx⟩
  induction rest generalizing skip prev with
  | nil => cases skip <;> cases h
  | cons c cs ih =>
    cases skip with
    | succ skip => exact hcons (ih h)
    | zero =>
      rw [replaceFrom] at h
      split at h
      · rcases List.mem_append.mp h with hx | hx
        · exact .inr ⟨_, fun d hd => List.mem_of_mem_take hd, hx⟩
        · exact hcons (ih hx)
      · rcases List.mem_cons.mp h with rfl | hx
        · exact .inl List.mem_cons_self
        · exact hcons (ih hx)

end

end Backtracking
