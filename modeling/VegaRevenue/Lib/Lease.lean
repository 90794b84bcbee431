import VegaRevenue.Lib.ClaimRegister
import VegaRevenue.Lib.Interleave

/-!
# Leases on the keys of a claim register

A call that wins a claim holds the key until it puts a record back or ends. While it holds the key
it may use it, and once it may have used it, the record it puts back is not free.

* `Account.step` — the account of all keys is kept by every step that has an `Effect`
* `uses_le_one` — no key is used twice in a run, whatever becomes of the calls
* `Settled.step` — a record that is not free stays under a key that nobody holds
-/

namespace Lease

open ClaimRegister (State wins)

variable {K R World Pc ι : Type*}

/-- Where a call stands: without a key, or holding one that it may have used. -/
inductive Phase (K : Type*) where
  | outside
  | holding (key : K) (spent : Bool)

/-- A step that uses no key may end the lease or give up the right to use it. -/
inductive Phase.Follows : Phase K → Phase K → Prop where
  | same (p : Phase K) : Follows p p
  | ends (p : Phase K) : Follows p .outside
  | spends (key : K) : Follows (.holding key false) (.holding key true)

/-- No key was used twice, a free key and a key that is held unspent were not used, and a held key
is occupied and held once. -/
structure Account (free : R → Bool) (register : World → State K R) (uses : World → K → Nat)
    (phase : Nat → Pc → Phase K) (c : Interleave.Config World Pc) : Prop where
  once : ∀ k, uses c.world k ≤ 1
  unused_of_wins : ∀ k, wins free (register c.world) k = true → uses c.world k = 0
  unused : ∀ i k, phase i (c.pc i) = .holding k false → uses c.world k = 0
  occupied : ∀ i k spent, phase i (c.pc i) = .holding k spent →
    wins free (register c.world) k = false
  alone : ∀ i j k b d, phase i (c.pc i) = .holding k b → phase j (c.pc j) = .holding k d → i = j

/-- A key held after a step that takes none was held before it, and unspent if it is unspent. -/
theorem Phase.Follows.holding {p p' : Phase K} (h : p.Follows p') {k : K} {spent : Bool}
    (hp : p' = .holding k spent) : ∃ b, p = .holding k b ∧ (spent = false → b = false) := by
  cases h with
  | same => exact ⟨spent, hp, id⟩
  | ends => cases hp
  | spends key =>
    cases hp
    exact ⟨false, rfl, nofun⟩

namespace Account

variable {free : R → Bool} {register : World → State K R} {uses : World → K → Nat}
  {phase : Nat → Pc → Phase K} {f : Interleave.Stepper World Pc ι}
  {c : Interleave.Config World Pc} {a : Interleave.Tick ι}

/-- The account after a step that moves the phase of one call and nothing else. -/
theorem quiet (h : Account free register uses phase c)
    (hs : register (c.step f a).world = register c.world)
    (hu : uses (c.step f a).world = uses c.world)
    (hp : (phase a.call (c.pc a.call)).Follows (phase a.call ((c.step f a).pc a.call))) :
    Account free register uses phase (c.step f a) := by
  have hbefore : ∀ {i k spent}, phase i ((c.step f a).pc i) = .holding k spent →
      ∃ b, phase i (c.pc i) = .holding k b ∧ (spent = false → b = false) := by
    intro i k spent hi
    by_cases hia : i = a.call
    · subst hia
      exact hp.holding hi
    · rw [Interleave.Config.step_pc_ne f c hia] at hi
      exact ⟨spent, hi, id⟩
  constructor
  · rw [hu]
    exact h.once
  · rw [hu, hs]
    exact h.unused_of_wins
  · intro i k hi
    obtain ⟨b, hb, hspent⟩ := hbefore hi
    rw [hspent rfl] at hb
    rw [hu]
    exact h.unused i k hb
  · intro i k spent hi
    obtain ⟨b, hb, -⟩ := hbefore hi
    rw [hs]
    exact h.occupied i k b hb
  · intro i j k b d hi hj
    obtain ⟨b', hb, -⟩ := hbefore hi
    obtain ⟨d', hd, -⟩ := hbefore hj
    exact h.alone i j k b' d' hb hd

/-- Before any call has started and any key was used, the account holds. -/
theorem initial (hu : ∀ k, uses c.world k = 0) (hp : ∀ i, phase i (c.pc i) = .outside) :
    Account free register uses phase c where
  once k := by rw [hu k]; exact Nat.zero_le 1
  unused_of_wins k _ := hu k
  unused _ k _ := hu k
  occupied i k spent hi := by rw [hp i] at hi; cases hi
  alone i j k b d hi _ := by rw [hp i] at hi; cases hi

end Account

/-! ## Steps that take, use and put keys -/

variable [DecidableEq K]

/-- What a step does to the register, to how often each key was used, and to the phase of the call
that moves. -/
inductive Effect (free : R → Bool) (s s' : State K R) (u u' : K → Nat) (p p' : Phase K) : Prop where
  | quiet (register : s' = s) (uses : u' = u) (phase : p.Follows p')
  | takes (key : K) (record : R) (before : p = .outside) (won : wins free s key = true)
      (occupied : free record = false) (register : s' = Function.update s key (some record))
      (uses : u' = u) (phase : p' = .holding key false ∨ p' = .outside)
  | acts (key : K) (before : p = .holding key false) (register : s' = s)
      (uses : u' = Function.update u key (u key + 1))
      (phase : p' = .holding key true ∨ p' = .outside)
  | puts (key : K) (spent : Bool) (record : R) (before : p = .holding key spent)
      (free_unspent : free record = true → spent = false)
      (register : s' = Function.update s key (some record)) (uses : u' = u)
      (phase : p' = .outside)

/-- A step whose outcome the call does not learn ends its lease. -/
theorem Effect.ends {free : R → Bool} {s s' : State K R} {u u' : K → Nat} {p p' : Phase K}
    (h : Effect free s s' u u' p p') : Effect free s s' u u' p .outside := by
  cases h with
  | quiet hs hu _ => exact .quiet hs hu (.ends p)
  | takes key record hb hwon hocc hs hu _ => exact .takes key record hb hwon hocc hs hu (.inr rfl)
  | acts key hb hs hu _ => exact .acts key hb hs hu (.inr rfl)
  | puts key spent record hb hfree hs hu _ => exact .puts key spent record hb hfree hs hu rfl

theorem wins_update_self {free : R → Bool} (s : State K R) (k : K) (r : R) :
    wins free (Function.update s k (some r)) k = free r := by
  simp [wins]

theorem wins_update_ne {free : R → Bool} (s : State K R) {k k' : K} (r : R) (h : k ≠ k') :
    wins free (Function.update s k' (some r)) k = wins free s k := by
  simp [wins, h]

namespace Account

variable {free : R → Bool} {register : World → State K R} {uses : World → K → Nat}
  {phase : Nat → Pc → Phase K} {f : Interleave.Stepper World Pc ι}
  {c : Interleave.Config World Pc} {a : Interleave.Tick ι}

/-- A call that wins a claim finds the key unused and held by nobody. -/
theorem takes (h : Account free register uses phase c) {key : K} {record : R}
    (hwon : wins free (register c.world) key = true) (hocc : free record = false)
    (hs : register (c.step f a).world = Function.update (register c.world) key (some record))
    (hu : uses (c.step f a).world = uses c.world)
    (hp : phase a.call ((c.step f a).pc a.call) = .holding key false ∨
      phase a.call ((c.step f a).pc a.call) = .outside) :
    Account free register uses phase (c.step f a) := by
  have hfree : ∀ i spent, phase i (c.pc i) ≠ .holding key spent := by
    intro i spent hi
    rw [h.occupied i key spent hi] at hwon
    cases hwon
  -- the key is held by the call that moves alone, every other key as before
  have hcases : ∀ {i k spent}, phase i ((c.step f a).pc i) = .holding k spent →
      i = a.call ∧ k = key ∨ k ≠ key ∧ phase i (c.pc i) = .holding k spent := by
    intro i k spent hi
    by_cases hia : i = a.call
    · subst hia
      rcases hp with hp | hp <;> rw [hp] at hi <;> cases hi
      exact .inl ⟨rfl, rfl⟩
    · rw [Interleave.Config.step_pc_ne f c hia] at hi
      refine .inr ⟨?_, hi⟩
      rintro rfl
      exact hfree i spent hi
  constructor
  · rw [hu]
    exact h.once
  · intro k hk
    rw [hu]
    rw [hs] at hk
    by_cases hkk : k = key
    · rw [hkk, wins_update_self, hocc] at hk
      cases hk
    · rw [wins_update_ne _ _ hkk] at hk
      exact h.unused_of_wins k hk
  · intro i k hi
    rw [hu]
    rcases hcases hi with ⟨-, rfl⟩ | ⟨-, hb⟩
    · exact h.unused_of_wins k hwon
    · exact h.unused i k hb
  · intro i k spent hi
    rw [hs]
    rcases hcases hi with ⟨-, rfl⟩ | ⟨hk, hb⟩
    · rw [wins_update_self]
      exact hocc
    · rw [wins_update_ne _ _ hk]
      exact h.occupied i k spent hb
  · intro i j k b d hi hj
    rcases hcases hi with ⟨hia, hk⟩ | ⟨hk, hb⟩ <;> rcases hcases hj with ⟨hja, hk'⟩ | ⟨hk', hd⟩
    · rw [hia, hja]
    · exact absurd hk hk'
    · exact absurd hk' hk
    · exact h.alone i j k b d hb hd

/-- The holder of an unspent key is the first to use it. -/
theorem acts (h : Account free register uses phase c) {key : K}
    (hb : phase a.call (c.pc a.call) = .holding key false)
    (hs : register (c.step f a).world = register c.world)
    (hu : uses (c.step f a).world = Function.update (uses c.world) key (uses c.world key + 1))
    (hp : phase a.call ((c.step f a).pc a.call) = .holding key true ∨
      phase a.call ((c.step f a).pc a.call) = .outside) :
    Account free register uses phase (c.step f a) := by
  have hzero := h.unused a.call key hb
  have hcases : ∀ {i k spent}, phase i ((c.step f a).pc i) = .holding k spent →
      i = a.call ∧ k = key ∧ spent = true ∨ k ≠ key ∧ phase i (c.pc i) = .holding k spent := by
    intro i k spent hi
    by_cases hia : i = a.call
    · subst hia
      rcases hp with hp | hp <;> rw [hp] at hi <;> cases hi
      exact .inl ⟨rfl, rfl, rfl⟩
    · rw [Interleave.Config.step_pc_ne f c hia] at hi
      refine .inr ⟨?_, hi⟩
      rintro rfl
      exact hia (h.alone i a.call k spent false hi hb)
  constructor
  · intro k
    rw [hu]
    by_cases hk : k = key
    · simp [hk, hzero]
    · rw [Function.update_of_ne hk]
      exact h.once k
  · intro k hk
    rw [hs] at hk
    have hne : k ≠ key := by
      rintro rfl
      rw [h.occupied a.call k false hb] at hk
      cases hk
    rw [hu, Function.update_of_ne hne]
    exact h.unused_of_wins k hk
  · intro i k hi
    rcases hcases hi with ⟨-, -, hspent⟩ | ⟨hk, hb'⟩
    · cases hspent
    · rw [hu, Function.update_of_ne hk]
      exact h.unused i k hb'
  · intro i k spent hi
    rw [hs]
    rcases hcases hi with ⟨-, rfl, -⟩ | ⟨-, hb'⟩
    · exact h.occupied a.call k false hb
    · exact h.occupied i k spent hb'
  · intro i j k b d hi hj
    rcases hcases hi with ⟨hia, hk, -⟩ | ⟨hk, hb'⟩ <;>
      rcases hcases hj with ⟨hja, hk', -⟩ | ⟨hk', hd⟩
    · rw [hia, hja]
    · exact absurd hk hk'
    · exact absurd hk' hk
    · exact h.alone i j k b d hb' hd

/-- The holder gives the key back, free only if it did not use it. -/
theorem puts (h : Account free register uses phase c) {key : K} {spent : Bool} {record : R}
    (hb : phase a.call (c.pc a.call) = .holding key spent)
    (hfree : free record = true → spent = false)
    (hs : register (c.step f a).world = Function.update (register c.world) key (some record))
    (hu : uses (c.step f a).world = uses c.world)
    (hp : phase a.call ((c.step f a).pc a.call) = .outside) :
    Account free register uses phase (c.step f a) := by
  have hcases : ∀ {i k d}, phase i ((c.step f a).pc i) = .holding k d →
      k ≠ key ∧ phase i (c.pc i) = .holding k d := by
    intro i k d hi
    by_cases hia : i = a.call
    · subst hia
      rw [hp] at hi
      cases hi
    · rw [Interleave.Config.step_pc_ne f c hia] at hi
      refine ⟨?_, hi⟩
      rintro rfl
      exact hia (h.alone i a.call k d spent hi hb)
  constructor
  · rw [hu]
    exact h.once
  · intro k hk
    rw [hu]
    rw [hs] at hk
    by_cases hkk : k = key
    · subst hkk
      rw [wins_update_self] at hk
      rw [hfree hk] at hb
      exact h.unused a.call k hb
    · rw [wins_update_ne _ _ hkk] at hk
      exact h.unused_of_wins k hk
  · intro i k hi
    rw [hu]
    exact h.unused i k (hcases hi).2
  · intro i k d hi
    obtain ⟨hk, hb'⟩ := hcases hi
    rw [hs, wins_update_ne _ _ hk]
    exact h.occupied i k d hb'
  · intro i j k b d hi hj
    exact h.alone i j k b d (hcases hi).2 (hcases hj).2

/-- **A step that has an effect keeps the account of all keys.** -/
theorem step (h : Account free register uses phase c)
    (heff : Effect free (register c.world) (register (c.step f a).world) (uses c.world)
      (uses (c.step f a).world) (phase a.call (c.pc a.call))
      (phase a.call ((c.step f a).pc a.call))) :
    Account free register uses phase (c.step f a) := by
  cases heff with
  | quiet hs hu hp => exact h.quiet hs hu hp
  | takes key record _ hwon hocc hs hu hp => exact h.takes hwon hocc hs hu hp
  | acts key hb hs hu hp => exact h.acts hb hs hu hp
  | puts key spent record hb hfree hs hu hp => exact h.puts hb hfree hs hu hp

end Account

/-- **No key is used twice in a run of calls whose steps all have an effect.** -/
theorem uses_le_one {free : R → Bool} {register : World → State K R} {uses : World → K → Nat}
    {phase : Nat → Pc → Phase K} {f : Interleave.Stepper World Pc ι}
    (heff : ∀ i e w p, Effect free (register w) (register (f i e w p).1) (uses w)
      (uses (f i e w p).1) (phase i p) (phase i (f i e w p).2))
    (s : List (Interleave.Tick ι)) {c : Interleave.Config World Pc}
    (hu : ∀ k, uses c.world k = 0) (hp : ∀ i, phase i (c.pc i) = .outside) (k : K) :
    uses (Interleave.run f c s).world k ≤ 1 := by
  have hstep : ∀ (c : Interleave.Config World Pc) (a : Interleave.Tick ι),
      Account free register uses phase c → Account free register uses phase (c.step f a) := by
    intro c a hc
    refine hc.step ?_
    rw [Interleave.Config.step_pc_self]
    exact heff a.call a.input c.world (c.pc a.call)
  exact (Interleave.run_invariant hstep (Account.initial hu hp)).once k

/-! ## Settled keys -/

section

variable {free : R → Bool} {register : World → State K R} {uses : World → K → Nat}
  {phase : Nat → Pc → Phase K} {f : Interleave.Stepper World Pc ι}
  {c : Interleave.Config World Pc} {a : Interleave.Tick ι} {k : K} {r : R}

/-- A record that is not free lies under the key, and no call holds it. -/
structure Settled (free : R → Bool) (register : World → State K R) (phase : Nat → Pc → Phase K)
    (k : K) (r : R) (c : Interleave.Config World Pc) : Prop where
  kept : register c.world k = some r
  occupied : free r = false
  unheld : ∀ i spent, phase i (c.pc i) ≠ .holding k spent

/-- No step of any call changes a settled key. -/
theorem Settled.step (h : Settled free register phase k r c)
    (heff : Effect free (register c.world) (register (c.step f a).world) (uses c.world)
      (uses (c.step f a).world) (phase a.call (c.pc a.call))
      (phase a.call ((c.step f a).pc a.call))) :
    Settled free register phase k r (c.step f a) := by
  have hothers : ∀ i spent, i ≠ a.call → phase i ((c.step f a).pc i) ≠ .holding k spent := by
    intro i spent hi
    rw [Interleave.Config.step_pc_ne f c hi]
    exact h.unheld i spent
  have hunheld (hmoved : ∀ spent, phase a.call ((c.step f a).pc a.call) ≠ .holding k spent) :
      ∀ i spent, phase i ((c.step f a).pc i) ≠ .holding k spent := by
    intro i spent
    by_cases hi : i = a.call
    · rw [hi]
      exact hmoved spent
    · exact hothers i spent hi
  cases heff with
  | quiet hs _ hp =>
    refine ⟨by rw [hs]; exact h.kept, h.occupied, hunheld fun spent hheld => ?_⟩
    obtain ⟨b, hb, -⟩ := hp.holding hheld
    exact h.unheld a.call b hb
  | takes key record _ hwon _ hs _ hp =>
    have hne : k ≠ key := by
      rintro rfl
      rw [wins, h.kept, Option.all_some, h.occupied] at hwon
      cases hwon
    refine ⟨by rw [hs, Function.update_of_ne hne]; exact h.kept, h.occupied,
      hunheld fun spent hheld => ?_⟩
    rcases hp with hp | hp
    · rw [hp] at hheld
      cases hheld
      exact hne rfl
    · rw [hp] at hheld
      cases hheld
  | acts key hb hs _ hp =>
    have hne : k ≠ key := by
      rintro rfl
      exact h.unheld a.call false hb
    refine ⟨by rw [hs]; exact h.kept, h.occupied, hunheld fun spent hheld => ?_⟩
    rcases hp with hp | hp
    · rw [hp] at hheld
      cases hheld
      exact hne rfl
    · rw [hp] at hheld
      cases hheld
  | puts key spent record hb _ hs _ hp =>
    have hne : k ≠ key := by
      rintro rfl
      exact h.unheld a.call spent hb
    refine ⟨by rw [hs, Function.update_of_ne hne]; exact h.kept, h.occupied,
      hunheld fun d hheld => ?_⟩
    rw [hp] at hheld
    cases hheld

/-- **The holder that puts back a record that is not free settles the key.** -/
theorem Account.settles (h : Account free register uses phase c) {spent : Bool}
    (hb : phase a.call (c.pc a.call) = .holding k spent) (hocc : free r = false)
    (hs : register (c.step f a).world = Function.update (register c.world) k (some r))
    (hp : phase a.call ((c.step f a).pc a.call) = .outside) :
    Settled free register phase k r (c.step f a) := by
  refine ⟨by rw [hs, Function.update_self], hocc, fun i d hheld => ?_⟩
  by_cases hi : i = a.call
  · rw [hi, hp] at hheld
    cases hheld
  · rw [Interleave.Config.step_pc_ne f c hi] at hheld
    exact hi (h.alone i a.call k d spent hheld hb)

end

end Lease
