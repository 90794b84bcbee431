import Mathlib.Logic.Function.Iterate
import Mathlib.Logic.Relation

/-!
# Interleaved calls over one shared world

A call is a sequence of atomic steps. What a call still has to do is its program counter
`Pc`; a step reads and writes the shared `World` and moves the counter. A schedule names, step
by step, which call moves and what its environment hands it (`ι`: the time, the answers of
outside services, a fault). Every interleaving of every number of calls is a schedule.

* `run_invariant` — what every step preserves holds after every run
* `run_invariant_of_meets` — the same when only the steps that meet a condition preserve it
* `Each.step` — the assertions of all calls hold after a step when those of the others are stable
-/

namespace Interleave

variable {World Pc ι : Type*}

/-- One atomic step of call `i` under the input `e`. -/
abbrev Stepper (World Pc ι : Type*) := Nat → ι → World → Pc → World × Pc

/-- The shared world and what every call still has to do. -/
structure Config (World Pc : Type*) where
  world : World
  pc : Nat → Pc

/-- One scheduled step: the call that moves and the input it moves under. -/
structure Tick (ι : Type*) where
  call : Nat
  input : ι

namespace Config

/-- The configuration after one scheduled step. -/
def step (f : Stepper World Pc ι) (c : Config World Pc) (a : Tick ι) : Config World Pc where
  world := (f a.call a.input c.world (c.pc a.call)).1
  pc := Function.update c.pc a.call (f a.call a.input c.world (c.pc a.call)).2

@[simp] theorem step_world (f : Stepper World Pc ι) (c : Config World Pc) (a : Tick ι) :
    (c.step f a).world = (f a.call a.input c.world (c.pc a.call)).1 := rfl

@[simp] theorem step_pc_self (f : Stepper World Pc ι) (c : Config World Pc) (a : Tick ι) :
    (c.step f a).pc a.call = (f a.call a.input c.world (c.pc a.call)).2 := by
  simp [step]

/-- A step moves no other call. -/
theorem step_pc_ne (f : Stepper World Pc ι) (c : Config World Pc) {a : Tick ι} {j : Nat}
    (h : j ≠ a.call) : (c.step f a).pc j = c.pc j := by
  simp [step, h]

end Config

/-- The configuration after a schedule. -/
def run (f : Stepper World Pc ι) (c : Config World Pc) (s : List (Tick ι)) : Config World Pc :=
  s.foldl (Config.step f) c

@[simp] theorem run_nil (f : Stepper World Pc ι) (c : Config World Pc) : run f c [] = c := rfl

@[simp] theorem run_cons (f : Stepper World Pc ι) (c : Config World Pc) (a : Tick ι)
    (s : List (Tick ι)) : run f c (a :: s) = run f (c.step f a) s := rfl

theorem run_append (f : Stepper World Pc ι) (c : Config World Pc) (s t : List (Tick ι)) :
    run f c (s ++ t) = run f (run f c s) t := List.foldl_append

theorem run_concat (f : Stepper World Pc ι) (c : Config World Pc) (s : List (Tick ι))
    (a : Tick ι) : run f c (s ++ [a]) = (run f c s).step f a := by
  rw [run_append, run_cons, run_nil]

/-- A call that is not scheduled does not move. -/
theorem run_pc_of_not_mem (f : Stepper World Pc ι) {s : List (Tick ι)} {j : Nat} :
    ∀ {c : Config World Pc}, (∀ a ∈ s, a.call ≠ j) → (run f c s).pc j = c.pc j := by
  induction s with
  | nil => intro c _; rfl
  | cons a s ih =>
    intro c h
    rw [run_cons, ih fun b hb => h b (List.mem_cons_of_mem a hb)]
    exact Config.step_pc_ne f c (Ne.symm (h a List.mem_cons_self))

/-- While only call `i` moves, it moves as if it were alone. -/
theorem run_replicate (f : Stepper World Pc ι) (i : Nat) (e : ι) (n : Nat) :
    ∀ c : Config World Pc,
      ((run f c (List.replicate n ⟨i, e⟩)).world, (run f c (List.replicate n ⟨i, e⟩)).pc i) =
        (fun x : World × Pc => f i e x.1 x.2)^[n] (c.world, c.pc i) := by
  induction n with
  | zero => intro c; rfl
  | succ n ih =>
    intro c
    rw [List.replicate_succ, run_cons, ih, Function.iterate_succ_apply, Config.step_pc_self]
    rfl

/-- While only call `i` moves, whatever it is handed, the other counters stay. -/
theorem run_alone (f : Stepper World Pc ι) (i : Nat) (es : List ι) : ∀ c : Config World Pc,
    run f c (es.map (⟨i, ·⟩)) =
      ⟨(es.foldl (fun x e => f i e x.1 x.2) (c.world, c.pc i)).1,
        Function.update c.pc i (es.foldl (fun x e => f i e x.1 x.2) (c.world, c.pc i)).2⟩ := by
  induction es with
  | nil => intro c; simp
  | cons e es ih =>
    intro c
    rw [List.map_cons, run_cons, ih, Config.step_pc_self]
    simp only [Config.step, Function.update_idem, List.foldl_cons]

/-! ## Conditions on the steps of a run -/

/-- Every step of the run meets `Ok`, in the configuration it is taken in. -/
def Meets (f : Stepper World Pc ι) (Ok : Config World Pc → Tick ι → Prop) :
    Config World Pc → List (Tick ι) → Prop
  | _, [] => True
  | c, a :: s => Ok c a ∧ Meets f Ok (c.step f a) s

instance decidableMeets (f : Stepper World Pc ι) (Ok : Config World Pc → Tick ι → Prop)
    [∀ c a, Decidable (Ok c a)] : ∀ (s : List (Tick ι)) (c : Config World Pc),
    Decidable (Meets f Ok c s)
  | [], _ => isTrue trivial
  | a :: s, c =>
    have := decidableMeets f Ok s (c.step f a)
    inferInstanceAs (Decidable (Ok c a ∧ Meets f Ok (c.step f a) s))

theorem meets_append {f : Stepper World Pc ι} {Ok : Config World Pc → Tick ι → Prop}
    {s t : List (Tick ι)} : ∀ {c : Config World Pc},
    Meets f Ok c (s ++ t) ↔ Meets f Ok c s ∧ Meets f Ok (run f c s) t := by
  induction s with
  | nil => intro c; simp [Meets]
  | cons a s ih => intro c; simp only [List.cons_append, Meets, run_cons, ih, and_assoc]

theorem Meets.mono {f : Stepper World Pc ι} {P Q : Config World Pc → Tick ι → Prop}
    {c : Config World Pc} {s : List (Tick ι)} (h : Meets f P c s) (hPQ : ∀ c a, P c a → Q c a) :
    Meets f Q c s := by
  induction s generalizing c with
  | nil => trivial
  | cons a s ih => exact ⟨hPQ c a h.1, ih h.2⟩

/-- In a run of one call alone, a condition may use that the others have not moved. -/
theorem Meets.of_alone {f : Stepper World Pc ι} (P : Config World Pc → Tick ι → Prop)
    {Q : Config World Pc → Tick ι → Prop} (i : Nat) (pc : Nat → Pc)
    (hPQ : ∀ c a, a.call = i → (∀ j, j ≠ i → c.pc j = pc j) → P c a → Q c a)
    {s : List (Tick ι)} (hs : ∀ a ∈ s, a.call = i) : ∀ {c : Config World Pc},
    (∀ j, j ≠ i → c.pc j = pc j) → Meets f P c s → Meets f Q c s := by
  induction s with
  | nil => intro c _ _; trivial
  | cons a s ih =>
    intro c hc hm
    have ha := hs a List.mem_cons_self
    refine ⟨hPQ c a ha hc hm.1, ih (fun b hb => hs b (List.mem_cons_of_mem a hb)) ?_ hm.2⟩
    intro j hj
    rw [Config.step_pc_ne f c (by rw [ha]; exact hj)]
    exact hc j hj

/-! ## Invariants -/

/-- Where an invariant holds, two conditions that agree under it are met by the same runs. -/
theorem meets_iff_of_invariant {f : Stepper World Pc ι} {P Q : Config World Pc → Tick ι → Prop}
    {Inv : Config World Pc → Prop} (hiff : ∀ c a, Inv c → (P c a ↔ Q c a))
    (hstep : ∀ c a, Inv c → Q c a → Inv (c.step f a)) {s : List (Tick ι)} :
    ∀ {c : Config World Pc}, Inv c → (Meets f P c s ↔ Meets f Q c s) := by
  induction s with
  | nil => intro c _; exact Iff.rfl
  | cons a s ih =>
    intro c hc
    constructor
    · rintro ⟨hp, hs⟩
      have hq := (hiff c a hc).mp hp
      exact ⟨hq, (ih (hstep c a hc hq)).mp hs⟩
    · rintro ⟨hq, hs⟩
      exact ⟨(hiff c a hc).mpr hq, (ih (hstep c a hc hq)).mpr hs⟩

/-- Under an invariant of the steps that meet a condition, what the condition implies is met. -/
theorem Meets.of_invariant {f : Stepper World Pc ι} {P Q : Config World Pc → Tick ι → Prop}
    {Inv : Config World Pc → Prop} (hPQ : ∀ c a, Inv c → P c a → Q c a)
    (hstep : ∀ c a, Inv c → P c a → Inv (c.step f a)) {s : List (Tick ι)} :
    ∀ {c : Config World Pc}, Inv c → Meets f P c s → Meets f Q c s := by
  induction s with
  | nil => intro c _ _; trivial
  | cons a s ih =>
    intro c hc hm
    exact ⟨hPQ c a hc hm.1, ih (hstep c a hc hm.1) hm.2⟩

/-- **An invariant of the steps that meet a condition holds after a run that meets it.** -/
theorem run_invariant_of_meets {f : Stepper World Pc ι} {Ok : Config World Pc → Tick ι → Prop}
    {Inv : Config World Pc → Prop}
    (hstep : ∀ c a, Inv c → Ok c a → Inv (c.step f a)) {s : List (Tick ι)} :
    ∀ {c : Config World Pc}, Inv c → Meets f Ok c s → Inv (run f c s) := by
  induction s with
  | nil => intro c hc _; exact hc
  | cons a s ih => intro c hc hm; exact ih (hstep c a hc hm.1) hm.2

/-- **What every step preserves holds after every run.** -/
theorem run_invariant {f : Stepper World Pc ι} {Inv : Config World Pc → Prop}
    (hstep : ∀ c a, Inv c → Inv (c.step f a)) {s : List (Tick ι)} :
    ∀ {c : Config World Pc}, Inv c → Inv (run f c s) := by
  induction s with
  | nil => intro c hc; exact hc
  | cons a s ih => intro c hc; exact ih (hstep c a hc)

/-! ## Rely and guarantee -/

/-- Every call satisfies its assertion in this configuration. -/
def Each (P : Nat → World → Pc → Prop) (c : Config World Pc) : Prop := ∀ i, P i c.world (c.pc i)

/-- The assertions of all calls hold after a step when it establishes the one of the call that
moves and those of the others follow from what held before. -/
theorem Each.step {f : Stepper World Pc ι} {P Q : Nat → World → Pc → Prop} {c : Config World Pc}
    {a : Tick ι} (h : Each P c)
    (hmoved : Q a.call (c.step f a).world (f a.call a.input c.world (c.pc a.call)).2)
    (hothers : ∀ i p, i ≠ a.call → P i c.world p → Q i (c.step f a).world p) :
    Each Q (c.step f a) := by
  intro i
  by_cases hi : i = a.call
  · subst hi
    rw [Config.step_pc_self]
    exact hmoved
  · rw [Config.step_pc_ne f c hi]
    exact hothers i _ hi (h i)

end Interleave
