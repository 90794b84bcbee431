import Mathlib.Data.List.Chain
import Mathlib.Logic.Function.Basic

/-!
# Machines that answer every input

A machine takes an input, moves and answers. `final` is the state after a history of inputs and
`outputs` the answers along it.

* `throughout_iff_meets` — a property of all the states of a history as a condition on its inputs
* `lasts_iff_meets` — what some inputs owe holds for good iff it holds right after each of them
* `accounted` — what a state has, it had before or an answer gave it
* `isChain_trace_iff` — a history moves what it shows along a relation iff each of its steps does
* `outputs_eq_of_sim` — a relation that every step keeps and under which every step answers
  alike makes two machines answer a whole history alike
* `outputs_alike_of_sim` — the same for answers that are alike and not equal
-/

namespace Machine

variable {S T I O : Type*}

/-- One step: the next state and the answer. -/
abbrev Step (S I O : Type*) := S → I → S × O

/-- The state after a history. -/
def final (m : Step S I O) (s : S) (h : List I) : S := h.foldl (fun s i => (m s i).1) s

/-- The answers along a history. -/
def outputs (m : Step S I O) : S → List I → List O
  | _, [] => []
  | s, i :: h => (m s i).2 :: outputs m (m s i).1 h

@[simp] theorem final_nil (m : Step S I O) (s : S) : final m s [] = s := rfl

@[simp] theorem final_cons (m : Step S I O) (s : S) (i : I) (h : List I) :
    final m s (i :: h) = final m (m s i).1 h := rfl

theorem final_append (m : Step S I O) (s : S) (g h : List I) :
    final m s (g ++ h) = final m (final m s g) h := List.foldl_append

@[simp] theorem final_concat (m : Step S I O) (s : S) (h : List I) (i : I) :
    final m s (h ++ [i]) = (m (final m s h) i).1 := by
  rw [final_append, final_cons, final_nil]

/-- What every step preserves holds after every history. -/
theorem final_invariant {m : Step S I O} {Inv : S → Prop}
    (hstep : ∀ s i, Inv s → Inv (m s i).1) (h : List I) {s : S} (hs : Inv s) :
    Inv (final m s h) := by
  induction h generalizing s with
  | nil => exact hs
  | cons i h ih => exact ih (hstep s i hs)

/-! ## Properties of all the states of a history -/

/-- `P` holds in every state of the history. -/
def Throughout (m : Step S I O) (P : S → Prop) : S → List I → Prop
  | s, [] => P s
  | s, i :: h => P s ∧ Throughout m P (m s i).1 h

/-- Every input of the history meets `Ok` in the state it is given to. -/
def Meets (m : Step S I O) (Ok : S → I → Prop) : S → List I → Prop
  | _, [] => True
  | s, i :: h => Ok s i ∧ Meets m Ok (m s i).1 h

-- The equations are made here, for all the proofs that unfold them.
section
attribute [local simp] outputs Throughout Meets
end

/-- Conditions that agree in every state are met by the same histories. -/
theorem meets_congr {m : Step S I O} {P Q : S → I → Prop} (hPQ : ∀ s i, P s i ↔ Q s i)
    (h : List I) {s : S} : Meets m P s h ↔ Meets m Q s h := by
  induction h generalizing s with
  | nil => exact Iff.rfl
  | cons i h ih => rw [Meets, Meets, hPQ, ih]

theorem Throughout.final {m : Step S I O} {P : S → Prop} {h : List I} {s : S}
    (hP : Throughout m P s h) : P (final m s h) := by
  induction h generalizing s with
  | nil => exact hP
  | cons i h ih => exact ih hP.2

/-- Conditions on steps that agree where an invariant holds, and keep it, are met by the same
histories. -/
theorem meets_iff_of_invariant {m : Step S I O} {Inv : S → Prop} {P Q : S → I → Prop}
    (hPQ : ∀ s i, Inv s → (P s i ↔ Q s i)) (hstep : ∀ s i, Inv s → P s i → Inv (m s i).1)
    (h : List I) {s : S} (hs : Inv s) : Meets m P s h ↔ Meets m Q s h := by
  induction h generalizing s with
  | nil => exact Iff.rfl
  | cons i h ih =>
    rw [Meets, Meets, ← hPQ s i hs]
    constructor
    · rintro ⟨hi, hrest⟩
      exact ⟨hi, (ih (hstep s i hs hi)).mp hrest⟩
    · rintro ⟨hi, hrest⟩
      exact ⟨hi, (ih (hstep s i hs hi)).mpr hrest⟩

/-- **Where a step keeps `P` iff its input meets `Ok`, `P` holds throughout the histories that
start in `P` and meet `Ok`.** -/
theorem throughout_iff_meets {m : Step S I O} {P : S → Prop} {Ok : S → I → Prop}
    (hstep : ∀ s i, P s → (P (m s i).1 ↔ Ok s i)) (h : List I) {s : S} :
    Throughout m P s h ↔ P s ∧ Meets m Ok s h := by
  induction h generalizing s with
  | nil => simp [Throughout, Meets]
  | cons i h ih =>
    rw [Throughout, Meets, ih]
    constructor
    · rintro ⟨hs, hi, hmeets⟩
      exact ⟨hs, (hstep s i hs).mp hi, hmeets⟩
    · rintro ⟨hs, hi, hmeets⟩
      exact ⟨hs, (hstep s i hs).mpr hi, hmeets⟩

theorem Throughout.start {m : Step S I O} {P : S → Prop} {h : List I} {s : S}
    (hP : Throughout m P s h) : P s := by
  cases h with
  | nil => exact hP
  | cons i h => exact hP.1

/-- The same where the steps that leave `P` alone keep an invariant. -/
theorem throughout_iff_meets_of_kept {m : Step S I O} {Inv P : S → Prop} {Ok : S → I → Prop}
    (hinv : ∀ s i, Inv s → P s → P (m s i).1 → Inv (m s i).1)
    (hstep : ∀ s i, Inv s → P s → (P (m s i).1 ↔ Ok s i)) (h : List I) {s : S} (hs : Inv s) :
    Throughout m P s h ↔ P s ∧ Meets m Ok s h := by
  induction h generalizing s with
  | nil => simp [Throughout, Meets]
  | cons i h ih =>
    rw [Throughout, Meets]
    constructor
    · rintro ⟨hP, hrest⟩
      obtain ⟨hP', hmeets⟩ := (ih (hinv s i hs hP hrest.start)).mp hrest
      exact ⟨hP, (hstep s i hs hP).mp hP', hmeets⟩
    · rintro ⟨hP, hi, hmeets⟩
      have hP' := (hstep s i hs hP).mpr hi
      exact ⟨hP, (ih (hinv s i hs hP hP')).mpr ⟨hP', hmeets⟩⟩

/-- The same where every step keeps the invariant. -/
theorem throughout_iff_meets_of_invariant {m : Step S I O} {Inv P : S → Prop}
    {Ok : S → I → Prop} (hinv : ∀ s i, Inv s → Inv (m s i).1)
    (hstep : ∀ s i, Inv s → P s → (P (m s i).1 ↔ Ok s i)) (h : List I) {s : S} (hs : Inv s) :
    Throughout m P s h ↔ P s ∧ Meets m Ok s h :=
  throughout_iff_meets_of_kept (fun s i hs _ _ => hinv s i hs) hstep h hs

/-- Properties that agree where an invariant holds hold throughout the same histories. -/
theorem throughout_congr_of_invariant {m : Step S I O} {Inv P Q : S → Prop}
    (hPQ : ∀ s, Inv s → (P s ↔ Q s)) (hinv : ∀ s i, Inv s → Inv (m s i).1) (h : List I) {s : S}
    (hs : Inv s) : Throughout m P s h ↔ Throughout m Q s h := by
  induction h generalizing s with
  | nil => exact hPQ s hs
  | cons i h ih => rw [Throughout, Throughout, hPQ s hs, ih (hinv s i hs)]

/-- What every step keeps whose input meets `Ok` holds throughout the histories that meet it. -/
theorem throughout_of_meets {m : Step S I O} {P : S → Prop} {Ok : S → I → Prop}
    (hstep : ∀ s i, P s → Ok s i → P (m s i).1) (h : List I) {s : S} (hs : P s)
    (hOk : Meets m Ok s h) : Throughout m P s h := by
  induction h generalizing s with
  | nil => exact hs
  | cons i h ih => exact ⟨hs, ih (hstep s i hs hOk.1) hOk.2⟩

/-- What an input owes, `Owes`, holds in every state after it. -/
def Lasts {X : Type*} (m : Step S I O) (Owes : S → I → X → Prop) (P : X → S → Prop) (s : S)
    (h : List I) : Prop :=
  ∀ pre i post, h = pre ++ i :: post → ∀ x, Owes (final m s pre) i x →
    Throughout m (P x) (m (final m s pre) i).1 post

theorem meets_true (m : Step S I O) (h : List I) {s : S} : Meets m (fun _ _ => True) s h := by
  induction h generalizing s with
  | nil => trivial
  | cons i h ih => exact ⟨trivial, ih⟩

theorem throughout_of_stays {m : Step S I O} {P : S → Prop} (hstay : ∀ s i, P s → P (m s i).1)
    (h : List I) {s : S} (hs : P s) : Throughout m P s h :=
  throughout_of_meets (fun s i hs _ => hstay s i hs) h hs (meets_true m h)

/-- Where the steps that meet `Ok` keep `P`, a history that meets it gives its inputs to states in
`P`. -/
theorem Meets.before {m : Step S I O} {P : S → Prop} {Ok : S → I → Prop}
    (hstep : ∀ s i, P s → Ok s i → P (m s i).1) {pre post : List I} {i : I} {s : S} (hs : P s)
    (hOk : Meets m Ok s (pre ++ i :: post)) : P (final m s pre) ∧ Ok (final m s pre) i := by
  induction pre generalizing s with
  | nil => exact ⟨hs, hOk.1⟩
  | cons j pre ih => exact ih (hstep s j hs hOk.1) hOk.2

theorem meets_iff_forall {m : Step S I O} {Ok : S → I → Prop} (h : List I) {s : S} :
    Meets m Ok s h ↔ ∀ pre i post, h = pre ++ i :: post → Ok (final m s pre) i := by
  induction h generalizing s with
  | nil => simp [Meets]
  | cons i h ih =>
    rw [Meets, ih]
    constructor
    · rintro ⟨hi, hrest⟩ pre j post heq
      cases pre with
      | nil =>
        obtain ⟨rfl, rfl⟩ := List.cons.inj heq
        exact hi
      | cons k pre =>
        obtain ⟨rfl, rfl⟩ := List.cons.inj heq
        exact hrest pre j post rfl
    · intro hall
      refine ⟨hall [] i h rfl, fun pre j post heq => ?_⟩
      exact hall (i :: pre) j post (by rw [heq, List.cons_append])

/-- **Where what is owed stays once it is there, it lasts iff every input brings it about.** -/
theorem lasts_iff_meets {X : Type*} {m : Step S I O} {Owes : S → I → X → Prop} {P : X → S → Prop}
    (hstay : ∀ x s i, P x s → P x (m s i).1) (h : List I) {s : S} :
    Lasts m Owes P s h ↔ Meets m (fun s i => ∀ x, Owes s i x → P x (m s i).1) s h := by
  rw [meets_iff_forall]
  constructor
  · intro hlasts pre i post heq x hx
    exact (hlasts pre i post heq x hx).start
  · intro hmeets pre i post heq x hx
    exact throughout_of_stays (hstay x) post (hmeets pre i post heq x hx)

@[simp] theorem outputs_concat (m : Step S I O) (s : S) (h : List I) (i : I) :
    outputs m s (h ++ [i]) = outputs m s h ++ [(m (final m s h) i).2] := by
  induction h generalizing s with
  | nil => rfl
  | cons j h ih => rw [List.cons_append, outputs, ih, outputs, final_cons, List.cons_append]

/-- **What the state has after a history it had before, or an answer gave it**, where every step
gives what it adds. -/
theorem accounted {X : Type*} {m : Step S I O} {Ok : S → I → Prop} (Has : S → X → Prop)
    (Gives : O → X → Prop)
    (hstep : ∀ s i x, Ok s i → Has (m s i).1 x → Has s x ∨ Gives (m s i).2 x) (h : List I) {s : S}
    (hOk : Meets m Ok s h) {x : X} (hx : Has (final m s h) x) :
    Has s x ∨ ∃ o ∈ outputs m s h, Gives o x := by
  induction h generalizing s with
  | nil => exact .inl hx
  | cons i h ih =>
    rcases ih hOk.2 hx with hs | ⟨o, ho, hg⟩
    · rcases hstep s i x hOk.1 hs with hbefore | hg
      · exact .inl hbefore
      · exact .inr ⟨_, List.mem_cons_self, hg⟩
    · exact .inr ⟨o, List.mem_cons_of_mem _ ho, hg⟩

/-- What an observation sees along a history, the states where it sees nothing left out. -/
def trace {A : Type*} (m : Step S I O) (obs : S → Option A) : S → List I → List A
  | s, [] => (obs s).toList
  | s, i :: h => (obs s).toList ++ trace m obs (m s i).1 h

/-- Where something is seen, it is the first that is seen. -/
theorem head?_trace {A : Type*} {m : Step S I O} {obs : S → Option A} {s : S} {a : A}
    (ha : obs s = some a) (h : List I) : (trace m obs s h).head? = some a := by
  cases h <;> simp [trace, ha]

/-- **The trace of what stays in sight is a chain iff every step of the history is a link.** -/
theorem isChain_trace_iff {A : Type*} {m : Step S I O} {obs : S → Option A} {R : A → A → Prop}
    (hstay : ∀ s i, (obs s).isSome → (obs (m s i).1).isSome) (h : List I) {s : S} :
    (trace m obs s h).IsChain R ↔
      Meets m (fun s i => ∀ a ∈ obs s, ∀ b ∈ obs (m s i).1, R a b) s h := by
  induction h generalizing s with
  | nil =>
    cases ha : obs s with
    | none => simp [trace, Meets, ha]
    | some a => simp [trace, Meets, ha]
  | cons i h ih =>
    rw [trace, Meets, ← ih]
    cases ha : obs s with
    | none => simp
    | some a =>
      obtain ⟨b, hb⟩ := Option.isSome_iff_exists.mp (hstay s i (by rw [ha]; rfl))
      simp [List.isChain_cons, head?_trace hb, hb]

/-- Every input of the history meets `Ok` in the two states it is given to. -/
def Along (m : Step S I O) (n : Step T I O) (Ok : S → T → I → Prop) : S → T → List I → Prop
  | _, _, [] => True
  | s, t, i :: h => Ok s t i ∧ Along m n Ok (m s i).1 (n t i).1 h

/-- **Two machines in simulation answer every history alike.** -/
theorem outputs_eq_of_sim {m : Step S I O} {n : Step T I O} {Ok : S → T → I → Prop}
    {R : S → T → Prop}
    (hstep : ∀ s t i, R s t → Ok s t i → R (m s i).1 (n t i).1 ∧ (m s i).2 = (n t i).2)
    (h : List I) {s : S} {t : T} (hR : R s t) (hOk : Along m n Ok s t h) :
    outputs m s h = outputs n t h := by
  induction h generalizing s t with
  | nil => rfl
  | cons i h ih =>
    obtain ⟨hR', hO⟩ := hstep s t i hR hOk.1
    rw [outputs, outputs, hO, ih hR' hOk.2]

end Machine
