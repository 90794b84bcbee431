import Mathlib.Logic.Basic

/-!
# Programs that move a state and may end early

A program returns a value or ends with an exit; the state it moved stays moved in both cases.
`Ensures P m Q R` says that a program started in `P` returns in `Q` or exits in `R`.

* `exec_bind` — a sequence goes on where its first part returns
* `ensures_bind` — the rule of sequencing
* `Moves.bind` — a program moves the state along a preorder where its parts do
-/

namespace Programs

variable {S X A B : Type}

abbrev Prog (S X A : Type) := ExceptT X (StateM S) A

/-- How a program ends, and the state it leaves. -/
def exec (m : Prog S X A) (s : S) : Except X A × S := m.run.run s

@[simp] theorem exec_pure (a : A) (s : S) : exec (pure a : Prog S X A) s = (.ok a, s) := rfl

@[simp] theorem exec_throw (x : X) (s : S) : exec (throw x : Prog S X A) s = (.error x, s) := rfl

@[simp] theorem exec_modify (f : S → S) (s : S) :
    exec (modify f : Prog S X Unit) s = (.ok (), f s) := rfl

@[simp] theorem exec_set (s s' : S) : exec (set s' : Prog S X PUnit) s = (.ok ⟨⟩, s') := rfl

@[simp] theorem exec_get (s : S) : exec (get : Prog S X S) s = (.ok s, s) := rfl

theorem exec_bind (m : Prog S X A) (f : A → Prog S X B) (s : S) :
    exec (m >>= f) s =
      match exec m s with
      | (.ok a, s') => exec (f a) s'
      | (.error x, s') => (.error x, s') := by
  unfold exec ExceptT.run StateT.run
  simp only [bind, ExceptT.bind, ExceptT.mk, StateT.bind, ExceptT.bindCont]
  cases m s with
  | mk result next => cases result <;> rfl

theorem exec_bind_error {m : Prog S X A} {f : A → Prog S X B} {s s' : S} {x : X}
    (h : exec m s = (.error x, s')) : exec (m >>= f) s = (.error x, s') := by
  rw [exec_bind, h]

theorem exec_tryCatch (m : Prog S X A) (handler : X → Prog S X A) (s : S) :
    exec (tryCatch m handler) s =
      match exec m s with
      | (.ok a, s') => (.ok a, s')
      | (.error x, s') => exec (handler x) s' := by
  unfold exec ExceptT.run StateT.run
  simp only [tryCatch, tryCatchThe, MonadExceptOf.tryCatch, ExceptT.tryCatch, ExceptT.mk, bind,
    StateT.bind]
  cases m s with
  | mk result next => cases result <;> rfl

/-- `try … finally`. -/
def finallyDo (m : Prog S X A) (last : Prog S X Unit) : Prog S X A := do
  let a ← tryCatch m fun x => do
    last
    throw x
  last
  pure a

/-! ## Operations that fail -/

/-- How an operation fails: in place of its effect, or after it. -/
inductive Fault where
  | none
  | before
  | after
deriving DecidableEq

/-- The operation with its failure, which ends the program in `x`. -/
def failing (x : X) (fault : Fault) (m : Prog S X A) : Prog S X A :=
  match fault with
  | .none => m
  | .before => throw x
  | .after => do
    let _ ← m
    throw x

theorem exec_failing (x : X) (fault : Fault) (m : Prog S X A) (s : S) :
    exec (failing x fault m) s =
      match fault with
      | .none => exec m s
      | .before => (.error x, s)
      | .after =>
        match exec m s with
        | (.ok _, s') => (.error x, s')
        | (.error y, s') => (.error y, s') := by
  cases fault with
  | none => rfl
  | before => rfl
  | after => rw [failing, exec_bind]; rfl

/-! ## What a program ensures -/

/-- From `P`, the program returns in `Q` or exits in `R`. -/
def Ensures (P : S → Prop) (m : Prog S X A) (Q : A → S → Prop) (R : X → S → Prop) : Prop :=
  ∀ s, P s →
    match exec m s with
    | (.ok a, s') => Q a s'
    | (.error x, s') => R x s'

variable {P P' : S → Prop} {Q Q' : A → S → Prop} {R : X → S → Prop}

theorem ensures_pure {a : A} (h : ∀ s, P s → Q a s) : Ensures P (pure a : Prog S X A) Q R := h

theorem ensures_throw {x : X} (h : ∀ s, P s → R x s) : Ensures P (throw x : Prog S X A) Q R := h

theorem ensures_modify {f : S → S} {Q : Unit → S → Prop} (h : ∀ s, P s → Q () (f s)) :
    Ensures P (modify f : Prog S X Unit) Q R := h

theorem ensures_set {s' : S} {Q : PUnit → S → Prop} (h : ∀ s, P s → Q ⟨⟩ s') :
    Ensures P (set s' : Prog S X PUnit) Q R := h

theorem ensures_get {Q : S → S → Prop} (h : ∀ s, P s → Q s s) :
    Ensures P (get : Prog S X S) Q R := h

/-- **What the first part returns in, the second part starts in; both may exit.** -/
theorem ensures_bind {m : Prog S X A} {f : A → Prog S X B} {Q' : B → S → Prop}
    (hm : Ensures P m Q R) (hf : ∀ a, Ensures (Q a) (f a) Q' R) : Ensures P (m >>= f) Q' R := by
  intro s hs
  have hfirst := hm s hs
  rw [exec_bind]
  generalize exec m s = r at hfirst ⊢
  obtain ⟨result, s'⟩ := r
  cases result with
  | ok a => exact hf a s' hfirst
  | error x => exact hfirst

/-- What the program exits in, the handler starts in. -/
theorem ensures_tryCatch {m : Prog S X A} {handler : X → Prog S X A} {R' : X → S → Prop}
    (hm : Ensures P m Q R') (hhandler : ∀ x, Ensures (R' x) (handler x) Q R) :
    Ensures P (tryCatch m handler) Q R := by
  intro s hs
  have hfirst := hm s hs
  rw [exec_tryCatch]
  generalize exec m s = r at hfirst ⊢
  obtain ⟨result, s'⟩ := r
  cases result with
  | ok a => exact hfirst
  | error x => exact hhandler x s' hfirst

/-- What is done last is done however the program ends. -/
theorem ensures_finallyDo {m : Prog S X A} {last : Prog S X Unit} {R' : X → S → Prop}
    (hm : Ensures P m Q R)
    (hreturn : ∀ a, Ensures (Q a) last (fun _ => Q' a) R')
    (hexit : ∀ x, Ensures (R x) last (fun _ => R' x) R') :
    Ensures P (finallyDo m last) Q' R' := by
  refine ensures_bind (ensures_tryCatch hm fun x => ?_) fun a => ?_
  · exact ensures_bind (hexit x) fun _ => ensures_throw fun _ h => h
  · exact ensures_bind (hreturn a) fun _ => ensures_pure fun _ h => h

/-- A program that starts with a look at the state goes on from the state it saw. -/
theorem ensures_get_bind {f : S → Prog S X B} {Q : B → S → Prop}
    (hf : ∀ s, P s → Ensures (· = s) (f s) Q R) : Ensures P (get >>= f) Q R := by
  intro s hs
  rw [exec_bind, exec_get]
  exact hf s hs s rfl

theorem ensures_ite {c : Prop} [Decidable c] {m n : Prog S X A} (hm : c → Ensures P m Q R)
    (hn : ¬c → Ensures P n Q R) : Ensures P (if c then m else n) Q R := by
  by_cases h : c
  · rw [if_pos h]
    exact hm h
  · rw [if_neg h]
    exact hn h

theorem Ensures.mono {m : Prog S X A} (h : Ensures P m Q R) (hP : ∀ s, P' s → P s)
    (hQ : ∀ a s, Q a s → Q' a s) : Ensures P' m Q' R := by
  intro s hs
  have hend := h s (hP s hs)
  generalize exec m s = r at hend ⊢
  obtain ⟨result, s'⟩ := r
  cases result with
  | ok a => exact hQ a s' hend
  | error x => exact hend

theorem Ensures.exit {m : Prog S X A} {R' : X → S → Prop} (h : Ensures P m Q R)
    (hR : ∀ x s, R x s → R' x s) : Ensures P m Q R' := by
  intro s hs
  have hend := h s hs
  generalize exec m s = r at hend ⊢
  obtain ⟨result, s'⟩ := r
  cases result with
  | ok a => exact hend
  | error x => exact hR x s' hend

theorem ensures_or {m : Prog S X A} (h : Ensures P m Q R) (h' : Ensures P' m Q R) :
    Ensures (fun s => P s ∨ P' s) m Q R := by
  rintro s (hs | hs)
  · exact h s hs
  · exact h' s hs

/-- The state that a program leaves, however it ends. -/
theorem Ensures.final {m : Prog S X A} {s : S} {T : S → Prop}
    (h : Ensures P m (fun _ => T) fun _ => T) (hs : P s) : T (exec m s).2 := by
  have hend := h s hs
  generalize exec m s = r at hend ⊢
  obtain ⟨result, s'⟩ := r
  cases result with
  | ok a => exact hend
  | error x => exact hend

/-- A precondition that does not speak of the state. -/
theorem ensures_of_pure {p : Prop} {m : Prog S X A} (h : p → Ensures P m Q R) :
    Ensures (fun s => p ∧ P s) m Q R := fun s hs => h hs.1 s hs.2

/-! ## How a program moves the state -/

/-- However the program ends, the state it leaves is related to the one it started in. -/
def Moves (R : S → S → Prop) (m : Prog S X A) : Prop := ∀ s, R s (exec m s).2

section

variable {r : S → S → Prop}

theorem moves_pure (hrefl : ∀ s, r s s) (a : A) : Moves r (pure a : Prog S X A) := hrefl

theorem moves_throw (hrefl : ∀ s, r s s) (x : X) : Moves r (throw x : Prog S X A) := hrefl

theorem Moves.bind (htrans : ∀ s t u, r s t → r t u → r s u) {m : Prog S X A} {f : A → Prog S X B}
    (hm : Moves r m) (hf : ∀ a, Moves r (f a)) : Moves r (m >>= f) := by
  intro s
  have hfirst := hm s
  rw [exec_bind]
  generalize exec m s = e at hfirst ⊢
  obtain ⟨result, s'⟩ := e
  cases result with
  | ok a => exact htrans s s' _ hfirst (hf a s')
  | error x => exact hfirst

theorem Moves.tryCatch (htrans : ∀ s t u, r s t → r t u → r s u) {m : Prog S X A}
    {handler : X → Prog S X A} (hm : Moves r m) (hhandler : ∀ x, Moves r (handler x)) :
    Moves r (tryCatch m handler) := by
  intro s
  have hfirst := hm s
  rw [exec_tryCatch]
  generalize exec m s = e at hfirst ⊢
  obtain ⟨result, s'⟩ := e
  cases result with
  | ok a => exact hfirst
  | error x => exact htrans s s' _ hfirst (hhandler x s')

theorem Moves.failing (htrans : ∀ s t u, r s t → r t u → r s u) (hrefl : ∀ s, r s s) (x : X)
    (fault : Fault) {m : Prog S X A} (hm : Moves r m) : Moves r (failing x fault m) := by
  cases fault with
  | none => exact hm
  | before => exact moves_throw hrefl x
  | after => exact hm.bind htrans fun _ => moves_throw hrefl x

/-- A program that starts with a look at the state. -/
theorem moves_get_bind {f : S → Prog S X A} (hf : ∀ s, r s (exec (f s) s).2) :
    Moves r (get >>= f) := by
  intro s
  rw [exec_bind, exec_get]
  exact hf s

/-- A program keeps what the states it moves along keep. -/
theorem Moves.ensures {m : Prog S X A} (hm : Moves r m) (hP : ∀ s t, r s t → P s → P t)
    (hR : ∀ x s, P s → R x s) : Ensures P m (fun _ => P) R := by
  intro s hs
  have hnext := hP s _ (hm s) hs
  generalize exec m s = e at hnext ⊢
  obtain ⟨result, s'⟩ := e
  cases result with
  | ok a => exact hnext
  | error x => exact hR x s' hnext

end

end Programs
