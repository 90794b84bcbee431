import VegaRevenue.Lib.Programs

/-!
# Database sessions with a setting

A session has a setting that a statement may change and that survives until it is changed. A
transaction block that is rolled back restores the value from before it. A statement that fails
has no effect, and inside a block it aborts the block: up to its end the session refuses every
other statement.

* `ensures_accepted`, `ensures_refused` — the rules of a statement over a known session
-/

namespace Sessions

open Programs

variable {V A : Type}

inductive Block (V : Type) where
  | idle
  /-- With the setting from before the block. -/
  | begun (before : V)
  | aborted
deriving DecidableEq

structure Session (V : Type) where
  setting : V
  block : Block V
deriving DecidableEq

inductive Statement (V : Type) where
  | start
  | change (v : V)
  /-- A statement that reads or writes rows. -/
  | rows
  | commit
  | rollback

/-- Whether the statement is carried out. -/
def Session.accepts (s : Session V) (statement : Statement V) (fails : Bool) : Bool :=
  match s.block, statement with
  | .aborted, .start => false
  | .aborted, .change _ => false
  | .aborted, .rows => false
  | _, _ => !fails

def Session.next (s : Session V) (statement : Statement V) (fails : Bool) : Session V :=
  match s.block with
  | .idle =>
    if fails then s
    else
      match statement with
      | .start => { s with block := .begun s.setting }
      | .change v => { s with setting := v }
      | _ => s
  | .begun before =>
    if fails then
      match statement with
      -- a commit that fails ends the block
      | .commit => { setting := before, block := .idle }
      | _ => { setting := before, block := .aborted }
    else
      match statement with
      | .change v => { s with setting := v }
      | .commit => { s with block := .idle }
      | .rollback => { setting := before, block := .idle }
      | _ => s
  | .aborted =>
    if fails then s
    else
      match statement with
      | .commit => { s with block := .idle }
      | .rollback => { s with block := .idle }
      | _ => s

/-! ## Connections -/

/-- A session that is borrowed, and the settings that its statements on rows ran with. -/
structure Connection (V : Type) where
  session : Session V
  ran : List V

def Connection.next (c : Connection V) (statement : Statement V) (fails : Bool) : Connection V where
  session := c.session.next statement fails
  ran :=
    match statement, c.session.block with
    | .rows, .aborted => c.ran
    | .rows, _ => c.ran ++ [c.session.setting]
    | _, _ => c.ran

/-- What is done over a connection throws where a statement is not carried out. -/
abbrev ConnProg (V A : Type) := Prog (Connection V) Unit A

def issue (statement : Statement V) (fails : Bool) : ConnProg V Unit := do
  let c ← get
  set (c.next statement fails)
  if c.session.accepts statement fails then pure ()
  else throw ()

/-- A statement whose failure is swallowed. -/
def attempt (statement : Statement V) (fails : Bool) : ConnProg V Unit :=
  tryCatch (issue statement fails) fun _ => pure ()

variable {P : Connection V → Prop} {Q : Unit → Connection V → Prop}
  {R : Unit → Connection V → Prop} {statement : Statement V} {fails : Bool}

theorem ensures_issue
    (hdone : ∀ c, P c → c.session.accepts statement fails = true → Q () (c.next statement fails))
    (hnot : ∀ c, P c → c.session.accepts statement fails = false → R () (c.next statement fails)) :
    Ensures P (issue statement fails) Q R := by
  refine ensures_get_bind fun c hc => ensures_bind (Q := fun _ s => s = c.next statement fails) ?_
    fun _ => ?_
  · exact ensures_set fun _ _ => rfl
  · refine ensures_ite (fun haccepts => ensures_pure ?_) (fun haccepts => ensures_throw ?_)
    · rintro s rfl
      exact hdone c hc haccepts
    · rintro s rfl
      exact hnot c hc (eq_false_of_ne_true haccepts)

theorem ensures_attempt (h : ∀ c, P c → Q () (c.next statement fails)) :
    Ensures P (attempt statement fails) Q R := by
  have hissued : Ensures P (issue statement fails) Q Q := by
    refine ensures_issue ?_ ?_
    · exact fun c hc _ => h c hc
    · exact fun c hc _ => h c hc
  exact ensures_tryCatch hissued fun _ => ensures_pure fun _ hc => hc

/-! ## Over a known session -/

variable {s : Session V} {v : V}

/-- The session is in this state, and what ran on it ran with `v`. -/
def Over (v : V) (s : Session V) (c : Connection V) : Prop :=
  c.session = s ∧ ∀ setting ∈ c.ran, setting = v

/-- Statements on rows run with `v`, or not at all. -/
def Session.RunsWith (s : Session V) (v : V) : Prop := s.block = .aborted ∨ s.setting = v

theorem Over.next {c : Connection V} (hc : Over v s c) (statement : Statement V) (fails : Bool)
    (hs : statement = .rows → s.RunsWith v) :
    Over v (s.next statement fails) (c.next statement fails) := by
  obtain ⟨rfl, hran⟩ := hc
  refine ⟨rfl, fun setting hsetting => ?_⟩
  unfold Connection.next at hsetting
  split at hsetting
  · exact hran setting hsetting
  next hblock =>
    rcases List.mem_append.mp hsetting with hold | hnew
    · exact hran setting hold
    · rw [List.mem_singleton.mp hnew]
      exact (hs rfl).resolve_left hblock
  · exact hran setting hsetting

/-- A statement that the known session carries out. -/
theorem ensures_accepted (haccepts : s.accepts statement fails = true)
    (hs : statement = .rows → s.RunsWith v)
    (hQ : ∀ c, Over v (s.next statement fails) c → Q () c) :
    Ensures (Over v s) (issue statement fails) Q R := by
  refine ensures_issue (fun c hc _ => hQ _ (hc.next statement fails hs)) fun c hc hrefuses => ?_
  rw [hc.1, haccepts] at hrefuses
  cases hrefuses

/-- A statement that the known session does not carry out. -/
theorem ensures_refused (hrefuses : s.accepts statement fails = false)
    (hs : statement = .rows → s.RunsWith v)
    (hR : ∀ c, Over v (s.next statement fails) c → R () c) :
    Ensures (Over v s) (issue statement fails) Q R := by
  refine ensures_issue (fun c hc haccepts => ?_) fun c hc _ => hR _ (hc.next statement fails hs)
  rw [hc.1, hrefuses] at haccepts
  cases haccepts

/-- A statement over the known session whose failure is swallowed. -/
theorem ensures_attempt_over (hs : statement = .rows → s.RunsWith v)
    (hQ : ∀ c, Over v (s.next statement fails) c → Q () c) :
    Ensures (Over v s) (attempt statement fails) Q R :=
  ensures_attempt fun _ hc => hQ _ (hc.next statement fails hs)

end Sessions
