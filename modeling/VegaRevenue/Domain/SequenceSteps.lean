import VegaRevenue.Domain.FailedOperations
import VegaRevenue.Lib.Machine

/-!
# A sequence goes through its steps

The life of a sequence is operations on its copy in memory, saves of the copy and restores of the
row. The events of a copy that was restored over are gone with it.

* `Op.perform_cases` — an operation stays at its step, or completes it
* `steps_iff` — a sequence goes through its steps in every life iff it is created at the first one
* `not_steps` — a sequence created at its second step completes without the first
-/

namespace VegaRevenue.Sequence

open Versioned

/-! ## Events in the order of the steps -/

/-- The step an event is about. -/
def Event.stepNumber : Event → Option Nat
  | stepStarted _ _ stepNumber _ => some stepNumber
  | stepCompleted _ _ stepNumber _ _ _ => some stepNumber
  | stepFailed _ _ stepNumber _ _ _ => some stepNumber
  | _ => none

def Event.completes : Event → Bool
  | stepCompleted .. => true
  | _ => false

/-- How many steps the events complete. -/
def completions (log : List Event) : Nat := log.countP Event.completes

/-- Every event about a step is about the one after those completed before it; `i` steps were
completed before the log. -/
def InOrder (steps : List SequenceStep) : Nat → List Event → Prop
  | _, [] => True
  | i, e :: log =>
    (∀ n, e.stepNumber = some n → steps[i]?.map SequenceStep.stepNumber = some n) ∧
      InOrder steps (if e.completes then i + 1 else i) log

@[simp] theorem completions_append (l m : List Event) :
    completions (l ++ m) = completions l + completions m := List.countP_append

theorem inOrder_append {steps : List SequenceStep} {i : Nat} {l m : List Event} :
    InOrder steps i (l ++ m) ↔ InOrder steps i l ∧ InOrder steps (i + completions l) m := by
  induction l generalizing i with
  | nil => simp [InOrder, completions]
  | cons e l ih =>
    have hcount : completions (e :: l) = completions l + if e.completes then 1 else 0 :=
      List.countP_cons
    rw [List.cons_append, InOrder, InOrder, ih, and_assoc, hcount]
    split
    · rw [show i + 1 + completions l = i + (completions l + 1) by omega]
    · rfl

/-- The event completes nothing, and is about no step or about that one. -/
def Event.At (step : Option SequenceStep) (e : Event) : Prop :=
  e.completes = false ∧ ∀ n, e.stepNumber = some n → step.map SequenceStep.stepNumber = some n

theorem at_nil (step : Option SequenceStep) : ∀ e ∈ ([] : List Event), e.At step :=
  fun _ he => absurd he List.not_mem_nil

theorem completions_of_at {step : Option SequenceStep} {l : List Event} (h : ∀ e ∈ l, e.At step) :
    completions l = 0 :=
  List.countP_eq_zero.mpr fun e he => by simp [(h e he).1]

theorem inOrder_of_at {steps : List SequenceStep} {i : Nat} {l : List Event}
    (h : ∀ e ∈ l, e.At steps[i]?) : InOrder steps i l := by
  induction l with
  | nil => trivial
  | cons e l ih =>
    obtain ⟨hc, hn⟩ := h e List.mem_cons_self
    rw [InOrder, hc]
    exact ⟨hn, ih fun e he => h e (List.mem_cons_of_mem _ he)⟩

theorem statusChanged_at (step : Option SequenceStep) (sequenceId campaignId : String)
    (source target : Status) (reason decidedBy : Option String) :
    (Event.statusChanged sequenceId campaignId source target reason decidedBy).At step :=
  ⟨rfl, nofun⟩

/-! ## What an operation does -/

/-- COMPLETED, CANCELLED and FAILED. -/
def Status.terminal (s : Status) : Bool := s.transitions.isEmpty

/-- `b` is `a` after an operation that stays at the step. -/
structure Stays (a b : Sequence) : Prop where
  steps : b.state.steps = a.state.steps
  index : b.state.currentStepIndex = a.state.currentStepIndex
  status : b.state.status = a.state.status ∨
    a.state.status.terminal = false ∧ b.state.status ≠ .completed ∧ a.state.status ≠ .completed
  events : ∃ es, b.domainEvents = a.domainEvents ++ es ∧
    ∀ e ∈ es, e.At a.state.steps[a.state.currentStepIndex]?

theorem Stays.refl (a : Sequence) : Stays a a :=
  ⟨rfl, rfl, .inl rfl, [], (List.append_nil _).symm, at_nil _⟩

/-- `b` is `a` after an operation that completes the step. -/
structure Completes (a b : Sequence) : Prop where
  running : a.state.status = .running
  lt : a.state.currentStepIndex < a.state.steps.length
  steps : b.state.steps = a.state.steps
  index : b.state.currentStepIndex = a.state.currentStepIndex + 1
  status : b.state.status = if a.state.currentStepIndex + 1 < a.state.steps.length then .running
    else .completed
  events : ∃ e es, b.domainEvents = a.domainEvents ++ e :: es ∧ e.completes = true ∧
    e.stepNumber = a.state.steps[a.state.currentStepIndex]?.map SequenceStep.stepNumber ∧
      ∀ e ∈ es, e.At none

theorem terminal_of_can {s t : Status} (h : canTransition s t = true) :
    s.terminal = false ∧ s ≠ .completed := by
  have hmem : t ∈ s.transitions := of_decide_eq_true h
  constructor
  · exact List.isEmpty_eq_false_iff.mpr (List.ne_nil_of_mem hmem)
  · rintro rfl
    cases hmem

/-- A transition to another status than COMPLETED, after a write that leaves the step. -/
theorem write_transition_stays (a : Sequence) {s : Props} (hsteps : s.steps = a.state.steps)
    (hindex : s.currentStepIndex = a.state.currentStepIndex) (hstatus : s.status = a.state.status)
    {target : Status} (ht : target ≠ .completed) (reason decidedBy : Option String) (now : Date) :
    Stays a (transition (a.write s) target reason decidedBy now).1 := by
  unfold transition
  rw [Aggregate.write_state, hstatus]
  cases hc : canTransition a.state.status target with
  | true =>
    refine ⟨hsteps, hindex, .inr ⟨(terminal_of_can hc).1, ht, (terminal_of_can hc).2⟩, [_], rfl, ?_⟩
    intro e he
    obtain rfl := List.mem_singleton.mp he
    exact statusChanged_at _ _ _ _ _ _ _
  | false => exact ⟨hsteps, hindex, .inl hstatus, [], (List.append_nil _).symm, at_nil _⟩

theorem transition_stays (a : Sequence) {target : Status} (ht : target ≠ .completed)
    (reason decidedBy : Option String) (now : Date) :
    Stays a (transition a target reason decidedBy now).1 :=
  write_transition_stays a (by rfl) (by rfl) (by rfl) ht reason decidedBy now

theorem transition_not_threw (a : Sequence) (target : Status) (reason decidedBy : Option String)
    (now : Date) (message : String) :
    (transition a target reason decidedBy now).2 ≠ .threw message := by
  unfold transition
  split
  · nofun
  · nofun

/-- The sequence has the step it is at where it is RUNNING. -/
def HasStep (a : Sequence) : Prop :=
  a.state.status = .running → a.state.currentStepIndex < a.state.steps.length

theorem startStep_stays (a : Sequence) (executionId : String) (scheduledAt : Date) :
    Stays a (startStep a executionId scheduledAt).1 ∧
      ∀ message, (startStep a executionId scheduledAt).2 ≠ .threw message := by
  unfold startStep
  split
  · exact ⟨Stays.refl a, nofun⟩
  · split
    · exact ⟨Stays.refl a, nofun⟩
    next step hstep =>
      split
      · exact ⟨Stays.refl a, nofun⟩
      · refine ⟨⟨rfl, rfl, .inl rfl, [_], rfl, fun e he => ?_⟩, nofun⟩
        obtain rfl := List.mem_singleton.mp he
        refine ⟨rfl, fun n hn => ?_⟩
        rw [hstep]
        exact hn

theorem failStep_stays (a : Sequence) (h : HasStep a) (executionId reason : String)
    (retryable : Bool) (now : Date) :
    Stays a (failStep a executionId reason retryable now).1 ∧
      ∀ message, (failStep a executionId reason retryable now).2 ≠ .threw message := by
  unfold failStep
  by_cases hr : a.state.status = .running
  · rw [if_neg (not_not_intro hr), List.getElem?_eq_getElem (h hr)]
    dsimp only
    have hfailed : (Event.stepFailed a.state.id a.state.campaignId
        (a.state.steps.get ⟨a.state.currentStepIndex, h hr⟩).stepNumber executionId reason
          retryable).At a.state.steps[a.state.currentStepIndex]? := by
      refine ⟨rfl, fun n hn => ?_⟩
      rw [List.getElem?_eq_getElem (h hr)]
      exact hn
    split
    · refine ⟨⟨rfl, rfl, .inl rfl, [_], rfl, fun e he => ?_⟩, nofun⟩
      obtain rfl := List.mem_singleton.mp he
      exact hfailed
    · refine ⟨?_, fun message => transition_not_threw _ _ _ _ _ message⟩
      have hcan : canTransition a.state.status .failed = true := by rw [hr]; rfl
      unfold transition
      rw [Aggregate.applyEvent_state, if_pos hcan]
      refine ⟨rfl, rfl, .inr ⟨(terminal_of_can hcan).1, nofun, (terminal_of_can hcan).2⟩,
        [_, _], List.append_assoc _ _ _, fun e he => ?_⟩
      rcases List.mem_cons.mp he with rfl | he
      · exact hfailed
      · obtain rfl := List.mem_singleton.mp he
        exact statusChanged_at _ _ _ _ _ _ _
  · rw [if_pos hr]
    exact ⟨Stays.refl a, nofun⟩

theorem completeStep_completes (a : Sequence) (h : HasStep a) (executionId : String)
    (nextDueAt : Option Date) (now : Date) :
    (Stays a (completeStep a executionId nextDueAt now).1 ∨
      Completes a (completeStep a executionId nextDueAt now).1) ∧
      ∀ message, (completeStep a executionId nextDueAt now).2 ≠ .threw message := by
  unfold completeStep
  by_cases hr : a.state.status = .running
  · rw [if_neg (not_not_intro hr)]
    dsimp only
    have hstep := List.getElem?_eq_getElem (h hr)
    rw [hstep]
    dsimp only
    split
    next hlt =>
      exact ⟨.inr ⟨hr, h hr, rfl, rfl, by rw [if_pos hlt]; exact hr, _, [], rfl, rfl,
        by rw [hstep]; rfl, at_nil _⟩, nofun⟩
    next hge =>
      refine ⟨.inr ?_, fun message => transition_not_threw _ _ _ _ _ message⟩
      -- RUNNING may become COMPLETED
      have hcan : canTransition a.state.status .completed = true := by rw [hr]; rfl
      unfold transition
      rw [Aggregate.applyEvent_state, Aggregate.write_state, if_pos hcan]
      refine ⟨hr, h hr, rfl, rfl, by rw [if_neg hge]; rfl, _, [_], List.append_assoc _ _ _, rfl,
        by rw [hstep]; rfl, fun e he => ?_⟩
      obtain rfl := List.mem_singleton.mp he
      exact statusChanged_at _ _ _ _ _ _ _
  · rw [if_pos hr]
    exact ⟨.inl (Stays.refl a), nofun⟩

theorem waitForResponse_stays (a : Sequence) (deadline now : Date) :
    Stays a (waitForResponse a deadline now).1 ∧
      ∀ message, (waitForResponse a deadline now).2 ≠ .threw message := by
  unfold waitForResponse
  split
  · exact ⟨Stays.refl a, nofun⟩
  · exact ⟨write_transition_stays a (by rfl) (by rfl) (by rfl) (by decide) _ _ _,
      fun message => transition_not_threw _ _ _ _ _ message⟩

theorem linkWorkflow_stays (a : Sequence) (workflowId : String) (now : Date) :
    Stays a (linkWorkflow a workflowId now).1 ∧
      ∀ message, (linkWorkflow a workflowId now).2 ≠ .threw message := by
  unfold linkWorkflow
  split
  · exact ⟨Stays.refl a, nofun⟩
  · refine ⟨⟨rfl, rfl, .inl rfl, [_], rfl, fun e he => ?_⟩, nofun⟩
    obtain rfl := List.mem_singleton.mp he
    exact ⟨rfl, nofun⟩

/-- **An operation of a sequence that has its step stays at it, or completes it; it never reads a
step that is not there.** -/
theorem Op.perform_cases (now : Date) (op : Op) (a : Sequence) (h : HasStep a) :
    (Stays a (op.perform now a).1 ∨
      (∃ executionId nextDueAt, op = .completeStep executionId nextDueAt) ∧
        Completes a (op.perform now a).1) ∧
      ∀ message, (op.perform now a).2 ≠ .threw message := by
  cases op with
  | startStep executionId scheduledAt =>
    exact (startStep_stays a executionId scheduledAt).imp .inl id
  | completeStep executionId nextDueAt =>
    exact (completeStep_completes a h executionId nextDueAt now).imp
      (Or.imp_right fun hc => ⟨⟨_, _, rfl⟩, hc⟩) id
  | failStep executionId reason retryable =>
    exact (failStep_stays a h executionId reason retryable now).imp .inl id
  | waitForResponse deadline => exact (waitForResponse_stays a deadline now).imp .inl id
  | continueAfterResponse =>
    exact ⟨.inl (write_transition_stays a (by rfl) (by rfl) (by rfl) (by decide) _ _ _),
      fun message => transition_not_threw _ _ _ _ _ message⟩
  | linkWorkflow workflowId => exact (linkWorkflow_stays a workflowId now).imp .inl id
  | _ =>
    exact ⟨.inl (transition_stays a (by decide) _ _ _),
      fun message => transition_not_threw _ _ _ _ _ message⟩

/-! ## The life of a sequence -/

inductive Action where
  | operate (op : Op) (now : Date)
  | save
  | restore

/-- The copy in memory, the row, and the events of the copies that were saved. -/
structure Life where
  sequence : Sequence
  stored : Option (Row Props) := none
  saved : List Event := []

/-- The row that a save leaves: a new copy is inserted, a loaded one has to be of the version
stored. -/
def Life.savedRow (l : Life) : Except String (Row Props) :=
  match l.sequence.loadedVersion, l.stored with
  | none, none => .ok ⟨l.sequence.state, l.sequence.version⟩
  | none, some _ => .error "Sequence exists"
  | some _, none => .error "Stale sequence or wrong workspace"
  | some _, some r =>
    match r.swap l.sequence with
    | some r' => .ok r'
    | none => .error "Stale sequence or wrong workspace"

def Life.step : Machine.Step Life Action OpResult
  | l, .operate op now =>
    ({ l with sequence := (op.perform now l.sequence).1 }, (op.perform now l.sequence).2)
  | l, .save =>
    match l.savedRow with
    | .ok r =>
      ({ sequence := (l.sequence.setVersion l.sequence.version).clearDomainEvents
         stored := some r
         saved := l.saved ++ l.sequence.domainEvents }, .ok)
    | .error message => (l, .threw message)
  | l, .restore =>
    match l.stored with
    | some r => ({ l with sequence := .reconstitute r.payload r.version }, .ok)
    | none => (l, .ok)

/-! ## What is promised -/

/-- The sequence has completed its first `currentStepIndex` steps, one after the other, and is
COMPLETED when these are all. -/
structure Follows (steps : List SequenceStep) (s : Props) (log : List Event) : Prop where
  steps_eq : s.steps = steps
  index_le : s.currentStepIndex ≤ steps.length
  completed_iff : s.currentStepIndex = steps.length ↔ s.status = .completed
  inOrder : InOrder steps 0 log
  completions_eq : completions log = s.currentStepIndex

/-- An operation throws nothing, counts nothing but the step it completes, and leaves a terminal
state; no action takes a terminal row out of its state. -/
structure Proper (l : Life) (action : Action) : Prop where
  noThrow : ∀ op now, action = .operate op now → ∀ message, (l.step action).2 ≠ .threw message
  index : ∀ op now, action = .operate op now →
    (l.step action).1.sequence.state.currentStepIndex = l.sequence.state.currentStepIndex ∨
    (∃ executionId nextDueAt, op = .completeStep executionId nextDueAt) ∧
      (l.step action).1.sequence.state.currentStepIndex = l.sequence.state.currentStepIndex + 1
  final : ∀ op now, action = .operate op now → l.sequence.state.status.terminal = true →
    (l.step action).1.sequence.state.status = l.sequence.state.status
  storedFinal : ∀ r, l.stored = some r → r.payload.status.terminal = true →
    ∃ r', (l.step action).1.stored = some r' ∧ r'.payload.status = r.payload.status

/-- In every life of the sequence, it goes through its steps. -/
def Steps (a : Sequence) : Prop :=
  ∀ h : List Action, ∀ l, l = Machine.final Life.step ⟨a, none, []⟩ h →
    Follows a.state.steps l.sequence.state (l.saved ++ l.sequence.domainEvents) ∧
      ∀ action, Proper l action

/-! ## What every action keeps -/

theorem Follows.hasStep {steps : List SequenceStep} {a : Sequence} {log : List Event}
    (h : Follows steps a.state log) : HasStep a := by
  intro hr
  rw [h.steps_eq]
  refine Nat.lt_of_le_of_ne h.index_le fun heq => ?_
  rw [h.completed_iff.mp heq] at hr
  cases hr

theorem Follows.stays {steps : List SequenceStep} {a b : Sequence} {saved : List Event}
    (h : Follows steps a.state (saved ++ a.domainEvents)) (hs : Stays a b) :
    Follows steps b.state (saved ++ b.domainEvents) := by
  obtain ⟨es, hes, hat⟩ := hs.events
  rw [h.steps_eq] at hat
  refine ⟨hs.steps.trans h.steps_eq, hs.index ▸ h.index_le, ?_, ?_, ?_⟩
  · rw [hs.index]
    rcases hs.status with heq | ⟨-, hb, ha⟩
    · rw [heq]
      exact h.completed_iff
    · exact ⟨fun hi => absurd (h.completed_iff.mp hi) ha, fun hc => absurd hc hb⟩
  · rw [hes, ← List.append_assoc, inOrder_append, h.completions_eq, Nat.zero_add]
    exact ⟨h.inOrder, inOrder_of_at hat⟩
  · rw [hes, ← List.append_assoc, completions_append, h.completions_eq, completions_of_at hat,
      hs.index, Nat.add_zero]

theorem Follows.completes {steps : List SequenceStep} {a b : Sequence} {saved : List Event}
    (h : Follows steps a.state (saved ++ a.domainEvents)) (hc : Completes a b) :
    Follows steps b.state (saved ++ b.domainEvents) := by
  obtain ⟨e, es, hes, he, hn, hat⟩ := hc.events
  have hlt := hc.lt
  have hstatus := hc.status
  rw [h.steps_eq] at hlt hn hstatus
  have hcount : completions (e :: es) = 1 := by
    rw [completions, List.countP_cons, if_pos he]
    exact congrArg (· + 1) (completions_of_at hat)
  refine ⟨hc.steps.trans h.steps_eq, hc.index ▸ hlt, ?_, ?_, ?_⟩
  · rw [hc.index, hstatus]
    split
    next hlt' => exact ⟨fun heq => absurd heq (Nat.ne_of_lt hlt'), nofun⟩
    next hge => exact ⟨fun _ => rfl, fun _ => by omega⟩
  · rw [hes, ← List.append_assoc, inOrder_append, h.completions_eq, Nat.zero_add, InOrder, he]
    refine ⟨h.inOrder, fun n hn' => hn.symm.trans hn', inOrder_of_at fun e he => ?_⟩
    obtain ⟨hcompletes, hnone⟩ := hat e he
    exact ⟨hcompletes, fun n hn' => nomatch hnone n hn'⟩
  · rw [hes, ← List.append_assoc, completions_append, h.completions_eq, hcount, hc.index]

/-- The copy and the row follow the steps, and a terminal row has a copy in the same state. -/
structure Lives (steps : List SequenceStep) (l : Life) : Prop where
  copy : Follows steps l.sequence.state (l.saved ++ l.sequence.domainEvents)
  row : ∀ r, l.stored = some r → Follows steps r.payload l.saved
  terminal : ∀ r, l.stored = some r → r.payload.status.terminal = true →
    l.sequence.state.status = r.payload.status

theorem savedRow_payload {l : Life} {r : Row Props} (h : l.savedRow = .ok r) :
    r.payload = l.sequence.state := by
  unfold Life.savedRow at h
  split at h
  · cases h
    rfl
  · cases h
  · cases h
  · split at h
    next r₀ r' hswap =>
      cases h
      unfold Row.swap at hswap
      split at hswap
      · cases hswap
        rfl
      · cases hswap
    · cases h

/-- An operation keeps a terminal state. -/
theorem Lives.final {steps : List SequenceStep} {l : Life} (h : Lives steps l) (op : Op)
    (now : Date) (ht : l.sequence.state.status.terminal = true) :
    (op.perform now l.sequence).1.state.status = l.sequence.state.status := by
  rcases (op.perform_cases now l.sequence h.copy.hasStep).1 with hs | ⟨-, hc⟩
  · rcases hs.status with heq | ⟨hn, -, -⟩
    · exact heq
    · rw [hn] at ht
      cases ht
  · rw [hc.running] at ht
    cases ht

theorem Lives.step {steps : List SequenceStep} {l : Life} (h : Lives steps l) (action : Action) :
    Lives steps (l.step action).1 := by
  cases action with
  | operate op now =>
    refine ⟨?_, h.row, fun r hr ht => ?_⟩
    · rcases (op.perform_cases now l.sequence h.copy.hasStep).1 with hs | ⟨-, hc⟩
      · exact h.copy.stays hs
      · exact h.copy.completes hc
    · have heq := h.terminal r hr ht
      exact (h.final op now (heq ▸ ht)).trans heq
  | save =>
    unfold Life.step
    dsimp only
    cases hsave : l.savedRow with
    | error message => exact h
    | ok r =>
      have hpayload := savedRow_payload hsave
      refine ⟨?_, fun r' hr' => ?_, fun r' hr' _ => ?_⟩
      · show Follows steps l.sequence.state (_ ++ [])
        rw [List.append_nil]
        exact h.copy
      · cases hr'
        rw [hpayload]
        exact h.copy
      · cases hr'
        exact congrArg Props.status hpayload.symm
  | restore =>
    unfold Life.step
    dsimp only
    split
    next r hstored =>
      have hrow := h.row r hstored
      refine ⟨?_, fun r' hr' => ?_, fun r' hr' _ => ?_⟩
      · show Follows steps r.payload (_ ++ [])
        rw [List.append_nil]
        exact hrow
      · obtain rfl : r = r' := Option.some.inj (hstored.symm.trans hr')
        exact hrow
      · obtain rfl : r = r' := Option.some.inj (hstored.symm.trans hr')
        rfl
    · exact h

theorem Lives.proper {steps : List SequenceStep} {l : Life} (h : Lives steps l) (action : Action) :
    Proper l action := by
  refine ⟨?_, ?_, ?_, fun r hr ht => ?_⟩
  · rintro op now rfl
    exact (op.perform_cases now l.sequence h.copy.hasStep).2
  · rintro op now rfl
    rcases (op.perform_cases now l.sequence h.copy.hasStep).1 with hs | ⟨hop, hc⟩
    · exact .inl hs.index
    · exact .inr ⟨hop, hc.index⟩
  · rintro op now rfl
    exact h.final op now
  · cases action with
    | operate op now => exact ⟨r, hr, rfl⟩
    | save =>
      unfold Life.step
      dsimp only
      cases hsave : l.savedRow with
      | error message => exact ⟨r, hr, rfl⟩
      | ok r' =>
        exact ⟨r', rfl, (congrArg Props.status (savedRow_payload hsave)).trans (h.terminal r hr ht)⟩
    | restore =>
      unfold Life.step
      dsimp only
      rw [hr]
      exact ⟨r, rfl, rfl⟩

/-! ## Created sequences -/

theorem create_eq_ok {props : Props} {fingerprint : Option String} {a : Sequence}
    (h : create props fingerprint = .ok a) :
    props.steps ≠ [] ∧ a.state = { props with status := .draft } ∧
      a.domainEvents =
        [.created props.id props.campaignId props.leadId props.steps.length] := by
  unfold create at h
  split at h
  · cases h
  · split at h
    · cases h
    · split at h
      · cases h
      · split at h
        · cases h
        next hne =>
          cases h
          exact ⟨hne, rfl, rfl⟩

theorem completions_created (sequenceId campaignId leadId : String) (stepCount : Nat) :
    completions [.created sequenceId campaignId leadId stepCount] = 0 := rfl

/-- **A created sequence goes through its steps in every life, one completion a step, iff it is
created at its first step.** -/
theorem steps_iff {props : Props} {fingerprint : Option String} {a : Sequence}
    (h : create props fingerprint = .ok a) : Steps a ↔ props.currentStepIndex = 0 := by
  obtain ⟨hne, hstate, hevents⟩ := create_eq_ok h
  constructor
  · -- nothing is completed yet
    intro hsteps
    have hcount := (hsteps [] _ rfl).1.completions_eq
    rw [Machine.final_nil, List.nil_append, hstate, hevents, completions_created] at hcount
    exact hcount.symm
  · rintro hzero
    have hlives : Lives a.state.steps ⟨a, none, []⟩ := by
      have hnone : ∀ r : Row Props, none ≠ some r := fun r => Option.some_ne_none r |>.symm
      refine ⟨?_, fun r hr => absurd hr (hnone r), fun r hr _ => absurd hr (hnone r)⟩
      show Follows a.state.steps a.state a.domainEvents
      have hpos : 0 < a.state.steps.length := by
        rw [hstate]
        exact List.length_pos_iff.mpr hne
      have hindex : a.state.currentStepIndex = 0 := by
        rw [hstate]
        exact hzero
      have hdraft : a.state.status ≠ .completed := by
        rw [hstate]
        nofun
      rw [hevents]
      refine ⟨rfl, by omega, ⟨fun heq => by omega, fun hc => absurd hc hdraft⟩, ⟨nofun, trivial⟩, ?_⟩
      rw [completions_created, hindex]
    intro life l hl
    have hstep : ∀ l action, Lives a.state.steps l → Lives a.state.steps (l.step action).1 :=
      fun l action hl => hl.step action
    have hkept := Machine.final_invariant hstep life hlives
    rw [← hl] at hkept
    exact ⟨hkept.copy, hkept.proper⟩

/-- Two steps, and how many of them are given as completed. -/
def sampleProps (currentStepIndex : Nat) : Props :=
  { id := "s", tenantId := "t", workspaceId := "w", campaignId := "c", leadId := "l"
    contactId := "k", recipientProtectionState := .legacyUnavailable
    steps := [⟨1, .email, 0, true, none, none⟩, ⟨2, .email, 0, true, none, none⟩]
    currentStepIndex, createdAt := 0, updatedAt := 0 }

def sample (currentStepIndex : Nat) : Sequence :=
  (Aggregate.init (sampleProps currentStepIndex)).applyEvent (.created "s" "c" "l" 2)

theorem steps_sample : Steps (sample 0) :=
  have hcreate : create (sampleProps 0) none = .ok (sample 0) := by rfl
  (steps_iff hcreate).mpr (by rfl)

/-- The sequence is submitted, approved and started, and completes a step. -/
def shortLife : List Action :=
  [.operate .submitForApproval 0, .operate (.approve "u" "ok") 0, .operate .start 0,
    .operate (.completeStep "e" none) 0]

/-- **A sequence created at its second step is COMPLETED without the first.** -/
theorem not_steps :
    create (sampleProps 1) none = .ok (sample 1) ∧
    (Machine.final Life.step ⟨sample 1, none, []⟩ shortLife).sequence.state.status = .completed ∧
    completions (Machine.final Life.step ⟨sample 1, none, []⟩ shortLife).sequence.domainEvents = 1 ∧
    (sampleProps 1).steps.length = 2 ∧ ¬Steps (sample 1) := by
  refine ⟨by rfl, by rfl, by rfl, by rfl, fun hsteps => ?_⟩
  have hcount := (hsteps shortLife _ rfl).1.completions_eq
  have hindex : (Machine.final Life.step ⟨sample 1, none, []⟩
      shortLife).sequence.state.currentStepIndex = 2 := by rfl
  have hone : completions (Machine.final Life.step ⟨sample 1, none, []⟩
      shortLife).sequence.domainEvents = 1 := by rfl
  rw [hindex] at hcount
  exact absurd (hone.symm.trans hcount) (by decide)

end VegaRevenue.Sequence
