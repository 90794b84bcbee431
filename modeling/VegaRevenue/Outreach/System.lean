import VegaRevenue.Domain.NoLostUpdate
import VegaRevenue.Outreach.PrepareDraft
import VegaRevenue.Outreach.Rows

/-!
# Everyone who writes the rows of outreach

Calls of `prepareDraft`, `executeApprovedSend`, `recordResponse` and `reconcile`, and operators who
load a sequence, apply one operation and save it, interleaved over one world.

* `systemStep` — one step of any of them
* `Moves.system` — the rows of executions only move on
-/

namespace VegaRevenue.Outreach

open Interleave
open Versioned
open MessageExecution (Status Props Keeps)

/-! ## `recordResponse` -/

inductive ResponseType where
  | opened
  | replied
deriving DecidableEq

structure ResponseCall where
  ctx : Context
  executionId : String
  responseType : ResponseType
deriving DecidableEq

/-- The operation a call waits for; it ends with the error it threw, if any. -/
inductive ResponsePc where
  | load
  | save (execution : MessageExecution)
  | done (threw : Option String)

/-- The transitions of a response; their refusals are not looked at. -/
def respond (responseType : ResponseType) (e : MessageExecution) (now : Date) : MessageExecution :=
  let e := if e.state.status = .providerAccepted ∨ e.state.status = .deliveryPending then
    (MessageExecution.markDelivered e none now).1 else e
  let e := if e.state.status = .delivered then (MessageExecution.markOpened e now).1 else e
  if responseType = .replied then (MessageExecution.markReplied e now).1 else e

def staleExecution : String := "Stale execution or wrong workspace"

def responseNext (call : ResponseCall) (input : Input) (w : World) :
    ResponsePc → World × ResponsePc
  | .load =>
    match w.loadExecution call.ctx call.executionId with
    | none => (w, .done none)
    | some e => (w, .save (respond call.responseType e input.now.ms))
  | .save e =>
    match w.saveExecution call.ctx e with
    | .saved (w', _) => (w', .done none)
    | .conflict => (w, .done (some staleExecution))
    | .threw message => (w, .done (some message))
  | .done threw => (w, .done threw)

/-! ## `reconcile` -/

inductive ReconciliationDecision where
  | delivered
  | failed
deriving DecidableEq

structure ReconcileCall where
  ctx : Context
  executionId : String
  decision : ReconciliationDecision
  reason : String
  providerMessageId : Option String
deriving DecidableEq

inductive ReconcileEnded where
  | success
  | failed (reason : String)
  | threw (message : String)
deriving DecidableEq

inductive ReconcilePc where
  | load
  | save (execution : MessageExecution)
  | set (execution : MessageExecution)
  | audit
  | done (ended : ReconcileEnded)

def reconcilable (s : Status) : Bool := s = .deliveryUnknown || s = .requiresReconciliation

/-- The operator's verdict; it is never refused. -/
def ReconcileCall.reconciled (call : ReconcileCall) (e : MessageExecution) (now : Date) :
    MessageExecution :=
  match call.decision with
  | .delivered => (MessageExecution.markReconciledDelivered e call.providerMessageId now).1
  | .failed => (MessageExecution.markReconciledFailed e call.reason now).1

/-- The idempotency record that goes with the verdict. -/
def ReconcileCall.record (call : ReconcileCall) : Json × Idempotency.Status :=
  match call.decision with
  | .delivered =>
    (.obj ([("submitted", .bool true)] ++
      (call.providerMessageId.map fun id => ("providerMessageId", .str id)).toList), .completed)
  | .failed =>
    (.obj [("submitted", .bool true),
      ("reason", .str ("Operator reconciled as failed: " ++ call.reason))], .failed)

def reconcileNext (call : ReconcileCall) (i : Nat) (input : Input) (w : World) :
    ReconcilePc → World × ReconcilePc
  | .load =>
    match w.loadExecution call.ctx call.executionId with
    | none => (w, .done (.failed "Execution not found"))
    | some e =>
      if reconcilable e.state.status then (w, .save (call.reconciled e input.now.ms))
      else
        (w, .done (.failed ("Execution is not in a reconcilable state (status: " ++
          e.state.status.name ++ ")")))
  | .save e =>
    match w.saveExecution call.ctx e with
    | .saved (w', e') => (w', .set e')
    | .conflict => (w, .done (.threw staleExecution))
    | .threw message => (w, .done (.threw message))
  | .set e =>
    let key := sendKey call.ctx e.state.idempotencyKey
    match Idempotency.Postgres.set {} w.idempotency key call.record.1
        { status := some call.record.2 } input.now with
    | (store, .stored) =>
      ({ w with idempotency := store }.observe (.wrote i key call.record.2), .audit)
    | _ => (w, .done (.threw rejectedStatement))
  | .audit =>
    match input.audit with
    | none => (w, .done .success)
    | some message => (w, .done (.threw message))
  | .done ended => (w, .done ended)

/-! ## Operators -/

/-- A caller who loads a sequence, applies an operation and saves it. Completing a step is left to
`executeApprovedSend`. -/
structure OperatorCall where
  ctx : Context
  sequenceId : String
  op : Sequence.Op
  completesNoStep : ∀ executionId nextDueAt, op ≠ .completeStep executionId nextDueAt
deriving DecidableEq

inductive OperatorPc where
  | load
  | save (sequence : Sequence)
  | done

def operatorNext (call : OperatorCall) (input : Input) (w : World) :
    OperatorPc → World × OperatorPc
  | .load =>
    match w.loadSequence call.ctx call.sequenceId with
    | none => (w, .done)
    | some s => (w, .save (call.op.apply input.now.ms s))
  | .save s =>
    match w.saveSequence call.ctx s with
    | .saved (w', _) => (w', .done)
    | _ => (w, .done)
  | .done => (w, .done)

/-! ## The system -/

/-- A call of any kind, with the operation it waits for. -/
inductive SystemPc where
  | prepare (call : PrepareCall) (p : PreparePc)
  | send (call : SendCall) (p : SendPc)
  | response (call : ResponseCall) (p : ResponsePc)
  | reconcile (call : ReconcileCall) (p : ReconcilePc)
  | operate (call : OperatorCall) (p : OperatorPc)

/-- One step of a call of any kind. A fault ends it, as `sendStep` and `prepareStep` say for their
own calls. -/
def systemStep (cfg : Config) : Interleave.Stepper World SystemPc Input
  | i, input, w, .prepare call p =>
    let r := prepareStep (fun _ => call) i input w p
    (r.1, .prepare call r.2)
  | i, input, w, .send call p =>
    let r := sendStep cfg (fun _ => call) i input w p
    (r.1, .send call r.2)
  | _, input, w, .response call p =>
    match p, input.fault with
    | .done threw, _ => (w, .response call (.done threw))
    | _, some message => (w, .response call (.done (some message)))
    | p, none => let r := responseNext call input w p; (r.1, .response call r.2)
  | i, input, w, .reconcile call p =>
    match p, input.fault with
    | .done ended, _ => (w, .reconcile call (.done ended))
    | _, some message => (w, .reconcile call (.done (.threw message)))
    | p, none => let r := reconcileNext call i input w p; (r.1, .reconcile call r.2)
  | _, input, w, .operate call p =>
    match input.fault with
    | some _ => (w, .operate call .done)
    | none => let r := operatorNext call input w p; (r.1, .operate call r.2)

inductive SystemCall where
  | prepare (call : PrepareCall)
  | send (call : SendCall)
  | response (call : ResponseCall)
  | reconcile (call : ReconcileCall)
  | operate (call : OperatorCall)
deriving DecidableEq

def SystemCall.start : SystemCall → SystemPc
  | prepare call => .prepare call .loadSequence
  | send call => .send call .loadExecution
  | response call => .response call .load
  | reconcile call => .reconcile call .load
  | operate call => .operate call .load

/-- Every call before its first step. -/
def startCalls (w : World) (calls : Nat → SystemCall) : Interleave.Config World SystemPc :=
  ⟨w, fun i => (calls i).start⟩

/-! ## What responses and operators make of a status -/

/-- Both statuses are accepted, both failed for good, or neither is settled. -/
def SameFate (s s' : Status) : Prop :=
  isPositiveTerminal s' = isPositiveTerminal s ∧ settled s' = settled s

theorem SameFate.refl (s : Status) : SameFate s s := ⟨rfl, rfl⟩

theorem SameFate.trans {s s' s'' : Status} (h : SameFate s s') (h' : SameFate s' s'') :
    SameFate s s'' := ⟨h'.1.trans h.1, h'.2.trans h.2⟩

theorem SameFate.mayMove {s s' : Status} (h : SameFate s s') : MayMove s s' := by
  refine ⟨fun hp => ?_, fun hs => ?_⟩
  · rw [h.1]
    exact hp
  · rw [h.2]
    exact hs

/-- What an accepted message goes through leaves it accepted. -/
theorem transition_sameFate (a : MessageExecution) {target : Status} (reason : Option String)
    (now : Date) (ht : isPositiveTerminal target = true)
    (hs : ∀ s, MessageExecution.canTransition s target = true → isPositiveTerminal s = true) :
    SameFate a.state.status
      (MessageExecution.transition a target reason now).1.state.status := by
  rcases MessageExecution.transition_eq a target reason now with
    ⟨hcan, -, -, -, hstate⟩ | ⟨-, -, hstate⟩
  · have hp := hs a.state.status hcan
    rw [hstate]
    refine ⟨ht.trans hp.symm, ?_⟩
    exact (settled_of_positive ht).trans (settled_of_positive hp).symm
  · rw [hstate]
    exact SameFate.refl _

theorem respond_keeps (responseType : ResponseType) (e : MessageExecution) (now : Date) :
    Keeps e (respond responseType e now) := by
  have hdelivered : ∀ a : MessageExecution, Keeps a (if a.state.status = .providerAccepted ∨
      a.state.status = .deliveryPending then (MessageExecution.markDelivered a none now).1
      else a) := by
    intro a
    split
    · exact MessageExecution.markDelivered_keeps a none now
    · exact Keeps.refl a
  have hopened : ∀ a : MessageExecution, Keeps a (if a.state.status = .delivered then
      (MessageExecution.markOpened a now).1 else a) := by
    intro a
    split
    · exact MessageExecution.markOpened_keeps a now
    · exact Keeps.refl a
  have hreplied : ∀ a : MessageExecution, Keeps a (if responseType = .replied then
      (MessageExecution.markReplied a now).1 else a) := by
    intro a
    split
    · exact MessageExecution.markReplied_keeps a now
    · exact Keeps.refl a
  exact ((hdelivered e).trans (hopened _)).trans (hreplied _)

/-- A response accepts nothing and fails nothing. -/
theorem respond_sameFate (responseType : ResponseType) (e : MessageExecution) (now : Date) :
    SameFate e.state.status (respond responseType e now).state.status := by
  have hdelivered : ∀ a : MessageExecution, SameFate a.state.status
      (if a.state.status = .providerAccepted ∨ a.state.status = .deliveryPending then
        (MessageExecution.markDelivered a none now).1 else a).state.status := by
    intro a
    split
    · exact transition_sameFate (a.write (a.state.withDelivery none now)) _ now rfl
        (by intro s; cases s <;> decide)
    · exact SameFate.refl _
  have hopened : ∀ a : MessageExecution, SameFate a.state.status
      (if a.state.status = .delivered then
        (MessageExecution.markOpened a now).1 else a).state.status := by
    intro a
    split
    · exact transition_sameFate a _ now rfl (by intro s; cases s <;> decide)
    · exact SameFate.refl _
  have hreplied : ∀ a : MessageExecution, SameFate a.state.status
      (if responseType = .replied then
        (MessageExecution.markReplied a now).1 else a).state.status := by
    intro a
    split
    · exact transition_sameFate a _ now rfl (by intro s; cases s <;> decide)
    · exact SameFate.refl _
  exact ((hdelivered e).trans (hopened _)).trans (hreplied _)

theorem reconciled_keeps (call : ReconcileCall) (e : MessageExecution) (now : Date) :
    Keeps e (call.reconciled e now) := by
  unfold ReconcileCall.reconciled
  cases call.decision with
  | delivered => exact MessageExecution.markReconciledDelivered_keeps e _ now
  | failed => exact MessageExecution.markReconciledFailed_keeps e _ now

theorem reconciled_status (call : ReconcileCall) (e : MessageExecution) (now : Date) :
    (call.reconciled e now).state.status =
      match call.decision with
      | .delivered => .delivered
      | .failed => .failed := by
  unfold ReconcileCall.reconciled
  cases call.decision with
  | delivered =>
    simp only [MessageExecution.markReconciledDelivered]
    split <;> rfl
  | failed => rfl

theorem reconciled_settled (call : ReconcileCall) (e : MessageExecution) (now : Date) :
    settled (call.reconciled e now).state.status = true := by
  rw [reconciled_status]
  cases call.decision <;> rfl

theorem not_positive_of_reconcilable {s : Status} (h : reconcilable s = true) :
    isPositiveTerminal s = false := by
  simp only [reconcilable, Bool.or_eq_true, decide_eq_true_eq] at h
  rcases h with rfl | rfl <;> rfl

/-! ## What every call knows of the executions -/

/-- What a call knows of the stored executions at the operation it waits for. -/
def SystemKnows (T : Executions) : SystemPc → Prop
  | .prepare call p => PrepareKnows call.ctx (fun _ => True) (fun _ _ => True) p
  | .send call p => Knows (rowKey call.ctx call.executionId) T p
  | .response call (.save e) =>
    Holds (SameFate · e.state.status) (rowKey call.ctx call.executionId) T e
  | .reconcile call (.save e) =>
    Holds (reconcilable · = true) (rowKey call.ctx call.executionId) T e ∧
      settled e.state.status = true
  | _ => True

theorem SystemKnows.evolve {T T' : Executions} (hT : Moves T T') {p : SystemPc}
    (h : SystemKnows T p) : SystemKnows T' p := by
  cases p with
  | prepare call p => exact h
  | send call p => exact Knows.evolve hT h
  | response call p =>
    cases p with
    | save e => exact Holds.evolve hT h
    | _ => trivial
  | reconcile call p =>
    cases p with
    | save e => exact ⟨h.1.evolve hT, h.2⟩
    | _ => trivial
  | operate call p => trivial

/-- A new row moves no other. -/
theorem Moves.append (T : Executions) (t : RowKey) (r : Row Props) : Moves T (T ++ [(t, r)]) := by
  intro t' r' hr'
  refine ⟨r', ?_, Row.Evolves.refl MayMove.refl r'⟩
  rw [Table.find_append_single, hr']
  rfl

theorem MayMove.of_reconcilable {s s' : Status} (hs : reconcilable s = true)
    (hs' : Outreach.settled s' = true) : MayMove s s' := by
  refine ⟨fun hp => ?_, fun _ => hs'⟩
  rw [not_positive_of_reconcilable hs] at hp
  cases hp

section

variable (i : Nat) (input : Input) {w : World}

theorem responseNext_moves {call : ResponseCall} {p : ResponsePc}
    (h : SystemKnows w.executions (.response call p)) :
    Moves w.executions (responseNext call input w p).1.executions ∧
      SystemKnows (responseNext call input w p).1.executions
        (.response call (responseNext call input w p).2) := by
  cases p with
  | load =>
    simp only [responseNext]
    split
    · exact ⟨Moves.refl _, trivial⟩
    next e he =>
      refine ⟨Moves.refl _, ((holds_load he).1.mono ?_).keeps (respond_keeps _ e input.now.ms)⟩
      rintro s rfl
      exact respond_sameFate call.responseType e input.now.ms
  | save e =>
    simp only [responseNext]
    split
    next w' e' ho =>
      obtain ⟨hmoves, -⟩ := Holds.save h (fun s hs => hs.mayMove) ho
      exact ⟨hmoves, trivial⟩
    · exact ⟨Moves.refl _, trivial⟩
    · exact ⟨Moves.refl _, trivial⟩
  | done threw => exact ⟨Moves.refl _, trivial⟩

theorem reconcileNext_moves {call : ReconcileCall} {p : ReconcilePc}
    (h : SystemKnows w.executions (.reconcile call p)) :
    Moves w.executions (reconcileNext call i input w p).1.executions ∧
      SystemKnows (reconcileNext call i input w p).1.executions
        (.reconcile call (reconcileNext call i input w p).2) := by
  cases p with
  | load =>
    simp only [reconcileNext]
    split
    · exact ⟨Moves.refl _, trivial⟩
    next e he =>
      split
      next hr =>
        refine ⟨Moves.refl _, ((holds_load he).1.mono ?_).keeps
          (reconciled_keeps call e input.now.ms), reconciled_settled call e input.now.ms⟩
        rintro s rfl
        exact hr
      · exact ⟨Moves.refl _, trivial⟩
  | save e =>
    simp only [reconcileNext]
    split
    next w' e' ho =>
      obtain ⟨hmoves, -⟩ := Holds.save h.1 (fun s hs => .of_reconcilable hs h.2) ho
      exact ⟨hmoves, trivial⟩
    · exact ⟨Moves.refl _, trivial⟩
    · exact ⟨Moves.refl _, trivial⟩
  | set e =>
    simp only [reconcileNext]
    split <;> exact ⟨Moves.refl _, trivial⟩
  | audit =>
    simp only [reconcileNext]
    split <;> exact ⟨Moves.refl _, trivial⟩
  | done ended => exact ⟨Moves.refl _, trivial⟩

theorem operatorNext_executions (call : OperatorCall) (p : OperatorPc) :
    (operatorNext call input w p).1.executions = w.executions := by
  cases p with
  | load =>
    simp only [operatorNext]
    split <;> rfl
  | save s =>
    simp only [operatorNext]
    split
    next w' s' ho =>
      obtain ⟨-, T, -, rfl⟩ := World.saveSequence_eq_saved ho
      rfl
    · rfl
  | done => rfl

theorem prepareStep_moves {call : PrepareCall} {p : PreparePc}
    (h : SystemKnows w.executions (.prepare call p)) :
    Moves w.executions (prepareStep (fun _ => call) i input w p).1.executions := by
  rcases prepareStep_cases call i input w p with ⟨hw, -, -⟩ | ⟨e, e', hp, -, ho, -⟩
  · rw [hw]
    exact Moves.refl _
  · have hl : e.loadedVersion = none := by
      cases p with
      | saveRejected e₀ reason =>
        obtain rfl : e₀ = e := Option.some.inj hp
        obtain ⟨⟨step, hm⟩, -⟩ := h
        exact hm.loadedVersion
      | savePrepared e₀ step =>
        obtain rfl : e₀ = e := Option.some.inj hp
        exact h.1.loadedVersion
      | _ => cases hp
    rw [(saveExecution_insert hl ho).2]
    exact Moves.append _ _ _

/-- **A step of any call moves the rows of executions on and keeps what the call knows.** -/
theorem Moves.system (cfg : Config) {p : SystemPc} (h : SystemKnows w.executions p) :
    Moves w.executions (systemStep cfg i input w p).1.executions ∧
      SystemKnows (systemStep cfg i input w p).1.executions (systemStep cfg i input w p).2 := by
  cases p with
  | prepare call p =>
    exact ⟨prepareStep_moves i input h,
      knows_prepareStep i (fun _ _ => trivial) (fun _ _ _ _ => trivial) h⟩
  | send call p => exact knows_sendStep cfg (fun _ => call) i input h
  | response call p =>
    cases hf : input.fault with
    | some message =>
      cases p <;> simp only [systemStep, hf] <;> exact ⟨Moves.refl _, trivial⟩
    | none =>
      have hnext := responseNext_moves input h
      cases p <;> simp only [systemStep, hf] <;> exact hnext
  | reconcile call p =>
    cases hf : input.fault with
    | some message =>
      cases p <;> simp only [systemStep, hf] <;> exact ⟨Moves.refl _, trivial⟩
    | none =>
      have hnext := reconcileNext_moves i input h
      cases p <;> simp only [systemStep, hf] <;> exact hnext
  | operate call p =>
    simp only [systemStep]
    split
    · exact ⟨Moves.refl _, trivial⟩
    · refine ⟨?_, trivial⟩
      rw [operatorNext_executions]
      exact Moves.refl _

end

/-- Every call knows what it does of the executions. -/
theorem systemKnows_start (w : World) (calls : Nat → SystemCall) :
    Each (fun _ w p => SystemKnows w.executions p) (startCalls w calls) := by
  intro i
  show SystemKnows w.executions (calls i).start
  cases calls i <;> trivial

theorem systemKnows_step (cfg : Config) {c : Interleave.Config World SystemPc} {a : Tick Input}
    (h : Each (fun _ w p => SystemKnows w.executions p) c) :
    Each (fun _ w p => SystemKnows w.executions p) (c.step (systemStep cfg) a) := by
  obtain ⟨hmoves, hknows⟩ := Moves.system a.call a.input cfg (h a.call)
  exact h.step hknows fun i p _ hi => hi.evolve hmoves

end VegaRevenue.Outreach
