import VegaRevenue.Outreach.Send

/-!
# Who writes the idempotency record

A call may write the record of its key only while it holds the claim: its own gate allowed, and no
other call has claimed the key since. The exits of a denied and of a rate-limited call write the
record although no claim was made.

* `sendStep_effect` — what one step does to the records
* `recordsWrittenByHolder_iff` — all writes of a run are by holders iff no denied or rate-limited
  call writes
* `not_recordsWrittenByHolder_rateLimited` — a rate-limited call releases the claim of another one
-/

namespace VegaRevenue.Outreach

open Interleave
open Idempotency (Triple)
open Idempotency.Postgres (setRow? Record)

/-- The exit is taken before the claim. -/
def FailureExit.beforeClaim : FailureExit → Bool
  | denied _ | retryable _ => true
  | _ => false

/-- Where a call stands towards the claim of its key. -/
inductive Phase where
  | before
  | owning (idempotencyKey : String)
  | after
deriving DecidableEq

def Sending.key (l : Sending) : String := l.execution.state.idempotencyKey

def SendPc.phase : SendPc → Phase
  | loadExecution | loadSequence _ | loadCampaign _ _ | recoverRecipient _ | evaluate _ => .before
  | saveFailure l exit | markFailed l exit =>
    if exit.beforeClaim then .before else .owning l.key
  | selectProvider l | saveAttempt l | send l | awaitAnswer l | saveAccepted l _
  | saveCampaign l _ | markCompleted l _ => .owning l.key
  | _ => .after

/-- The call is about to write the record. -/
def SendPc.isWriter : SendPc → Bool
  | markFailed _ _ | markCompleted _ _ => true
  | _ => false

/-- The observation is neither a claim nor a write of a record. -/
def Observed.quiet : Observed → Bool
  | submitted _ _ | answered _ _ _ _ => true
  | _ => false

/-- The call that claimed the key last. -/
def holder (key : Triple) : List Observed → Option Nat
  | [] => none
  | .claimed i k :: log => if k = key then some i else holder key log
  | _ :: log => holder key log

@[simp] theorem holder_wrote (key : Triple) (i : Nat) (k : Triple) (status : Idempotency.Status)
    (log : List Observed) : holder key (.wrote i k status :: log) = holder key log := rfl

/-- Every record was written by the holder of its key. -/
def WrittenByHolder : List Observed → Prop
  | [] => True
  | .wrote i key _ :: log => holder key log = some i ∧ WrittenByHolder log
  | _ :: log => WrittenByHolder log

instance decidableWrittenByHolder : DecidablePred WrittenByHolder
  | [] => .isTrue trivial
  | .wrote i key _ :: log =>
    have := decidableWrittenByHolder log
    inferInstanceAs (Decidable (holder key log = some i ∧ WrittenByHolder log))
  | .claimed _ _ :: log => decidableWrittenByHolder log
  | .submitted _ _ :: log => decidableWrittenByHolder log
  | .answered _ _ _ _ :: log => decidableWrittenByHolder log

/-- A step by which a call that was denied or rate-limited before its claim writes the record. -/
def writesUnclaimed (calls : Nat → SendCall) (c : Interleave.Config World SendPc)
    (a : Tick Input) : Bool :=
  match c.pc a.call with
  | .markFailed l exit =>
    exit.beforeClaim && a.input.fault.isNone &&
      (setRow? {} (sendKey (calls a.call).ctx l.key) failedResult { status := some .failed }
        a.input.now).isSome
  | _ => false

/-! ## One step -/

/-- What a step does to the idempotency records. -/
inductive RecordEffect (calls : Nat → SendCall) (i : Nat) (input : Input) (w : World) (p : SendPc)
    (w' : World) (p' : SendPc) : Prop where
  | quiet (store : w'.idempotency = w.idempotency)
      (log : w'.log = w.log ∨ ∃ o : Observed, o.quiet = true ∧ w'.log = o :: w.log)
      (phase : p'.phase = p.phase ∨ p'.phase = .after)
  | claims (key : String) (before : p.phase = .before)
      (owning : p'.phase = .owning key ∨ p'.phase = .after)
      (wins : ClaimRegister.wins Record.reclaimable w.idempotency
        (sendKey (calls i).ctx key) = true)
      (store : ∃ r : Record, r.status = .pending ∧
        w'.idempotency = Function.update w.idempotency (sendKey (calls i).ctx key) (some r))
      (log : w'.log = .claimed i (sendKey (calls i).ctx key) :: w.log)
  | writes (key : String) (status : Idempotency.Status) (writer : p.isWriter = true)
      (after : p'.phase = .after)
      (phase : p.phase = .owning key ∨ p.phase = .before ∧
        ∃ l exit, p = .markFailed l exit ∧ l.key = key ∧ exit.beforeClaim = true ∧
          input.fault = none ∧ (setRow? {} (sendKey (calls i).ctx key) failedResult
            { status := some .failed } input.now).isSome)
      (store : ∃ r : Record, r.status = status ∧
        w'.idempotency = Function.update w.idempotency (sendKey (calls i).ctx key) (some r))
      (log : w'.log = .wrote i (sendKey (calls i).ctx key) status :: w.log)

/-- A step that changes no record and stays in its phase or leaves it. -/
theorem RecordEffect.same {calls : Nat → SendCall} {i : Nat} {input : Input} {w w' : World}
    {p p' : SendPc} (hs : w'.idempotency = w.idempotency) (hl : w'.log = w.log)
    (hp : p'.phase = p.phase ∨ p'.phase = .after) : RecordEffect calls i input w p w' p' :=
  .quiet hs (.inl hl) hp

/-- The key stays the same under the operations on the execution. -/
theorem key_of_keeps {l : Sending} {e : MessageExecution}
    (h : MessageExecution.Keeps l.execution e) : ({ l with execution := e } : Sending).key = l.key :=
  congrArg MessageExecution.Identity.idempotencyKey h.identity

/-- A save of an execution keeps its key. -/
theorem saveExecution_key {w w' : World} {ctx : Context} {e e' : MessageExecution}
    (h : w.saveExecution ctx e = .saved (w', e')) :
    e'.state.idempotencyKey = e.state.idempotencyKey := by
  obtain ⟨-, -, rfl, -⟩ := World.saveExecution_eq_saved h
  rfl

section

variable {calls : Nat → SendCall} {i : Nat} {input : Input} {w : World} {p : SendPc}

/-- After a save that leaves the idempotency records and the log alone. -/
theorem effect_afterSave {α : Type} {outcome : SaveOutcome (World × α)} {next : α → SendPc}
    (hrest : ∀ w' a, outcome = .saved (w', a) → w'.idempotency = w.idempotency ∧ w'.log = w.log)
    (hnext : ∀ w' a, outcome = .saved (w', a) →
      (next a).phase = p.phase ∨ (next a).phase = .after) :
    RecordEffect calls i input w p (afterSave w outcome next).1 (afterSave w outcome next).2 := by
  refine afterSave_elim (P := fun r => RecordEffect calls i input w p r.1 r.2)
    (fun w' a ho => ?_) (.same rfl rfl (.inr rfl)) fun _ => .same rfl rfl (.inr rfl)
  exact .same (hrest w' a ho).1 (hrest w' a ho).2 (hnext w' a ho)

/-- A write of the record by an owner, or by a call that made no claim. -/
theorem effect_setRecord {e : MessageExecution} {result : Json} {status : Idempotency.Status}
    {next : SendPc} (hwriter : p.isWriter = true) (hnext : next.phase = .after)
    (hphase : (setRow? {} (sendKey (calls i).ctx e.state.idempotencyKey) result
        { status := some status } input.now).isSome →
      p.phase = .owning e.state.idempotencyKey ∨ p.phase = .before ∧
        ∃ l exit, p = .markFailed l exit ∧ l.key = e.state.idempotencyKey ∧
          exit.beforeClaim = true ∧ input.fault = none ∧
          (setRow? {} (sendKey (calls i).ctx e.state.idempotencyKey) failedResult
            { status := some .failed } input.now).isSome) :
    RecordEffect calls i input w p
      (setRecord w (calls i).ctx i e result status input.now next).1
      (setRecord w (calls i).ctx i e result status input.now next).2 := by
  rcases setRecord_cases w (calls i).ctx i e result status input.now next with
    ⟨hsome, r, hr, h⟩ | ⟨-, h⟩ <;> rw [h]
  · exact .writes _ status hwriter hnext (hphase hsome) ⟨r, hr, rfl⟩ rfl
  · exact .same rfl rfl (.inr rfl)

/-- The call ends where the audit log throws, after everything else it did. -/
theorem RecordEffect.afterAudit {r : World × SendPc} (audit : Option String)
    (h : RecordEffect calls i input w p r.1 r.2) :
    RecordEffect calls i input w p (afterAudit audit r).1 (afterAudit audit r).2 := by
  unfold Outreach.afterAudit
  cases audit with
  | none => exact h
  | some message =>
    rcases h with ⟨hs, hl, -⟩ | ⟨key, hb, -, hwins, hs, hl⟩ |
      ⟨key, status, hwriter, -, hp, hs, hl⟩
    · exact .quiet hs hl (.inr rfl)
    · exact .claims key hb (.inr rfl) hwins hs hl
    · exact .writes key status hwriter rfl hp hs hl

/-- The decision of the gate. -/
theorem effect_evaluate {cfg : Outreach.Config} {l : Sending} (hp : p.phase = .before) :
    RecordEffect calls i input w p
      (sendNext cfg (calls i) i input w (.evaluate l)).1
      (sendNext cfg (calls i) i input w (.evaluate l)).2 := by
  simp only [sendNext]
  rcases evaluate_cases cfg.rateLimitConfig w.idempotency
      ⟨(calls i).ctx, l.campaign, l.execution, cfg.channelCostEstimate l.step.channel⟩ input.gate
      input.now with ⟨hne, hstore⟩ | ⟨hallow, hwins, ⟨r, hr, hstore⟩, -, -⟩
  · split
    · exact .same rfl rfl (.inr rfl)
    next decision hd =>
      refine RecordEffect.afterAudit input.audit ?_
      cases decision with
      | allow => exact absurd hd hne
      | deny code reason =>
        unfold onDecision
        dsimp only
        split
        · exact .same hstore rfl (.inr rfl)
        · exact .same hstore rfl (.inl hp.symm)
      | retryable code reason retryAfterMs => exact .same hstore rfl (.inl hp.symm)
  · rw [hallow]
    refine RecordEffect.afterAudit input.audit ?_
    exact .claims l.key hp (.inl rfl) hwins ⟨r, hr, hstore⟩ rfl

theorem onAnswer_phase (l : Sending) (answer : ProviderSendResult) (now : Date) :
    (onAnswer l answer now).phase = .owning l.key ∨ (onAnswer l answer now).phase = .after := by
  unfold onAnswer fails
  split
  iterate 3
    split
    · exact .inr rfl
    next e _ _ he =>
      left
      have hkeeps := MessageExecution.markProviderAccepted_keeps l.execution
        answer.providerMessageId answer.internetMessageId answer.providerErrorCode now
      rw [he] at hkeeps
      exact congrArg Phase.owning
        (key_of_keeps (hkeeps.trans (MessageExecution.markDeliveryPending_keeps _ now)))
  · exact .inl (congrArg Phase.owning
      (key_of_keeps (MessageExecution.markFailed_keeps l.execution _ _ _ now)))
  · exact .inl (congrArg Phase.owning
      (key_of_keeps (MessageExecution.markFailed_keeps l.execution _ _ _ now)))
  · exact .inr rfl

/-- **What one step does to the records.** -/
theorem sendNext_effect (cfg : Outreach.Config) (hf : input.fault = none) :
    RecordEffect calls i input w p (sendNext cfg (calls i) i input w p).1
      (sendNext cfg (calls i) i input w p).2 := by
  cases p with
  | loadExecution =>
    simp only [sendNext]
    split
    · exact .same rfl rfl (.inr rfl)
    · exact .same rfl rfl (.inl rfl)
  | loadSequence e =>
    simp only [sendNext]
    split
    · exact .same rfl rfl (.inr rfl)
    · exact .same rfl rfl (.inl rfl)
  | loadCampaign e sequence =>
    simp only [sendNext]
    split
    · exact .same rfl rfl (.inr rfl)
    · split
      · exact .same rfl rfl (.inr rfl)
      · exact .same rfl rfl (.inl rfl)
  | recoverRecipient l =>
    simp only [sendNext]
    split
    · exact .same rfl rfl (.inl rfl)
    · exact .same rfl rfl (.inr rfl)
  | evaluate l => exact effect_evaluate rfl
  | selectProvider l =>
    simp only [sendNext]
    split
    · exact .same rfl rfl (.inl (congrArg Phase.owning
        (key_of_keeps (MessageExecution.markFailed_keeps l.execution _ _ _ _))))
    next providerId _ =>
      split
      · exact .same rfl rfl (.inr rfl)
      next e _ _ he =>
        have hkeeps := MessageExecution.markProviderAttempt_keeps l.execution providerId
          input.now.ms
        rw [he] at hkeeps
        exact .same rfl rfl (.inl (congrArg Phase.owning (key_of_keeps hkeeps)))
  | saveFailure l exit =>
    simp only [sendNext]
    refine effect_afterSave (fun _ _ ho => World.saveExecution_rest ho) fun w' e' ho => .inl ?_
    show (if exit.beforeClaim then Phase.before else Phase.owning e'.state.idempotencyKey) =
      if exit.beforeClaim then Phase.before else Phase.owning l.key
    rw [saveExecution_key ho]
    rfl
  | markFailed l exit =>
    simp only [sendNext]
    refine effect_setRecord rfl rfl fun hsome => ?_
    cases hb : exit.beforeClaim with
    | true => exact .inr ⟨by simp [SendPc.phase, hb], l, exit, rfl, rfl, hb, hf, hsome⟩
    | false =>
      left
      simp [SendPc.phase, hb, Sending.key]
  | saveAttempt l =>
    simp only [sendNext]
    exact effect_afterSave (fun _ _ ho => World.saveExecution_rest ho) fun _ _ ho =>
      .inl (congrArg Phase.owning (saveExecution_key ho))
  | send l => exact .quiet rfl (.inr ⟨_, rfl, rfl⟩) (.inl rfl)
  | awaitAnswer l =>
    simp only [sendNext]
    refine .quiet rfl (.inr ⟨_, rfl, rfl⟩) ?_
    exact onAnswer_phase _ input.answer input.now.ms
  | saveAccepted l answer =>
    simp only [sendNext]
    exact effect_afterSave (fun _ _ ho => World.saveExecution_rest ho) fun _ _ ho =>
      .inl (congrArg Phase.owning (saveExecution_key ho))
  | saveCampaign l answer =>
    simp only [sendNext]
    exact effect_afterSave (fun _ _ ho => (World.saveCampaign_rest ho).2) fun _ _ _ => .inl rfl
  | markCompleted l answer =>
    simp only [sendNext]
    exact effect_setRecord rfl rfl fun _ => .inl rfl
  | loadCampaignForAdvance l =>
    simp only [sendNext]
    rcases advance_cases cfg l (w.loadCampaign (calls i).ctx l.sequence.state.campaignId)
      input.now.ms with ⟨ended, h⟩ | ⟨nextDueAt, hasMoreSteps, -, h⟩ <;> rw [h] <;>
      exact .same rfl rfl (.inr rfl)
  | saveSequence sequence campaign nextDueAt hasMoreSteps =>
    simp only [sendNext]
    refine effect_afterSave (fun _ _ ho => (World.saveSequence_rest ho).2) fun w' s' _ => .inr ?_
    split <;> rfl
  | saveCampaignComplete campaign nextDueAt =>
    simp only [sendNext]
    exact effect_afterSave (fun _ _ ho => (World.saveCampaign_rest ho).2) fun _ _ _ => .inr rfl
  | saveAmbiguous l reason =>
    simp only [sendNext]
    exact effect_afterSave (fun _ _ ho => World.saveExecution_rest ho) fun _ _ _ => .inr rfl
  | loadAuthoritative =>
    simp only [sendNext]
    split <;> exact .same rfl rfl (.inr rfl)
  | getRecord idempotencyKey =>
    simp only [sendNext]
    split <;> exact .same rfl rfl (.inr rfl)
  | reload record =>
    simp only [sendNext]
    split
    · exact .same rfl rfl (.inr rfl)
    next e he =>
      rcases resolveDuplicate_cases record e input.now.ms with ⟨result, h⟩ | ⟨e', h⟩ <;> rw [h] <;>
        exact .same rfl rfl (.inr rfl)
  | saveAuthoritative e =>
    simp only [sendNext]
    split
    next ho =>
      obtain ⟨hs, hl⟩ := World.saveExecution_rest ho
      exact .same hs hl (.inr rfl)
    · exact .same rfl rfl (.inr rfl)
    · exact .same rfl rfl (.inr rfl)
  | reloadNewer e => exact .same rfl rfl (.inr rfl)
  | done ended => exact .same rfl rfl (.inl rfl)

end

theorem sendStep_effect (cfg : Outreach.Config) (calls : Nat → SendCall) (i : Nat) (input : Input)
    (w : World) (p : SendPc) :
    RecordEffect calls i input w p (sendStep cfg calls i input w p).1
      (sendStep cfg calls i input w p).2 := by
  cases hf : input.fault with
  | none =>
    rw [sendStep_eq_sendNext cfg calls i w p hf]
    exact sendNext_effect cfg hf
  | some message =>
    obtain ⟨ended, h, -⟩ := sendStep_fault cfg calls i w p hf
    rw [h]
    exact .same rfl rfl (.inr rfl)

/-! ## The log -/

theorem holder_quiet {o : Observed} (h : o.quiet = true) (key : Triple) (log : List Observed) :
    holder key (o :: log) = holder key log := by
  cases o with
  | claimed i k => cases h
  | _ => rfl

theorem writtenByHolder_quiet {o : Observed} (h : o.quiet = true) (log : List Observed) :
    WrittenByHolder (o :: log) ↔ WrittenByHolder log := by
  cases o with
  | wrote i k status => cases h
  | _ => exact Iff.rfl

theorem WrittenByHolder.of_cons {o : Observed} {log : List Observed}
    (h : WrittenByHolder (o :: log)) : WrittenByHolder log := by
  cases o with
  | wrote i k status => exact h.2
  | _ => exact h

/-- No step takes an entry of the log back. -/
theorem writtenByHolder_of_step {cfg : Outreach.Config} {calls : Nat → SendCall}
    {c : Interleave.Config World SendPc} {a : Tick Input}
    (h : WrittenByHolder (c.step (sendStep cfg calls) a).world.log) :
    WrittenByHolder c.world.log := by
  rw [Config.step_world] at h
  rcases sendStep_effect cfg calls a.call a.input c.world (c.pc a.call) with
    ⟨-, hl | ⟨o, -, hl⟩, -⟩ | ⟨_, _, _, _, _, hl⟩ | ⟨_, _, _, _, _, _, hl⟩
  · rwa [hl] at h
  all_goals rw [hl] at h; exact h.of_cons

theorem writtenByHolder_of_run {cfg : Outreach.Config} {calls : Nat → SendCall}
    {s : List (Tick Input)} : ∀ {c : Interleave.Config World SendPc},
    WrittenByHolder (run (sendStep cfg calls) c s).world.log → WrittenByHolder c.world.log := by
  induction s with
  | nil => intro c h; exact h
  | cons a s ih => intro c h; exact writtenByHolder_of_step (ih h)

/-! ## Runs -/

/-- The call holds the claim of the key, whose record is not free. -/
def Owns (k : Triple) (i : Nat) (w : World) : Prop :=
  holder k w.log = some i ∧ ClaimRegister.wins Record.reclaimable w.idempotency k = false

/-- A call that has not claimed yet holds no claim; an owner holds the one of its key. -/
def Stands (calls : Nat → SendCall) (i : Nat) (w : World) : Phase → Prop
  | .before => ∀ key, holder key w.log ≠ some i
  | .owning key => Owns (sendKey (calls i).ctx key) i w
  | .after => True

def ClaimInv (calls : Nat → SendCall) : Interleave.Config World SendPc → Prop :=
  Each fun i w p => Stands calls i w p.phase

theorem claimInv_start (calls : Nat → SendCall) {w : World} (h : w.log = []) :
    ClaimInv calls (startSends w) := by
  intro i key
  show holder key w.log ≠ some i
  rw [h]
  exact nofun

section

variable {calls : Nat → SendCall} {i j : Nat} {w w' : World} {phase : Phase} {k k' : Triple}
  {r : Record} {status : Idempotency.Status}

theorem Owns.quiet (hs : w'.idempotency = w.idempotency)
    (hl : ∀ key, holder key w'.log = holder key w.log) (h : Owns k i w) : Owns k i w' :=
  ⟨by rw [hl, h.1], by rw [hs, h.2]⟩

/-- A claim does not meet a key that is owned. -/
theorem Owns.claim (hwins : ClaimRegister.wins Record.reclaimable w.idempotency k' = true)
    (hs : w'.idempotency = Function.update w.idempotency k' (some r))
    (hl : w'.log = .claimed j k' :: w.log) (h : Owns k i w) : Owns k i w' := by
  obtain ⟨hholder, hw⟩ := h
  have hne : k ≠ k' := by
    rintro rfl
    rw [hwins] at hw
    cases hw
  refine ⟨?_, ?_⟩
  · rw [hl, holder, if_neg hne.symm, hholder]
  · unfold ClaimRegister.wins
    rw [hs, Function.update_of_ne hne]
    exact hw

theorem Owns.write (hne : k ≠ k')
    (hs : w'.idempotency = Function.update w.idempotency k' (some r))
    (hl : w'.log = .wrote j k' status :: w.log) (h : Owns k i w) : Owns k i w' := by
  refine ⟨?_, ?_⟩
  · rw [hl, holder_wrote, h.1]
  · unfold ClaimRegister.wins
    rw [hs, Function.update_of_ne hne]
    exact h.2

theorem Stands.quiet (hs : w'.idempotency = w.idempotency)
    (hl : ∀ key, holder key w'.log = holder key w.log) (h : Stands calls i w phase) :
    Stands calls i w' phase := by
  cases phase with
  | before => exact fun key => by rw [hl]; exact h key
  | owning key => exact Owns.quiet hs hl h
  | after => trivial

theorem Stands.claim (hij : i ≠ j)
    (hwins : ClaimRegister.wins Record.reclaimable w.idempotency k' = true)
    (hs : w'.idempotency = Function.update w.idempotency k' (some r))
    (hl : w'.log = .claimed j k' :: w.log) (h : Stands calls i w phase) :
    Stands calls i w' phase := by
  cases phase with
  | before =>
    intro key
    rw [hl, holder]
    split
    · exact fun e => hij (Option.some.inj e).symm
    · exact h key
  | owning key => exact Owns.claim hwins hs hl h
  | after => trivial

/-- A write by the holder of its key, or on a free one, does not meet a key that another call
holds. -/
theorem Stands.write (hij : i ≠ j)
    (hk : holder k' w.log = some j ∨ ClaimRegister.wins Record.reclaimable w.idempotency k' = true)
    (hs : w'.idempotency = Function.update w.idempotency k' (some r))
    (hl : w'.log = .wrote j k' status :: w.log) (h : Stands calls i w phase) :
    Stands calls i w' phase := by
  cases phase with
  | before =>
    intro key
    rw [hl, holder_wrote]
    exact h key
  | owning key =>
    refine Owns.write ?_ hs hl h
    rintro rfl
    rcases hk with hholder | hwins
    · rw [h.1] at hholder
      exact hij (Option.some.inj hholder)
    · rw [h.2] at hwins
      cases hwins
  | after => trivial

end

section

variable {cfg : Outreach.Config} {calls : Nat → SendCall} {c : Interleave.Config World SendPc}
  {a : Tick Input}

/-- A step keeps the invariant, unless an exit before the claim overwrites a record that is not
free. -/
theorem claimInv_step (cfg : Outreach.Config) (h : ClaimInv calls c)
    (hfree : ∀ l exit, c.pc a.call = .markFailed l exit → exit.beforeClaim = true →
      a.input.fault = none → (setRow? {} (sendKey (calls a.call).ctx l.key) failedResult
        { status := some .failed } a.input.now).isSome →
      ClaimRegister.wins Record.reclaimable c.world.idempotency
        (sendKey (calls a.call).ctx l.key) = true) :
    ClaimInv calls (c.step (sendStep cfg calls) a) := by
  have hmover : Stands calls a.call c.world (c.pc a.call).phase := h a.call
  rcases sendStep_effect cfg calls a.call a.input c.world (c.pc a.call) with
    ⟨hs, hl, hp⟩ | ⟨key, hb, hp, hwins, ⟨r, hr, hs⟩, hl⟩ |
    ⟨key, status, -, hp, hb, ⟨r, hr, hs⟩, hl⟩
  · have hholder : ∀ key, holder key (c.step (sendStep cfg calls) a).world.log =
        holder key c.world.log := by
      intro key
      rw [Config.step_world]
      rcases hl with hl | ⟨o, ho, hl⟩ <;> rw [hl]
      exact holder_quiet ho key _
    refine h.step ?_ fun i p _ => Stands.quiet hs hholder
    rcases hp with hp | hp <;> rw [hp]
    · exact hmover.quiet hs hholder
    · trivial
  · refine h.step ?_ fun i p hi => Stands.claim hi hwins hs hl
    rcases hp with hp | hp <;> rw [hp]
    · refine ⟨?_, ?_⟩
      · rw [Config.step_world, hl, holder, if_pos rfl]
      · rw [Config.step_world, hs]
        simp [ClaimRegister.wins, Record.reclaimable, hr]
    · trivial
  · have hk : holder (sendKey (calls a.call).ctx key) c.world.log = some a.call ∨
        ClaimRegister.wins Record.reclaimable c.world.idempotency
          (sendKey (calls a.call).ctx key) = true := by
      rcases hb with hb | ⟨-, l, exit, hpc, rfl, hexit, hfault, hrow⟩
      · rw [hb] at hmover
        exact .inl hmover.1
      · exact .inr (hfree l exit hpc hexit hfault hrow)
    refine h.step ?_ fun i p hi => Stands.write hi hk hs hl
    rw [hp]
    trivial

/-- A write of a call that owns its claim is a write by the holder. -/
theorem writtenByHolder_step (cfg : Outreach.Config) (h : ClaimInv calls c)
    (hok : writesUnclaimed calls c a = false) (hw : WrittenByHolder c.world.log) :
    WrittenByHolder (c.step (sendStep cfg calls) a).world.log := by
  have hmover : Stands calls a.call c.world (c.pc a.call).phase := h a.call
  rw [Config.step_world]
  rcases sendStep_effect cfg calls a.call a.input c.world (c.pc a.call) with
    ⟨-, hl | ⟨o, ho, hl⟩, -⟩ | ⟨key, -, -, -, -, hl⟩ |
    ⟨key, status, -, -, hb, -, hl⟩ <;> rw [hl]
  · exact hw
  · exact (writtenByHolder_quiet ho _).mpr hw
  · exact hw
  · refine ⟨?_, hw⟩
    rcases hb with hb | ⟨-, l, exit, hpc, rfl, hexit, hfault, hrow⟩
    · rw [hb] at hmover
      exact hmover.1
    · rw [writesUnclaimed, hpc] at hok
      simp [hexit, hfault, hrow] at hok

/-- An unclaimed exit that writes is no holder. -/
theorem not_writtenByHolder_of_writesUnclaimed (h : ClaimInv calls c)
    (hw : writesUnclaimed calls c a = true) :
    ¬ WrittenByHolder (c.step (sendStep cfg calls) a).world.log := by
  unfold writesUnclaimed at hw
  split at hw
  next l exit hpc =>
    simp only [Bool.and_eq_true, Option.isNone_iff_eq_none] at hw
    obtain ⟨⟨hexit, hfault⟩, hrow⟩ := hw
    have hmover : Stands calls a.call c.world (c.pc a.call).phase := h a.call
    rw [hpc] at hmover
    simp only [SendPc.phase, hexit, if_true] at hmover
    rw [Config.step_world, sendStep_eq_sendNext _ _ _ _ _ hfault, hpc]
    obtain ⟨row, hrow⟩ := Option.isSome_iff_exists.mp hrow
    have hkey : l.execution.state.idempotencyKey = l.key := rfl
    simp only [sendNext, setRecord, Idempotency.Postgres.set, hkey, hrow]
    exact fun hwritten => hmover _ hwritten.1
  · cases hw

end

/-- From any configuration the invariant holds in. -/
theorem ClaimInv.writtenByHolder_iff {cfg : Outreach.Config} {calls : Nat → SendCall}
    {s : List (Tick Input)} : ∀ {c : Interleave.Config World SendPc}, ClaimInv calls c →
    WrittenByHolder c.world.log → (WrittenByHolder (run (sendStep cfg calls) c s).world.log ↔
      Meets (sendStep cfg calls) (fun c a => writesUnclaimed calls c a = false) c s) := by
  induction s with
  | nil => exact fun _ hw => ⟨fun _ => trivial, fun _ => hw⟩
  | cons a s ih =>
    intro c h hw
    rw [run_cons, Meets]
    cases hu : writesUnclaimed calls c a with
    | true =>
      refine ⟨fun hrun => ?_, fun hm => by cases hm.1⟩
      exact absurd (writtenByHolder_of_run hrun) (not_writtenByHolder_of_writesUnclaimed h hu)
    | false =>
      have hinv : ClaimInv calls (c.step (sendStep cfg calls) a) := by
        refine claimInv_step cfg h fun l exit hpc hexit hfault hrow => ?_
        rw [writesUnclaimed, hpc] at hu
        simp [hexit, hfault, hrow] at hu
      rw [ih hinv (writtenByHolder_step cfg h hu hw)]
      exact ⟨fun hm => ⟨rfl, hm⟩, fun hm => hm.2⟩

/-- **Claim ownership.** In every run of any number of calls, on any executions and keys and from
any stored rows, every record is written by the holder of its key iff no call that was denied or
rate-limited before its claim writes one. -/
theorem recordsWrittenByHolder_iff (cfg : Outreach.Config) (calls : Nat → SendCall) (w : World)
    (s : List (Tick Input)) :
    WrittenByHolder (run (sendStep cfg calls) (startSends { w with log := [] }) s).world.log ↔
      Meets (sendStep cfg calls) (fun c a => writesUnclaimed calls c a = false)
        (startSends { w with log := [] }) s :=
  (claimInv_start calls rfl).writtenByHolder_iff trivial

/-- An approved execution with its sequence and campaign. -/
def sampleWorld : World :=
  World.ofRows [sampleExecution "execution" "sequence" 0 .approved]
    [sampleSequence "sequence" 1 .running] [sampleCampaign 1 {}]

def rateLimited (i : Nat) : Tick Input :=
  ⟨i, { now := .epoch, gate := { rateLimit := fun _ => .exceeded 1000 } }⟩

/-- Call 0 claims and submits; then call 1 meets the rate limit and marks the record FAILED. -/
def rateLimitedSchedule : List (Tick Input) :=
  List.replicate 8 (allowed 0) ++ List.replicate 7 (rateLimited 1)

theorem not_recordsWrittenByHolder_rateLimited :
    ¬ ∀ (cfg : Outreach.Config) (calls : Nat → SendCall) (w : World) (s : List (Tick Input)),
      WrittenByHolder (run (sendStep cfg calls) (startSends { w with log := [] }) s).world.log := by
  intro h
  have hrun := h { rateLimitConfig := some { perSecond := some 1 } }
    (fun _ => ⟨sampleContext, "execution", "approval"⟩) sampleWorld rateLimitedSchedule
  revert hrun
  decide +kernel

end VegaRevenue.Outreach
