import VegaRevenue.Outreach.System

/-!
# What a call knows of the sequence it advances

A copy of a sequence is `d` steps ahead of its row as long as it is fresh: a loaded copy none, a
copy whose current step was completed one.

* `Ahead` — such a copy
* `Ahead.save` — a save makes the stored index what the copy counts
* `progresses_systemStep` — a step of any call keeps the plan of every sequence and never counts back
-/

namespace VegaRevenue.Outreach

open Interleave
open Versioned
open Sequence (Props Keeps)

abbrev Sequences := Table RowKey Props

/-- The stored indices only grow, and the plans stay. -/
def Progresses (Q Q' : Sequences) : Prop :=
  ∀ u r, Q.find u = some r →
    ∃ r', Q'.find u = some r' ∧ r.Evolves Props.currentStepIndex Props.plan (· ≤ ·) r'

theorem Progresses.refl (Q : Sequences) : Progresses Q Q :=
  fun _ r h => ⟨r, h, Row.Evolves.refl Nat.le_refl r⟩

/-- `s` is a copy of its row, and `d` steps ahead of it as long as it is fresh. -/
def Ahead (d : Nat) (ctx : Context) (Q : Sequences) (s : Sequence) : Prop :=
  ∃ r, Q.find (rowKey ctx s.state.id) = some r ∧
    Copy Props.currentStepIndex Props.plan r s ∧
    s.state.currentStepIndex ≤ r.payload.currentStepIndex + d ∧
    (Fresh r s → s.state.currentStepIndex = r.payload.currentStepIndex + d)

section

variable {d : Nat} {ctx : Context} {Q Q' : Sequences} {s s' : Sequence}

theorem ahead_load {w : World} {id : String} (h : w.loadSequence ctx id = some s) :
    Ahead 0 ctx w.sequences s ∧ s.state.id = id := by
  obtain ⟨r, hr, rfl⟩ := Option.map_eq_some_iff.mp h
  exact ⟨⟨r, hr, Copy.load (by rfl) (by rfl), Nat.le_refl _, fun _ => rfl⟩, rfl⟩

theorem Ahead.evolve (hQ : Progresses Q Q') (h : Ahead d ctx Q s) : Ahead d ctx Q' s := by
  obtain ⟨r, hr, hc, hle, hf⟩ := h
  obtain ⟨r', hr', he⟩ := hQ _ r hr
  refine ⟨r', hr', hc.evolve he, ?_, fun hfr => ?_⟩
  · have hmoves : r.payload.currentStepIndex ≤ r'.payload.currentStepIndex := he.moves
    omega
  · exact hfr.evolve (Q := fun n => s.state.currentStepIndex = n + d) hc he hf

theorem Ahead.keeps (h : Ahead d ctx Q s) (hk : Keeps s s') (hd : d = 0) : Ahead d ctx Q s' := by
  subst hd
  obtain ⟨r, hr, hc, hle, hf⟩ := h
  refine ⟨r, by rw [hk.id]; exact hr, hc.op hk.loadedVersion hk.version_le (fun _ => hk.index)
    hk.plan, ?_, fun hfr => ?_⟩
  · rw [hk.index]
    exact hle
  · rw [hk.index]
    exact hf (hk.loadedVersion.symm.trans hfr)

/-- Completing the current step puts a copy one step ahead. -/
theorem Ahead.complete (h : Ahead 0 ctx Q s) {executionId : String} {nextDueAt : Option Date}
    {now : Date} (hok : (Sequence.completeStep s executionId nextDueAt now).2 = .ok) :
    Ahead 1 ctx Q (Sequence.completeStep s executionId nextDueAt now).1 ∧
      (Sequence.completeStep s executionId nextDueAt now).1.state.id = s.state.id := by
  rcases Sequence.completeStep_cases s executionId nextDueAt now with
    ⟨-, message, hfail⟩ | ⟨-, -, hthrew⟩ | ⟨-, -, -, hl, hv, hindex, hid, hplan⟩
  · rw [hfail] at hok
    cases hok
  · rw [hthrew] at hok
    cases hok
  · obtain ⟨r, hr, hc, hle, hf⟩ := h
    refine ⟨⟨r, by rw [hid]; exact hr, hc.op hl (Nat.le_of_lt hv) (fun heq => ?_) hplan, ?_,
      fun hfr => ?_⟩, hid⟩
    · omega
    · rw [hindex]
      omega
    · rw [hindex, hf (hl.symm.trans hfr)]

/-- **A save makes the stored index what the copy counts.** -/
theorem Ahead.save {w w' : World} (h : Ahead d ctx w.sequences s)
    (ho : w.saveSequence ctx s = .saved (w', s')) :
    Progresses w.sequences w'.sequences ∧
      ∃ r, w.sequences.find (rowKey ctx s.state.id) = some r ∧
        s.state.currentStepIndex = r.payload.currentStepIndex + d ∧
        ∀ u, w'.sequences.find u =
          if u = rowKey ctx s.state.id then some ⟨s.state, s.version⟩ else w.sequences.find u := by
  obtain ⟨r, hr, hc, hle, hf⟩ := h
  obtain ⟨-, T, hT, rfl⟩ := World.saveSequence_eq_saved ho
  have hfind := Table.find_save hT
  rw [Table.save_eq_swap hr] at hT
  obtain ⟨r', hswap, -⟩ := Option.map_eq_some_iff.mp hT
  have hgrows : Fresh r s → r.payload.currentStepIndex ≤ s.state.currentStepIndex := by
    intro hfr
    have heq := hf hfr
    omega
  have hevolves : r.Evolves Props.currentStepIndex Props.plan (· ≤ ·) r' :=
    (hc.swap hgrows hswap).1
  obtain ⟨-, -, rfl, hfresh⟩ := hc.swap hgrows hswap
  refine ⟨fun u r₀ hr₀ => ?_, r, hr, hf hfresh, hfind⟩
  by_cases hu : u = rowKey ctx s.state.id
  · obtain rfl : r = r₀ := Option.some.inj (hr.symm.trans (hu ▸ hr₀))
    exact ⟨_, by rw [hfind, if_pos hu], hevolves⟩
  · exact ⟨r₀, by rw [hfind, if_neg hu]; exact hr₀, Row.Evolves.refl Nat.le_refl r₀⟩

end

/-! ## What a call knows -/

/-- The local copies belong together: the sequence is a loaded copy, and that of the execution. -/
def Linked (ctx : Context) (Q : Sequences) (l : Sending) : Prop :=
  Ahead 0 ctx Q l.sequence ∧ l.sequence.state.id = l.execution.state.sequenceId

def SendCopy (ctx : Context) (Q : Sequences) : SendPc → Prop
  | .loadCampaign e s => Ahead 0 ctx Q s ∧ s.state.id = e.state.sequenceId
  | .recoverRecipient l | .evaluate l | .selectProvider l | .saveAttempt l | .send l
  | .awaitAnswer l | .saveAccepted l _ | .saveCampaign l _ | .markCompleted l _
  | .loadCampaignForAdvance l => Linked ctx Q l
  | .saveSequence s _ _ _ => Ahead 1 ctx Q s
  | _ => True

/-- The copy of the sequence a draft is prepared for. -/
abbrev PrepareCopy (call : PrepareCall) (Q : Sequences) (s : Sequence) : Prop :=
  Ahead 0 call.ctx Q s ∧ s.state.id = call.sequenceId

/-- What a call knows of the stored sequences at the operation it waits for. -/
def CopyKnown (Q : Sequences) : SystemPc → Prop
  | .send call p => SendCopy call.ctx Q p
  | .operate call (.save s) => Ahead 0 call.ctx Q s
  | .prepare call p => PrepareKnows call.ctx (PrepareCopy call Q)
      (fun s c => PrepareCopy call Q s ∧ c.state.id = s.state.campaignId) p
  | _ => True

theorem Linked.evolve {ctx : Context} {Q Q' : Sequences} {l : Sending} (hQ : Progresses Q Q')
    (h : Linked ctx Q l) : Linked ctx Q' l := ⟨h.1.evolve hQ, h.2⟩

theorem SendCopy.evolve {ctx : Context} {Q Q' : Sequences} {p : SendPc} (hQ : Progresses Q Q')
    (h : SendCopy ctx Q p) : SendCopy ctx Q' p := by
  cases p with
  | loadCampaign e s => exact ⟨h.1.evolve hQ, h.2⟩
  | saveSequence s campaign nextDueAt hasMoreSteps => exact Ahead.evolve hQ h
  | _ => first | trivial | exact Linked.evolve hQ h

theorem CopyKnown.evolve {Q Q' : Sequences} {p : SystemPc} (hQ : Progresses Q Q')
    (h : CopyKnown Q p) : CopyKnown Q' p := by
  cases p with
  | send call p => exact SendCopy.evolve hQ h
  | operate call p =>
    cases p with
    | save s => exact Ahead.evolve hQ h
    | _ => trivial
  | prepare call p =>
    refine PrepareKnows.mono (fun s hs => ⟨hs.1.evolve hQ, hs.2⟩) (fun s c hl => ?_) h
    exact ⟨⟨hl.1.1.evolve hQ, hl.1.2⟩, hl.2⟩
  | _ => trivial

theorem Linked.keeps {ctx : Context} {Q : Sequences} {l l' : Sending} (h : Linked ctx Q l)
    (hs : l'.sequence = l.sequence)
    (he : l'.execution.state.sequenceId = l.execution.state.sequenceId) : Linked ctx Q l' := by
  unfold Linked
  rw [hs, he]
  exact h

theorem sequenceId_of_keeps {a b : MessageExecution} (h : MessageExecution.Keeps a b) :
    b.state.sequenceId = a.state.sequenceId := congrArg Route.sequenceId (route_of_keeps h)

/-! ## One step of `executeApprovedSend` -/

/-- The sequences progress, and the call knows what it needs next. -/
def CopiesStay (ctx : Context) (w : World) (r : World × SendPc) : Prop :=
  Progresses w.sequences r.1.sequences ∧ SendCopy ctx r.1.sequences r.2

section

variable {call : SendCall} {i : Nat} {input : Input} {w : World} {p : SendPc}

/-- A step that touches no sequence. -/
theorem CopiesStay.same {ctx : Context} {w' : World} {p' : SendPc}
    (hw : w'.sequences = w.sequences) (h : SendCopy ctx w.sequences p') :
    CopiesStay ctx w (w', p') := by
  unfold CopiesStay
  dsimp only
  rw [hw]
  exact ⟨Progresses.refl _, h⟩

theorem copies_afterSave_execution {ctx : Context} {e : MessageExecution}
    {next : MessageExecution → SendPc}
    (hnext : ∀ e', e'.state = e.state → SendCopy ctx w.sequences (next e')) :
    CopiesStay ctx w (afterSave w (w.saveExecution ctx e) next) := by
  refine afterSave_elim (fun w' e' ho => ?_) (.same rfl trivial) fun _ => .same rfl trivial
  obtain ⟨-, -, rfl, T, -, rfl⟩ := World.saveExecution_eq_saved ho
  exact .same rfl (hnext _ rfl)

theorem copies_afterSave_campaign {ctx : Context} {campaign : Campaign} {next : Campaign → SendPc}
    (hnext : ∀ c', SendCopy ctx w.sequences (next c')) :
    CopiesStay ctx w (afterSave w (w.saveCampaign ctx campaign) next) := by
  refine afterSave_elim (fun w' c' ho => ?_) (.same rfl trivial) fun _ => .same rfl trivial
  obtain ⟨-, T, -, rfl⟩ := World.saveCampaign_eq_saved ho
  exact .same rfl (hnext c')

theorem copies_setRecord {ctx : Context} {e : MessageExecution} {result : Json}
    {status : Idempotency.Status} {now : Idempotency.Clock} {next : SendPc}
    (hnext : SendCopy ctx w.sequences next) :
    CopiesStay ctx w (setRecord w ctx i e result status now next) := by
  rcases setRecord_cases w ctx i e result status now next with ⟨-, r, -, h⟩ | ⟨-, h⟩ <;> rw [h]
  · exact .same rfl hnext
  · exact .same rfl trivial

theorem copy_onAnswer {ctx : Context} {Q : Sequences} {l : Sending} (h : Linked ctx Q l)
    (answer : ProviderSendResult) (now : Date) : SendCopy ctx Q (onAnswer l answer now) := by
  have hkeeps := MessageExecution.markProviderAccepted_keeps l.execution answer.providerMessageId
    answer.internetMessageId answer.providerErrorCode now
  unfold onAnswer
  split
  iterate 3
    split
    · trivial
    next e _ _ he =>
      rw [he] at hkeeps
      exact h.keeps rfl (sequenceId_of_keeps
        (hkeeps.trans (MessageExecution.markDeliveryPending_keeps e now)))
  · trivial
  · trivial
  · trivial

/-- The sequence goes on to its save one step ahead. -/
theorem copy_advance (cfg : Outreach.Config) {ctx : Context} {Q : Sequences} {l : Sending}
    (h : Linked ctx Q l) (campaign : Option Campaign) (now : Date) :
    SendCopy ctx Q (advance cfg l campaign now) := by
  rcases advance_cases cfg l campaign now with ⟨ended, hr⟩ | ⟨nextDueAt, hasMoreSteps, hok, hr⟩ <;>
    rw [hr]
  · trivial
  · exact (h.1.complete hok).1

/-- **A step of a call keeps what it knows of its copy of the sequence.** -/
theorem copies_sendNext (cfg : Outreach.Config) (h : SendCopy call.ctx w.sequences p) :
    CopiesStay call.ctx w (sendNext cfg call i input w p) := by
  cases p with
  | loadExecution =>
    simp only [sendNext]
    split <;> exact .same rfl trivial
  | loadSequence e =>
    simp only [sendNext]
    split
    · exact .same rfl trivial
    next s hs => exact .same rfl (ahead_load hs)
  | loadCampaign e s =>
    simp only [sendNext]
    split
    · exact .same rfl trivial
    · split
      · exact .same rfl trivial
      next l hl =>
        obtain ⟨-, hk, -, hs, -⟩ := checkReady_inr hl
        refine .same rfl ?_
        show Linked _ _ l
        unfold Linked
        rw [hs, sequenceId_of_keeps hk]
        exact h
  | recoverRecipient l =>
    simp only [sendNext]
    split
    · exact .same rfl h
    · exact .same rfl trivial
  | evaluate l =>
    obtain ⟨w', p', hr, -, hw, -, ⟨_, rfl⟩ | ⟨_, rfl⟩ | ⟨_, _, rfl, -⟩ | ⟨l', rfl, hs, he⟩⟩ :=
      sendNext_evaluate cfg call i input w l <;> rw [hr]
    · exact .same hw trivial
    · exact .same hw trivial
    · exact .same hw trivial
    · refine .same hw ?_
      exact Linked.keeps h hs (by rw [he])
  | selectProvider l =>
    simp only [sendNext]
    split
    · exact .same rfl trivial
    next providerId _ =>
      have hkeeps := MessageExecution.markProviderAttempt_keeps l.execution providerId input.now.ms
      split
      · exact .same rfl trivial
      next e _ _ he =>
        rw [he] at hkeeps
        exact .same rfl (Linked.keeps h rfl (sequenceId_of_keeps hkeeps))
  | saveFailure l exit => exact copies_afterSave_execution fun _ _ => trivial
  | markFailed l exit => exact copies_setRecord trivial
  | saveAttempt l =>
    refine copies_afterSave_execution fun e' he => ?_
    exact Linked.keeps h rfl (by rw [he])
  | send l => exact .same rfl h
  | awaitAnswer l =>
    simp only [sendNext]
    refine .same rfl ?_
    apply copy_onAnswer
    exact h
  | saveAccepted l answer =>
    refine copies_afterSave_execution fun e' he => ?_
    exact Linked.keeps h rfl (by rw [he])
  | saveCampaign l answer =>
    refine copies_afterSave_campaign fun c' => ?_
    exact Linked.keeps h rfl rfl
  | markCompleted l answer => exact copies_setRecord h
  | loadCampaignForAdvance l => exact .same rfl (copy_advance cfg h _ _)
  | saveSequence s campaign nextDueAt hasMoreSteps =>
    refine afterSave_elim (fun w' s' ho => ?_) (.same rfl trivial) fun _ => .same rfl trivial
    refine ⟨(Ahead.save h ho).1, ?_⟩
    dsimp only
    split <;> trivial
  | saveCampaignComplete campaign nextDueAt => exact copies_afterSave_campaign fun _ => trivial
  | saveAmbiguous l reason => exact copies_afterSave_execution fun _ _ => trivial
  | loadAuthoritative =>
    simp only [sendNext]
    split <;> exact .same rfl trivial
  | getRecord key =>
    simp only [sendNext]
    split <;> exact .same rfl trivial
  | reload record =>
    simp only [sendNext]
    split
    · exact .same rfl trivial
    next e he =>
      rcases resolveDuplicate_cases record e input.now.ms with ⟨result, hr⟩ | ⟨e', hr⟩ <;>
        rw [hr] <;> exact .same rfl trivial
  | saveAuthoritative e =>
    simp only [sendNext]
    split
    next w' e' ho =>
      obtain ⟨-, -, -, T, -, rfl⟩ := World.saveExecution_eq_saved ho
      exact .same rfl trivial
    · exact .same rfl trivial
    · exact .same rfl trivial
  | reloadNewer e => exact .same rfl trivial
  | done ended => exact .same rfl trivial

theorem copies_sendStep (cfg : Outreach.Config) (h : SendCopy call.ctx w.sequences p) :
    CopiesStay call.ctx w (sendStep cfg (fun _ => call) i input w p) := by
  cases hf : input.fault with
  | none =>
    rw [sendStep_eq_sendNext cfg _ i w p hf]
    exact copies_sendNext cfg h
  | some message =>
    obtain ⟨ended, hr, -⟩ := sendStep_fault cfg (fun _ => call) i w p hf
    rw [hr]
    exact .same rfl trivial

end

/-! ## One step of any call -/

theorem operator_keeps (call : OperatorCall) (s : Sequence) (now : Date) :
    Keeps s (call.op.apply now s) := by
  have hne := call.completesNoStep
  cases hop : call.op with
  | completeStep executionId nextDueAt => exact absurd hop (hne executionId nextDueAt)
  | startStep executionId scheduledAt => exact Sequence.startStep_keeps s executionId scheduledAt
  | failStep executionId reason retryable =>
    exact Sequence.failStep_keeps s executionId reason retryable now
  | waitForResponse deadline => exact Sequence.waitForResponse_keeps s deadline now
  | continueAfterResponse => exact Sequence.continueAfterResponse_keeps s now
  | linkWorkflow workflowId => exact Sequence.linkWorkflow_keeps s workflowId now
  | _ => exact Sequence.transition_keeps s _ _ _ now

section

variable (i : Nat) (input : Input) {w : World}

theorem prepareStep_sequences (call : PrepareCall) (p : PreparePc) :
    (prepareStep (fun _ => call) i input w p).1.sequences = w.sequences := by
  rcases prepareStep_cases call i input w p with ⟨hw, -⟩ | ⟨e, e', -, -, ho, -⟩
  · rw [hw]
  · obtain ⟨-, -, -, T, -, hw⟩ := World.saveExecution_eq_saved ho
    rw [hw]

theorem responseNext_sequences (call : ResponseCall) (p : ResponsePc) :
    (responseNext call input w p).1.sequences = w.sequences := by
  cases p with
  | load => simp only [responseNext]; split <;> rfl
  | save e =>
    simp only [responseNext]
    split
    next w' e' ho =>
      obtain ⟨-, -, -, T, -, rfl⟩ := World.saveExecution_eq_saved ho
      rfl
    · rfl
    · rfl
  | done threw => rfl

theorem reconcileNext_sequences (call : ReconcileCall) (p : ReconcilePc) :
    (reconcileNext call i input w p).1.sequences = w.sequences := by
  cases p with
  | load =>
    simp only [reconcileNext]
    split
    · rfl
    · split <;> rfl
  | save e =>
    simp only [reconcileNext]
    split
    next w' e' ho =>
      obtain ⟨-, -, -, T, -, rfl⟩ := World.saveExecution_eq_saved ho
      rfl
    · rfl
    · rfl
  | set e => simp only [reconcileNext]; split <;> rfl
  | audit => simp only [reconcileNext]; split <;> rfl
  | done ended => rfl

theorem copies_operatorNext {call : OperatorCall} {p : OperatorPc}
    (h : CopyKnown w.sequences (.operate call p)) :
    Progresses w.sequences (operatorNext call input w p).1.sequences ∧
      CopyKnown (operatorNext call input w p).1.sequences
        (.operate call (operatorNext call input w p).2) := by
  cases p with
  | load =>
    simp only [operatorNext]
    split
    · exact ⟨Progresses.refl _, trivial⟩
    next s hs =>
      exact ⟨Progresses.refl _, (ahead_load hs).1.keeps (operator_keeps call s input.now.ms) rfl⟩
  | save s =>
    simp only [operatorNext]
    split
    next w' s' ho => exact ⟨(Ahead.save h ho).1, trivial⟩
    · exact ⟨Progresses.refl _, trivial⟩
  | done => exact ⟨Progresses.refl _, trivial⟩

/-- **A step of any call keeps the plan of every sequence and never counts back.** -/
theorem progresses_systemStep (cfg : Outreach.Config) {p : SystemPc}
    (h : CopyKnown w.sequences p) :
    Progresses w.sequences (systemStep cfg i input w p).1.sequences ∧
      CopyKnown (systemStep cfg i input w p).1.sequences (systemStep cfg i input w p).2 := by
  cases p with
  | prepare call p =>
    have hw := prepareStep_sequences i input call p (w := w)
    simp only [systemStep, hw]
    refine ⟨Progresses.refl _, ?_⟩
    refine knows_prepareStep i (fun s hs => ahead_load hs) (fun s c hs hc => ⟨hs, ?_⟩) h
    -- the id column of the loaded campaign is the id it was loaded by
    obtain ⟨r, -, rfl⟩ := Option.map_eq_some_iff.mp hc
    rfl
  | send call p => exact copies_sendStep cfg h
  | response call p =>
    have hw := responseNext_sequences input call p (w := w)
    cases hf : input.fault <;> cases p <;> simp only [systemStep, hf, hw] <;>
      exact ⟨Progresses.refl _, trivial⟩
  | reconcile call p =>
    have hw := reconcileNext_sequences i input call p (w := w)
    cases hf : input.fault <;> cases p <;> simp only [systemStep, hf, hw] <;>
      exact ⟨Progresses.refl _, trivial⟩
  | operate call p =>
    cases hf : input.fault with
    | some message =>
      simp only [systemStep, hf]
      exact ⟨Progresses.refl _, trivial⟩
    | none =>
      simp only [systemStep, hf]
      exact copies_operatorNext input h

end

theorem copyKnown_start (w : World) (calls : Nat → SystemCall) :
    Each (fun _ w p => CopyKnown w.sequences p) (startCalls w calls) := by
  intro i
  show CopyKnown w.sequences (calls i).start
  cases calls i <;> trivial

theorem copyKnown_step (cfg : Outreach.Config) {c : Interleave.Config World SystemPc}
    {a : Tick Input} (h : Each (fun _ w p => CopyKnown w.sequences p) c) :
    Each (fun _ w p => CopyKnown w.sequences p) (c.step (systemStep cfg) a) := by
  obtain ⟨hprogress, hknown⟩ := progresses_systemStep a.call a.input cfg (h a.call)
  exact h.step hknown fun i p _ hi => hi.evolve hprogress

end VegaRevenue.Outreach
