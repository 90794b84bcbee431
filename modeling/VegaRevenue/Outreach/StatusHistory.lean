import VegaRevenue.Outreach.Writers

/-!
# The stored histories of message executions

Every save moves a stored status along a path of the table, with the two edges of the operator,
whatever the interleaving: a copy that is still fresh has the status of its row. The attempts are
another matter, because an attempt is counted without a new version.

* `Tracked` — a copy whose status is reached by a path from the status of its row
* `lawful_iff_savesNoOvertaken` — a run keeps to the published histories iff no call saves a copy that was
  overtaken by an attempt
-/

namespace VegaRevenue.Outreach

open Interleave
open Versioned
open MessageExecution (Status Props Keeps Path Accepted Goes)

/-! ## The law and the condition -/

/-- From one state of the rows to the next: statuses move along paths, final ones stay, no attempt
is taken back, and what the provider accepted never counts as failed before its submission. -/
structure Lawful (T T' : Executions) : Prop where
  path : ∀ t r, T.find t = some r →
    ∃ r', T'.find t = some r' ∧ Path r.payload.status r'.payload.status
  final : ∀ t r r', T.find t = some r → T'.find t = some r' →
    r.payload.status.isFinal = true → r'.payload.status = r.payload.status
  attempts : ∀ t r r', T.find t = some r → T'.find t = some r' →
    r.payload.attempts ≤ r'.payload.attempts
  accepted : ∀ t r', T'.find t = some r' → r'.payload.providerAcceptedAt ≠ none →
    r'.payload.status ≠ .failedPreSubmission

/-- The row is still at the version the copy was loaded at, but has counted an attempt that the copy
does not know of. -/
def Overtaken (w : World) (ctx : Context) (e : MessageExecution) : Prop :=
  ∃ r, w.executions.find (rowKey ctx e.state.id) = some r ∧ e.loadedVersion = some r.version ∧
    e.state.attempts < r.payload.attempts

/-- The call that moves saves no copy that was overtaken. -/
def SavesNoOvertaken (c : Interleave.Config World WriterPc) (a : Tick Input) : Prop :=
  a.input.fault = none → ∀ ctx e, (c.pc a.call).saving = some (ctx, e) →
    ¬ Overtaken c.world ctx e

/-! ## Tracked copies -/

/-- All rows with a recorded acceptance are past the submission. -/
def RowsAccepted (T : Executions) : Prop := ∀ t r, T.find t = some r → Accepted r.payload

/-- A copy whose status is reached by a path from the status of its row. -/
structure Tracked (ctx : Context) (id : String) (T : Executions) (e : MessageExecution) : Prop where
  holds : Holds (Path · e.state.status) (rowKey ctx id) T e
  accepted : Accepted e.state
  tenantId : e.state.tenantId = ctx.tenantId
  workspaceId : e.state.workspaceId = ctx.workspaceId

section

variable {ctx : Context} {id : String} {T T' : Executions} {e e' : MessageExecution} {w w' : World}

theorem Tracked.evolve (hT : Moves T T') (h : Tracked ctx id T e) : Tracked ctx id T' e :=
  ⟨h.holds.evolve hT, h.accepted, h.tenantId, h.workspaceId⟩

theorem Tracked.goes {n : Nat} (h : Tracked ctx id T e) (hg : Goes n e e') :
    Tracked ctx id T e' where
  holds := (h.holds.mono fun _ hpath => hpath.trans hg.path).keeps hg.keeps
  accepted := hg.accepted h.accepted
  tenantId := (congrArg MessageExecution.Identity.tenantId hg.keeps.identity).trans h.tenantId
  workspaceId :=
    (congrArg MessageExecution.Identity.workspaceId hg.keeps.identity).trans h.workspaceId

theorem tracked_load (hrows : RowsAccepted w.executions) (h : w.loadExecution ctx id = some e) :
    Tracked ctx id w.executions e := by
  have hholds := (holds_load h).1
  obtain ⟨r, hr, rfl⟩ := Option.map_eq_some_iff.mp h
  refine ⟨hholds.mono fun s hs => ?_, hrows _ r hr, rfl, rfl⟩
  rw [hs]
  exact .refl

/-- A save leaves a tracked copy. -/
theorem Tracked.saved (h : Tracked ctx id w.executions e)
    (ho : w.saveExecution ctx e = .saved (w', e')) : Tracked ctx id w'.executions e' := by
  obtain ⟨r, hrewrites, -⟩ := h.holds.rewrites ho
  obtain ⟨-, -, rfl, -⟩ := World.saveExecution_eq_saved ho
  have hself : w'.executions.find (rowKey ctx id) = some ⟨e.state, e.version⟩ := by
    rw [hrewrites.after, if_pos rfl]
  have hcopy : Copy Props.status route ⟨e.state, e.version⟩ (e.setVersion e.version) :=
    ⟨⟨e.version, rfl, Nat.le_refl _, Nat.le_refl _⟩, fun _ _ => rfl, rfl⟩
  exact ⟨⟨h.holds.id, _, hself, hcopy, fun _ => .refl⟩, h.accepted, h.tenantId, h.workspaceId⟩

/-- The version a copy was loaded at is no newer than its row, nor than the copy. -/
theorem Tracked.loaded {r : Row Props} (h : Tracked ctx id T e)
    (hr : T.find (rowKey ctx id) = some r) :
    ∃ v, e.loadedVersion = some v ∧ v ≤ r.version ∧ v ≤ e.version := by
  obtain ⟨-, r₀, hr₀, hc, -⟩ := h.holds
  obtain rfl : r = r₀ := Option.some.inj (hr.symm.trans hr₀)
  exact hc.loaded

/-- A copy that is saved was fresh. -/
theorem saved_fresh {r : Row Props} (ho : w.saveExecution ctx e = .saved (w', e'))
    (h : Tracked ctx id w.executions e) (hr : w.executions.find (rowKey ctx id) = some r) :
    Fresh r e := by
  obtain ⟨-, -, -, S, hS, -⟩ := World.saveExecution_eq_saved ho
  rw [show rowKey ctx e.state.id = rowKey ctx id from congrArg (rowKey ctx) h.holds.id] at hS
  have hsome : (w.executions.save (rowKey ctx id) e).isSome := by rw [hS]; rfl
  rw [Table.save_eq_swap hr, Option.isSome_map] at hsome
  unfold Row.swap at hsome
  split at hsome
  next hl => exact hl
  · cases hsome

/-- A copy that was overtaken would be saved. -/
theorem Overtaken.saves (h : Overtaken w ctx e) (ht : e.state.tenantId = ctx.tenantId)
    (hw : e.state.workspaceId = ctx.workspaceId) : (w.saveExecution ctx e).isSaved = true := by
  obtain ⟨r, hr, hl, -⟩ := h
  have hsave : w.executions.save (rowKey ctx e.state.id) e =
      some (w.executions.replace (rowKey ctx e.state.id) ⟨e.state, e.version⟩) := by
    rw [Table.save_eq_swap hr, Row.swap, if_pos hl]
    rfl
  unfold World.saveExecution
  rw [if_neg (not_not_intro ht), if_neg (not_not_intro hw), if_neg (by simp [hl]), hsave]
  rfl

end

/-! ## What a call knows -/

/-- The execution that a call drafts. -/
def PreparePc.draft : PreparePc → Option MessageExecution
  | personalize e _ | saveRejected e _ | savePrepared e _ => some e
  | _ => none

/-- The copies that the calls of the system may still save. -/
def SystemTracks (T : Executions) : SystemPc → Prop
  | .prepare _ p => ∀ e ∈ p.draft, Accepted e.state
  | .send call p => ∀ e ∈ p.copy, Tracked call.ctx call.executionId T e
  | .response call (.save e) => Tracked call.ctx call.executionId T e
  | .reconcile call (.save e) => Tracked call.ctx call.executionId T e
  | _ => True

def WriterKnows (T : Executions) : WriterPc → Prop
  | .system p => SystemKnows T p ∧ SystemTracks T p
  | .expire call (.save e) =>
    Unsettled (rowKey call.ctx call.executionId) T e ∧ Tracked call.ctx call.executionId T e
  | .expire _ _ => True

theorem SystemTracks.evolve {T T' : Executions} (hT : Moves T T') {p : SystemPc}
    (h : SystemTracks T p) : SystemTracks T' p := by
  cases p with
  | prepare call p => exact h
  | send call p => exact fun e he => (h e he).evolve hT
  | response call p =>
    cases p with
    | save e => exact Tracked.evolve hT h
    | _ => trivial
  | reconcile call p =>
    cases p with
    | save e => exact Tracked.evolve hT h
    | _ => trivial
  | operate call p => trivial

theorem WriterKnows.evolve {T T' : Executions} (hT : Moves T T') {p : WriterPc}
    (h : WriterKnows T p) : WriterKnows T' p := by
  cases p with
  | system p => exact ⟨h.1.evolve hT, h.2.evolve hT⟩
  | expire call p =>
    cases p with
    | save e => exact ⟨h.1.evolve hT, h.2.evolve hT⟩
    | _ => trivial

/-- What a call saves is a new execution, or the copy it holds. -/
theorem WriterKnows.saving {T : Executions} {p : WriterPc} (hp : WriterKnows T p) {ctx : Context}
    {e : MessageExecution} (hs : p.saving = some (ctx, e)) :
    (e.loadedVersion = none ∧ Accepted e.state) ∨
      ∃ h id, p.held = some h ∧ h.copy = e ∧ h.key = rowKey ctx id ∧ Tracked ctx id T e := by
  cases p with
  | system p =>
    obtain ⟨hknows, htracks⟩ := hp
    cases p with
    | prepare call p =>
      obtain ⟨e₀, he₀, heq⟩ := Option.map_eq_some_iff.mp hs
      obtain ⟨rfl, rfl⟩ := Prod.mk.inj heq
      cases p with
      | saveRejected e reason =>
        obtain rfl : e = e₀ := Option.some.inj he₀
        obtain ⟨⟨step, hm⟩, -⟩ := hknows
        exact .inl ⟨hm.loadedVersion, htracks e rfl⟩
      | savePrepared e step =>
        obtain rfl : e = e₀ := Option.some.inj he₀
        exact .inl ⟨hknows.1.loadedVersion, htracks e rfl⟩
      | _ => cases he₀
    | send call p =>
      obtain ⟨e₀, he₀, heq⟩ := Option.map_eq_some_iff.mp hs
      obtain ⟨rfl, rfl⟩ := Prod.mk.inj heq
      have hcopy := copy_of_saving he₀
      refine .inr ⟨⟨_, e₀, p.counts⟩, _, ?_, rfl, rfl, htracks e₀ hcopy⟩
      exact Option.map_eq_some_iff.mpr ⟨e₀, hcopy, rfl⟩
    | response call p =>
      cases p with
      | save e =>
        cases hs
        exact .inr ⟨_, _, rfl, rfl, rfl, htracks⟩
      | _ => cases hs
    | reconcile call p =>
      cases p with
      | save e =>
        cases hs
        exact .inr ⟨_, _, rfl, rfl, rfl, htracks⟩
      | _ => cases hs
    | operate call p => cases hs
  | expire call p =>
    cases p with
    | save e =>
      cases hs
      exact .inr ⟨_, _, rfl, rfl, rfl, hp.2⟩
    | _ => cases hs

/-! ## One step of a call -/

section

variable (cfg : Config) (i : Nat) {input : Input} {w : World}

/-- The operations of a response keep to the history. -/
theorem respond_goes (responseType : ResponseType) (e : MessageExecution) (now : Date) :
    Goes 0 e (respond responseType e now) := by
  have hdelivered : ∀ a : MessageExecution, Goes 0 a (if a.state.status = .providerAccepted ∨
      a.state.status = .deliveryPending then (MessageExecution.markDelivered a none now).1
      else a) := by
    intro a
    split
    · exact MessageExecution.markDelivered_goes a now none
    · exact .refl a
  have hopened : ∀ a : MessageExecution, Goes 0 a (if a.state.status = .delivered then
      (MessageExecution.markOpened a now).1 else a) := by
    intro a
    split
    · exact MessageExecution.markOpened_goes a now
    · exact .refl a
  have hreplied : ∀ a : MessageExecution, Goes 0 a (if responseType = .replied then
      (MessageExecution.markReplied a now).1 else a) := by
    intro a
    split
    · exact MessageExecution.markReplied_goes a now
    · exact .refl a
  exact ((hdelivered e).trans (hopened _)).trans (hreplied _)

/-- The operator's verdict is an edge where the service asks for one. -/
theorem reconciled_goes (call : ReconcileCall) {e : MessageExecution}
    (h : reconcilable e.state.status = true) (now : Date) : Goes 0 e (call.reconciled e now) := by
  have hverdicts : Status.delivered ∈ e.state.status.verdicts ∧
      Status.failed ∈ e.state.status.verdicts := by
    simp only [reconcilable, Bool.or_eq_true, decide_eq_true_eq] at h
    rcases h with h | h <;> rw [h] <;> decide
  unfold ReconcileCall.reconciled
  cases call.decision with
  | delivered => exact MessageExecution.markReconciledDelivered_goes e now _ hverdicts.1
  | failed => exact MessageExecution.markReconciledFailed_goes e _ now hverdicts.2

/-- A new execution was accepted by no provider. -/
theorem prepareNext_tracks (call : PrepareCall) {p : PreparePc}
    (h : ∀ e ∈ p.draft, Accepted e.state) :
    ∀ e ∈ (prepareNext call input w p).2.draft, Accepted e.state := by
  have hquiet : ∀ p' : PreparePc, p'.draft = none → ∀ e ∈ p'.draft, Accepted e.state := by
    intro p' hp' e he
    rw [hp'] at he
    cases he
  have hinsert : ∀ (outcome : SaveOutcome (World × MessageExecution)) (result : PrepareDraftResult),
      ∀ e ∈ (afterInsert w outcome result).2.draft, Accepted e.state := by
    intro outcome result
    rcases afterInsert_cases w outcome result with ⟨w', e', -, hr⟩ | ⟨-, message, hr⟩ <;> rw [hr] <;>
      exact hquiet _ rfl
  cases p with
  | loadSequence =>
    simp only [prepareNext]
    split <;> exact hquiet _ rfl
  | loadCampaign sequence =>
    simp only [prepareNext]
    split
    · exact hquiet _ rfl
    · split
      · exact hquiet _ rfl
      · split <;> exact hquiet _ rfl
  | findExisting sequence campaign step key =>
    simp only [prepareNext]
    split
    · exact hquiet _ rfl
    · split
      · exact hquiet _ rfl
      next e he =>
        intro e' he'
        cases he'
        have haccepted := MessageExecution.create_accepted he rfl
        exact (MessageExecution.startDrafting_goes e input.now.ms).accepted haccepted
  | personalize e step =>
    have haccepted := h e rfl
    simp only [prepareNext]
    split
    next message _ =>
      intro e' he'
      cases he'
      exact (MessageExecution.reject_goes e _ input.now.ms).accepted haccepted
    next messageId draft _ =>
      have hdraft := MessageExecution.setDraft_goes e input.now.ms messageId draft
      split
      · exact hquiet _ rfl
      next e₁ _ _ he₁ =>
        rw [he₁] at hdraft
        intro e' he'
        cases he'
        exact hdraft.accepted haccepted
  | saveRejected e reason => exact hinsert _ _
  | savePrepared e step => exact hinsert _ _
  | done ended => exact hquiet _ rfl

theorem prepareStep_tracks (call : PrepareCall) {p : PreparePc}
    (h : ∀ e ∈ p.draft, Accepted e.state) :
    ∀ e ∈ (prepareStep (fun _ => call) i input w p).2.draft, Accepted e.state := by
  cases hf : input.fault with
  | none =>
    rw [prepareStep_eq_prepareNext i w p hf]
    exact prepareNext_tracks call h
  | some message =>
    rcases prepareStep_fault i w p hf with hr | ⟨ended, -, hr⟩ <;> rw [hr]
    · intro e he
      cases he
    · exact h

/-- A copy that selects its provider or awaits its answer is SENDING. -/
theorem sending_of_knows {T : Executions} {call : SendCall} {p : SendPc}
    (h : SystemKnows T (.send call p)) :
    ∀ l, p = .selectProvider l ∨ p = .awaitAnswer l → l.execution.state.status = .sending := by
  rintro l (rfl | rfl) <;> exact h.1

/-- **A step of a send keeps its copy tracked.** -/
theorem sendStep_tracks (call : SendCall) {p : SendPc} (hrows : RowsAccepted w.executions)
    (hknows : SystemKnows w.executions (.send call p))
    (h : ∀ e ∈ p.copy, Tracked call.ctx call.executionId w.executions e)
    (hmoves : Moves w.executions (sendStep cfg (fun _ => call) i input w p).1.executions) :
    ∀ e ∈ (sendStep cfg (fun _ => call) i input w p).2.copy,
      Tracked call.ctx call.executionId
        (sendStep cfg (fun _ => call) i input w p).1.executions e := by
  cases hf : input.fault with
  | some message =>
    obtain ⟨ended, hr, -⟩ := sendStep_fault cfg (fun _ => call) i w p hf
    rw [hr]
    intro e he
    cases he
  | none =>
    rw [sendStep_eq_sendNext cfg (fun _ => call) i w p hf] at hmoves ⊢
    intro e' he'
    rcases sendNext_follows cfg (sending_of_knows hknows) e' he' with
      ⟨-, e, he | hload, hgoes⟩ | ⟨-, e, he, ho⟩
    · exact ((h e he).evolve hmoves).goes hgoes
    · exact ((tracked_load hrows hload).evolve hmoves).goes hgoes
    · exact (h e (copy_of_saving he)).saved ho

variable (input) in
/-- A step of a response, of the operator and of an expiry likewise. -/
theorem responseNext_tracks (call : ResponseCall) (hrows : RowsAccepted w.executions)
    (p : ResponsePc) :
    SystemTracks (responseNext call input w p).1.executions
      (.response call (responseNext call input w p).2) := by
  cases p with
  | load =>
    simp only [responseNext]
    split
    · trivial
    next e he => exact (tracked_load hrows he).goes (respond_goes call.responseType e _)
  | save e =>
    simp only [responseNext]
    split <;> trivial
  | done threw => trivial

variable (input) in
theorem reconcileNext_tracks (call : ReconcileCall) (hrows : RowsAccepted w.executions)
    (p : ReconcilePc) :
    SystemTracks (reconcileNext call i input w p).1.executions
      (.reconcile call (reconcileNext call i input w p).2) := by
  cases p with
  | load =>
    simp only [reconcileNext]
    split
    · trivial
    next e he =>
      split
      next hr => exact (tracked_load hrows he).goes (reconciled_goes call hr _)
      · trivial
  | save e =>
    simp only [reconcileNext]
    split <;> trivial
  | set e =>
    simp only [reconcileNext]
    split <;> trivial
  | audit =>
    simp only [reconcileNext]
    split <;> trivial
  | done ended => trivial

theorem systemStep_tracks (hrows : RowsAccepted w.executions) {p : SystemPc}
    (hknows : SystemKnows w.executions p) (h : SystemTracks w.executions p) :
    SystemTracks (systemStep cfg i input w p).1.executions (systemStep cfg i input w p).2 := by
  cases p with
  | prepare call p => exact prepareStep_tracks i call h
  | send call p =>
    exact sendStep_tracks cfg i call hrows hknows h (Moves.system i input cfg hknows).1
  | response call p =>
    cases hf : input.fault with
    | some message => cases p <;> simp only [systemStep, hf] <;> trivial
    | none =>
      have hnext := responseNext_tracks input call hrows p
      cases p <;> simp only [systemStep, hf] <;> exact hnext
  | reconcile call p =>
    cases hf : input.fault with
    | some message => cases p <;> simp only [systemStep, hf] <;> trivial
    | none =>
      have hnext := reconcileNext_tracks i input call hrows p
      cases p <;> simp only [systemStep, hf] <;> exact hnext
  | operate call p =>
    simp only [systemStep]
    split <;> trivial

variable (input) in
theorem expireNext_knows (call : ExpireCall) (hrows : RowsAccepted w.executions) {p : ExpirePc}
    (h : WriterKnows w.executions (.expire call p)) :
    Moves w.executions (expireNext call input w p).1.executions ∧
      WriterKnows (expireNext call input w p).1.executions
        (.expire call (expireNext call input w p).2) := by
  cases p with
  | load =>
    simp only [expireNext]
    split
    · exact ⟨.refl _, trivial⟩
    next e he =>
      split
      · exact ⟨.refl _, trivial⟩
      next hpending =>
        have hfailed := MessageExecution.markFailed_goes e call.reason input.now.ms .nonRetryable
          none
        split
        · exact ⟨.refl _, trivial⟩
        next e' _ _ he' =>
          rw [he'] at hfailed
          have hunsettled : Unsettled (rowKey call.ctx call.executionId) w.executions e :=
            (holds_load he).1.mono fun s hs => by
              rw [hs, not_not.mp hpending]
              rfl
          exact ⟨.refl _, hunsettled.keeps hfailed.keeps, (tracked_load hrows he).goes hfailed⟩
  | save e =>
    simp only [expireNext]
    split
    next w' e' ho =>
      obtain ⟨hmoves, -⟩ := Holds.save h.1 (fun s => MayMove.of_unsettled) ho
      exact ⟨hmoves, trivial⟩
    · exact ⟨.refl _, trivial⟩
    · exact ⟨.refl _, trivial⟩
  | done ended => exact ⟨.refl _, trivial⟩

variable (input) in
/-- **A step of any call moves the rows on and keeps what the call knows.** -/
theorem writerStep_knows (hrows : RowsAccepted w.executions) {p : WriterPc}
    (h : WriterKnows w.executions p) :
    Moves w.executions (writerStep cfg i input w p).1.executions ∧
      WriterKnows (writerStep cfg i input w p).1.executions (writerStep cfg i input w p).2 := by
  cases p with
  | system p =>
    obtain ⟨hmoves, hknows⟩ := Moves.system i input cfg h.1
    exact ⟨hmoves, hknows, systemStep_tracks cfg i hrows h.1 h.2⟩
  | expire call p =>
    cases hf : input.fault with
    | some message => cases p <;> simp only [writerStep, hf] <;> exact ⟨.refl _, trivial⟩
    | none =>
      have hnext := expireNext_knows input call hrows h
      cases p <;> simp only [writerStep, hf] <;> exact hnext

end

/-! ## One step of the rows -/

section

variable {T : Executions} {w w' : World} {ctx : Context} {id : String} {e e' : MessageExecution}

theorem Lawful.refl (hrows : RowsAccepted T) : Lawful T T where
  path := fun _ r hr => ⟨r, hr, .refl⟩
  final := by
    intro t r r' hr hr' _
    obtain rfl : r = r' := Option.some.inj (hr.symm.trans hr')
    rfl
  attempts := by
    intro t r r' hr hr'
    obtain rfl : r = r' := Option.some.inj (hr.symm.trans hr')
    exact Nat.le_refl _
  accepted := fun t r' hr' hat => (hrows t r' hr').not_failedPreSubmission hat

/-- A new row keeps to the history. -/
theorem lawful_insert (hrows : RowsAccepted w.executions) (hl : e.loadedVersion = none)
    (haccepted : Accepted e.state) (ho : w.saveExecution ctx e = .saved (w', e')) :
    Lawful w.executions w'.executions ∧ RowsAccepted w'.executions := by
  obtain ⟨hnone, hrows'⟩ := saveExecution_insert hl ho
  have hfind : ∀ t r', w'.executions.find t = some r' →
      w.executions.find t = some r' ∨ r'.payload = e.state := by
    intro t r' hr'
    rw [hrows', Table.find_append_single] at hr'
    cases hold : w.executions.find t with
    | some r =>
      rw [hold] at hr'
      exact .inl hr'
    | none =>
      rw [hold, Option.none_or] at hr'
      split at hr'
      · cases hr'
        exact .inr rfl
      · cases hr'
  have hstay : ∀ t r, w.executions.find t = some r → w'.executions.find t = some r := by
    intro t r hr
    rw [hrows', Table.find_append_single, hr]
    rfl
  have hsame : ∀ t r r', w.executions.find t = some r → w'.executions.find t = some r' →
      r' = r := by
    intro t r r' hr hr'
    exact Option.some.inj (hr'.symm.trans (hstay t r hr))
  have hall : RowsAccepted w'.executions := by
    intro t r' hr'
    rcases hfind t r' hr' with hr | heq
    · exact hrows t r' hr
    · rw [heq]
      exact haccepted
  refine ⟨⟨fun t r hr => ⟨r, hstay t r hr, .refl⟩, ?_, ?_, ?_⟩, hall⟩
  · intro t r r' hr hr' _
    rw [hsame t r r' hr hr']
  · intro t r r' hr hr'
    rw [hsame t r r' hr hr']
  · exact fun t r' hr' hat => (hall t r' hr').not_failedPreSubmission hat

/-- A save of a tracked copy keeps to the history iff the copy was not overtaken. -/
theorem lawful_save (hrows : RowsAccepted w.executions) (h : Tracked ctx id w.executions e)
    (ho : w.saveExecution ctx e = .saved (w', e')) :
    (Lawful w.executions w'.executions ↔ ¬ Overtaken w ctx e) ∧ RowsAccepted w'.executions := by
  obtain ⟨r, hrewrites, hpath⟩ := h.holds.rewrites ho
  have hkey : rowKey ctx e.state.id = rowKey ctx id := congrArg (rowKey ctx) h.holds.id
  have hself : w'.executions.find (rowKey ctx id) = some ⟨e.state, e.version⟩ := by
    rw [hrewrites.after, if_pos rfl]
  have hall : RowsAccepted w'.executions := by
    intro t r' hr'
    rw [hrewrites.after] at hr'
    split at hr'
    · cases hr'
      exact h.accepted
    · exact hrows t r' hr'
  have hfresh : e.loadedVersion = some r.version := saved_fresh ho h hrewrites.before
  refine ⟨?_, hall⟩
  constructor
  · rintro hlawful ⟨r₀, hr₀, -, hlt⟩
    rw [hkey] at hr₀
    have hle := hlawful.attempts _ r₀ _ hr₀ hself
    exact absurd hlt (Nat.not_lt.mpr hle)
  · intro hnot
    have hle : r.payload.attempts ≤ e.state.attempts := by
      by_contra hlt
      exact hnot ⟨r, by rw [hkey]; exact hrewrites.before, hfresh, Nat.not_le.mp hlt⟩
    have hmoved : ∀ t r₀ r', w.executions.find t = some r₀ → w'.executions.find t = some r' →
        Path r₀.payload.status r'.payload.status ∧
          r₀.payload.attempts ≤ r'.payload.attempts := by
      intro t r₀ r' hr₀ hr'
      rw [hrewrites.after] at hr'
      split at hr'
      next ht =>
        subst ht
        obtain rfl : r = r₀ := Option.some.inj (hrewrites.before.symm.trans hr₀)
        cases hr'
        exact ⟨hpath, hle⟩
      · obtain rfl : r₀ = r' := Option.some.inj (hr₀.symm.trans hr')
        exact ⟨.refl, Nat.le_refl _⟩
    refine ⟨fun t r₀ hr₀ => ?_, fun t r₀ r' hr₀ hr' hfinal => ?_, fun t r₀ r' hr₀ hr' => ?_, ?_⟩
    · have hsome : ∃ r', w'.executions.find t = some r' := by
        rw [hrewrites.after]
        split
        · exact ⟨_, rfl⟩
        · exact ⟨r₀, hr₀⟩
      obtain ⟨r', hr'⟩ := hsome
      exact ⟨r', hr', (hmoved t r₀ r' hr₀ hr').1⟩
    · exact (hmoved t r₀ r' hr₀ hr').1.eq_of_final hfinal
    · exact (hmoved t r₀ r' hr₀ hr').2
    · exact fun t r' hr' hat => (hall t r' hr').not_failedPreSubmission hat

/-- What a call saves keeps to the history iff it is no copy that was overtaken. -/
theorem lawful_executionsAfter (hrows : RowsAccepted w.executions)
    (h : (e.loadedVersion = none ∧ Accepted e.state) ∨ ∃ id, Tracked ctx id w.executions e) :
    (Lawful w.executions (w.executionsAfter ctx e) ↔ ¬ Overtaken w ctx e) ∧
      RowsAccepted (w.executionsAfter ctx e) := by
  unfold World.executionsAfter
  cases ho : w.saveExecution ctx e with
  | saved r =>
    rcases h with ⟨hl, haccepted⟩ | ⟨id, htracked⟩
    · obtain ⟨hlawful, hall⟩ := lawful_insert hrows hl haccepted ho
      refine ⟨iff_of_true hlawful ?_, hall⟩
      rintro ⟨r₀, -, hl₀, -⟩
      rw [hl] at hl₀
      cases hl₀
    · exact lawful_save hrows htracked ho
  | _ =>
    refine ⟨iff_of_true (.refl hrows) fun hover => ?_, hrows⟩
    rcases h with ⟨hl, -⟩ | ⟨id, htracked⟩
    · obtain ⟨r₀, -, hl₀, -⟩ := hover
      rw [hl] at hl₀
      cases hl₀
    · have hsaved := hover.saves htracked.tenantId htracked.workspaceId
      rw [ho] at hsaved
      cases hsaved

end

/-! ## Runs -/

structure WriterInv (c : Interleave.Config World WriterPc) : Prop where
  rows : RowsAccepted c.world.executions
  knows : Each (fun _ w p => WriterKnows w.executions p) c

section

variable {cfg : Config} {c : Interleave.Config World WriterPc} {a : Tick Input}

/-- One step keeps to the history iff the call that moves saves no copy that was overtaken. -/
theorem lawful_step (h : WriterInv c) :
    (Lawful c.world.executions (c.step (writerStep cfg) a).world.executions ↔ SavesNoOvertaken c a) ∧
      RowsAccepted (c.step (writerStep cfg) a).world.executions := by
  rw [Config.step_world]
  unfold SavesNoOvertaken
  cases hf : a.input.fault with
  | some message =>
    rw [writerStep_executions_fault cfg a.call hf]
    exact ⟨iff_of_true (.refl h.rows) nofun, h.rows⟩
  | none =>
    rw [writerStep_executions cfg a.call hf]
    cases hs : (c.pc a.call).saving with
    | none =>
      refine ⟨iff_of_true (.refl h.rows) ?_, h.rows⟩
      rintro - ctx e ⟨⟩
    | some saving =>
      obtain ⟨ctx, e⟩ := saving
      have hsaving : (e.loadedVersion = none ∧ Accepted e.state) ∨
          ∃ id, Tracked ctx id c.world.executions e := by
        rcases (h.knows a.call).saving hs with hnew | ⟨k, id, -, -, -, htracked⟩
        · exact .inl hnew
        · exact .inr ⟨id, htracked⟩
      obtain ⟨hiff, hrows⟩ := lawful_executionsAfter h.rows hsaving
      refine ⟨?_, hrows⟩
      rw [show c.world.executionsAfterSaving (some (ctx, e)) = c.world.executionsAfter ctx e from
        rfl, hiff]
      constructor
      · rintro hnot - _ _ heq
        obtain ⟨rfl, rfl⟩ := Prod.mk.inj (Option.some.inj heq)
        exact hnot
      · intro hnone
        exact hnone rfl ctx e rfl

theorem writerInv_step (h : WriterInv c) : WriterInv (c.step (writerStep cfg) a) := by
  obtain ⟨hmoves, hknows⟩ := writerStep_knows cfg a.call a.input h.rows (h.knows a.call)
  exact ⟨(lawful_step h).2, h.knows.step hknows fun i p _ hp => hp.evolve hmoves⟩

end

theorem writerInv_start (w : World) (calls : Nat → WriterCall) :
    WriterInv (startWriters w calls) where
  rows := by
    intro t r hr
    cases hr
  knows := by
    intro i
    show WriterKnows [] (calls i).start
    cases calls i with
    | system call => cases call <;> refine ⟨trivial, ?_⟩ <;> first | trivial | rintro _ ⟨⟩
    | expire call => trivial

/-- **A run keeps to the published histories iff no call saves a copy that was overtaken.** -/
theorem lawful_iff_savesNoOvertaken (cfg : Config) (w : World) (calls : Nat → WriterCall)
    (s : List (Tick Input)) :
    Meets (writerStep cfg)
        (fun c a => Lawful c.world.executions (c.step (writerStep cfg) a).world.executions)
        (startWriters w calls) s ↔
      Meets (writerStep cfg) SavesNoOvertaken (startWriters w calls) s := by
  have hstep : ∀ c a, WriterInv c → SavesNoOvertaken c a → WriterInv (c.step (writerStep cfg) a) :=
    fun _ _ h _ => writerInv_step h
  exact meets_iff_of_invariant (fun _ _ h => (lawful_step h).1) hstep (writerInv_start w calls)

end VegaRevenue.Outreach
