import VegaRevenue.Outreach.SequenceRows

/-!
# A sequence counts its accepted steps

`u` is the row of a sequence. Its index should count the steps whose execution was accepted,
whenever no call is running.

* `ProgressEffect` — what one step does to the accepted executions and the index
* `progressInv_step` — the index is behind by one exactly while a call is to count an accepted step
* `inStep_of_meets` — every run in which the calls that are to count a step get to do so, and no
  execution is accepted otherwise
* `not_inStep_paused` — the step of a paused sequence is accepted and never counted
-/

namespace VegaRevenue.Outreach

open Interleave
open Versioned
open MessageExecution (Status Props)

/-! ## What the index should count -/

/-- `t` is the row of an execution of the sequence `u`. -/
def OfSequence (u t : RowKey) (s : Props) : Prop :=
  t.tenantId = u.tenantId ∧ t.workspaceId = u.workspaceId ∧ s.sequenceId = u.id

instance (u t : RowKey) (s : Props) : Decidable (OfSequence u t s) :=
  inferInstanceAs (Decidable (_ ∧ _ ∧ _))

/-- An execution of the step with this number is stored as accepted. -/
def AcceptedStep (u : RowKey) (T : Executions) (n : Nat) : Prop :=
  ∃ t r, T.find t = some r ∧ OfSequence u t r.payload ∧ r.payload.stepNumber = n ∧
    isPositiveTerminal r.payload.status = true

theorem mem_of_find {K σ : Type*} [DecidableEq K] {T : Table K σ} {t : K} {r : Row σ}
    (h : T.find t = some r) : (t, r) ∈ T := by
  obtain ⟨p, hp, rfl⟩ := Option.map_eq_some_iff.mp h
  have hkey := List.find?_some hp
  rw [decide_eq_true_eq] at hkey
  rw [← hkey]
  exact List.mem_of_find?_eq_some hp

instance (u : RowKey) (T : Executions) (n : Nat) : Decidable (AcceptedStep u T n) :=
  decidable_of_iff (List.any T fun p => (T.find p.1).any fun r =>
      OfSequence u p.1 r.payload && r.payload.stepNumber = n &&
        isPositiveTerminal r.payload.status) (by
    simp only [List.any_eq_true, Option.any_eq_true, Bool.and_eq_true, decide_eq_true_eq]
    constructor
    · rintro ⟨p, -, r, hr, ⟨hu, hn⟩, hp⟩
      exact ⟨p.1, r, hr, hu, hn, hp⟩
    · rintro ⟨t, r, hr, hu, hn, hp⟩
      exact ⟨(t, r), mem_of_find hr, r, hr, ⟨hu, hn⟩, hp⟩)

/-- The index is the number of accepted steps, and these are the first ones. -/
def CountsAccepted (u : RowKey) (T : Executions) (s : Sequence.Props) : Prop :=
  s.steps.countP (fun step => AcceptedStep u T step.stepNumber) = s.currentStepIndex ∧
    ∀ k (hk : k < s.steps.length),
      AcceptedStep u T s.steps[k].stepNumber ↔ k < s.currentStepIndex

instance (u : RowKey) (T : Executions) (s : Sequence.Props) : Decidable (CountsAccepted u T s) :=
  inferInstanceAs (Decidable (_ ∧ _))

/-- The stored sequence counts its accepted steps. -/
def InStep (u : RowKey) (w : World) : Prop :=
  ∃ q, w.sequences.find u = some q ∧ CountsAccepted u w.executions q.payload

instance (u : RowKey) (w : World) : Decidable (InStep u w) :=
  decidable_of_iff ((w.sequences.find u).any fun q => CountsAccepted u w.executions q.payload) (by
    simp only [Option.any_eq_true, decide_eq_true_eq]
    rfl)

/-- The call has not begun, or it has ended. -/
def SystemPc.resting : SystemPc → Bool
  | .prepare _ p => match p with
    | .loadSequence | .done _ => true
    | _ => false
  | .send _ p => match p with
    | .loadExecution | .done _ => true
    | _ => false
  | .response _ p => match p with
    | .load | .done _ => true
    | _ => false
  | .reconcile _ p => match p with
    | .load | .done _ => true
    | _ => false
  | .operate _ p => match p with
    | .load | .done => true
    | _ => false

/-! ## What the executions of a sequence look like -/

/-- The idempotency key of a step. -/
def stepKey (u : RowKey) (plan : Sequence.Plan) (step : SequenceStep) : String :=
  "outreach:v2:" ++ u.tenantId ++ ":" ++ plan.campaignId ++ ":" ++ u.id ++ ":" ++
    toString step.stepNumber ++ ":" ++ plan.recipientFingerprint.getD "" ++ ":" ++
    OutreachChannel.name step.channel

/-- The steps are numbered apart, and the executions are those `prepareDraft` made for the steps up
to the current one, one for each. -/
structure PlannedRows (u : RowKey) (T : Executions) (s : Sequence.Props) : Prop where
  distinct : (s.steps.map SequenceStep.stepNumber).Nodup
  rows : ∀ t r, T.find t = some r → OfSequence u t r.payload →
    ∃ k step, s.steps[k]? = some step ∧ k ≤ s.currentStepIndex ∧
      r.payload.stepNumber = step.stepNumber ∧ r.payload.idempotencyKey = stepKey u s.plan step
  once : ∀ t r t' r', T.find t = some r → T.find t' = some r' → OfSequence u t r.payload →
    OfSequence u t' r'.payload → r.payload.stepNumber = r'.payload.stepNumber → t = t'

def Planned (u : RowKey) (w : World) : Prop :=
  ∃ q, w.sequences.find u = some q ∧ PlannedRows u w.executions q.payload

/-! ## The condition -/

/-- A call that is to count an accepted step of `u` gets on, and no duplicate of an execution of `u`
is recovered as accepted. -/
def sendKeepsPace (u : RowKey) (input : Input) (w : World) (call : SendCall) : SendPc → Bool
  | .saveCampaign l _ =>
    rowKey call.ctx l.sequence.state.id ≠ u ||
      input.fault.isNone && (w.saveCampaign call.ctx l.campaign).isSaved
  | .markCompleted l answer =>
    rowKey call.ctx l.sequence.state.id ≠ u ||
      input.fault.isNone && (Idempotency.Postgres.setRow? {}
        (sendKey call.ctx l.execution.state.idempotencyKey) (completedResult answer)
        { status := some .completed } input.now).isSome
  | .loadCampaignForAdvance l =>
    rowKey call.ctx l.sequence.state.id ≠ u ||
      input.fault.isNone && l.sequence.state.status = .running
  | .saveSequence s _ _ _ =>
    rowKey call.ctx s.state.id ≠ u ||
      input.fault.isNone && (w.saveSequence call.ctx s).isSaved
  | .saveAuthoritative e =>
    rowKey call.ctx e.state.sequenceId ≠ u || input.fault.isSome ||
      !isPositiveTerminal e.state.status || !(w.saveExecution call.ctx e).isSaved
  | _ => true

/-- The step keeps the index of `u` in pace with its accepted executions: it is neither one of
those by which a call fails to count an accepted step, nor one by which a duplicate or an operator
accepts an execution. -/
def keepsPace (u : RowKey) (c : Interleave.Config World SystemPc) (a : Tick Input) : Bool :=
  match c.pc a.call with
  | .send call p => sendKeepsPace u a.input c.world call p
  | .reconcile call (.save e) =>
    rowKey call.ctx e.state.sequenceId ≠ u || a.input.fault.isSome ||
      !isPositiveTerminal e.state.status || !(c.world.saveExecution call.ctx e).isSaved
  | _ => true

/-- The sequence whose accepted step the call is to count. -/
def SendPc.advancing (ctx : Context) : SendPc → Option RowKey
  | saveCampaign l _ | markCompleted l _ | loadCampaignForAdvance l =>
    some (rowKey ctx l.sequence.state.id)
  | saveSequence s _ _ _ => some (rowKey ctx s.state.id)
  | _ => none

def SystemPc.advancing : SystemPc → Option RowKey
  | .send call p => p.advancing call.ctx
  | _ => none

theorem not_advancing_of_resting {p : SystemPc} (h : p.resting = true) : p.advancing = none := by
  cases p with
  | send call p =>
    cases p with
    | loadExecution => rfl
    | done ended => rfl
    | _ => cases h
  | _ => rfl

/-! ## Rows that are rewritten -/

/-- The executions keep their keys, their sequences and their steps. -/
def SameRoutes (T T' : Executions) : Prop :=
  ∀ t, (T'.find t).map (route ·.payload) = (T.find t).map (route ·.payload)

theorem SameRoutes.exists_before {T T' : Executions} (h : SameRoutes T T') {t : RowKey}
    {r' : Row Props} (hr' : T'.find t = some r') :
    ∃ r, T.find t = some r ∧ route r.payload = route r'.payload := by
  have ht := h t
  rw [hr', Option.map_some] at ht
  exact Option.map_eq_some_iff.mp ht.symm

theorem ofSequence_of_route {u t : RowKey} {s s' : Props} (h : route s = route s') :
    OfSequence u t s ↔ OfSequence u t s' := by
  unfold OfSequence
  rw [show s.sequenceId = s'.sequenceId from congrArg Route.sequenceId h]

/-- One row is rewritten under the same route. -/
structure Rewrites (t : RowKey) (r r' : Row Props) (T T' : Executions) : Prop where
  before : T.find t = some r
  after : ∀ t', T'.find t' = if t' = t then some r' else T.find t'
  route : route r'.payload = route r.payload

section

variable {u t : RowKey} {r r' : Row Props} {T T' : Executions} {n : Nat}

theorem Rewrites.sameRoutes (h : Rewrites t r r' T T') : SameRoutes T T' := by
  intro t'
  rw [h.after]
  split
  next ht => rw [ht, h.before, Option.map_some, Option.map_some, h.route]
  · rfl

/-- A save by a copy rewrites its row. -/
theorem Holds.rewrites {Q : Status → Prop} {w w' : World} {ctx : Context} {id : String}
    {e e' : MessageExecution} (h : Holds Q (rowKey ctx id) w.executions e)
    (ho : w.saveExecution ctx e = .saved (w', e')) :
    ∃ r, Rewrites (rowKey ctx id) r ⟨e.state, e.version⟩ w.executions w'.executions ∧
      Q r.payload.status := by
  obtain ⟨hid, r, hr, hc, hf⟩ := h
  obtain ⟨-, -, -, T, hT, rfl⟩ := World.saveExecution_eq_saved ho
  rw [show rowKey ctx e.state.id = rowKey ctx id from congrArg (rowKey ctx) hid] at hT
  refine ⟨r, ⟨hr, Table.find_save hT, hc.fixed⟩, hf ?_⟩
  rw [Table.save_eq_swap hr] at hT
  obtain ⟨r', hswap, -⟩ := Option.map_eq_some_iff.mp hT
  unfold Row.swap at hswap
  split at hswap
  next hfresh => exact hfresh
  · cases hswap

/-- A row that stays accepted or not, or belongs to another sequence, changes no accepted step. -/
theorem Rewrites.acceptedStep (h : Rewrites t r r' T T')
    (hp : OfSequence u t r.payload →
      isPositiveTerminal r'.payload.status = isPositiveTerminal r.payload.status) :
    AcceptedStep u T' n ↔ AcceptedStep u T n := by
  have hstep : r'.payload.stepNumber = r.payload.stepNumber :=
    congrArg Route.stepNumber h.route
  constructor
  · rintro ⟨t', r₀, hr₀, hu, hn, hpos⟩
    rw [h.after] at hr₀
    split at hr₀
    next ht =>
      subst ht
      obtain rfl : r' = r₀ := Option.some.inj hr₀
      rw [ofSequence_of_route h.route] at hu
      exact ⟨t', r, h.before, hu, hstep.symm.trans hn, (hp hu).symm.trans hpos⟩
    · exact ⟨t', r₀, hr₀, hu, hn, hpos⟩
  · rintro ⟨t', r₀, hr₀, hu, hn, hpos⟩
    by_cases ht : t' = t
    · subst ht
      obtain rfl : r = r₀ := Option.some.inj (h.before.symm.trans hr₀)
      refine ⟨t', r', by rw [h.after, if_pos rfl], ?_, hstep.trans hn, (hp hu).trans hpos⟩
      rw [ofSequence_of_route h.route]
      exact hu
    · exact ⟨t', r₀, by rw [h.after, if_neg ht]; exact hr₀, hu, hn, hpos⟩

/-- A row that becomes accepted adds its step. -/
theorem Rewrites.accepts (h : Rewrites t r r' T T') (hu : OfSequence u t r.payload)
    (hneg : isPositiveTerminal r.payload.status = false)
    (hpos : isPositiveTerminal r'.payload.status = true) :
    AcceptedStep u T' n ↔ AcceptedStep u T n ∨ r.payload.stepNumber = n := by
  have hstep : r'.payload.stepNumber = r.payload.stepNumber :=
    congrArg Route.stepNumber h.route
  constructor
  · rintro ⟨t', r₀, hr₀, hu₀, hn, hp⟩
    rw [h.after] at hr₀
    split at hr₀
    · obtain rfl : r' = r₀ := Option.some.inj hr₀
      exact .inr (hstep.symm.trans hn)
    · exact .inl ⟨t', r₀, hr₀, hu₀, hn, hp⟩
  · rintro (⟨t', r₀, hr₀, hu₀, hn, hp⟩ | hn)
    · have ht : t' ≠ t := by
        rintro rfl
        obtain rfl : r = r₀ := Option.some.inj (h.before.symm.trans hr₀)
        rw [hneg] at hp
        cases hp
      exact ⟨t', r₀, by rw [h.after, if_neg ht]; exact hr₀, hu₀, hn, hp⟩
    · refine ⟨t, r', by rw [h.after, if_pos rfl], ?_, hstep.trans hn, hpos⟩
      rw [ofSequence_of_route h.route]
      exact hu

/-- A new row that is not accepted changes no accepted step. -/
theorem acceptedStep_append (T : Executions) (t : RowKey)
    (hneg : isPositiveTerminal r.payload.status = false) :
    AcceptedStep u (T ++ [(t, r)]) n ↔ AcceptedStep u T n := by
  constructor
  · rintro ⟨t', r₀, hr₀, hu, hn, hp⟩
    rw [Table.find_append_single] at hr₀
    cases hold : T.find t' with
    | some r₁ =>
      rw [hold] at hr₀
      obtain rfl : r₁ = r₀ := Option.some.inj hr₀
      exact ⟨t', r₁, hold, hu, hn, hp⟩
    | none =>
      rw [hold, Option.none_or] at hr₀
      split at hr₀
      · obtain rfl : r = r₀ := Option.some.inj hr₀
        rw [hneg] at hp
        cases hp
      · cases hr₀
  · rintro ⟨t', r₀, hr₀, hu, hn, hp⟩
    exact ⟨t', r₀, by rw [Table.find_append_single, hr₀]; rfl, hu, hn, hp⟩

end

/-! ## Planned rows stay planned -/

/-- Steps that are numbered apart are told apart by their numbers. -/
theorem eq_of_stepNumber {steps : List SequenceStep}
    (hd : (steps.map SequenceStep.stepNumber).Nodup) {k k' : Nat} {step step' : SequenceStep}
    (hk : steps[k]? = some step) (hk' : steps[k']? = some step')
    (hn : step.stepNumber = step'.stepNumber) : k = k' ∧ step = step' := by
  obtain ⟨hlt, -⟩ := List.getElem?_eq_some_iff.mp hk
  have heq : (steps.map SequenceStep.stepNumber)[k]? =
      (steps.map SequenceStep.stepNumber)[k']? := by
    rw [List.getElem?_map, List.getElem?_map, hk, hk', Option.map_some, Option.map_some, hn]
  have hkk : k = k' := (List.getElem?_inj (by simpa using hlt) hd).mp heq
  subst hkk
  exact ⟨rfl, Option.some.inj (hk.symm.trans hk')⟩

section

variable {u t : RowKey} {r : Row Props} {T T' : Executions} {s s' : Sequence.Props}

theorem PlannedRows.same (h : PlannedRows u T s) (hT : SameRoutes T T')
    (hplan : s'.plan = s.plan) (hle : s.currentStepIndex ≤ s'.currentStepIndex) :
    PlannedRows u T' s' := by
  have hsteps : s'.steps = s.steps := congrArg Sequence.Plan.steps hplan
  refine ⟨by rw [hsteps]; exact h.distinct, fun t r' hr' hu => ?_,
    fun t r' t' r'' hr' hr'' hu hu' hn => ?_⟩
  · obtain ⟨r, hr, hroute⟩ := hT.exists_before hr'
    obtain ⟨k, step, hk, hki, hn, hkey⟩ := h.rows t r hr ((ofSequence_of_route hroute).mpr hu)
    have hnumber : r.payload.stepNumber = r'.payload.stepNumber := congrArg Route.stepNumber hroute
    have hkeys : r.payload.idempotencyKey = r'.payload.idempotencyKey :=
      congrArg Route.idempotencyKey hroute
    exact ⟨k, step, by rw [hsteps]; exact hk, Nat.le_trans hki hle, hnumber.symm.trans hn,
      by rw [hplan, ← hkeys]; exact hkey⟩
  · obtain ⟨r, hr, hroute⟩ := hT.exists_before hr'
    obtain ⟨r₁, hr₁, hroute₁⟩ := hT.exists_before hr''
    refine h.once t r t' r₁ hr hr₁ ((ofSequence_of_route hroute).mpr hu)
      ((ofSequence_of_route hroute₁).mpr hu') ?_
    rw [show r.payload.stepNumber = r'.payload.stepNumber from congrArg Route.stepNumber hroute,
      show r₁.payload.stepNumber = r''.payload.stepNumber from congrArg Route.stepNumber hroute₁]
    exact hn

/-- A new execution for a step up to the current one, under a key that is not taken. -/
def MadeForStep (u : RowKey) (T : Executions) (t : RowKey) (r : Row Props)
    (s : Sequence.Props) : Prop :=
  OfSequence u t r.payload →
    (∃ k step, s.steps[k]? = some step ∧ k ≤ s.currentStepIndex ∧
      r.payload.stepNumber = step.stepNumber ∧
      r.payload.idempotencyKey = stepKey u s.plan step) ∧
    ∀ t' r', T.find t' = some r' → OfSequence u t' r'.payload →
      r'.payload.idempotencyKey ≠ r.payload.idempotencyKey

theorem PlannedRows.insert (h : PlannedRows u T s) (hnone : T.find t = none)
    (hr : MadeForStep u T t r s) : PlannedRows u (T ++ [(t, r)]) s := by
  -- a row found afterwards was there before, or is the new one
  have hfind : ∀ t' r', Table.find (T ++ [(t, r)]) t' = some r' →
      T.find t' = some r' ∨ t' = t ∧ r' = r := by
    intro t' r' hr'
    rw [Table.find_append_single] at hr'
    cases hold : T.find t' with
    | some r₁ =>
      rw [hold] at hr'
      exact .inl hr'
    | none =>
      rw [hold, Option.none_or] at hr'
      split at hr'
      next ht => exact .inr ⟨ht.symm, (Option.some.inj hr').symm⟩
      · cases hr'
  -- a row of the step of the new one would have its key
  have hnew : ∀ t' r', T.find t' = some r' → OfSequence u t' r'.payload →
      OfSequence u t r.payload → r'.payload.stepNumber ≠ r.payload.stepNumber := by
    intro t' r' hr' hu' hu hn
    obtain ⟨⟨k, step, hk, -, hnumber, hkey⟩, hfree⟩ := hr hu
    obtain ⟨k', step', hk', -, hnumber', hkey'⟩ := h.rows t' r' hr' hu'
    obtain ⟨-, rfl⟩ := eq_of_stepNumber h.distinct hk hk'
      (hnumber.symm.trans (hn.symm.trans hnumber'))
    exact hfree t' r' hr' hu' (hkey'.trans hkey.symm)
  refine ⟨h.distinct, fun t' r' hr' hu => ?_, fun t₁ r₁ t₂ r₂ hr₁ hr₂ hu₁ hu₂ hn => ?_⟩
  · rcases hfind t' r' hr' with hold | ⟨rfl, rfl⟩
    · exact h.rows t' r' hold hu
    · exact (hr hu).1
  · rcases hfind t₁ r₁ hr₁ with hold₁ | ⟨rfl, rfl⟩
    · rcases hfind t₂ r₂ hr₂ with hold₂ | ⟨rfl, rfl⟩
      · exact h.once t₁ r₁ t₂ r₂ hold₁ hold₂ hu₁ hu₂ hn
      · exact absurd hn (hnew t₁ r₁ hold₁ hu₁ hu₂)
    · rcases hfind t₂ r₂ hr₂ with hold₂ | ⟨rfl, rfl⟩
      · exact absurd hn.symm (hnew t₂ r₂ hold₂ hu₂ hu₁)
      · rfl

end

/-- The key of a draft is that of its step. -/
theorem makeSendIdempotencyKey_eq {ctx : Context} {campaign : Campaign} {sequence : Sequence}
    {step : SequenceStep} {key : String} (hc : campaign.state.id = sequence.state.campaignId)
    (h : makeSendIdempotencyKey ctx campaign sequence step = some key) :
    key = stepKey (rowKey ctx sequence.state.id) sequence.state.plan step := by
  unfold makeSendIdempotencyKey at h
  split at h
  · cases h
  · rw [← Option.some.inj h, hc]
    rfl

/-- The key of a new execution was not taken. -/
theorem not_taken_of_saved {w w' : World} {ctx : Context} {e e' : MessageExecution}
    (hl : e.loadedVersion = none) (ho : w.saveExecution ctx e = .saved (w', e')) {t : RowKey}
    {r : Row Props} (hr : w.executions.find t = some r) (ht : t.tenantId = ctx.tenantId)
    (hw : t.workspaceId = ctx.workspaceId) :
    r.payload.idempotencyKey ≠ e.state.idempotencyKey := by
  obtain ⟨htenant, hworkspace, -⟩ := World.saveExecution_eq_saved ho
  intro hkey
  have htaken : w.executionTaken e.state = true := by
    unfold World.executionTaken
    rw [List.any_eq_true]
    refine ⟨(t, r), mem_of_find hr, ?_⟩
    simp [ht, hw, htenant, hworkspace, hkey]
  unfold World.saveExecution at ho
  rw [if_neg (not_not_intro htenant), if_neg (not_not_intro hworkspace), if_pos ⟨hl, htaken⟩] at ho
  cases ho

/-! ## What one step does -/

/-- The stored index. -/
def indexAt (u : RowKey) (Q : Sequences) : Option Nat :=
  (Q.find u).map (·.payload.currentStepIndex)

/-- What a step does to the accepted executions and the index of `u`. `before` and `after` are the
sequences whose accepted step the call was and is to count. -/
inductive ProgressEffect (u : RowKey) (w : World) (before : Option RowKey) (w' : World)
    (after : Option RowKey) : Prop where
  | quiet (hroutes : SameRoutes w.executions w'.executions)
      (hT : ∀ n, AcceptedStep u w'.executions n ↔ AcceptedStep u w.executions n)
      (hQ : indexAt u w'.sequences = indexAt u w.sequences)
      (hp : after = some u ↔ before = some u)
  | accepts (t : RowKey) (r r' : Row Props) (h : Rewrites t r r' w.executions w'.executions)
      (hu : OfSequence u t r.payload) (hneg : isPositiveTerminal r.payload.status = false)
      (hpos : isPositiveTerminal r'.payload.status = true)
      (hQ : indexAt u w'.sequences = indexAt u w.sequences)
      (hbefore : before ≠ some u) (hafter : after = some u)
  | drafts (t : RowKey) (r : Row Props) (hnone : w.executions.find t = none)
      (hT : w'.executions = w.executions ++ [(t, r)])
      (hneg : isPositiveTerminal r.payload.status = false)
      (hmade : ∀ q, w.sequences.find u = some q → MadeForStep u w.executions t r q.payload)
      (hQ : w'.sequences = w.sequences) (hp : after = some u ↔ before = some u)
  | counts (hT : w'.executions = w.executions) (n : Nat) (hn : indexAt u w.sequences = some n)
      (hQ : indexAt u w'.sequences = some (n + 1))
      (hbefore : before = some u) (hafter : after ≠ some u)

theorem ofSequence_iff {u : RowKey} {ctx : Context} {id : String} {s : Props} :
    OfSequence u (rowKey ctx id) s ↔ rowKey ctx s.sequenceId = u := by
  obtain ⟨tenantId, workspaceId, sequenceId⟩ := u
  simp [OfSequence, rowKey]

section

variable {u : RowKey} {w w' : World} {before after : Option RowKey}

/-- A step that touches neither table. -/
theorem ProgressEffect.same (hT : w'.executions = w.executions)
    (hQ : w'.sequences = w.sequences) (hp : after = some u ↔ before = some u) :
    ProgressEffect u w before w' after := by
  refine .quiet (fun t => by rw [hT]) (fun n => by rw [hT]) (by rw [hQ]) hp

/-- A save of an execution that accepts none of `u`. -/
theorem ProgressEffect.rewrites {t : RowKey} {r r' : Row Props}
    (h : Rewrites t r r' w.executions w'.executions) (hQ : w'.sequences = w.sequences)
    (hr : OfSequence u t r.payload →
      isPositiveTerminal r'.payload.status = isPositiveTerminal r.payload.status)
    (hp : after = some u ↔ before = some u) : ProgressEffect u w before w' after :=
  .quiet h.sameRoutes (fun _ => h.acceptedStep hr) (by rw [hQ]) hp

variable {call : SendCall} {i : Nat} {input : Input}

/-- After a save of an execution that is not accepted. -/
theorem progress_afterSave_execution {e : MessageExecution} {next : MessageExecution → SendPc}
    (hu : Unsettled (rowKey call.ctx call.executionId) w.executions e)
    (hneg : isPositiveTerminal e.state.status = false)
    (hnext : ∀ e', (next e').advancing call.ctx = none) :
    ProgressEffect u w none (afterSave w (w.saveExecution call.ctx e) next).1
      ((afterSave w (w.saveExecution call.ctx e) next).2.advancing call.ctx) := by
  refine afterSave_elim (P := fun r => ProgressEffect u w none r.1 (r.2.advancing call.ctx))
    (fun w' e' ho => ?_) (.same rfl rfl Iff.rfl) fun _ => .same rfl rfl Iff.rfl
  obtain ⟨r, hr, hs⟩ := hu.rewrites ho
  obtain ⟨-, -, -, T, -, rfl⟩ := World.saveExecution_eq_saved ho
  refine .rewrites hr rfl (fun _ => ?_) (by rw [hnext e'])
  exact hneg.trans (not_positive_of_unsettled hs).symm

theorem indexAt_of_find {Q Q' : Sequences} {k : RowKey} {r' : Row Sequence.Props}
    (h : ∀ u, Q'.find u = if u = k then some r' else Q.find u) (hu : k ≠ u) :
    indexAt u Q' = indexAt u Q := by
  unfold indexAt
  rw [h, if_neg (Ne.symm hu)]

/-- A sequence that is RUNNING and has a current step goes on to its save. -/
theorem advance_running (cfg : Outreach.Config) {l : Sending} (campaign : Option Campaign)
    (now : Date) (hr : l.sequence.state.status = .running)
    (hlt : l.sequence.state.currentStepIndex < l.sequence.state.steps.length) :
    ∀ ended, advance cfg l campaign now ≠ .done ended := by
  intro ended
  unfold advance
  dsimp only
  generalize (l.sequence.state.steps[l.sequence.state.currentStepIndex + 1]?.map fun step =>
    cfg.computeNextDueAt now step.delayMs) = nextDueAt
  rcases Sequence.completeStep_cases l.sequence l.execution.state.id nextDueAt now with
    ⟨hne, -⟩ | ⟨-, hle, -⟩ | ⟨-, -, h, -⟩
  · exact absurd hr hne
  · omega
  · rw [← Prod.eta (Sequence.completeStep l.sequence l.execution.state.id nextDueAt now), h]
    simp

theorem onAnswer_advancing (ctx : Context) (l : Sending) (answer : ProviderSendResult)
    (now : Date) : (onAnswer l answer now).advancing ctx = none := by
  unfold onAnswer fails
  split
  iterate 3
    split <;> rfl
  · rfl
  · rfl
  · rfl

/-- **What a step of a call does to the accepted executions and the index of `u`.** -/
theorem sendNext_progress (cfg : Outreach.Config) {p : SendPc} (hf : input.fault = none)
    (hk : Knows (rowKey call.ctx call.executionId) w.executions p)
    (hc : SendCopy call.ctx w.sequences p)
    (hlt : ∀ l, p = .loadCampaignForAdvance l → rowKey call.ctx l.sequence.state.id = u →
      l.sequence.state.currentStepIndex < l.sequence.state.steps.length)
    (hok : sendKeepsPace u input w call p = true) :
    ProgressEffect u w (p.advancing call.ctx) (sendNext cfg call i input w p).1
      ((sendNext cfg call i input w p).2.advancing call.ctx) := by
  cases p with
  | loadExecution =>
    simp only [sendNext]
    split <;> exact .same rfl rfl Iff.rfl
  | loadSequence e =>
    simp only [sendNext]
    split <;> exact .same rfl rfl Iff.rfl
  | loadCampaign e s =>
    simp only [sendNext]
    split
    · exact .same rfl rfl Iff.rfl
    · split <;> exact .same rfl rfl Iff.rfl
  | recoverRecipient l =>
    simp only [sendNext]
    split <;> exact .same rfl rfl Iff.rfl
  | evaluate l =>
    obtain ⟨w', p', hr, hT, hQ, -, ⟨_, rfl⟩ | ⟨_, rfl⟩ | ⟨_, _, rfl, -⟩ | ⟨_, rfl, -⟩⟩ :=
      sendNext_evaluate cfg call i input w l <;> rw [hr] <;> exact .same hT hQ Iff.rfl
  | selectProvider l =>
    simp only [sendNext]
    split
    · exact .same rfl rfl Iff.rfl
    · split <;> exact .same rfl rfl Iff.rfl
  | saveFailure l exit =>
    refine progress_afterSave_execution hk.2 ?_ fun _ => rfl
    rw [hk.1]
    cases exit with
    | providerFailed classification reason retryAfterMs =>
      simp only [FailureExit.status]
      split <;> rfl
    | _ => rfl
  | markFailed l exit =>
    simp only [sendNext]
    rcases setRecord_cases w call.ctx i l.execution failedResult .failed input.now
      (.done (.returned exit.result)) with ⟨-, r, -, h⟩ | ⟨-, h⟩ <;> rw [h] <;>
      exact .same rfl rfl Iff.rfl
  | saveAttempt l => exact progress_afterSave_execution hk.2 (by rw [hk.1]; rfl) fun _ => rfl
  | send l => exact .same rfl rfl Iff.rfl
  | awaitAnswer l =>
    simp only [sendNext]
    refine .same rfl rfl ?_
    rw [onAnswer_advancing]
    rfl
  | saveAccepted l answer =>
    obtain ⟨hs, hu⟩ := hk
    obtain ⟨-, hlink⟩ := hc
    refine afterSave_elim (P := fun r => ProgressEffect u w none r.1 (r.2.advancing call.ctx))
      (fun w' e' ho => ?_) (.same rfl rfl Iff.rfl) fun _ => .same rfl rfl Iff.rfl
    obtain ⟨r, hr, hsettled⟩ := hu.rewrites ho
    obtain ⟨-, -, -, T, -, rfl⟩ := World.saveExecution_eq_saved ho
    have hseq : r.payload.sequenceId = l.sequence.state.id :=
      (congrArg Route.sequenceId hr.route).symm.trans hlink.symm
    have hneg := not_positive_of_unsettled hsettled
    by_cases hkey : rowKey call.ctx l.sequence.state.id = u
    · refine .accepts _ r _ hr (ofSequence_iff.mpr (by rw [hseq]; exact hkey)) hneg ?_ rfl (by simp)
        (congrArg some hkey)
      rw [hs]
      rfl
    · refine .rewrites hr rfl (fun hof => ?_) (by simp [SendPc.advancing, hkey])
      rw [ofSequence_iff, hseq] at hof
      exact absurd hof hkey
  | saveCampaign l answer =>
    by_cases hkey : rowKey call.ctx l.sequence.state.id = u
    · have hsaved : (w.saveCampaign call.ctx l.campaign).isSaved = true := by
        simpa [sendKeepsPace, hkey, hf] using hok
      obtain ⟨⟨w', c'⟩, ho⟩ := SaveOutcome.exists_of_isSaved hsaved
      simp only [sendNext, afterSave, ho]
      obtain ⟨-, T, -, rfl⟩ := World.saveCampaign_eq_saved ho
      exact .same rfl rfl Iff.rfl
    · refine afterSave_elim (P := fun r => ProgressEffect u w _ r.1 (r.2.advancing call.ctx))
        (fun w' c' ho => ?_) (.same rfl rfl ?_) fun _ => .same rfl rfl ?_
      · obtain ⟨-, T, -, rfl⟩ := World.saveCampaign_eq_saved ho
        exact .same rfl rfl Iff.rfl
      · simp [SendPc.advancing, hkey]
      · simp [SendPc.advancing, hkey]
  | markCompleted l answer =>
    simp only [sendNext]
    rcases setRecord_cases w call.ctx i l.execution (completedResult answer) .completed input.now
      (.loadCampaignForAdvance l) with ⟨-, r, -, h⟩ | ⟨hnone, h⟩ <;> rw [h]
    · exact .same rfl rfl Iff.rfl
    · have hkey : rowKey call.ctx l.sequence.state.id ≠ u := by
        simpa [sendKeepsPace, hf, hnone] using hok
      exact .same rfl rfl (by simp [SendPc.advancing, hkey])
  | loadCampaignForAdvance l =>
    simp only [sendNext]
    rcases advance_cases cfg l (w.loadCampaign call.ctx l.sequence.state.campaignId)
      input.now.ms with ⟨ended, h⟩ | ⟨nextDueAt, hasMoreSteps, hcompleted, h⟩
    · have hkey : rowKey call.ctx l.sequence.state.id ≠ u := by
        intro hkey
        have hr : l.sequence.state.status = .running := by
          simpa [sendKeepsPace, hkey, hf] using hok
        exact advance_running cfg _ _ hr (hlt l rfl hkey) ended h
      rw [h]
      exact .same rfl rfl (by simp [SendPc.advancing, hkey])
    · rw [h]
      refine .same rfl rfl ?_
      simp only [SendPc.advancing]
      rw [(hc.1.complete hcompleted).2]
  | saveSequence s campaign nextDueAt hasMoreSteps =>
    by_cases hkey : rowKey call.ctx s.state.id = u
    · have hsaved : (w.saveSequence call.ctx s).isSaved = true := by
        simpa [sendKeepsPace, hkey, hf] using hok
      obtain ⟨⟨w', s'⟩, ho⟩ := SaveOutcome.exists_of_isSaved hsaved
      obtain ⟨-, r, hr, hindex, hfind⟩ := Ahead.save hc ho
      simp only [sendNext, afterSave, ho]
      rw [hkey] at hr hfind
      refine .counts ?_ r.payload.currentStepIndex ?_ ?_ (congrArg some hkey) ?_
      · obtain ⟨-, T, -, rfl⟩ := World.saveSequence_eq_saved ho
        rfl
      · rw [indexAt, hr]
        rfl
      · rw [indexAt, hfind, if_pos rfl, ← hindex]
        rfl
      · split <;> simp [SendPc.advancing]
    · refine afterSave_elim (P := fun r => ProgressEffect u w _ r.1 (r.2.advancing call.ctx))
        (fun w' s' ho => ?_) (.same rfl rfl ?_) fun _ => .same rfl rfl ?_
      · obtain ⟨-, r, -, -, hfind⟩ := Ahead.save hc ho
        obtain ⟨-, T, -, rfl⟩ := World.saveSequence_eq_saved ho
        refine .quiet (fun t => rfl) (fun n => Iff.rfl) (indexAt_of_find hfind hkey) ?_
        dsimp only
        split <;> simp [SendPc.advancing, hkey]
      · simp [SendPc.advancing, hkey]
      · simp [SendPc.advancing, hkey]
  | saveCampaignComplete campaign nextDueAt =>
    refine afterSave_elim (P := fun r => ProgressEffect u w none r.1 (r.2.advancing call.ctx))
      (fun w' c' ho => ?_) (.same rfl rfl Iff.rfl) fun _ => .same rfl rfl Iff.rfl
    obtain ⟨-, T, -, rfl⟩ := World.saveCampaign_eq_saved ho
    exact .same rfl rfl Iff.rfl
  | saveAmbiguous l reason =>
    exact progress_afterSave_execution hk.2 (by rw [hk.1]; rfl) fun _ => rfl
  | loadAuthoritative =>
    simp only [sendNext]
    split <;> exact .same rfl rfl Iff.rfl
  | getRecord key =>
    simp only [sendNext]
    split <;> exact .same rfl rfl Iff.rfl
  | reload record =>
    simp only [sendNext]
    split
    · exact .same rfl rfl Iff.rfl
    next e he =>
      rcases resolveDuplicate_cases record e input.now.ms with ⟨result, hr⟩ | ⟨e', hr⟩ <;>
        rw [hr] <;> exact .same rfl rfl Iff.rfl
  | saveAuthoritative e =>
    simp only [sendNext]
    split
    next w' e' ho =>
      obtain ⟨r, hr, hsettled⟩ := Holds.rewrites hk ho
      obtain ⟨-, -, -, T, -, rfl⟩ := World.saveExecution_eq_saved ho
      refine .rewrites hr rfl (fun hof => ?_) Iff.rfl
      have hseq : e.state.sequenceId = r.payload.sequenceId := congrArg Route.sequenceId hr.route
      rw [ofSequence_iff, ← hseq] at hof
      have hneg : isPositiveTerminal e.state.status = false := by
        simpa [sendKeepsPace, hof, hf, ho, SaveOutcome.isSaved] using hok
      exact hneg.trans (not_positive_of_unsettled hsettled).symm
    · exact .same rfl rfl Iff.rfl
    · exact .same rfl rfl Iff.rfl
  | reloadNewer e => exact .same rfl rfl Iff.rfl
  | done ended => exact .same rfl rfl Iff.rfl

/-- A fault ends a call, and it was not to count a step of `u`. -/
theorem sendStep_progress (cfg : Outreach.Config) {p : SendPc}
    (hk : Knows (rowKey call.ctx call.executionId) w.executions p)
    (hc : SendCopy call.ctx w.sequences p)
    (hlt : ∀ l, p = .loadCampaignForAdvance l → rowKey call.ctx l.sequence.state.id = u →
      l.sequence.state.currentStepIndex < l.sequence.state.steps.length)
    (hok : sendKeepsPace u input w call p = true) :
    ProgressEffect u w (p.advancing call.ctx) (sendStep cfg (fun _ => call) i input w p).1
      ((sendStep cfg (fun _ => call) i input w p).2.advancing call.ctx) := by
  cases hf : input.fault with
  | none =>
    rw [sendStep_eq_sendNext cfg _ i w p hf]
    exact sendNext_progress cfg hf hk hc hlt hok
  | some message =>
    obtain ⟨ended, hr, -⟩ := sendStep_fault cfg (fun _ => call) i w p hf
    have hidle : p.advancing call.ctx ≠ some u := by
      intro hu
      cases p with
      | saveCampaign l answer => simp [sendKeepsPace, hf, Option.some.inj hu] at hok
      | markCompleted l answer => simp [sendKeepsPace, hf, Option.some.inj hu] at hok
      | loadCampaignForAdvance l => simp [sendKeepsPace, hf, Option.some.inj hu] at hok
      | saveSequence s campaign nextDueAt hasMoreSteps =>
        simp [sendKeepsPace, hf, Option.some.inj hu] at hok
      | _ => cases hu
    rw [hr]
    exact .same rfl rfl (iff_of_false (by simp [SendPc.advancing]) hidle)

end

/-! ## One step of any call -/

section

variable {u : RowKey} {w w' : World} {input : Input}

/-- A call of `prepareDraft` drafts for the current step of its copy of the sequence. -/
theorem MadeFrom.madeForStep {call : PrepareCall} {e e' : MessageExecution} {step : SequenceStep}
    (h : MadeFrom call.ctx (fun s c => PrepareCopy call w.sequences s ∧
      c.state.id = s.state.campaignId) step e)
    (ho : w.saveExecution call.ctx e = .saved (w', e')) {q : Row Sequence.Props}
    (hq : w.sequences.find u = some q) :
    MadeForStep u w.executions (rowKey call.ctx e.state.id) ⟨e.state, e.version⟩ q.payload := by
  intro hof
  obtain ⟨s, campaign, ⟨⟨⟨r, hr, hcopy, hle, -⟩, -⟩, hcampaign⟩, hstep, hkey, hseq, hnumber, hl⟩ := h
  have hu : rowKey call.ctx s.state.id = u := by
    rw [← hseq]
    exact ofSequence_iff.mp hof
  obtain rfl : r = q := by
    rw [hu, hq] at hr
    exact (Option.some.inj hr).symm
  have hplan : s.state.plan = r.payload.plan := hcopy.fixed
  refine ⟨⟨s.state.currentStepIndex, step, ?_, hle, hnumber, ?_⟩, fun t' r' hr' hu' => ?_⟩
  · rw [← show s.state.steps = r.payload.steps from congrArg Sequence.Plan.steps hplan]
    exact hstep
  · rw [← hplan, ← hu]
    exact makeSendIdempotencyKey_eq hcampaign hkey
  · obtain ⟨htenant, hworkspace, -⟩ := hof
    exact not_taken_of_saved hl ho hr' (hu'.1.trans htenant.symm) (hu'.2.1.trans hworkspace.symm)

theorem prepareStep_progress {call : PrepareCall} {p : PreparePc} (i : Nat)
    (hc : CopyKnown w.sequences (.prepare call p)) :
    ProgressEffect u w none (prepareStep (fun _ => call) i input w p).1 none := by
  rcases prepareStep_cases call i input w p with ⟨hw, -, -⟩ | ⟨e, e', hp, -, ho, -⟩
  · rw [hw]
    exact .same rfl rfl Iff.rfl
  · obtain ⟨step, hmade, hneg⟩ : ∃ step, MadeFrom call.ctx (fun s c =>
        PrepareCopy call w.sequences s ∧ c.state.id = s.state.campaignId) step e ∧
        isPositiveTerminal e.state.status = false := by
      cases p with
      | saveRejected e₀ reason =>
        obtain rfl : e₀ = e := Option.some.inj hp
        obtain ⟨⟨step, hm⟩, hstatus⟩ := hc
        exact ⟨step, hm, by rw [hstatus]; rfl⟩
      | savePrepared e₀ step =>
        obtain rfl : e₀ = e := Option.some.inj hp
        exact ⟨step, hc.1, by rw [hc.2]; rfl⟩
      | _ => cases hp
    obtain ⟨hnone, hw⟩ := saveExecution_insert hmade.loadedVersion ho
    refine .drafts _ _ hnone (by rw [hw]) hneg (fun q hq => hmade.madeForStep ho hq) ?_ Iff.rfl
    rw [hw]

/-- A response accepts no execution that was not accepted. -/
theorem responseNext_progress (input : Input) {call : ResponseCall} {p : ResponsePc}
    (hk : SystemKnows w.executions (.response call p)) :
    ProgressEffect u w none (responseNext call input w p).1 none := by
  cases p with
  | load =>
    simp only [responseNext]
    split <;> exact .same rfl rfl Iff.rfl
  | save e =>
    simp only [responseNext]
    split
    next w' e' ho =>
      obtain ⟨r, hr, hfate⟩ := Holds.rewrites hk ho
      obtain ⟨-, -, -, T, -, rfl⟩ := World.saveExecution_eq_saved ho
      exact .rewrites hr rfl (fun _ => hfate.1) Iff.rfl
    · exact .same rfl rfl Iff.rfl
    · exact .same rfl rfl Iff.rfl
  | done threw => exact .same rfl rfl Iff.rfl

/-- An operator who does not accept an execution of `u` leaves its step as it was. -/
theorem reconcileNext_progress (i : Nat) (input : Input) {call : ReconcileCall} {p : ReconcilePc}
    (hk : SystemKnows w.executions (.reconcile call p))
    (hok : ∀ e, p = .save e → rowKey call.ctx e.state.sequenceId = u →
      (w.saveExecution call.ctx e).isSaved = true → isPositiveTerminal e.state.status = false) :
    ProgressEffect u w none (reconcileNext call i input w p).1 none := by
  cases p with
  | load =>
    simp only [reconcileNext]
    split
    · exact .same rfl rfl Iff.rfl
    · split <;> exact .same rfl rfl Iff.rfl
  | save e =>
    simp only [reconcileNext]
    split
    next w' e' ho =>
      obtain ⟨r, hr, hopen⟩ := Holds.rewrites hk.1 ho
      have hneg := hok e rfl
      rw [ho] at hneg
      obtain ⟨-, -, -, T, -, rfl⟩ := World.saveExecution_eq_saved ho
      refine .rewrites hr rfl (fun hof => ?_) Iff.rfl
      have hseq : e.state.sequenceId = r.payload.sequenceId := congrArg Route.sequenceId hr.route
      rw [ofSequence_iff, ← hseq] at hof
      exact (hneg hof rfl).trans (not_positive_of_reconcilable hopen).symm
    · exact .same rfl rfl Iff.rfl
    · exact .same rfl rfl Iff.rfl
  | set e =>
    simp only [reconcileNext]
    split <;> exact .same rfl rfl Iff.rfl
  | audit =>
    simp only [reconcileNext]
    split <;> exact .same rfl rfl Iff.rfl
  | done ended => exact .same rfl rfl Iff.rfl

/-- No operation of an operator moves the index. -/
theorem operatorNext_progress {call : OperatorCall} {p : OperatorPc}
    (hc : CopyKnown w.sequences (.operate call p)) :
    ProgressEffect u w none (operatorNext call input w p).1 none := by
  cases p with
  | load =>
    simp only [operatorNext]
    split <;> exact .same rfl rfl Iff.rfl
  | save s =>
    simp only [operatorNext]
    split
    next w' s' ho =>
      obtain ⟨-, r, hr, hindex, hfind⟩ := Ahead.save hc ho
      obtain ⟨-, T, -, rfl⟩ := World.saveSequence_eq_saved ho
      refine .quiet (fun t => rfl) (fun n => Iff.rfl) ?_ Iff.rfl
      by_cases hkey : rowKey call.ctx s.state.id = u
      · rw [hkey] at hr hfind
        simp only [indexAt, hfind, hr, if_true, Option.map_some]
        rw [hindex, Nat.add_zero]
      · exact indexAt_of_find hfind hkey
    · exact .same rfl rfl Iff.rfl
  | done => exact .same rfl rfl Iff.rfl

variable {c : Interleave.Config World SystemPc} {a : Tick Input}

/-- **What a step of any call does to the accepted executions and the index of `u`.** -/
theorem progressEffect_step (cfg : Outreach.Config)
    (hk : Each (fun _ w p => SystemKnows w.executions p) c)
    (hc : Each (fun _ w p => CopyKnown w.sequences p) c)
    (hlt : ∀ call l, c.pc a.call = .send call (.loadCampaignForAdvance l) →
      rowKey call.ctx l.sequence.state.id = u →
      l.sequence.state.currentStepIndex < l.sequence.state.steps.length)
    (hok : keepsPace u c a = true) :
    ProgressEffect u c.world (c.pc a.call).advancing (c.step (systemStep cfg) a).world
      ((c.step (systemStep cfg) a).pc a.call).advancing := by
  have hknows : SystemKnows c.world.executions (c.pc a.call) := hk a.call
  have hcopy : CopyKnown c.world.sequences (c.pc a.call) := hc a.call
  rw [Config.step_world, Config.step_pc_self]
  unfold keepsPace at hok
  cases hp : c.pc a.call with
  | prepare call p =>
    rw [hp] at hcopy
    exact prepareStep_progress a.call hcopy
  | send call p =>
    rw [hp] at hknows hcopy hok
    exact sendStep_progress cfg hknows hcopy (fun l hl => hlt call l (by rw [hp, hl])) hok
  | response call p =>
    rw [hp] at hknows
    have hnext := responseNext_progress a.input (u := u) hknows
    cases hf : a.input.fault with
    | some message => cases p <;> simp only [systemStep, hf] <;> exact .same rfl rfl Iff.rfl
    | none => cases p <;> simp only [systemStep, hf] <;> exact hnext
  | reconcile call p =>
    rw [hp] at hknows hok
    cases hf : a.input.fault with
    | some message => cases p <;> simp only [systemStep, hf] <;> exact .same rfl rfl Iff.rfl
    | none =>
      have hnext := reconcileNext_progress a.call a.input (u := u) hknows
        fun e he hkey hsaved => by
          subst he
          simpa [hkey, hf, hsaved] using hok
      cases p <;> simp only [systemStep, hf] <;> exact hnext
  | operate call p =>
    rw [hp] at hcopy
    cases hf : a.input.fault with
    | some message =>
      simp only [systemStep, hf]
      exact .same rfl rfl Iff.rfl
    | none =>
      simp only [systemStep, hf]
      exact operatorNext_progress hcopy

end

/-! ## The invariant -/

/-- The accepted steps are the first `n` ones. -/
structure AcceptedUpTo (u : RowKey) (T : Executions) (s : Sequence.Props) (n : Nat) : Prop where
  le : n ≤ s.steps.length
  iff : ∀ k step, s.steps[k]? = some step → (AcceptedStep u T step.stepNumber ↔ k < n)

/-- What the first `n` elements satisfy and no others is counted `n` times. -/
theorem countP_eq_of_initial {α : Type*} {p : α → Bool} {n : Nat} {l : List α}
    (hn : n ≤ l.length) (h : ∀ k (hk : k < l.length), p l[k] = true ↔ k < n) :
    l.countP p = n := by
  have htake : (l.take n).countP p = n := by
    have hall : (l.take n).countP p = (l.take n).length := by
      rw [List.countP_eq_length]
      intro a ha
      obtain ⟨k, hk, rfl⟩ := List.mem_take_iff_getElem.mp ha
      exact (h k (by omega)).mpr (by omega)
    rw [hall, List.length_take, Nat.min_eq_left hn]
  have hdrop : (l.drop n).countP p = 0 := by
    rw [List.countP_eq_zero]
    intro a ha
    obtain ⟨k, hk, rfl⟩ := List.mem_drop_iff_getElem.mp ha
    rw [h (n + k) (by omega)]
    omega
  rw [← List.take_append_drop n l, List.countP_append, htake, hdrop, Nat.add_zero]

theorem countsAccepted_iff {u : RowKey} {T : Executions} {s : Sequence.Props} :
    CountsAccepted u T s ↔ AcceptedUpTo u T s s.currentStepIndex := by
  constructor
  · rintro ⟨hcount, hiff⟩
    refine ⟨hcount ▸ List.countP_le_length, fun k step hk => ?_⟩
    obtain ⟨hlt, rfl⟩ := List.getElem?_eq_some_iff.mp hk
    exact hiff k hlt
  · rintro ⟨hle, hiff⟩
    have hiff' : ∀ k (hk : k < s.steps.length),
        AcceptedStep u T s.steps[k].stepNumber ↔ k < s.currentStepIndex :=
      fun k hk => hiff k _ (List.getElem?_eq_getElem hk)
    exact ⟨countP_eq_of_initial hle fun k hk => by simpa using hiff' k hk, hiff'⟩

/-- The index is in step and no call is to count a step, or one call is to count the step the index
is behind by. -/
inductive Pace (u : RowKey) (c : Interleave.Config World SystemPc) (s : Sequence.Props) : Prop where
  | inStep (h : AcceptedUpTo u c.world.executions s s.currentStepIndex)
      (hnone : ∀ j, (c.pc j).advancing ≠ some u)
  | behind (i : Nat) (h : AcceptedUpTo u c.world.executions s (s.currentStepIndex + 1))
      (hi : (c.pc i).advancing = some u) (honly : ∀ j, (c.pc j).advancing = some u → j = i)

/-- The rows of `u` are planned, its index keeps pace, and every call knows what it does. -/
structure ProgressInv (u : RowKey) (c : Interleave.Config World SystemPc) : Prop where
  knows : Each (fun _ w p => SystemKnows w.executions p) c
  copies : Each (fun _ w p => CopyKnown w.sequences p) c
  row : ∃ q, c.world.sequences.find u = some q ∧
    PlannedRows u c.world.executions q.payload ∧ Pace u c q.payload

section

variable {u : RowKey} {T T' : Executions} {s s' : Sequence.Props} {n : Nat}

theorem AcceptedUpTo.same (h : AcceptedUpTo u T s n) (hplan : s'.plan = s.plan)
    (hT : ∀ n, AcceptedStep u T' n ↔ AcceptedStep u T n) : AcceptedUpTo u T' s' n := by
  have hsteps : s'.steps = s.steps := congrArg Sequence.Plan.steps hplan
  refine ⟨by rw [hsteps]; exact h.le, fun k step hk => ?_⟩
  rw [hsteps] at hk
  rw [hT]
  exact h.iff k step hk

/-- An execution that becomes accepted is that of the first step that is not. -/
theorem AcceptedUpTo.accepts (h : AcceptedUpTo u T s n) (hrows : PlannedRows u T s)
    (hn : s.currentStepIndex ≤ n) {t : RowKey} {r r' : Row Props} (hr : Rewrites t r r' T T')
    (hu : OfSequence u t r.payload) (hneg : isPositiveTerminal r.payload.status = false)
    (hpos : isPositiveTerminal r'.payload.status = true) :
    s.currentStepIndex = n ∧ AcceptedUpTo u T' s (n + 1) := by
  obtain ⟨k, step, hk, hle, hnumber, -⟩ := hrows.rows t r hr.before hu
  have hkn : k = n := by
    have hnot : ¬ k < n := by
      intro hlt
      -- a step that was accepted has its one execution
      obtain ⟨t', r₀, hr₀, hu₀, hn₀, hp⟩ := (h.iff k step hk).mpr hlt
      obtain rfl : t = t' := hrows.once t r t' r₀ hr.before hr₀ hu hu₀ (hnumber.trans hn₀.symm)
      obtain rfl : r = r₀ := Option.some.inj (hr.before.symm.trans hr₀)
      rw [hneg] at hp
      cases hp
    omega
  subst hkn
  obtain ⟨hlt, -⟩ := List.getElem?_eq_some_iff.mp hk
  refine ⟨by omega, hlt, fun j step' hj => ?_⟩
  rw [hr.accepts hu hneg hpos, h.iff j step' hj]
  constructor
  · rintro (hjk | hnumber')
    · omega
    · obtain ⟨rfl, -⟩ := eq_of_stepNumber hrows.distinct hk hj (hnumber.symm.trans hnumber')
      omega
  · intro hjk
    rcases Nat.lt_succ_iff_lt_or_eq.mp hjk with hlt' | rfl
    · exact .inl hlt'
    · obtain rfl : step = step' := Option.some.inj (hk.symm.trans hj)
      exact .inr hnumber

variable {c c' : Interleave.Config World SystemPc} {i : Nat}

/-- The pace stays when the accepted steps and the index do, and the call that moves is to count a
step of `u` iff it was. -/
theorem Pace.same (h : Pace u c s) (hplan : s'.plan = s.plan)
    (hindex : s'.currentStepIndex = s.currentStepIndex)
    (hT : ∀ n, AcceptedStep u c'.world.executions n ↔ AcceptedStep u c.world.executions n)
    (hp : ∀ j, (c'.pc j).advancing = some u ↔ (c.pc j).advancing = some u) : Pace u c' s' := by
  cases h with
  | inStep h hnone =>
    refine .inStep ?_ fun j hj => hnone j ((hp j).mp hj)
    rw [hindex]
    exact h.same hplan hT
  | behind i h hi honly =>
    refine .behind i ?_ ((hp i).mpr hi) fun j hj => honly j ((hp j).mp hj)
    rw [hindex]
    exact h.same hplan hT

/-- A call accepts an execution: it was in step, and is behind until the call counts it. -/
theorem Pace.accepts (h : Pace u c s) (hrows : PlannedRows u c.world.executions s)
    (hplan : s'.plan = s.plan) (hindex : s'.currentStepIndex = s.currentStepIndex)
    {t : RowKey} {r r' : Row Props} (hr : Rewrites t r r' c.world.executions c'.world.executions)
    (hu : OfSequence u t r.payload) (hneg : isPositiveTerminal r.payload.status = false)
    (hpos : isPositiveTerminal r'.payload.status = true) (hafter : (c'.pc i).advancing = some u)
    (hothers : ∀ j, j ≠ i → c'.pc j = c.pc j) : Pace u c' s' := by
  cases h with
  | inStep h hnone =>
    obtain ⟨-, hnext⟩ := h.accepts hrows (Nat.le_refl _) hr hu hneg hpos
    refine .behind i ?_ hafter fun j hj => ?_
    · rw [hindex]
      exact hnext.same hplan fun _ => Iff.rfl
    · by_contra hji
      rw [hothers j hji] at hj
      exact hnone j hj
  | behind i' h hi honly =>
    obtain ⟨heq, -⟩ := h.accepts hrows (Nat.le_succ _) hr hu hneg hpos
    omega

/-- A call counts a step: it was the one the index was behind by. -/
theorem Pace.counts (h : Pace u c s) (hplan : s'.plan = s.plan)
    (hindex : s'.currentStepIndex = s.currentStepIndex + 1)
    (hT : c'.world.executions = c.world.executions) (hbefore : (c.pc i).advancing = some u)
    (hafter : (c'.pc i).advancing ≠ some u) (hothers : ∀ j, j ≠ i → c'.pc j = c.pc j) :
    Pace u c' s' := by
  cases h with
  | inStep h hnone => exact absurd hbefore (hnone i)
  | behind i' h hi honly =>
    obtain rfl : i = i' := honly i hbefore
    refine .inStep ?_ fun j hj => ?_
    · rw [hindex, hT]
      exact h.same hplan fun _ => Iff.rfl
    · by_cases hji : j = i
      · subst hji
        exact hafter hj
      · rw [hothers j hji] at hj
        exact hji (honly j hj)

end

section

variable {u : RowKey} {c : Interleave.Config World SystemPc} {a : Tick Input}

/-- A call that is to count a step of `u` has a copy with a current step. -/
theorem ProgressInv.current (h : ProgressInv u c) {i : Nat} {call : SendCall} {l : Sending}
    (hp : c.pc i = .send call (.loadCampaignForAdvance l))
    (hu : rowKey call.ctx l.sequence.state.id = u) :
    l.sequence.state.currentStepIndex < l.sequence.state.steps.length := by
  obtain ⟨q, hq, -, hpace⟩ := h.row
  have hcopy : CopyKnown c.world.sequences (c.pc i) := h.copies i
  rw [hp] at hcopy
  obtain ⟨⟨r, hr, hc, hle, -⟩, -⟩ := hcopy
  obtain rfl : r = q := by
    rw [hu, hq] at hr
    exact (Option.some.inj hr).symm
  have hsteps : l.sequence.state.steps = r.payload.steps :=
    congrArg Sequence.Plan.steps hc.fixed
  have hadv : (c.pc i).advancing = some u := by
    rw [hp]
    exact congrArg some hu
  cases hpace with
  | inStep _ hnone => exact absurd hadv (hnone i)
  | behind _ h _ _ =>
    have hlt := h.le
    rw [hsteps]
    omega

/-- **The index is behind by one exactly while a call is to count an accepted step.** -/
theorem progressInv_step (cfg : Outreach.Config) (h : ProgressInv u c)
    (hok : keepsPace u c a = true) : ProgressInv u (c.step (systemStep cfg) a) := by
  have heffect := progressEffect_step cfg h.knows h.copies
    (fun _ _ hp hu => h.current hp hu) hok
  refine ⟨systemKnows_step cfg h.knows, copyKnown_step cfg h.copies, ?_⟩
  obtain ⟨q, hq, hrows, hpace⟩ := h.row
  obtain ⟨hprogress, -⟩ := progresses_systemStep a.call a.input cfg (h.copies a.call)
  obtain ⟨q', hq', he⟩ := hprogress u q hq
  have hplan : q'.payload.plan = q.payload.plan := he.fixed
  have hle : q.payload.currentStepIndex ≤ q'.payload.currentStepIndex := he.moves
  have hothers : ∀ j, j ≠ a.call → (c.step (systemStep cfg) a).pc j = c.pc j :=
    fun j hj => Config.step_pc_ne _ c hj
  have hadvancing : (((c.step (systemStep cfg) a).pc a.call).advancing = some u ↔
      (c.pc a.call).advancing = some u) →
      ∀ j, ((c.step (systemStep cfg) a).pc j).advancing = some u ↔
        (c.pc j).advancing = some u := by
    intro hself j
    by_cases hj : j = a.call
    · rw [hj]
      exact hself
    · rw [hothers j hj]
  -- the index is read off the rows found before and after
  have hindex : ∀ n, indexAt u (c.step (systemStep cfg) a).world.sequences = some n →
      q'.payload.currentStepIndex = n := by
    intro n hn
    rw [Config.step_world, indexAt, hq', Option.map_some] at hn
    exact Option.some.inj hn
  have hsame : indexAt u (c.step (systemStep cfg) a).world.sequences =
      indexAt u c.world.sequences → q'.payload.currentStepIndex = q.payload.currentStepIndex := by
    intro heq
    refine hindex _ (heq.trans ?_)
    rw [indexAt, hq, Option.map_some]
  refine ⟨q', hq', ?_⟩
  cases heffect with
  | quiet hroutes hT hQ hp =>
    exact ⟨hrows.same hroutes hplan hle, hpace.same hplan (hsame hQ) hT (hadvancing hp)⟩
  | accepts t r r' hr hu hneg hpos hQ hbefore hafter =>
    exact ⟨hrows.same hr.sameRoutes hplan hle,
      hpace.accepts hrows hplan (hsame hQ) hr hu hneg hpos hafter hothers⟩
  | drafts t r hnone hT hneg hmade hQ hp =>
    have hQ' : indexAt u (c.step (systemStep cfg) a).world.sequences =
        indexAt u c.world.sequences := by rw [hQ]
    have hinserted := hrows.insert hnone (hmade q hq)
    rw [← hT] at hinserted
    refine ⟨hinserted.same (fun _ => rfl) hplan hle, hpace.same hplan (hsame hQ') (fun n => ?_)
      (hadvancing hp)⟩
    rw [hT]
    exact acceptedStep_append _ t hneg
  | counts hT n hn hQ hbefore hafter =>
    have hn' : q.payload.currentStepIndex = n := by
      rw [indexAt, hq, Option.map_some] at hn
      exact Option.some.inj hn
    refine ⟨hrows.same (fun t => by rw [hT]) hplan hle, hpace.counts hplan ?_ hT hbefore hafter
      hothers⟩
    rw [hindex _ hQ, hn']

end

/-- **Where a sequence is planned and in step, it is in step again whenever no call is running, in
every run in which a call that is to count an accepted step does so, and in which nothing else
accepts an execution of the sequence.** -/
theorem inStep_of_meets (cfg : Outreach.Config) (calls : Nat → SystemCall) (u : RowKey) (w : World)
    (s : List (Tick Input)) (hplanned : Planned u w) (hstart : InStep u w)
    (hmeets : Meets (systemStep cfg) (fun c a => keepsPace u c a = true) (startCalls w calls) s)
    (hrest : ∀ i, ((run (systemStep cfg) (startCalls w calls) s).pc i).resting = true) :
    InStep u (run (systemStep cfg) (startCalls w calls) s).world := by
  have hinit : ProgressInv u (startCalls w calls) := by
    obtain ⟨q, hq, hrows⟩ := hplanned
    obtain ⟨q', hq', hcounts⟩ := hstart
    obtain rfl : q = q' := Option.some.inj (hq.symm.trans hq')
    refine ⟨systemKnows_start w calls, copyKnown_start w calls, q, hq, hrows,
      .inStep (countsAccepted_iff.mp hcounts) fun j hj => ?_⟩
    have hadv : ((startCalls w calls).pc j).advancing = none := by
      show (calls j).start.advancing = none
      cases calls j <;> rfl
    rw [hadv] at hj
    cases hj
  have hstep : ∀ c a, ProgressInv u c → keepsPace u c a = true →
      ProgressInv u (c.step (systemStep cfg) a) := fun _ _ h hok => progressInv_step cfg h hok
  obtain ⟨-, -, q, hq, -, hpace⟩ := run_invariant_of_meets hstep hinit hmeets
  refine ⟨q, hq, countsAccepted_iff.mpr ?_⟩
  cases hpace with
  | inStep h _ => exact h
  | behind i _ hi _ =>
    rw [not_advancing_of_resting (hrest i)] at hi
    cases hi

/-- Call 0 prepares a draft, and call 1 sends it. -/
def draftAndSend : Nat → SystemCall
  | 0 => .prepare samplePrepareCall
  | _ => .send sampleSendCall

def draftAndSendSchedule : List (Tick Input) :=
  List.replicate 5 (personalizes 0) ++ List.replicate 15 (allowed 1)

/-- Only calls 0 and 1 are scheduled, so that only they can be running. -/
theorem resting_of_draftAndSend (w : World)
    (h : ∀ i < 2, ((run (systemStep {}) (startCalls w draftAndSend)
      draftAndSendSchedule).pc i).resting = true) (i : Nat) :
    ((run (systemStep {}) (startCalls w draftAndSend) draftAndSendSchedule).pc i).resting = true := by
  by_cases hi : i < 2
  · exact h i hi
  · have hidle : ∀ a ∈ draftAndSendSchedule, a.call ≠ i := by
      have hcalls : ∀ a ∈ draftAndSendSchedule, a.call < 2 := by decide +kernel
      intro a ha heq
      exact hi (heq ▸ hcalls a ha)
    rw [run_pc_of_not_mem _ hidle]
    show ((draftAndSend i).start).resting = true
    cases draftAndSend i <;> rfl

/-- A sequence without executions is planned if its steps are numbered apart. -/
theorem planned_of_no_executions {u : RowKey} {w : World} {q : Row Sequence.Props}
    (hq : w.sequences.find u = some q)
    (hd : (q.payload.steps.map SequenceStep.stepNumber).Nodup) (hT : w.executions = []) :
    Planned u w := by
  refine ⟨q, hq, hd, fun t r hr => ?_, fun t r _ _ hr => ?_⟩ <;>
    rw [hT] at hr <;> cases hr

theorem inStep_draftAndSend :
    InStep (rowKey sampleContext "sequence")
      (run (systemStep {}) (startCalls undraftedWorld draftAndSend) draftAndSendSchedule).world :=
  inStep_of_meets {} draftAndSend (rowKey sampleContext "sequence") undraftedWorld
    draftAndSendSchedule (planned_of_no_executions rfl (by decide) rfl) (by decide +kernel)
    (by decide +kernel) (resting_of_draftAndSend undraftedWorld (by decide +kernel))

/-- A paused sequence of one step that was not drafted yet. -/
def pausedUndraftedWorld : World :=
  .ofRows [] [sampleSequence "sequence" 1 .paused] [sampleCampaign 1 {}]

theorem not_inStep_paused :
    ¬ ∀ (cfg : Outreach.Config) (calls : Nat → SystemCall) (u : RowKey) (w : World)
      (s : List (Tick Input)), Planned u w → InStep u w →
      (∀ i, ((run (systemStep cfg) (startCalls w calls) s).pc i).resting = true) →
      InStep u (run (systemStep cfg) (startCalls w calls) s).world := by
  intro h
  -- the provider accepts, and the step of the paused sequence is refused
  have hrun := h {} draftAndSend (rowKey sampleContext "sequence") pausedUndraftedWorld
    draftAndSendSchedule (planned_of_no_executions rfl (by decide) rfl) (by decide +kernel)
    (resting_of_draftAndSend pausedUndraftedWorld (by decide +kernel))
  revert hrun
  decide +kernel

end VegaRevenue.Outreach
