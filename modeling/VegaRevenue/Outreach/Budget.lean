import VegaRevenue.Outreach.Rows

/-!
# The send count of a campaign

Every accepted send is counted in the campaign's row by the save of the copy the call spent from.
`t` is the row of the campaign, `sentCount` its stored count.

* `CountEffect` — what one step does to the stored counts and the accepted sends
* `sentCount_of_meets` — the budget is kept and every accepted send counted, as long as calls count
  their accepted sends one after the other
* `not_sentCount_overlapping` — two overlapping calls exceed the budget
-/

namespace VegaRevenue.Outreach

open Interleave
open Versioned (Table Row)

abbrev Campaigns := Table RowKey Campaign.Props

/-- The sends of a campaign that a provider accepted. -/
def acceptedSends (t : RowKey) : List Observed → Int
  | [] => 0
  | .answered _ _ campaign status :: log =>
    if campaign = t ∧ status.isAccepted = true then acceptedSends t log + 1
    else acceptedSends t log
  | _ :: log => acceptedSends t log

/-- The copy of the campaign whose accepted send is still to be counted. -/
def SendPc.uncounted : SendPc → Option Campaign
  | saveAccepted l _ | saveCampaign l _ => some l.campaign
  | _ => none

/-- Call `i` is to count an accepted send of the campaign `t` with this copy. -/
def Uncounted (calls : Nat → SendCall) (t : RowKey) (pc : Nat → SendPc) (i : Nat)
    (campaign : Campaign) : Prop :=
  (pc i).uncounted = some campaign ∧ rowKey (calls i).ctx campaign.state.id = t

/-- A step by which a call drops the accepted send it was to count: its save of the execution or of
the campaign fails. -/
def drops (ctx : Context) (input : Input) (w : World) : SendPc → Bool
  | .saveAccepted l _ => input.fault.isSome || !(w.saveExecution ctx l.execution).isSaved
  | .saveCampaign l _ => input.fault.isSome || !(w.saveCampaign ctx l.campaign).isSaved
  | _ => false

/-- The step takes an answer that accepts a send of `t`. -/
def acceptsFor (calls : Nat → SendCall) (t : RowKey) (c : Interleave.Config World SendPc)
    (a : Tick Input) : Bool :=
  match c.pc a.call with
  | .awaitAnswer l => a.input.fault.isNone && a.input.answer.status.isAccepted &&
    rowKey (calls a.call).ctx l.campaign.state.id = t
  | _ => false

/-- What the condition asks of the call that moves: a send is accepted only for a copy that counts
the stored sends and one more, every accepted send gets counted, and a campaign is completed only
from a copy with the stored count. -/
def countsOwn (calls : Nat → SendCall) (t : RowKey) (c : Interleave.Config World SendPc)
    (a : Tick Input) : Bool :=
  match c.pc a.call with
  | .awaitAnswer l => !acceptsFor calls t c a || (c.world.campaigns.find t).all fun r =>
    l.campaign.state.sentCount = r.payload.sentCount + 1
  | .saveAccepted l _ | .saveCampaign l _ =>
    rowKey (calls a.call).ctx l.campaign.state.id ≠ t ||
      !drops (calls a.call).ctx a.input c.world (c.pc a.call)
  | .saveCampaignComplete campaign _ =>
    rowKey (calls a.call).ctx campaign.state.id ≠ t ||
      !(c.world.saveCampaign (calls a.call).ctx campaign).isSaved ||
      (c.world.campaigns.find t).all fun r => campaign.state.sentCount = r.payload.sentCount
  | _ => true

/-- The sends of `t` are counted one after the other: no send is accepted while another accepted one
is still to be counted. -/
def CountsInTurn (calls : Nat → SendCall) (t : RowKey) (c : Interleave.Config World SendPc)
    (a : Tick Input) : Prop :=
  countsOwn calls t c a = true ∧
    (acceptsFor calls t c a = true → ∀ i campaign, ¬ Uncounted calls t c.pc i campaign)

section

variable {calls : Nat → SendCall} {t : RowKey} {c : Interleave.Config World SendPc}
  {a : Tick Input}

theorem CountsInTurn.accepts (h : CountsInTurn calls t c a) {l : Sending}
    (hp : c.pc a.call = .awaitAnswer l) (hfault : a.input.fault = none)
    (haccepted : a.input.answer.status.isAccepted = true)
    (ht : rowKey (calls a.call).ctx l.campaign.state.id = t) :
    (∀ r, c.world.campaigns.find t = some r →
      l.campaign.state.sentCount = r.payload.sentCount + 1) ∧
    ∀ i campaign, ¬ Uncounted calls t c.pc i campaign := by
  obtain ⟨hown, hnone⟩ := h
  have haccepts : acceptsFor calls t c a = true := by
    rw [acceptsFor, hp]
    simp [hfault, haccepted, ht]
  refine ⟨fun r hr => ?_, hnone haccepts⟩
  rw [countsOwn, hp] at hown
  simpa [haccepts, hr] using hown

theorem CountsInTurn.not_drops (h : CountsInTurn calls t c a) {campaign : Campaign}
    (hp : (c.pc a.call).uncounted = some campaign)
    (ht : rowKey (calls a.call).ctx campaign.state.id = t) :
    drops (calls a.call).ctx a.input c.world (c.pc a.call) = false := by
  have hown := h.1
  unfold countsOwn at hown
  cases hpc : c.pc a.call with
  | saveAccepted l answer =>
    rw [hpc] at hp hown
    obtain rfl := Option.some.inj hp
    simpa [ht] using hown
  | saveCampaign l answer =>
    rw [hpc] at hp hown
    obtain rfl := Option.some.inj hp
    simpa [ht] using hown
  | _ => rw [hpc] at hp; cases hp

theorem CountsInTurn.completes (h : CountsInTurn calls t c a) {campaign : Campaign}
    {nextDueAt : Option Date} (hp : c.pc a.call = .saveCampaignComplete campaign nextDueAt)
    (ht : rowKey (calls a.call).ctx campaign.state.id = t)
    (hsaved : (c.world.saveCampaign (calls a.call).ctx campaign).isSaved = true)
    {r : Row Campaign.Props} (hr : c.world.campaigns.find t = some r) :
    campaign.state.sentCount = r.payload.sentCount := by
  have hown := h.1
  rw [countsOwn, hp] at hown
  simpa [ht, hsaved, hr] using hown

end

/-! ## One step -/

/-- What a step does to the stored counts and the accepted sends. -/
inductive CountEffect (ctx : Context) (input : Input) (w : World) (p : SendPc) :
    World × SendPc → Prop where
  | accepts (l : Sending) (hp : p = .awaitAnswer l) (hfault : input.fault = none)
      (haccepted : input.answer.status.isAccepted = true) (i : Nat) (execution : RowKey)
      (l' : Sending) (answer : ProviderSendResult)
      (hl' : l'.campaign.state.id = l.campaign.state.id ∧
        l'.campaign.state.sentCount = l.campaign.state.sentCount) :
    CountEffect ctx input w p
      (w.observe (.answered i execution (rowKey ctx l.campaign.state.id) input.answer.status),
        .saveAccepted l' answer)
  | saves (campaign : Campaign) (w' : World) (c' : Campaign) (p' : SendPc)
      (ho : w.saveCampaign ctx campaign = .saved (w', c'))
      (hp : (∃ l answer, p = .saveCampaign l answer ∧ campaign = l.campaign) ∨
        ∃ nextDueAt, p = .saveCampaignComplete campaign nextDueAt)
      (hp' : p'.uncounted = none) : CountEffect ctx input w p (w', p')
  | other (w' : World) (p' : SendPc) (hrows : w'.campaigns = w.campaigns)
      (hlog : ∀ t, acceptedSends t w'.log = acceptedSends t w.log)
      (hp' : p'.uncounted = p.uncounted ∨ p'.uncounted = none ∧ drops ctx input w p = true) :
    CountEffect ctx input w p (w', p')

section

variable {call : SendCall} {i : Nat} {input : Input} {w : World} {p : SendPc}

/-- A step that accepts nothing and saves no campaign. -/
theorem CountEffect.silent {w' : World} {p' : SendPc} (hrows : w'.campaigns = w.campaigns)
    (hlog : w'.log = w.log) (hp' : p'.uncounted = p.uncounted) :
    CountEffect call.ctx input w p (w', p') :=
  .other w' p' hrows (fun t => by rw [hlog]) (.inl hp')

/-- A save of an execution touches no campaign. -/
theorem saveExecution_campaigns {w' : World} {ctx : Context} {e e' : MessageExecution}
    (h : w.saveExecution ctx e = .saved (w', e')) :
    w'.campaigns = w.campaigns ∧ w'.log = w.log := by
  obtain ⟨-, -, -, T, -, rfl⟩ := World.saveExecution_eq_saved h
  exact ⟨rfl, rfl⟩

theorem counts_afterSave_execution {e : MessageExecution} {next : MessageExecution → SendPc}
    (hp : p.uncounted = none) (hnext : ∀ e', (next e').uncounted = none) :
    CountEffect call.ctx input w p (afterSave w (w.saveExecution call.ctx e) next) := by
  rcases afterSave_cases w (w.saveExecution call.ctx e) next with
    ⟨w', e', ho, h⟩ | ⟨-, h⟩ | ⟨message, -, h⟩ <;> rw [h]
  · obtain ⟨hrows, hlog⟩ := saveExecution_campaigns ho
    exact .silent hrows hlog ((hnext e').trans hp.symm)
  · exact .silent rfl rfl hp.symm
  · exact .silent rfl rfl hp.symm

theorem counts_setRecord {e : MessageExecution} {result : Json} {status : Idempotency.Status}
    {next : SendPc} (hp : p.uncounted = none) (hnext : next.uncounted = none) :
    CountEffect call.ctx input w p (setRecord w call.ctx i e result status input.now next) := by
  rcases setRecord_cases w call.ctx i e result status input.now next with
    ⟨-, r, -, h⟩ | ⟨-, h⟩ <;> rw [h]
  · exact .other _ _ rfl (fun t => rfl) (.inl (hnext.trans hp.symm))
  · exact .silent rfl rfl hp.symm

theorem counts_onAnswer {cfg : Config} {l : Sending}
    (hs : l.execution.state.status = .sending) (hf : input.fault = none) :
    CountEffect call.ctx input w (.awaitAnswer l)
      (sendNext cfg call i input w (.awaitAnswer l)) := by
  have haccepted := MessageExecution.markProviderAccepted_status hs input.answer.providerMessageId
    input.answer.internetMessageId input.answer.providerErrorCode input.now.ms
  have hquiet : ∀ p', p'.uncounted = none → input.answer.status.isAccepted = false →
      CountEffect call.ctx input w (.awaitAnswer l)
        (w.observe (.answered i (rowKey call.ctx l.execution.state.id)
          (rowKey call.ctx l.campaign.state.id) input.answer.status), p') := by
    intro p' hp' hna
    refine .other _ _ rfl (fun t => ?_) (.inl hp')
    show acceptedSends t (.answered _ _ _ _ :: w.log) = _
    rw [acceptedSends, if_neg (by simp [hna])]
  simp only [sendNext]
  unfold onAnswer
  split
  iterate 3
    next hstatus =>
      split
      next he => rw [he] at haccepted; exact absurd haccepted.2 (by rintro ⟨⟩)
      next e _ _ he =>
        exact .accepts l rfl hf (by rw [hstatus]; rfl) i _ _ _ ⟨rfl, rfl⟩
  next hstatus => exact hquiet _ rfl (by rw [hstatus]; rfl)
  next hstatus => exact hquiet _ rfl (by rw [hstatus]; rfl)
  next hstatus => exact hquiet _ rfl (by rw [hstatus]; rfl)

/-- **What one step does to the stored counts and the accepted sends.** -/
theorem sendNext_counts (cfg : Config) (hf : input.fault = none)
    (hs : ∀ l, p = .awaitAnswer l → l.execution.state.status = .sending) :
    CountEffect call.ctx input w p (sendNext cfg call i input w p) := by
  cases p with
  | loadExecution =>
    simp only [sendNext]
    split <;> exact .silent rfl rfl rfl
  | loadSequence e =>
    simp only [sendNext]
    split <;> exact .silent rfl rfl rfl
  | loadCampaign e sequence =>
    simp only [sendNext]
    split
    · exact .silent rfl rfl rfl
    · split <;> exact .silent rfl rfl rfl
  | recoverRecipient l =>
    simp only [sendNext]
    split <;> exact .silent rfl rfl rfl
  | evaluate l =>
    simp only [sendNext]
    split
    · exact .silent rfl rfl rfl
    next decision hd =>
      have hquiet : ∀ r : World × SendPc, r.1.campaigns = w.campaigns →
          (∀ t, acceptedSends t r.1.log = acceptedSends t w.log) → r.2.uncounted = none →
          CountEffect call.ctx input w (.evaluate l) (afterAudit input.audit r) := by
        intro r hrows hlog hr
        unfold afterAudit
        split
        · exact .other _ _ hrows hlog (.inl hr)
        · exact .other _ _ hrows hlog (.inl rfl)
      cases decision with
      | allow => exact hquiet _ rfl (fun t => rfl) rfl
      | deny code reason =>
        unfold onDecision
        dsimp only
        split <;> exact hquiet _ rfl (fun t => rfl) rfl
      | retryable code reason retryAfterMs => exact hquiet _ rfl (fun t => rfl) rfl
  | selectProvider l =>
    simp only [sendNext]
    split
    · exact .silent rfl rfl rfl
    · split <;> exact .silent rfl rfl rfl
  | saveFailure l exit => exact counts_afterSave_execution rfl fun _ => rfl
  | markFailed l exit => exact counts_setRecord rfl rfl
  | saveAttempt l => exact counts_afterSave_execution rfl fun _ => rfl
  | send l => exact .other _ _ rfl (fun t => rfl) (.inl rfl)
  | awaitAnswer l => exact counts_onAnswer (hs l rfl) hf
  | saveAccepted l answer =>
    simp only [sendNext]
    rcases afterSave_cases w (w.saveExecution call.ctx l.execution)
        (fun e => .saveCampaign { l with execution := e } answer) with
      ⟨w', e', ho, h⟩ | ⟨ho, h⟩ | ⟨message, ho, h⟩ <;> rw [h]
    · obtain ⟨hrows, hlog⟩ := saveExecution_campaigns ho
      exact .silent hrows hlog rfl
    · exact .other _ _ rfl (fun t => rfl) (.inr ⟨rfl, by simp [drops, ho, SaveOutcome.isSaved]⟩)
    · exact .other _ _ rfl (fun t => rfl) (.inr ⟨rfl, by simp [drops, ho, SaveOutcome.isSaved]⟩)
  | saveCampaign l answer =>
    simp only [sendNext]
    rcases afterSave_cases w (w.saveCampaign call.ctx l.campaign)
        (fun campaign => .markCompleted { l with campaign } answer) with
      ⟨w', c', ho, h⟩ | ⟨ho, h⟩ | ⟨message, ho, h⟩ <;> rw [h]
    · exact .saves l.campaign w' c' _ ho (.inl ⟨l, answer, rfl, rfl⟩) rfl
    · exact .other _ _ rfl (fun t => rfl) (.inr ⟨rfl, by simp [drops, ho, SaveOutcome.isSaved]⟩)
    · exact .other _ _ rfl (fun t => rfl) (.inr ⟨rfl, by simp [drops, ho, SaveOutcome.isSaved]⟩)
  | markCompleted l answer => exact counts_setRecord rfl rfl
  | loadCampaignForAdvance l =>
    simp only [sendNext]
    rcases advance_cases cfg l (w.loadCampaign call.ctx l.sequence.state.campaignId)
      input.now.ms with ⟨ended, h⟩ | ⟨nextDueAt, hasMoreSteps, -, h⟩ <;> rw [h] <;>
      exact .silent rfl rfl rfl
  | saveSequence sequence campaign nextDueAt hasMoreSteps =>
    simp only [sendNext]
    rcases afterSave_cases w (w.saveSequence call.ctx sequence) _ with
      ⟨w', s', ho, h⟩ | ⟨-, h⟩ | ⟨message, -, h⟩ <;> rw [h]
    · obtain ⟨-, T, -, rfl⟩ := World.saveSequence_eq_saved ho
      refine .silent rfl rfl ?_
      split <;> rfl
    · exact .silent rfl rfl rfl
    · exact .silent rfl rfl rfl
  | saveCampaignComplete campaign nextDueAt =>
    simp only [sendNext]
    rcases afterSave_cases w (w.saveCampaign call.ctx campaign)
        (fun _ => .done (.returned (.completed nextDueAt))) with
      ⟨w', c', ho, h⟩ | ⟨-, h⟩ | ⟨message, -, h⟩ <;> rw [h]
    · exact .saves campaign w' c' _ ho (.inr ⟨nextDueAt, rfl⟩) rfl
    · exact .silent rfl rfl rfl
    · exact .silent rfl rfl rfl
  | saveAmbiguous l reason => exact counts_afterSave_execution rfl fun _ => rfl
  | loadAuthoritative =>
    simp only [sendNext]
    split <;> exact .silent rfl rfl rfl
  | getRecord idempotencyKey =>
    simp only [sendNext]
    split <;> exact .silent rfl rfl rfl
  | reload record =>
    simp only [sendNext]
    split
    · exact .silent rfl rfl rfl
    next e he =>
      rcases resolveDuplicate_cases record e input.now.ms with ⟨result, h⟩ | ⟨e', h⟩ <;> rw [h] <;>
        exact .silent rfl rfl rfl
  | saveAuthoritative e =>
    simp only [sendNext]
    split
    next ho =>
      obtain ⟨hrows, hlog⟩ := saveExecution_campaigns ho
      exact .silent hrows hlog rfl
    · exact .silent rfl rfl rfl
    · exact .silent rfl rfl rfl
  | reloadNewer e => exact .silent rfl rfl rfl
  | done ended => exact .silent rfl rfl rfl

end

theorem sendStep_counts (cfg : Config) (calls : Nat → SendCall) (i : Nat) (input : Input)
    (w : World) (p : SendPc)
    (hs : ∀ l, p = .awaitAnswer l → l.execution.state.status = .sending) :
    CountEffect (calls i).ctx input w p (sendStep cfg calls i input w p) := by
  cases hf : input.fault with
  | none =>
    rw [sendStep_eq_sendNext cfg calls i w p hf]
    exact sendNext_counts cfg hf hs
  | some message =>
    obtain ⟨ended, h, -⟩ := sendStep_fault cfg calls i w p hf
    rw [h]
    refine .other _ _ rfl (fun t => rfl) ?_
    cases p with
    | saveAccepted l answer => exact .inr ⟨rfl, by simp [drops, hf]⟩
    | saveCampaign l answer => exact .inr ⟨rfl, by simp [drops, hf]⟩
    | _ => exact .inl rfl

/-! ## Budgets -/

/-- Rows keep their budget. -/
def BudgetsStay (T T' : Campaigns) : Prop :=
  ∀ t r, T.find t = some r → ∃ r', T'.find t = some r' ∧ r'.payload.budget = r.payload.budget

theorem BudgetsStay.refl (T : Campaigns) : BudgetsStay T T := fun _ r h => ⟨r, h, rfl⟩

/-- A copy of a stored campaign, with its budget. -/
def HasBudget (ctx : Context) (T : Campaigns) (campaign : Campaign) : Prop :=
  ∃ r, T.find (rowKey ctx campaign.state.id) = some r ∧
    campaign.state.budget = r.payload.budget

/-- The copy counts no more sends than its budget allows. -/
def Within (campaign : Campaign) : Prop :=
  ∀ limit, campaign.state.budget.maxSendCount = some limit → campaign.state.sentCount ≤ limit

def Budgeted (ctx : Context) (T : Campaigns) : SendPc → Prop
  | .recoverRecipient l | .evaluate l | .saveAccepted l _ | .saveCampaign l _ =>
    HasBudget ctx T l.campaign
  | .selectProvider l | .saveAttempt l | .send l | .awaitAnswer l =>
    HasBudget ctx T l.campaign ∧ Within l.campaign
  | .saveSequence _ campaign _ _ => ∀ c, campaign = some c → HasBudget ctx T c
  | .saveCampaignComplete campaign _ => HasBudget ctx T campaign
  | _ => True

theorem HasBudget.stay {ctx : Context} {T T' : Campaigns} (hT : BudgetsStay T T')
    {campaign : Campaign} (h : HasBudget ctx T campaign) : HasBudget ctx T' campaign := by
  obtain ⟨r, hr, hb⟩ := h
  obtain ⟨r', hr', hb'⟩ := hT _ r hr
  exact ⟨r', hr', hb.trans hb'.symm⟩

theorem HasBudget.of_eq {ctx : Context} {T : Campaigns} {a b : Campaign}
    (h : HasBudget ctx T a) (hid : b.state.id = a.state.id)
    (hbudget : b.state.budget = a.state.budget) : HasBudget ctx T b := by
  obtain ⟨r, hr, hb⟩ := h
  exact ⟨r, by rw [hid]; exact hr, hbudget.trans hb⟩

theorem Budgeted.stay {ctx : Context} {T T' : Campaigns} (hT : BudgetsStay T T') {p : SendPc}
    (h : Budgeted ctx T p) : Budgeted ctx T' p := by
  cases p with
  | recoverRecipient l => exact HasBudget.stay hT h
  | evaluate l => exact HasBudget.stay hT h
  | saveAccepted l answer => exact HasBudget.stay hT h
  | saveCampaign l answer => exact HasBudget.stay hT h
  | saveSequence sequence campaign nextDueAt hasMoreSteps =>
    exact fun c hc => (h c hc).stay hT
  | saveCampaignComplete campaign nextDueAt => exact HasBudget.stay hT h
  | _ => first | trivial | exact ⟨h.1.stay hT, h.2⟩

theorem hasBudget_load {w : World} {ctx : Context} {id : String} {campaign : Campaign}
    (h : w.loadCampaign ctx id = some campaign) : HasBudget ctx w.campaigns campaign := by
  obtain ⟨r, hr, rfl⟩ := Option.map_eq_some_iff.mp h
  exact ⟨r, hr, rfl⟩

/-- A save by a copy replaces its own row, within the same budget. -/
theorem HasBudget.save {w w' : World} {ctx : Context} {campaign c' : Campaign}
    (h : HasBudget ctx w.campaigns campaign)
    (ho : w.saveCampaign ctx campaign = .saved (w', c')) :
    BudgetsStay w.campaigns w'.campaigns ∧
      w'.campaigns.find (rowKey ctx campaign.state.id) =
        some ⟨campaign.state, campaign.version⟩ ∧
      ∀ t, t ≠ rowKey ctx campaign.state.id → w'.campaigns.find t = w.campaigns.find t := by
  obtain ⟨r, hr, hb⟩ := h
  obtain ⟨-, T, hT, rfl⟩ := World.saveCampaign_eq_saved ho
  have hself := Table.find_save_self hT
  refine ⟨fun t r₀ hr₀ => ?_, hself, fun t ht => Table.find_save_ne hT ht⟩
  by_cases ht : t = rowKey ctx campaign.state.id
  · subst ht
    obtain rfl : r = r₀ := Option.some.inj (hr.symm.trans hr₀)
    exact ⟨_, hself, hb⟩
  · exact ⟨r₀, (Table.find_save_ne hT ht).trans hr₀, rfl⟩

/-- What a step owes: budgets stay, and the copies of the call keep theirs. -/
def KeepsBudgets (ctx : Context) (w : World) (r : World × SendPc) : Prop :=
  BudgetsStay w.campaigns r.1.campaigns ∧ Budgeted ctx r.1.campaigns r.2

section

variable {call : SendCall} {i : Nat} {input : Input} {w : World} {p : SendPc}

theorem KeepsBudgets.same {ctx : Context} {w' : World} {p' : SendPc}
    (hw : w'.campaigns = w.campaigns) (h : Budgeted ctx w.campaigns p') :
    KeepsBudgets ctx w (w', p') := by
  refine ⟨?_, ?_⟩
  · show BudgetsStay w.campaigns w'.campaigns
    rw [hw]
    exact BudgetsStay.refl _
  · show Budgeted ctx w'.campaigns p'
    rw [hw]
    exact h

theorem budgets_afterSave_execution {e : MessageExecution} {next : MessageExecution → SendPc}
    (hnext : ∀ e', Budgeted call.ctx w.campaigns (next e')) :
    KeepsBudgets call.ctx w (afterSave w (w.saveExecution call.ctx e) next) := by
  rcases afterSave_cases w (w.saveExecution call.ctx e) next with
    ⟨w', e', ho, h⟩ | ⟨-, h⟩ | ⟨message, -, h⟩ <;> rw [h]
  · exact .same (saveExecution_campaigns ho).1 (hnext e')
  · exact .same rfl trivial
  · exact .same rfl trivial

theorem budgets_afterSave_campaign {campaign : Campaign} {next : Campaign → SendPc}
    (h : HasBudget call.ctx w.campaigns campaign)
    (hnext : ∀ c' T, Budgeted call.ctx T (next c')) :
    KeepsBudgets call.ctx w (afterSave w (w.saveCampaign call.ctx campaign) next) := by
  rcases afterSave_cases w (w.saveCampaign call.ctx campaign) next with
    ⟨w', c', ho, hr⟩ | ⟨-, hr⟩ | ⟨message, -, hr⟩ <;> rw [hr]
  · exact ⟨(h.save ho).1, hnext c' _⟩
  · exact .same rfl trivial
  · exact .same rfl trivial

theorem budgets_setRecord {e : MessageExecution} {result : Json} {status : Idempotency.Status}
    {next : SendPc} (hnext : Budgeted call.ctx w.campaigns next) :
    KeepsBudgets call.ctx w (setRecord w call.ctx i e result status input.now next) := by
  rcases setRecord_cases w call.ctx i e result status input.now next with
    ⟨-, r, -, h⟩ | ⟨-, h⟩ <;> rw [h]
  · exact .same rfl hnext
  · exact .same rfl trivial

/-- Passing the gate leaves a copy that stays within its budget. -/
theorem budgets_evaluate (cfg : Config) {l : Sending}
    (h : HasBudget call.ctx w.campaigns l.campaign) :
    KeepsBudgets call.ctx w (sendNext cfg call i input w (.evaluate l)) := by
  have haudit : ∀ r : World × SendPc, KeepsBudgets call.ctx w r →
      KeepsBudgets call.ctx w (afterAudit input.audit r) := by
    intro r hr
    unfold afterAudit
    split
    · exact hr
    · exact ⟨hr.1, trivial⟩
  simp only [sendNext]
  rcases evaluate_cases cfg.rateLimitConfig w.idempotency
      ⟨call.ctx, l.campaign, l.execution, cfg.channelCostEstimate l.step.channel⟩ input.gate
      input.now with ⟨hne, -⟩ | ⟨hallow, -, -, hbudget, hspent⟩
  · split
    · exact .same rfl trivial
    next decision hd =>
      refine haudit _ ?_
      cases decision with
      | allow => exact absurd hd hne
      | deny code reason =>
        unfold onDecision
        dsimp only
        split <;> exact .same rfl trivial
      | retryable code reason retryAfterMs => exact .same rfl trivial
  · rw [hallow]
    refine haudit _ ?_
    obtain ⟨hid, hb⟩ := Campaign.recordSpend_keeps l.campaign 1
      (cfg.channelCostEstimate l.step.channel)
    obtain ⟨hcount, hle⟩ := recordSpend_of_checkBudget hbudget
    refine .same rfl ⟨?_, ?_⟩
    · rw [hspent]
      exact h.of_eq hid hb
    · rw [hspent]
      intro limit hlimit
      dsimp only at hcount hlimit ⊢
      rw [hb] at hlimit
      rw [hcount]
      exact hle limit hlimit

theorem budgets_onAnswer {T : Campaigns} {l : Sending} (h : HasBudget call.ctx T l.campaign)
    (answer : ProviderSendResult) (now : Date) :
    Budgeted call.ctx T (onAnswer l answer now) := by
  unfold onAnswer
  split
  iterate 3
    split
    · trivial
    · exact h
  · trivial
  · trivial
  · trivial

theorem budgets_sendNext (cfg : Config) (h : Budgeted call.ctx w.campaigns p) :
    KeepsBudgets call.ctx w (sendNext cfg call i input w p) := by
  cases p with
  | loadExecution =>
    simp only [sendNext]
    split <;> exact .same rfl trivial
  | loadSequence e =>
    simp only [sendNext]
    split <;> exact .same rfl trivial
  | loadCampaign e sequence =>
    simp only [sendNext]
    split
    · exact .same rfl trivial
    next campaign hc =>
      split
      · exact .same rfl trivial
      next l hl =>
        obtain ⟨-, -, -, -, rfl⟩ := checkReady_inr hl
        exact .same rfl (hasBudget_load hc)
  | recoverRecipient l =>
    simp only [sendNext]
    split
    · exact .same rfl h
    · exact .same rfl trivial
  | evaluate l => exact budgets_evaluate cfg h
  | selectProvider l =>
    simp only [sendNext]
    split
    · exact .same rfl trivial
    · split
      · exact .same rfl trivial
      · exact .same rfl h
  | saveFailure l exit => exact budgets_afterSave_execution fun _ => trivial
  | markFailed l exit => exact budgets_setRecord trivial
  | saveAttempt l => exact budgets_afterSave_execution fun _ => h
  | send l => exact .same rfl h
  | awaitAnswer l =>
    simp only [sendNext]
    refine .same rfl ?_
    apply budgets_onAnswer
    exact h.1
  | saveAccepted l answer => exact budgets_afterSave_execution fun _ => h
  | saveCampaign l answer => exact budgets_afterSave_campaign h fun _ _ => trivial
  | markCompleted l answer => exact budgets_setRecord trivial
  | loadCampaignForAdvance l =>
    simp only [sendNext]
    rcases advance_cases cfg l (w.loadCampaign call.ctx l.sequence.state.campaignId)
      input.now.ms with ⟨ended, hr⟩ | ⟨nextDueAt, hasMoreSteps, -, hr⟩ <;> rw [hr]
    · exact .same rfl trivial
    · exact .same rfl fun c hc => hasBudget_load hc
  | saveSequence sequence campaign nextDueAt hasMoreSteps =>
    simp only [sendNext]
    rcases afterSave_cases w (w.saveSequence call.ctx sequence) _ with
      ⟨w', s', ho, hr⟩ | ⟨-, hr⟩ | ⟨message, -, hr⟩ <;> rw [hr]
    · obtain ⟨-, T, -, rfl⟩ := World.saveSequence_eq_saved ho
      refine .same rfl ?_
      split
      next campaign =>
        obtain ⟨hid, hb, -⟩ := Campaign.transition_keeps campaign .completed
          (some "Campaign completed") none input.now.ms
        exact (h campaign rfl).of_eq hid hb
      · trivial
    · exact .same rfl trivial
    · exact .same rfl trivial
  | saveCampaignComplete campaign nextDueAt =>
    exact budgets_afterSave_campaign h fun _ _ => trivial
  | saveAmbiguous l reason => exact budgets_afterSave_execution fun _ => trivial
  | loadAuthoritative =>
    simp only [sendNext]
    split <;> exact .same rfl trivial
  | getRecord idempotencyKey =>
    simp only [sendNext]
    split <;> exact .same rfl trivial
  | reload record =>
    simp only [sendNext]
    split
    · exact .same rfl trivial
    next e he =>
      rcases resolveDuplicate_cases record e input.now.ms with ⟨result, h⟩ | ⟨e', h⟩ <;> rw [h] <;>
        exact .same rfl trivial
  | saveAuthoritative e =>
    simp only [sendNext]
    split
    next ho => exact .same (saveExecution_campaigns ho).1 trivial
    · exact .same rfl trivial
    · exact .same rfl trivial
  | reloadNewer e => exact .same rfl trivial
  | done ended => exact .same rfl trivial

end

theorem budgets_sendStep (cfg : Config) (calls : Nat → SendCall) (i : Nat) (input : Input)
    {w : World} {p : SendPc} (h : Budgeted (calls i).ctx w.campaigns p) :
    KeepsBudgets (calls i).ctx w (sendStep cfg calls i input w p) := by
  cases hf : input.fault with
  | none =>
    rw [sendStep_eq_sendNext cfg calls i w p hf]
    exact budgets_sendNext cfg h
  | some message =>
    obtain ⟨ended, hr, -⟩ := sendStep_fault cfg calls i w p hf
    rw [hr]
    exact .same rfl trivial

/-! ## The count -/

/-- The stored row `r` of a campaign that had `r₀` before `accepted` sends were accepted; `U i c`
says that call `i` is to count an accepted send with the copy `c`. -/
structure Counted (r₀ r : Row Campaign.Props) (accepted : Int) (U : Nat → Campaign → Prop) :
    Prop where
  budget : r.payload.budget = r₀.payload.budget
  counted : (∀ i c, ¬ U i c) → r.payload.sentCount = r₀.payload.sentCount + accepted
  next : ∀ i c, U i c → c.state.sentCount = r.payload.sentCount + 1 ∧
    r.payload.sentCount + 1 = r₀.payload.sentCount + accepted
  alone : ∀ i j a b, U i a → U j b → i = j
  kept : ∀ limit, r₀.payload.budget.maxSendCount = some limit →
    r₀.payload.sentCount ≤ limit → r₀.payload.sentCount + accepted ≤ limit

section

variable {r₀ r r' : Row Campaign.Props} {accepted : Int} {U U' : Nat → Campaign → Prop}

theorem Counted.same (h : Counted r₀ r accepted U) (hb : r'.payload.budget = r.payload.budget)
    (hr : r'.payload.sentCount = r.payload.sentCount) (hU : ∀ i c, U' i c ↔ U i c) :
    Counted r₀ r' accepted U' := by
  refine ⟨hb.trans h.budget, fun hnone => ?_, fun i c hi => ?_, fun i j a b hi hj => ?_, h.kept⟩
  · rw [hr]
    exact h.counted fun i c hi => hnone i c ((hU i c).mpr hi)
  · rw [hr]
    exact h.next i c ((hU i c).mp hi)
  · exact h.alone i j a b ((hU i a).mp hi) ((hU j b).mp hj)

/-- A send is accepted for a copy within the budget that counts it next. -/
theorem Counted.accept (h : Counted r₀ r accepted U) (hnone : ∀ i c, ¬ U i c) {campaign : Campaign}
    (hcount : campaign.state.sentCount = r.payload.sentCount + 1) (hwithin : Within campaign)
    (hb : campaign.state.budget = r.payload.budget) {j : Nat}
    (hU : ∀ i c, U' i c → i = j ∧ c.state.sentCount = campaign.state.sentCount)
    (hj : ∃ c, U' j c) : Counted r₀ r (accepted + 1) U' := by
  have heq := h.counted hnone
  refine ⟨h.budget, fun hnot => ?_, fun i c hi => ?_, fun i j' a b hi hj' => ?_,
    fun limit hl hle => ?_⟩
  · obtain ⟨c, hc⟩ := hj
    exact absurd hc (hnot j c)
  · obtain ⟨-, hc⟩ := hU i c hi
    refine ⟨hc.trans hcount, ?_⟩
    omega
  · rw [(hU i a hi).1, (hU j' b hj').1]
  · have hlimit := hwithin limit (by rw [hb, h.budget]; exact hl)
    omega

/-- The accepted send is counted. -/
theorem Counted.save (h : Counted r₀ r accepted U) {j : Nat} {campaign : Campaign}
    (hj : U j campaign) (hb : r'.payload.budget = r.payload.budget)
    (hr : r'.payload.sentCount = campaign.state.sentCount)
    (hU : ∀ i c, U' i c → U i c ∧ i ≠ j) : Counted r₀ r' accepted U' := by
  obtain ⟨hcount, heq⟩ := h.next j campaign hj
  have hnone : ∀ i c, ¬ U' i c := by
    intro i c hi
    obtain ⟨hold, hne⟩ := hU i c hi
    exact hne (h.alone i j c campaign hold hj)
  refine ⟨hb.trans h.budget, fun _ => ?_, fun i c hi => absurd hi (hnone i c),
    fun i j a b hi => absurd hi (hnone i a), h.kept⟩
  rw [hr]
  omega

end

structure CountInv (calls : Nat → SendCall) (t : RowKey) (r₀ : Row Campaign.Props)
    (c : Interleave.Config World SendPc) : Prop where
  knows : Each (fun i w p => Knows (rowKey (calls i).ctx (calls i).executionId) w.executions p) c
  budgeted : Each (fun i w p => Budgeted (calls i).ctx w.campaigns p) c
  row : ∃ r, c.world.campaigns.find t = some r ∧
    Counted r₀ r (acceptedSends t c.world.log) (Uncounted calls t c.pc)

theorem countInv_start (calls : Nat → SendCall) {t : RowKey} {r₀ : Row Campaign.Props} {w : World}
    (hrow : w.campaigns.find t = some r₀) (hlog : w.log = []) :
    CountInv calls t r₀ (startSends w) := by
  refine ⟨fun _ => trivial, fun _ => trivial, r₀, hrow, ?_⟩
  have hzero : acceptedSends t (startSends w).world.log = 0 := by
    show acceptedSends t w.log = 0
    rw [hlog]
    rfl
  rw [hzero]
  refine ⟨rfl, fun _ => (add_zero _).symm, fun i c hi => (nomatch hi.1),
    fun i j a b hi => (nomatch hi.1), fun limit _ hle => by rw [add_zero]; exact hle⟩

section

variable {cfg : Config} {calls : Nat → SendCall} {t : RowKey} {r₀ : Row Campaign.Props}

theorem uncounted_update {pc : Nat → SendPc} {i j : Nat} {p : SendPc} {campaign : Campaign} :
    Uncounted calls t (Function.update pc j p) i campaign ↔
      (i = j ∧ p.uncounted = some campaign ∧ rowKey (calls j).ctx campaign.state.id = t) ∨
      i ≠ j ∧ Uncounted calls t pc i campaign := by
  unfold Uncounted
  by_cases hi : i = j
  · subst hi
    simp
  · simp [hi]

/-- A call that is to count the same for `t` as before changes nothing for the others. -/
theorem uncounted_update_same {pc : Nat → SendPc} {j : Nat} {p : SendPc}
    (h : ∀ campaign, rowKey (calls j).ctx campaign.state.id = t →
      (p.uncounted = some campaign ↔ (pc j).uncounted = some campaign))
    (i : Nat) (campaign : Campaign) :
    Uncounted calls t (Function.update pc j p) i campaign ↔ Uncounted calls t pc i campaign := by
  rw [uncounted_update]
  by_cases hi : i = j
  · subst hi
    simp only [true_and, ne_eq, not_true, false_and, or_false]
    exact and_congr_left (h campaign)
  · simp [hi]

/-- **What a step does to the count, as long as the sends are counted in turn.** -/
theorem CountEffect.counted {c : Interleave.Config World SendPc} {a : Tick Input}
    {out : World × SendPc} {r : Row Campaign.Props}
    (h : CountEffect (calls a.call).ctx a.input c.world (c.pc a.call) out)
    (hok : CountsInTurn calls t c a)
    (hb : Budgeted (calls a.call).ctx c.world.campaigns (c.pc a.call))
    (hr : c.world.campaigns.find t = some r)
    (hc : Counted r₀ r (acceptedSends t c.world.log) (Uncounted calls t c.pc)) :
    ∃ r', out.1.campaigns.find t = some r' ∧ Counted r₀ r' (acceptedSends t out.1.log)
      (Uncounted calls t (Function.update c.pc a.call out.2)) := by
  cases h with
  | accepts l hp hfault haccepted i execution l' answer hl' =>
    rw [hp] at hb
    obtain ⟨hid, hcount⟩ := hl'
    refine ⟨r, hr, ?_⟩
    show Counted r₀ r (acceptedSends t (.answered i execution
      (rowKey (calls a.call).ctx l.campaign.state.id) a.input.answer.status :: c.world.log)) _
    rw [acceptedSends]
    by_cases ht : rowKey (calls a.call).ctx l.campaign.state.id = t
    · rw [if_pos ⟨ht, haccepted⟩]
      obtain ⟨hstored, hnone⟩ := hok.accepts hp hfault haccepted ht
      obtain ⟨⟨r', hr', hbudget⟩, hwithin⟩ := hb
      rw [ht, hr] at hr'
      obtain rfl := Option.some.inj hr'
      refine hc.accept hnone (hstored r hr) hwithin hbudget (fun j campaign hj => ?_)
        ⟨l'.campaign, uncounted_update.mpr (.inl ⟨rfl, rfl, by rw [hid]; exact ht⟩)⟩
      rcases uncounted_update.mp hj with ⟨rfl, hcampaign, -⟩ | ⟨-, hold⟩
      · obtain rfl := Option.some.inj hcampaign
        exact ⟨rfl, hcount⟩
      · exact absurd hold (hnone j campaign)
    · rw [if_neg fun h => ht h.1]
      refine hc.same rfl rfl (uncounted_update_same fun campaign hkey => ?_)
      rw [hp]
      refine ⟨fun hcampaign => ?_, nofun⟩
      obtain rfl := Option.some.inj hcampaign
      rw [hid] at hkey
      exact absurd hkey ht
  | saves campaign w' c' p' ho hp hp' =>
    have hbudget : HasBudget (calls a.call).ctx c.world.campaigns campaign := by
      rcases hp with ⟨l, answer, hp, rfl⟩ | ⟨nextDueAt, hp⟩ <;> rw [hp] at hb <;> exact hb
    have hlog : w'.log = c.world.log := by
      obtain ⟨-, T, -, rfl⟩ := World.saveCampaign_eq_saved ho
      rfl
    obtain ⟨-, hself, hother⟩ := hbudget.save ho
    show ∃ r', w'.campaigns.find t = some r' ∧ Counted r₀ r' (acceptedSends t w'.log) _
    rw [hlog]
    by_cases ht : rowKey (calls a.call).ctx campaign.state.id = t
    · obtain ⟨r', hr', hbr⟩ := hbudget
      rw [ht] at hself hr'
      obtain rfl : r' = r := Option.some.inj (hr'.symm.trans hr)
      refine ⟨_, hself, ?_⟩
      rcases hp with ⟨l, answer, hp, rfl⟩ | ⟨nextDueAt, hp⟩
      · have hown : Uncounted calls t c.pc a.call l.campaign := ⟨by rw [hp]; rfl, ht⟩
        refine hc.save hown hbr rfl fun i campaign' hi => ?_
        rcases uncounted_update.mp hi with ⟨-, hcampaign, -⟩ | ⟨hne, hold⟩
        · rw [hp'] at hcampaign
          cases hcampaign
        · exact ⟨hold, hne⟩
      · refine hc.same hbr (hok.completes hp ht (by rw [ho]; rfl) hr)
          (uncounted_update_same fun campaign' _ => ?_)
        rw [hp', hp]
        exact Iff.rfl
    · refine ⟨r, (hother t (Ne.symm ht)).trans hr,
        hc.same rfl rfl (uncounted_update_same fun campaign' hkey => ?_)⟩
      rw [hp']
      refine ⟨nofun, fun hcampaign => ?_⟩
      rcases hp with ⟨l, answer, hp, rfl⟩ | ⟨nextDueAt, hp⟩ <;> rw [hp] at hcampaign
      · obtain rfl := Option.some.inj hcampaign
        exact absurd hkey ht
      · cases hcampaign
  | other w' p' hrows hlog hp' =>
    show ∃ r', w'.campaigns.find t = some r' ∧ Counted r₀ r' (acceptedSends t w'.log) _
    rw [hrows, hlog]
    refine ⟨r, hr, hc.same rfl rfl (uncounted_update_same fun campaign hkey => ?_)⟩
    show p'.uncounted = _ ↔ _
    rcases hp' with hp' | ⟨hp', hdrops⟩ <;> rw [hp']
    refine ⟨nofun, fun hcampaign => ?_⟩
    rw [hok.not_drops hcampaign hkey] at hdrops
    cases hdrops

/-- **A step keeps the count, as long as the sends are counted in turn.** -/
theorem countInv_step {c : Interleave.Config World SendPc} {a : Tick Input}
    (h : CountInv calls t r₀ c) (hok : CountsInTurn calls t c a) :
    CountInv calls t r₀ (c.step (sendStep cfg calls) a) := by
  have hknows : Knows (rowKey (calls a.call).ctx (calls a.call).executionId) c.world.executions
      (c.pc a.call) := h.knows a.call
  have hbudgeted : Budgeted (calls a.call).ctx c.world.campaigns (c.pc a.call) :=
    h.budgeted a.call
  have hadvances := knows_sendStep cfg calls a.call a.input hknows
  have hbudgets := budgets_sendStep cfg calls a.call a.input hbudgeted
  refine ⟨h.knows.step hadvances.2 fun i p _ hp => hp.evolve hadvances.1,
    h.budgeted.step hbudgets.2 fun i p _ hp => hp.stay hbudgets.1, ?_⟩
  obtain ⟨r, hr, hcounted⟩ := h.row
  have heffect := sendStep_counts cfg calls a.call a.input c.world (c.pc a.call) fun l hpc => by
    rw [hpc] at hknows
    exact hknows.1
  exact heffect.counted hok hbudgeted hr hcounted

end

/-- The call has not started, or has ended. -/
def SendPc.finished : SendPc → Bool
  | loadExecution | done _ => true
  | _ => false

/-- **The budget is kept and every accepted send counted.** From a campaign's stored row `r₀`, in
every run of any number of calls, on any executions, whose steps count their accepted sends in
turn: the accepted sends stay within the budget, and when all calls are finished the stored count
has moved by the accepted sends. -/
theorem sentCount_of_meets (cfg : Config) (calls : Nat → SendCall) (w : World) (t : RowKey)
    (r₀ : Row Campaign.Props) (s : List (Tick Input)) (hrow : w.campaigns.find t = some r₀)
    (h : Meets (sendStep cfg calls) (CountsInTurn calls t) (startSends { w with log := [] }) s) :
    let c := run (sendStep cfg calls) (startSends { w with log := [] }) s
    (∀ limit, r₀.payload.budget.maxSendCount = some limit → r₀.payload.sentCount ≤ limit →
      r₀.payload.sentCount + acceptedSends t c.world.log ≤ limit) ∧
    ((∀ i, (c.pc i).finished = true) → ∃ r, c.world.campaigns.find t = some r ∧
      r.payload.sentCount = r₀.payload.sentCount + acceptedSends t c.world.log) := by
  intro c
  have hstart := countInv_start calls (w := { w with log := [] }) hrow rfl
  have hinv : CountInv calls t r₀ c :=
    run_invariant_of_meets (fun c a hc hok => countInv_step hc hok) hstart h
  obtain ⟨r, hr, hcounted⟩ := hinv.row
  refine ⟨hcounted.kept, fun hfinished => ⟨r, hr, hcounted.counted fun i campaign hi => ?_⟩⟩
  have hi' := hfinished i
  cases hp : c.pc i with
  | saveAccepted l answer => rw [hp] at hi'; cases hi'
  | saveCampaign l answer => rw [hp] at hi'; cases hi'
  | _ => rw [Uncounted, hp] at hi; cases hi.1

/-- Two approved executions of two sequences of a campaign that may send once. -/
def budgetWorld : World :=
  World.ofRows [sampleExecution "first" "one" 0 .approved, sampleExecution "second" "two" 0 .approved]
    [sampleSequence "one" 1 .running, sampleSequence "two" 1 .running]
    [sampleCampaign 1 { maxSendCount := some 1 }]

def budgetCalls : Nat → SendCall
  | 0 => ⟨sampleContext, "first", "approval"⟩
  | _ => ⟨sampleContext, "second", "approval"⟩

def budgetRow : Row Campaign.Props := ⟨sampleCampaign 1 { maxSendCount := some 1 }, 1⟩

/-- One call from its start to its end. -/
def onlyFirst : List (Tick Input) := List.replicate 15 ⟨0, { now := .epoch }⟩

theorem sentCount_one_call :
    let c := run (sendStep {} budgetCalls) (startSends { budgetWorld with log := [] }) onlyFirst
    (∀ limit, budgetRow.payload.budget.maxSendCount = some limit →
      budgetRow.payload.sentCount ≤ limit → budgetRow.payload.sentCount +
        acceptedSends (rowKey sampleContext "campaign") c.world.log ≤ limit) ∧
    ((∀ i, (c.pc i).finished = true) →
      ∃ r, c.world.campaigns.find (rowKey sampleContext "campaign") = some r ∧
        r.payload.sentCount = budgetRow.payload.sentCount +
          acceptedSends (rowKey sampleContext "campaign") c.world.log) := by
  refine sentCount_of_meets {} budgetCalls budgetWorld (rowKey sampleContext "campaign") budgetRow
    onlyFirst (by rfl) ?_
  refine Meets.of_alone
    (fun c a => countsOwn budgetCalls (rowKey sampleContext "campaign") c a = true) 0
    (fun _ => .loadExecution) (fun c a ha hpc hown => ⟨hown, ?_⟩)
    (by decide +kernel) (fun j hj => rfl) (by decide +kernel)
  intro haccepts i campaign hi
  by_cases hi0 : i = 0
  · subst hi0
    unfold acceptsFor at haccepts
    rw [ha] at haccepts
    split at haccepts
    next l hl => rw [Uncounted, hl] at hi; cases hi.1
    · cases haccepts
  · rw [Uncounted, hpc i hi0] at hi
    cases hi.1

/-- Both calls load the campaign, then both are accepted. -/
def overlapping : List (Tick Input) :=
  let tick (i : Nat) : Tick Input := ⟨i, { now := .epoch }⟩
  List.replicate 8 (tick 0) ++ List.replicate 8 (tick 1) ++ List.replicate 7 (tick 0) ++
    List.replicate 7 (tick 1)

theorem not_sentCount_overlapping :
    ¬ ∀ (cfg : Config) (calls : Nat → SendCall) (w : World) (t : RowKey)
      (r₀ : Row Campaign.Props) (s : List (Tick Input)), w.campaigns.find t = some r₀ →
      let c := run (sendStep cfg calls) (startSends { w with log := [] }) s
      (∀ limit, r₀.payload.budget.maxSendCount = some limit → r₀.payload.sentCount ≤ limit →
        r₀.payload.sentCount + acceptedSends t c.world.log ≤ limit) ∧
      ((∀ i, (c.pc i).finished = true) → ∃ r, c.world.campaigns.find t = some r ∧
        r.payload.sentCount = r₀.payload.sentCount + acceptedSends t c.world.log) := by
  intro h
  have hkept := (h {} budgetCalls budgetWorld (rowKey sampleContext "campaign") budgetRow overlapping
    (by rfl)).1 1 rfl (by decide)
  revert hkept
  decide +kernel

end VegaRevenue.Outreach
