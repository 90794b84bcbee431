import VegaRevenue.Outreach.ClaimOwnership
import VegaRevenue.Outreach.Rows

/-!
# At most one open submission

The calls are all on one execution, `t`. A submission is open until a negative answer arrives: one
that was accepted, is ambiguous or not yet known stays open.

* `SendEffect` — what one step does to the submissions
* `atMostOnce_of_meets` — no message is submitted while another is open, as long as no rate-limited
  call releases a claim it does not hold
* `not_atMostOnce_rateLimited` — a run in which one does
-/

namespace VegaRevenue.Outreach

open Interleave
open Idempotency (Triple)
open Idempotency.Postgres (setRow? Record)
open MessageExecution (Status Props)

/-- The calls with an open submission of `t`, the latest first. -/
def openSends (t : RowKey) : List Observed → List Nat
  | [] => []
  | .submitted i t' :: log => if t' = t then i :: openSends t log else openSends t log
  | .answered i t' _ status :: log =>
    if t' = t ∧ status.isNegative = true then (openSends t log).erase i else openSends t log
  | _ :: log => openSends t log

/-- No message was submitted for `t` while another submission was open. -/
def AtMostOnce (t : RowKey) : List Observed → Prop
  | [] => True
  | .submitted _ t' :: log => (t' = t → openSends t log = []) ∧ AtMostOnce t log
  | _ :: log => AtMostOnce t log

instance decidableAtMostOnce (t : RowKey) : DecidablePred (AtMostOnce t)
  | [] => .isTrue trivial
  | .submitted _ t' :: log =>
    have := decidableAtMostOnce t log
    inferInstanceAs (Decidable ((t' = t → openSends t log = []) ∧ AtMostOnce t log))
  | .claimed _ _ :: log => decidableAtMostOnce t log
  | .wrote _ _ _ :: log => decidableAtMostOnce t log
  | .answered _ _ _ _ :: log => decidableAtMostOnce t log

/-- The stored row exists and is settled. -/
def settledAt (t : RowKey) (T : Executions) : Bool :=
  (T.find t).any fun r => settled r.payload.status

/-- A step by which a rate-limited call, before any claim of its own, overwrites a record that is
not free while the execution can still be sent. -/
def releasesForeign (calls : Nat → SendCall) (c : Interleave.Config World SendPc)
    (a : Tick Input) : Bool :=
  match c.pc a.call with
  | .markFailed l (.retryable _) =>
    a.input.fault.isNone &&
      !settledAt (rowKey (calls a.call).ctx (calls a.call).executionId) c.world.executions &&
      !ClaimRegister.wins Record.reclaimable c.world.idempotency
        (sendKey (calls a.call).ctx l.key) &&
      (setRow? {} (sendKey (calls a.call).ctx l.key) failedResult { status := some .failed }
        a.input.now).isSome
  | _ => false

/-! ## One step -/

/-- The call has no open submission here: it has not submitted yet, or was refused. -/
def SendPc.idle : SendPc → Bool
  | loadExecution | loadSequence _ | loadCampaign _ _ | recoverRecipient _ | evaluate _
  | selectProvider _ | saveFailure _ _ | markFailed _ _ | saveAttempt _ | send _ => true
  | _ => false

def SendPc.isSend : SendPc → Bool
  | send _ => true
  | _ => false

theorem idle_of_isSend {p : SendPc} (h : p.isSend = true) : p.idle = true := by
  cases p with
  | send l => rfl
  | _ => cases h

/-- What a step does to the submissions. -/
inductive SendEffect (call : SendCall) (i : Nat) (w : World) (p : SendPc) :
    World × SendPc → Prop where
  | submits (l : Sending) (hp : p = .send l) :
    SendEffect call i w p
      (w.observe (.submitted i (rowKey call.ctx l.execution.state.id)), .awaitAnswer l)
  | answers (l : Sending) (hp : p = .awaitAnswer l) (campaign : RowKey) (status : ProviderStatus)
      (p' : SendPc) (hidle : p'.idle = true → status.isNegative = true)
      (hsend : p'.isSend = false) :
    SendEffect call i w p
      (w.observe (.answered i (rowKey call.ctx l.execution.state.id) campaign status), p')
  | attempts (l : Sending) (hp : p = .saveAttempt l) (w' : World) (e : MessageExecution)
      (ho : w.saveExecution call.ctx l.execution = .saved (w', e)) :
    SendEffect call i w p (w', .send { l with execution := e })
  | other (w' : World) (p' : SendPc)
      (hlog : ∀ t, openSends t w'.log = openSends t w.log ∧
        (AtMostOnce t w.log → AtMostOnce t w'.log))
      (hidle : p'.idle = true → p.idle = true) (hsend : p'.isSend = false) :
    SendEffect call i w p (w', p')

section

variable {call : SendCall} {i : Nat} {input : Input} {w : World} {p : SendPc}

/-- A step that observes nothing. -/
theorem SendEffect.silent {w' : World} {p' : SendPc} (hlog : w'.log = w.log)
    (hidle : p'.idle = true → p.idle = true) (hsend : p'.isSend = false) :
    SendEffect call i w p (w', p') :=
  .other w' p' (fun t => by rw [hlog]; exact ⟨rfl, id⟩) hidle hsend

/-- After a save that leaves the log alone. -/
theorem sends_afterSave {α : Type} {outcome : SaveOutcome (World × α)} {next : α → SendPc}
    (hlog : ∀ w' a, outcome = .saved (w', a) → w'.log = w.log)
    (hidle : ∀ a, (next a).idle = true → p.idle = true) (hsend : ∀ a, (next a).isSend = false) :
    SendEffect call i w p (afterSave w outcome next) := by
  refine afterSave_elim (fun w' a ho => ?_) (.silent rfl nofun rfl) fun _ => .silent rfl nofun rfl
  exact .silent (hlog w' a ho) (hidle a) (hsend a)

theorem sends_setRecord {e : MessageExecution} {result : Json} {status : Idempotency.Status}
    {next : SendPc} (hidle : next.idle = false) (hsend : next.isSend = false) :
    SendEffect call i w p (setRecord w call.ctx i e result status input.now next) := by
  rcases setRecord_cases w call.ctx i e result status input.now next with
    ⟨-, r, -, h⟩ | ⟨-, h⟩ <;> rw [h]
  · exact .other _ _ (fun t => ⟨rfl, id⟩) (fun h => absurd h (by rw [hidle]; nofun)) hsend
  · exact .silent rfl nofun rfl

theorem SendEffect.afterAudit {w' : World} {p' : SendPc} (audit : Option String)
    (hlog : ∀ t, openSends t w'.log = openSends t w.log ∧
      (AtMostOnce t w.log → AtMostOnce t w'.log))
    (hidle : p'.idle = true → p.idle = true) (hsend : p'.isSend = false) :
    SendEffect call i w p (afterAudit audit (w', p')) := by
  cases audit with
  | none => exact .other w' p' hlog hidle hsend
  | some message => exact .other w' _ hlog nofun rfl

/-- Only a negative answer closes the submission. -/
theorem onAnswer_idle (l : Sending) (answer : ProviderSendResult) (now : Date) :
    ((onAnswer l answer now).idle = true → answer.status.isNegative = true) ∧
      (onAnswer l answer now).isSend = false := by
  unfold onAnswer fails
  cases answer.status with
  | failed => exact ⟨fun _ => rfl, rfl⟩
  | rateLimited => exact ⟨fun _ => rfl, rfl⟩
  | ambiguous => exact ⟨nofun, rfl⟩
  | _ => dsimp only; split <;> exact ⟨nofun, rfl⟩

/-- **What one step does to the submissions.** -/
theorem sendNext_sends (cfg : Outreach.Config) :
    SendEffect call i w p (sendNext cfg call i input w p) := by
  cases p with
  | loadExecution =>
    simp only [sendNext]
    split <;> exact .silent rfl (fun _ => rfl) rfl
  | loadSequence e =>
    simp only [sendNext]
    split <;> exact .silent rfl (fun _ => rfl) rfl
  | loadCampaign e sequence =>
    simp only [sendNext]
    split
    · exact .silent rfl (by rintro ⟨⟩) rfl
    · split <;> exact .silent rfl (fun _ => rfl) rfl
  | recoverRecipient l =>
    simp only [sendNext]
    split <;> exact .silent rfl (fun _ => rfl) rfl
  | evaluate l =>
    simp only [sendNext]
    split
    · exact .silent rfl (by rintro ⟨⟩) rfl
    next decision hd =>
      cases decision with
      | allow => exact SendEffect.afterAudit input.audit (fun t => ⟨rfl, id⟩) (fun _ => rfl) rfl
      | deny code reason =>
        unfold onDecision
        dsimp only
        split
        · exact SendEffect.afterAudit input.audit (fun t => ⟨rfl, id⟩) (fun _ => rfl) rfl
        · exact SendEffect.afterAudit input.audit (fun t => ⟨rfl, id⟩) (fun _ => rfl) rfl
      | retryable code reason retryAfterMs =>
        exact SendEffect.afterAudit input.audit (fun t => ⟨rfl, id⟩) (fun _ => rfl) rfl
  | selectProvider l =>
    simp only [sendNext]
    split
    · exact .silent rfl (fun _ => rfl) rfl
    · split <;> exact .silent rfl (fun _ => rfl) rfl
  | saveFailure l exit =>
    exact sends_afterSave (fun _ _ ho => (World.saveExecution_rest ho).2) (fun _ _ => rfl) fun _ => rfl
  | markFailed l exit => exact sends_setRecord rfl rfl
  | saveAttempt l =>
    simp only [sendNext]
    refine afterSave_elim (fun w' e ho => ?_) (.silent rfl (by rintro ⟨⟩) rfl) fun _ => .silent rfl (by rintro ⟨⟩) rfl
    exact .attempts l rfl w' e ho
  | send l => exact .submits l rfl
  | awaitAnswer l =>
    simp only [sendNext]
    have hanswer := fun campaign =>
      onAnswer_idle { l with campaign := campaign } input.answer input.now.ms
    exact .answers l rfl _ _ _ (hanswer _).1 (hanswer _).2
  | saveAccepted l answer =>
    exact sends_afterSave (fun _ _ ho => (World.saveExecution_rest ho).2) (fun _ => by rintro ⟨⟩) fun _ => rfl
  | saveCampaign l answer =>
    exact sends_afterSave (fun _ _ ho => (World.saveCampaign_rest ho).2.2) (fun _ => by rintro ⟨⟩) fun _ => rfl
  | markCompleted l answer => exact sends_setRecord rfl rfl
  | loadCampaignForAdvance l =>
    simp only [sendNext]
    rcases advance_cases cfg l (w.loadCampaign call.ctx l.sequence.state.campaignId)
      input.now.ms with ⟨ended, h⟩ | ⟨nextDueAt, hasMoreSteps, -, h⟩ <;> rw [h] <;>
      exact .silent rfl (by rintro ⟨⟩) rfl
  | saveSequence sequence campaign nextDueAt hasMoreSteps =>
    simp only [sendNext]
    refine sends_afterSave (fun _ _ ho => (World.saveSequence_rest ho).2.2) (fun s' hidle => ?_)
      fun _ => ?_
    · split at hidle <;> cases hidle
    · split <;> rfl
  | saveCampaignComplete campaign nextDueAt =>
    exact sends_afterSave (fun _ _ ho => (World.saveCampaign_rest ho).2.2) (fun _ => by rintro ⟨⟩) fun _ => rfl
  | saveAmbiguous l reason =>
    exact sends_afterSave (fun _ _ ho => (World.saveExecution_rest ho).2) (fun _ => by rintro ⟨⟩) fun _ => rfl
  | loadAuthoritative =>
    simp only [sendNext]
    split <;> exact .silent rfl (by rintro ⟨⟩) rfl
  | getRecord idempotencyKey =>
    simp only [sendNext]
    split <;> exact .silent rfl (by rintro ⟨⟩) rfl
  | reload record =>
    simp only [sendNext]
    split
    · exact .silent rfl (by rintro ⟨⟩) rfl
    next e he =>
      rcases resolveDuplicate_cases record e input.now.ms with ⟨result, h⟩ | ⟨e', h⟩ <;> rw [h] <;>
        exact .silent rfl (by rintro ⟨⟩) rfl
  | saveAuthoritative e =>
    simp only [sendNext]
    split
    next ho => exact .silent (World.saveExecution_rest ho).2 (by rintro ⟨⟩) rfl
    · exact .silent rfl (by rintro ⟨⟩) rfl
    · exact .silent rfl (by rintro ⟨⟩) rfl
  | reloadNewer e => exact .silent rfl (by rintro ⟨⟩) rfl
  | done ended => exact .silent rfl (by rintro ⟨⟩) rfl

end

theorem sendStep_sends (cfg : Outreach.Config) (calls : Nat → SendCall) (i : Nat) (input : Input)
    (w : World) (p : SendPc) :
    SendEffect (calls i) i w p (sendStep cfg calls i input w p) := by
  cases hf : input.fault with
  | none =>
    rw [sendStep_eq_sendNext cfg calls i w p hf]
    exact sendNext_sends cfg
  | some message =>
    obtain ⟨ended, h, -⟩ := sendStep_fault cfg calls i w p hf
    rw [h]
    exact .silent rfl nofun rfl

/-! ## The log -/

theorem mem_openSends_of_submitted {t t' : RowKey} {i j : Nat} {log : List Observed}
    (h : j ∈ openSends t (.submitted i t' :: log)) : (t' = t ∧ j = i) ∨ j ∈ openSends t log := by
  rw [openSends] at h
  split at h
  next ht =>
    rcases List.mem_cons.mp h with hj | hj
    · exact .inl ⟨ht, hj⟩
    · exact .inr hj
  · exact .inr h

theorem mem_openSends_of_answered {t t' campaign : RowKey} {i j : Nat} {status : ProviderStatus}
    {log : List Observed} (h : j ∈ openSends t (.answered i t' campaign status :: log)) :
    j ∈ openSends t log := by
  rw [openSends] at h
  split at h
  · exact List.mem_of_mem_erase h
  · exact h

theorem AtMostOnce.length_openSends {t : RowKey} {log : List Observed} (h : AtMostOnce t log) :
    (openSends t log).length ≤ 1 := by
  induction log with
  | nil => exact Nat.zero_le 1
  | cons o log ih =>
    cases o with
    | submitted i t' =>
      rw [openSends]
      split
      next ht => rw [h.1 ht]; exact Nat.le_refl 1
      · exact ih h.2
    | answered i t' campaign status =>
      have hle := ih h
      rw [openSends]
      split
      · exact Nat.le_trans List.length_erase_le hle
      · exact hle
    | _ => exact ih h

/-- A negative answer closes the submission of the call. -/
theorem AtMostOnce.not_mem_of_negative {t campaign : RowKey} {i : Nat} {status : ProviderStatus}
    {log : List Observed} (h : AtMostOnce t log) (hs : status.isNegative = true) :
    i ∉ openSends t (.answered i t campaign status :: log) := by
  have hle := h.length_openSends
  rw [openSends, if_pos ⟨rfl, hs⟩]
  match ho : openSends t log with
  | [] => simp
  | [j] =>
    by_cases hj : j = i
    · subst hj
      simp
    · rw [List.erase_cons_tail (by simpa using hj)]
      simp [Ne.symm hj]
  | _ :: _ :: _ => simp [ho] at hle

section

variable {call : SendCall} {i j : Nat} {w : World} {p : SendPc} {out : World × SendPc} {t : RowKey}

/-- A new open submission is the one just made. -/
theorem SendEffect.mem_openSends (h : SendEffect call i w p out)
    (hj : j ∈ openSends t out.1.log) : j ∈ openSends t w.log ∨ j = i ∧ p.isSend = true := by
  cases h with
  | submits l hp =>
    rcases mem_openSends_of_submitted hj with ⟨-, hji⟩ | hold
    · exact .inr ⟨hji, by rw [hp]; rfl⟩
    · exact .inl hold
  | answers l hp campaign status p' hidle hsend => exact .inl (mem_openSends_of_answered hj)
  | attempts l hp w' e ho =>
    rw [(World.saveExecution_rest ho).2] at hj
    exact .inl hj
  | other w' p' hlog hidle hsend =>
    rw [(hlog t).1] at hj
    exact .inl hj

/-- A call is about to submit only after a save that succeeded. -/
theorem SendEffect.saved_of_isSend (h : SendEffect call i w p out)
    (hsend : out.2.isSend = true) :
    ∃ l e, p = .saveAttempt l ∧ w.saveExecution call.ctx l.execution = .saved (out.1, e) := by
  cases h with
  | submits l hp => cases hsend
  | answers l hp campaign status p' hidle hs => rw [hs] at hsend; cases hsend
  | attempts l hp w' e ho => exact ⟨l, e, hp, ho⟩
  | other w' p' hlog hidle hs => rw [hs] at hsend; cases hsend

theorem SendEffect.once (h : SendEffect call i w p out) (hw : AtMostOnce t w.log)
    (hempty : p.isSend = true → openSends t w.log = []) : AtMostOnce t out.1.log := by
  cases h with
  | submits l hp => exact ⟨fun _ => hempty (by rw [hp]; rfl), hw⟩
  | answers l hp campaign status p' hidle hsend => exact hw
  | attempts l hp w' e ho =>
    rw [(World.saveExecution_rest ho).2]
    exact hw
  | other w' p' hlog hidle hsend => exact (hlog t).2 hw

/-- The call that moved is idle only without an open submission. -/
theorem SendEffect.not_mem_of_idle (h : SendEffect call i w p out) (hw : AtMostOnce t w.log)
    (hkey : ∀ l, p = .awaitAnswer l → rowKey call.ctx l.execution.state.id = t)
    (hp : p.idle = true → i ∉ openSends t w.log) (hout : out.2.idle = true) :
    i ∉ openSends t out.1.log := by
  cases h with
  | submits l hp => cases hout
  | answers l hp' campaign status p' hidle hsend =>
    show i ∉ openSends t (.answered i (rowKey call.ctx l.execution.state.id) campaign status ::
      w.log)
    rw [hkey l hp']
    exact hw.not_mem_of_negative (hidle hout)
  | attempts l hp' w' e ho =>
    rw [(World.saveExecution_rest ho).2]
    exact hp (by rw [hp']; rfl)
  | other w' p' hlog hidle hsend =>
    rw [(hlog t).1]
    exact hp (hidle hout)

/-- The submissions of the other calls are closed by no step of this one. -/
theorem SendEffect.not_mem_of_ne (h : SendEffect call i w p out) (hij : j ≠ i)
    (hj : j ∉ openSends t w.log) : j ∉ openSends t out.1.log := by
  intro hmem
  rcases h.mem_openSends hmem with hold | ⟨heq, -⟩
  · exact hj hold
  · exact hij heq

end

/-! ## The keys of the calls -/

/-- The triple that the calls on a row claim. -/
def rowTriple (t : RowKey) (r : Versioned.Row Props) : Triple :=
  ⟨t.tenantId, "outreach:send", r.payload.idempotencyKey⟩

theorem settledAt_eq_true_iff {t : RowKey} {T : Executions} :
    settledAt t T = true ↔ StatusAt (settled · = true) t T := by
  unfold settledAt StatusAt
  cases T.find t <;> simp

theorem Holds.key {Q : Status → Prop} {t : RowKey} {T : Executions} {e : MessageExecution}
    (h : Holds Q t T e) : ∃ r, T.find t = some r ∧ r.payload.idempotencyKey =
      e.state.idempotencyKey := by
  obtain ⟨-, r, hr, hc, -⟩ := h
  exact ⟨r, hr, (congrArg Route.idempotencyKey hc.fixed).symm⟩

/-- An owner owns the key of its row. -/
theorem Knows.owning_key {t : RowKey} {T : Executions} {p : SendPc} {key : String}
    (h : Knows t T p) (hp : p.phase = .owning key) :
    ∃ r, T.find t = some r ∧ r.payload.idempotencyKey = key := by
  cases p with
  | saveFailure l exit =>
    change (if exit.beforeClaim = true then Phase.before else Phase.owning l.key) = _ at hp
    split at hp
    · cases hp
    · cases hp
      exact h.2.key
  | markFailed l exit =>
    change (if exit.beforeClaim = true then Phase.before else Phase.owning l.key) = _ at hp
    split at hp
    · cases hp
    · cases hp
      exact h.1.key
  | saveCampaign l answer => cases hp; exact h.1.key
  | markCompleted l answer => cases hp; exact h.1.key
  | _ => first | (cases hp; exact h.2.key) | cases hp

/-! ## The invariant -/

/-- The call is about to submit, or has an open submission. -/
def Live (t : RowKey) (c : Interleave.Config World SendPc) (i : Nat) : Prop :=
  (c.pc i).isSend = true ∨ i ∈ openSends t c.world.log

structure SendInv (calls : Nat → SendCall) (t : RowKey)
    (c : Interleave.Config World SendPc) : Prop where
  knows : Each (fun _ w p => Knows t w.executions p) c
  idle : Each (fun i w p => p.idle = true → i ∉ openSends t w.log) c
  /-- Claims are owned as long as the execution can still be sent. -/
  claims : settledAt t c.world.executions = false → ClaimInv calls c
  holds : ∀ r, c.world.executions.find t = some r → settled r.payload.status = false →
    ∀ i ∈ openSends t c.world.log, Owns (rowTriple t r) i c.world
  stored : ∀ i ∈ openSends t c.world.log, ∃ r, c.world.executions.find t = some r
  live : ∀ i j, Live t c i → Live t c j → i = j
  once : AtMostOnce t c.world.log

theorem sendInv_start (calls : Nat → SendCall) (t : RowKey) {w : World} (h : w.log = []) :
    SendInv calls t (startSends w) := by
  have hopen : openSends t (startSends w).world.log = [] := by
    show openSends t w.log = []
    rw [h]
    rfl
  have hnot : ∀ i, ¬ Live t (startSends w) i := by
    rintro i (hi | hi)
    · cases hi
    · rw [hopen] at hi
      cases hi
  refine ⟨fun _ => trivial, fun i _ hi => ?_, fun _ => claimInv_start calls h, fun r _ _ i hi => ?_,
    fun i hi => ?_, fun i j hi => absurd hi (hnot i), ?_⟩
  · rw [hopen] at hi
    cases hi
  · rw [hopen] at hi
    cases hi
  · rw [hopen] at hi
    cases hi
  · show AtMostOnce t w.log
    rw [h]
    trivial

/-! ## One step of the invariant -/

section

variable {cfg : Outreach.Config} {calls : Nat → SendCall} {t : RowKey}
  {c : Interleave.Config World SendPc} {a : Tick Input}

theorem SendInv.advances (cfg : Outreach.Config) (a : Tick Input)
    (hcalls : ∀ i, rowKey (calls i).ctx (calls i).executionId = t) (h : SendInv calls t c) :
    Moves c.world.executions (c.step (sendStep cfg calls) a).world.executions ∧
      Knows t (c.step (sendStep cfg calls) a).world.executions
        (sendStep cfg calls a.call a.input c.world (c.pc a.call)).2 := by
  have hknows : Knows t c.world.executions (c.pc a.call) := h.knows a.call
  rw [← hcalls a.call] at hknows ⊢
  exact knows_sendStep cfg calls a.call a.input hknows

/-- An execution that can still be sent after a step could be sent before it. -/
theorem settledAt_before {T T' : Executions} (hT : Moves T T') (h : settledAt t T' = false) :
    settledAt t T = false := by
  cases hs : settledAt t T with
  | false => rfl
  | true =>
    have hafter := settledAt_eq_true_iff.mpr (StatusAt.settled hT (settledAt_eq_true_iff.mp hs))
    rw [h] at hafter
    cases hafter

theorem sendKey_eq_rowTriple {call : SendCall} {r : Versioned.Row Props}
    (hcall : rowKey call.ctx call.executionId = t) :
    sendKey call.ctx r.payload.idempotencyKey = rowTriple t r := by
  subst hcall
  rfl

/-- An exit that releases the record before a claim of its own meets a free one, as long as the
execution can still be sent. -/
theorem SendInv.free_of_beforeClaim
    (hcalls : ∀ i, rowKey (calls i).ctx (calls i).executionId = t) (h : SendInv calls t c)
    (hok : releasesForeign calls c a = false) (hs : settledAt t c.world.executions = false)
    {l : Sending} {exit : FailureExit} (hpc : c.pc a.call = .markFailed l exit)
    (hexit : exit.beforeClaim = true) (hfault : a.input.fault = none)
    (hrow : (setRow? {} (sendKey (calls a.call).ctx l.key) failedResult
      { status := some .failed } a.input.now).isSome) :
    ClaimRegister.wins Record.reclaimable c.world.idempotency
      (sendKey (calls a.call).ctx l.key) = true := by
  have hknows : Knows t c.world.executions (c.pc a.call) := h.knows a.call
  rw [hpc] at hknows
  cases exit with
  | denied reason =>
    have hsettled := settledAt_eq_true_iff.mpr (hknows.2 rfl)
    rw [hs] at hsettled
    cases hsettled
  | retryable retryAfterMs =>
    rw [releasesForeign, hpc] at hok
    simpa [hfault, hcalls, hs, hrow] using hok
  | _ => cases hexit

/-- An owner about to write has no open submission that could still be answered. -/
theorem SendInv.not_open_of_writer (h : SendInv calls t c)
    (hs : settledAt t c.world.executions = false) {i : Nat} (hp : (c.pc i).isWriter = true) :
    i ∉ openSends t c.world.log := by
  have hknows : Knows t c.world.executions (c.pc i) := h.knows i
  have hidle : (c.pc i).idle = true → i ∉ openSends t c.world.log := h.idle i
  cases hpc : c.pc i with
  | markFailed l exit =>
    rw [hpc] at hidle
    exact hidle rfl
  | markCompleted l answer =>
    rw [hpc] at hknows
    obtain ⟨-, r, hr, hpos⟩ := hknows
    have hsettled := settledAt_eq_true_iff.mpr ⟨r, hr, settled_of_positive hpos⟩
    rw [hs] at hsettled
    cases hsettled
  | _ => rw [hpc] at hp; cases hp

/-- A claim outlives the step, unless its owner writes the record. -/
theorem SendInv.owns_step (hcalls : ∀ i, rowKey (calls i).ctx (calls i).executionId = t)
    (h : SendInv calls t c) (hok : releasesForeign calls c a = false)
    {r : Versioned.Row Props} (hr : c.world.executions.find t = some r)
    (hu : settled r.payload.status = false) {i : Nat} (howns : Owns (rowTriple t r) i c.world)
    (hwriter : (c.pc i).isWriter = false) :
    Owns (rowTriple t r) i (c.step (sendStep cfg calls) a).world := by
  have hs : settledAt t c.world.executions = false := by
    unfold settledAt
    rw [hr]
    exact hu
  rw [Config.step_world]
  rcases sendStep_effect cfg calls a.call a.input c.world (c.pc a.call) with
    ⟨hstore, hl, -⟩ | ⟨key, -, -, hwins, ⟨r', -, hstore⟩, hl⟩ |
    ⟨key, status, hw, -, hb, ⟨r', -, hstore⟩, hl⟩
  · refine howns.quiet hstore fun key => ?_
    rcases hl with hl | ⟨o, ho, hl⟩ <;> rw [hl]
    exact holder_quiet ho key _
  · exact howns.claim hwins hstore hl
  · refine howns.write ?_ hstore hl
    intro hk
    rcases hb with hb | ⟨-, l, exit, hpc, rfl, hexit, hfault, hrow⟩
    · have hstands : Stands calls a.call c.world (c.pc a.call).phase := h.claims hs a.call
      rw [hb] at hstands
      have hholder := howns.1
      rw [hk, hstands.1] at hholder
      obtain rfl := Option.some.inj hholder
      rw [hwriter] at hw
      cases hw
    · have hfree := h.free_of_beforeClaim hcalls hok hs hpc hexit hfault hrow
      rw [← hk, howns.2] at hfree
      cases hfree

theorem SendInv.owns_of_owning (hcalls : ∀ i, rowKey (calls i).ctx (calls i).executionId = t)
    (h : SendInv calls t c) {r : Versioned.Row Props}
    (hr : c.world.executions.find t = some r) (hu : settled r.payload.status = false) {i : Nat}
    {key : String} (hp : (c.pc i).phase = .owning key) : Owns (rowTriple t r) i c.world := by
  have hs : settledAt t c.world.executions = false := by
    unfold settledAt
    rw [hr]
    exact hu
  have hstands : Stands calls i c.world (c.pc i).phase := h.claims hs i
  have hknows : Knows t c.world.executions (c.pc i) := h.knows i
  obtain ⟨r', hr', hkey⟩ := hknows.owning_key hp
  obtain rfl : r' = r := Option.some.inj (hr'.symm.trans hr)
  rw [hp] at hstands
  rw [← sendKey_eq_rowTriple (hcalls i), hkey]
  exact hstands

theorem SendInv.owns_of_live (hcalls : ∀ i, rowKey (calls i).ctx (calls i).executionId = t)
    (h : SendInv calls t c) {r : Versioned.Row Props}
    (hr : c.world.executions.find t = some r) (hu : settled r.payload.status = false) {i : Nat}
    (hi : Live t c i) : Owns (rowTriple t r) i c.world := by
  rcases hi with hi | hi
  · cases hpc : c.pc i with
    | send l =>
      have hp : (c.pc i).phase = .owning l.key := by rw [hpc]; rfl
      exact h.owns_of_owning hcalls hr hu hp
    | _ => rw [hpc] at hi; cases hi
  · exact h.holds r hr hu i hi

/-- A call that comes to life owns the claim of an execution that can still be sent. -/
theorem SendInv.live_step (hcalls : ∀ i, rowKey (calls i).ctx (calls i).executionId = t)
    (h : SendInv calls t c) {i : Nat} (hi : Live t (c.step (sendStep cfg calls) a) i) :
    Live t c i ∨ i = a.call ∧ ∃ r, c.world.executions.find t = some r ∧
      settled r.payload.status = false ∧ Owns (rowTriple t r) i c.world := by
  have heffect := sendStep_sends cfg calls a.call a.input c.world (c.pc a.call)
  rcases hi with hi | hi
  · by_cases hne : i = a.call
    · subst hne
      rw [Config.step_pc_self] at hi
      obtain ⟨l, e, hpc, ho⟩ := heffect.saved_of_isSend hi
      have hknows : Knows t c.world.executions (c.pc a.call) := h.knows a.call
      rw [hpc, ← hcalls a.call] at hknows
      obtain ⟨-, -, -, ⟨r, hr, hu⟩, -⟩ := hknows.2.save (fun s => MayMove.of_unsettled) ho
      rw [hcalls a.call] at hr
      exact .inr ⟨rfl, r, hr, hu, h.owns_of_owning hcalls hr hu (by rw [hpc]; rfl)⟩
    · rw [Config.step_pc_ne _ _ hne] at hi
      exact .inl (.inl hi)
  · rcases heffect.mem_openSends hi with hold | ⟨rfl, hsend⟩
    · exact .inl (.inr hold)
    · exact .inl (.inl hsend)

/-- **A step keeps the invariant, unless a rate-limited call releases a claim it does not hold.** -/
theorem sendInv_step (hcalls : ∀ i, rowKey (calls i).ctx (calls i).executionId = t)
    (h : SendInv calls t c) (hok : releasesForeign calls c a = false) :
    SendInv calls t (c.step (sendStep cfg calls) a) := by
  have heffect := sendStep_sends cfg calls a.call a.input c.world (c.pc a.call)
  obtain ⟨hmoves, hknows⟩ := h.advances cfg a hcalls
  have hmover : Knows t c.world.executions (c.pc a.call) := h.knows a.call
  have hidle : (c.pc a.call).idle = true → a.call ∉ openSends t c.world.log := h.idle a.call
  -- every open submission after the step belongs to a call that was alive before it
  have hopen : ∀ i, i ∈ openSends t (c.step (sendStep cfg calls) a).world.log →
      ∃ r, c.world.executions.find t = some r ∧ Live t c i ∧
        (settledAt t c.world.executions = false → (c.pc i).isWriter = false) := by
    intro i hi
    rcases heffect.mem_openSends hi with hold | ⟨rfl, hsend⟩
    · obtain ⟨r, hr⟩ := h.stored i hold
      refine ⟨r, hr, .inr hold, fun hs => ?_⟩
      cases hw : (c.pc i).isWriter with
      | false => rfl
      | true => exact absurd hold (h.not_open_of_writer hs hw)
    · cases hpc : c.pc a.call with
      | send l =>
        rw [hpc] at hmover
        obtain ⟨r, hr, -⟩ := hmover.2.row
        exact ⟨r, hr, .inl hsend, fun _ => rfl⟩
      | _ => rw [hpc] at hsend; cases hsend
  refine ⟨h.knows.step hknows fun i p _ hp => hp.evolve hmoves, ?_, ?_, ?_, ?_, ?_, ?_⟩
  · refine h.idle.step (fun hout => ?_) fun i p hi hp hidle' => ?_
    · refine heffect.not_mem_of_idle h.once (fun l hpc => ?_) hidle hout
      rw [hpc] at hmover
      rw [← hcalls a.call]
      exact congrArg (rowKey _) (hmover.2.id.trans (congrArg RowKey.id (hcalls a.call).symm))
    · exact heffect.not_mem_of_ne hi (hp hidle')
  · intro hs
    have hbefore := settledAt_before hmoves hs
    exact claimInv_step cfg (h.claims hbefore) fun l exit hpc hexit hfault hrow =>
      h.free_of_beforeClaim hcalls hok hbefore hpc hexit hfault hrow
  · intro r' hr' hu' i hi
    obtain ⟨r, hr, hlive, hwriter⟩ := hopen i hi
    obtain ⟨r'', hr'', hevolves⟩ := hmoves t r hr
    obtain rfl : r'' = r' := Option.some.inj (hr''.symm.trans hr')
    have hu : settled r.payload.status = false := by
      cases hs : settled r.payload.status with
      | false => rfl
      | true => rw [hevolves.moves.settled hs] at hu'; cases hu'
    have htriple : rowTriple t r'' = rowTriple t r :=
      congrArg (fun x : Route => (⟨t.tenantId, "outreach:send", x.idempotencyKey⟩ : Triple))
        hevolves.fixed
    rw [htriple]
    have hs : settledAt t c.world.executions = false := by
      unfold settledAt
      rw [hr]
      exact hu
    exact h.owns_step hcalls hok hr hu (h.owns_of_live hcalls hr hu hlive) (hwriter hs)
  · intro i hi
    obtain ⟨r, hr, -, -⟩ := hopen i hi
    obtain ⟨r', hr', -⟩ := hmoves t r hr
    exact ⟨r', hr'⟩
  · intro i j hi hj
    rcases h.live_step hcalls hi with hi | ⟨rfl, r, hr, hu, howns⟩
    · rcases h.live_step hcalls hj with hj | ⟨rfl, r, hr, hu, howns⟩
      · exact h.live i j hi hj
      · have hlive := h.owns_of_live hcalls hr hu hi
        exact Option.some.inj (hlive.1.symm.trans howns.1)
    · rcases h.live_step hcalls hj with hj | ⟨rfl, -⟩
      · have hlive := h.owns_of_live hcalls hr hu hj
        exact Option.some.inj (howns.1.symm.trans hlive.1)
      · rfl
  · refine heffect.once h.once fun hsend => ?_
    rw [List.eq_nil_iff_forall_not_mem]
    intro j hj
    obtain rfl := h.live j a.call (.inr hj) (.inl hsend)
    exact hidle (idle_of_isSend hsend) hj

end

/-- Any number of calls on one execution. -/
def callsOn (ctx : Context) (executionId : String) (approvals : Nat → String) : Nat → SendCall :=
  fun i => ⟨ctx, executionId, approvals i⟩

/-- **At most once.** From any stored rows, any number of calls on one execution, under any
schedule, submit no message while another submission is open, as long as no rate-limited call
releases a claim it does not hold. -/
theorem atMostOnce_of_meets (cfg : Outreach.Config) (ctx : Context) (executionId : String)
    (approvals : Nat → String) (w : World) (s : List (Tick Input))
    (h : Meets (sendStep cfg (callsOn ctx executionId approvals))
      (fun c a => releasesForeign (callsOn ctx executionId approvals) c a = false)
      (startSends { w with log := [] }) s) :
    AtMostOnce (rowKey ctx executionId)
      (run (sendStep cfg (callsOn ctx executionId approvals))
        (startSends { w with log := [] }) s).world.log := by
  have hcalls : ∀ i, rowKey (callsOn ctx executionId approvals i).ctx
      (callsOn ctx executionId approvals i).executionId = rowKey ctx executionId := fun _ => rfl
  have hstart := sendInv_start (callsOn ctx executionId approvals) (rowKey ctx executionId)
    (w := { w with log := [] }) rfl
  exact (run_invariant_of_meets (fun c a hinv hok => sendInv_step hcalls hinv hok) hstart h).once

/-- Call 1 is rate-limited before call 0 claims; then call 0 submits and is accepted. -/
def rateLimitedFirst : List (Tick Input) :=
  List.replicate 7 (rateLimited 1) ++ List.replicate 14 (allowed 0)

theorem atMostOnce_rateLimited_first :
    AtMostOnce (rowKey sampleContext "execution")
      (run (sendStep { rateLimitConfig := some { perSecond := some 1 } }
          (callsOn sampleContext "execution" fun _ => "approval"))
        (startSends { sampleWorld with log := [] }) rateLimitedFirst).world.log :=
  atMostOnce_of_meets { rateLimitConfig := some { perSecond := some 1 } } sampleContext "execution"
    (fun _ => "approval") sampleWorld rateLimitedFirst (by decide +kernel)

/-- Call 1 is rate-limited while the message of call 0 is out, and call 2 submits it again. -/
def submittedTwice : List (Tick Input) :=
  rateLimitedSchedule ++ List.replicate 8 (allowed 2)

theorem not_atMostOnce_rateLimited :
    ¬ ∀ (cfg : Outreach.Config) (ctx : Context) (executionId : String) (approvals : Nat → String)
      (w : World) (s : List (Tick Input)),
      AtMostOnce (rowKey ctx executionId)
        (run (sendStep cfg (callsOn ctx executionId approvals))
          (startSends { w with log := [] }) s).world.log := by
  intro h
  have hrun := h { rateLimitConfig := some { perSecond := some 1 } } sampleContext "execution"
    (fun _ => "approval") sampleWorld submittedTwice
  revert hrun
  decide +kernel

end VegaRevenue.Outreach
