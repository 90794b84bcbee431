import VegaRevenue.Outreach.StatusHistory

/-!
# The count of attempts

An attempt is counted without raising an event, so that the version stays and a copy that was loaded
before still counts as fresh. Where no such copy is about when an attempt is saved, every fresh copy
knows the count of its row, and no attempt is taken back.

* `Exact` — a fresh copy counts the attempts of its row and its own
* `lawful_of_countsAlone` — a run in which attempts are counted while no other call holds a copy of
  that version keeps to the published histories
* `not_lawful_overtaken` — a response takes back an attempt
-/

namespace VegaRevenue.Outreach

open Interleave
open Versioned
open MessageExecution (Goes)

/-! ## The law of the count -/

/-- The call saves a counted attempt under the version it loaded. -/
def Held.countsSilently (h : Held) : Bool :=
  h.counts ≠ 0 && h.copy.loadedVersion = some h.copy.version

/-- The call that moves saves an attempt under the stored version only while no other call holds a
copy of that version. -/
def CountsAlone (c : Interleave.Config World WriterPc) (a : Tick Input) : Prop :=
  a.input.fault = none → ∀ h, (c.pc a.call).held = some h → h.countsSilently = true →
    ∀ r, c.world.executions.find h.key = some r → Fresh r h.copy →
      ∀ j, j ≠ a.call → ∀ h', (c.pc j).held = some h' → h'.key = h.key → ¬ Fresh r h'.copy

/-- A fresh copy counts the attempts of its row and its own. -/
def Held.Exact (h : Held) (T : Executions) : Prop :=
  ∀ r, T.find h.key = some r → Fresh r h.copy →
    h.copy.state.attempts = r.payload.attempts + h.counts

section

variable {T : Executions} {p : WriterPc} {h : Held}

/-- A copy in hand is tracked. -/
theorem WriterKnows.held (hp : WriterKnows T p) (hh : p.held = some h) :
    ∃ ctx id, h.key = rowKey ctx id ∧ Tracked ctx id T h.copy := by
  cases p with
  | system p =>
    obtain ⟨-, htracks⟩ := hp
    cases p with
    | prepare call p => cases hh
    | send call p =>
      obtain ⟨e, he, rfl⟩ := Option.map_eq_some_iff.mp hh
      exact ⟨_, _, rfl, htracks e he⟩
    | response call p =>
      cases p with
      | save e =>
        cases hh
        exact ⟨_, _, rfl, htracks⟩
      | _ => cases hh
    | reconcile call p =>
      cases p with
      | save e =>
        cases hh
        exact ⟨_, _, rfl, htracks⟩
      | _ => cases hh
    | operate call p => cases hh
  | expire call p =>
    cases p with
    | save e =>
      cases hh
      exact ⟨_, _, rfl, hp.2⟩
    | _ => cases hh

end

/-! ## The copy that moves -/

/-- The copy in hand after a step comes from a load or from the one before it, or was saved. -/
inductive HeldFrom (w : World) (p : WriterPc) (r : World × WriterPc) (h : Held) : Prop where
  | goes (k : Held) (hs : p.saving = none) (hk : p.held = some k) (hc : k.counts = 0)
    (hkey : h.key = k.key) (hg : Goes h.counts k.copy h.copy)
  | loaded (ctx : Context) (id : String) (e : MessageExecution) (hs : p.saving = none)
    (hkey : h.key = rowKey ctx id) (hl : w.loadExecution ctx id = some e)
    (hg : Goes h.counts e h.copy)
  | saved (ctx : Context) (id : String) (e : MessageExecution) (w' : World)
    (hw : r.1.executions = w'.executions) (hkey : h.key = rowKey ctx id)
    (ht : Tracked ctx id w.executions e) (hc : h.counts = 0)
    (ho : w.saveExecution ctx e = .saved (w', h.copy))

section

variable (cfg : Config) (i : Nat) {input : Input} {w : World} {p : WriterPc} {h : Held}

theorem writerStep_held (hf : input.fault = none) (hp : WriterKnows w.executions p)
    (hh : (writerStep cfg i input w p).2.held = some h) :
    HeldFrom w p (writerStep cfg i input w p) h := by
  cases p with
  | system p =>
    cases p with
    | prepare call p => cases hh
    | send call p =>
      simp only [writerStep, systemStep] at hh ⊢
      rw [sendStep_eq_sendNext cfg (fun _ => call) i w p hf] at hh ⊢
      obtain ⟨e', he', rfl⟩ := Option.map_eq_some_iff.mp hh
      rcases sendNext_follows cfg (sending_of_knows hp.1) e' he' with
        ⟨hs, e, he | hload, hgoes⟩ | ⟨hc, e, he, ho⟩
      · refine .goes ⟨_, e, p.counts⟩ ?_ ?_ ?_ rfl hgoes
        · show p.saving.map (call.ctx, ·) = none
          rw [hs]
          rfl
        · exact Option.map_eq_some_iff.mpr ⟨e, he, rfl⟩
        · exact counts_of_not_saving hs
      · refine .loaded call.ctx call.executionId e ?_ rfl hload hgoes
        show p.saving.map (call.ctx, ·) = none
        rw [hs]
        rfl
      · exact .saved call.ctx call.executionId e _ rfl rfl (hp.2 e (copy_of_saving he)) hc ho
    | response call p =>
      cases p with
      | load =>
        simp only [writerStep, systemStep, hf, responseNext] at hh ⊢
        split at hh
        · cases hh
        next e he =>
          cases hh
          exact .loaded call.ctx call.executionId e rfl rfl he (respond_goes call.responseType e _)
      | save e =>
        simp only [writerStep, systemStep, hf, responseNext] at hh
        split at hh <;> cases hh
      | done threw =>
        simp only [writerStep, systemStep] at hh
        cases hh
    | reconcile call p =>
      cases p with
      | load =>
        simp only [writerStep, systemStep, hf, reconcileNext] at hh ⊢
        split at hh
        · cases hh
        next e he =>
          split at hh
          next hr =>
            cases hh
            exact .loaded call.ctx call.executionId e rfl rfl he (reconciled_goes call hr _)
          · cases hh
      | save e =>
        simp only [writerStep, systemStep, hf, reconcileNext] at hh
        split at hh <;> cases hh
      | set e =>
        simp only [writerStep, systemStep, hf, reconcileNext] at hh
        split at hh <;> cases hh
      | audit =>
        simp only [writerStep, systemStep, hf, reconcileNext] at hh
        split at hh <;> cases hh
      | done ended =>
        simp only [writerStep, systemStep] at hh
        cases hh
    | operate call p =>
      simp only [writerStep, systemStep, hf] at hh
      cases hh
  | expire call p =>
    cases p with
    | load =>
      simp only [writerStep, hf, expireNext] at hh ⊢
      split at hh
      · cases hh
      next e he =>
        split at hh
        · cases hh
        · have hfailed := MessageExecution.markFailed_goes e call.reason input.now.ms .nonRetryable
            none
          split at hh
          · cases hh
          next e' _ _ he' =>
            rw [he'] at hfailed
            cases hh
            exact .loaded call.ctx call.executionId e rfl rfl he hfailed
    | save e =>
      simp only [writerStep, hf, expireNext] at hh
      split at hh <;> cases hh
    | done ended =>
      simp only [writerStep] at hh
      cases hh

/-- A step under a fault leaves no copy in hand. -/
theorem writerStep_held_fault {message : String} (hf : input.fault = some message) :
    (writerStep cfg i input w p).2.held = none := by
  cases p with
  | system p =>
    cases p with
    | prepare call p => rfl
    | send call p =>
      simp only [writerStep, systemStep]
      obtain ⟨ended, hr, -⟩ := sendStep_fault cfg (fun _ => call) i w p hf
      rw [hr]
      rfl
    | response call p => cases p <;> simp only [writerStep, systemStep, hf] <;> rfl
    | reconcile call p => cases p <;> simp only [writerStep, systemStep, hf] <;> rfl
    | operate call p =>
      simp only [writerStep, systemStep, hf]
      rfl
  | expire call p => cases p <;> simp only [writerStep, hf] <;> rfl

end

/-! ## One step of the count -/

section

variable {cfg : Config} {c : Interleave.Config World WriterPc} {a : Tick Input}

/-- What every call holds counts exactly. -/
def AllExact (c : Interleave.Config World WriterPc) : Prop :=
  ∀ i h, (c.pc i).held = some h → h.Exact c.world.executions

/-- A save of a copy that counts exactly saves none that was overtaken. -/
theorem savesNoOvertaken_of_exact (hinv : WriterInv c) (hexact : AllExact c) : SavesNoOvertaken c a := by
  intro hf ctx e hs
  rintro ⟨r, hr, hfresh, hlt⟩
  rcases (hinv.knows a.call).saving hs with ⟨hl, -⟩ | ⟨h, id, hh, rfl, hkey, htracked⟩
  · rw [hl] at hfresh
    cases hfresh
  · have hid : rowKey ctx h.copy.state.id = rowKey ctx id :=
      congrArg (rowKey ctx) htracked.holds.id
    have hrow : c.world.executions.find h.key = some r := by
      rw [hkey, ← hid]
      exact hr
    have heq := hexact a.call h hh r hrow hfresh
    omega

/-- After a save another copy of the row is fresh only where the version has not moved; then the
count has not moved either, unless the save counted an attempt. -/
theorem exact_of_saved {w w' : World} {ctx : Context} {id : String} {e' : MessageExecution}
    {h k : Held} (ho : w.saveExecution ctx h.copy = .saved (w', e'))
    (ht : Tracked ctx id w.executions h.copy) (hkey : h.key = rowKey ctx id)
    (hexact : h.Exact w.executions)
    (hk : ∃ ctx' id', k.key = rowKey ctx' id' ∧ Tracked ctx' id' w.executions k.copy)
    (hkexact : k.Exact w.executions)
    (halone : h.countsSilently = true → ∀ r, w.executions.find h.key = some r → Fresh r h.copy →
      k.key = h.key → ¬ Fresh r k.copy) : k.Exact w'.executions := by
  obtain ⟨r, hrewrites, -⟩ := ht.holds.rewrites ho
  rw [← hkey] at hrewrites
  intro r' hr' hfresh'
  rw [hrewrites.after] at hr'
  split at hr'
  next hsame =>
    cases hr'
    have hrow := hrewrites.before
    have hfresh : Fresh r h.copy := saved_fresh ho ht (hkey ▸ hrow)
    have hloaded : h.copy.loadedVersion = some r.version := hfresh
    -- the copy in hand is at most as new as the row, the saved one at least
    obtain ⟨v, hv, hle, -⟩ : ∃ v, k.copy.loadedVersion = some v ∧ v ≤ r.version ∧ v ≤ k.copy.version := by
      obtain ⟨ctx', id', hkey', htracked⟩ := hk
      exact htracked.loaded (by rw [← hkey', hsame]; exact hrow)
    obtain ⟨v₀, hv₀, -, hle₀⟩ := ht.loaded (hkey ▸ hrow)
    have hver : v = h.copy.version := Option.some.inj (hv.symm.trans hfresh')
    have hver₀ : v₀ = r.version := Option.some.inj (hv₀.symm.trans hloaded)
    have hstored : h.copy.version = r.version := by omega
    have hkfresh : Fresh r k.copy := by
      rw [Fresh, hv, hver, hstored]
    have hzero : h.counts = 0 := by
      by_contra hne
      have hsilent : h.countsSilently = true := by
        simp [Held.countsSilently, hne, hloaded, hstored]
      exact halone hsilent r hrow hfresh hsame hkfresh
    have hcount := hexact r hrow hfresh
    have hkcount := hkexact r (by rw [hsame]; exact hrow) hkfresh
    show k.copy.state.attempts = h.copy.state.attempts + k.counts
    omega
  next => exact hkexact r' hr' hfresh'

/-- What a call holds after its own step counts exactly. -/
theorem exact_moved (hinv : WriterInv c) (hexact : AllExact c) {h : Held}
    (hh : (writerStep cfg a.call a.input c.world (c.pc a.call)).2.held = some h) :
    h.Exact (writerStep cfg a.call a.input c.world (c.pc a.call)).1.executions := by
  cases hf : a.input.fault with
  | some message =>
    rw [writerStep_held_fault cfg a.call hf] at hh
    cases hh
  | none =>
    intro r hr hfresh
    cases writerStep_held cfg a.call hf (hinv.knows a.call) hh with
    | goes k hs hk hc hkey hg =>
      rw [writerStep_executions cfg a.call hf, hs, hkey] at hr
      have hcount := hexact a.call k hk r hr (hg.keeps.loadedVersion.symm.trans hfresh)
      rw [hg.attempts, hcount, hc]
      rfl
    | loaded ctx id e hs hkey hl hg =>
      rw [writerStep_executions cfg a.call hf, hs, hkey] at hr
      obtain ⟨r₀, hr₀, rfl⟩ := Option.map_eq_some_iff.mp hl
      obtain rfl : r = r₀ := Option.some.inj (hr.symm.trans hr₀)
      exact hg.attempts
    | saved ctx id e w' hw hkey ht hc ho =>
      obtain ⟨-, -, he', -⟩ := World.saveExecution_eq_saved ho
      obtain ⟨r₀, hrewrites, -⟩ := ht.holds.rewrites ho
      rw [hw, hkey, hrewrites.after, if_pos rfl] at hr
      cases hr
      rw [he', hc]
      rfl

/-- **A step that counts no attempt under another's copy leaves all copies counting exactly.** -/
theorem exact_step (hinv : WriterInv c) (hexact : AllExact c) (halone : CountsAlone c a) :
    AllExact (c.step (writerStep cfg) a) := by
  intro j k hk
  by_cases hj : j = a.call
  · subst hj
    rw [Config.step_pc_self] at hk
    exact exact_moved hinv hexact hk
  · rw [Config.step_pc_ne _ c hj] at hk
    have hkexact := hexact j k hk
    have hktracked := (hinv.knows j).held hk
    rw [Config.step_world]
    cases hf : a.input.fault with
    | some message =>
      rw [writerStep_executions_fault cfg a.call hf]
      exact hkexact
    | none =>
      rw [writerStep_executions cfg a.call hf]
      cases hs : (c.pc a.call).saving with
      | none => exact hkexact
      | some saving =>
        obtain ⟨ctx, e⟩ := saving
        show k.Exact (c.world.executionsAfter ctx e)
        unfold World.executionsAfter
        cases ho : c.world.saveExecution ctx e with
        | saved saved =>
          obtain ⟨w', e'⟩ := saved
          show k.Exact w'.executions
          rcases (hinv.knows a.call).saving hs with ⟨hl, -⟩ | ⟨h, id, hh, rfl, hkey, ht⟩
          · -- a new row is no row of a copy
            obtain ⟨ctx', id', hkey', htracked⟩ := hktracked
            obtain ⟨-, r₀, hr₀, -, -⟩ := htracked.holds
            intro r hr hfresh
            rw [(saveExecution_insert hl ho).2, Table.find_append_single, hkey', hr₀] at hr
            exact hkexact r (by rw [hkey', hr₀]; exact hr) hfresh
          · exact exact_of_saved ho ht hkey (hexact a.call h hh) hktracked hkexact
              fun hsilent r hr hfresh => halone hf h hh hsilent r hr hfresh j hj k hk
        | _ => exact hkexact

end

/-! ## Runs -/

theorem allExact_start (w : World) (calls : Nat → WriterCall) : AllExact (startWriters w calls) := by
  intro i h hh r hr
  cases hr

/-- **A run in which every attempt is counted while no other call holds a copy of that version keeps
to the published histories.** -/
theorem lawful_of_countsAlone (cfg : Config) (w : World) (calls : Nat → WriterCall)
    (s : List (Tick Input))
    (h : Meets (writerStep cfg) CountsAlone (startWriters w calls) s) :
    Meets (writerStep cfg)
      (fun c a => Lawful c.world.executions (c.step (writerStep cfg) a).world.executions)
      (startWriters w calls) s := by
  have hlawful : ∀ c a, (WriterInv c ∧ AllExact c) → CountsAlone c a →
      Lawful c.world.executions (c.step (writerStep cfg) a).world.executions := by
    rintro c a ⟨hinv, hexact⟩ -
    exact (lawful_step hinv).1.mpr (savesNoOvertaken_of_exact hinv hexact)
  have hstep : ∀ c a, (WriterInv c ∧ AllExact c) → CountsAlone c a →
      WriterInv (c.step (writerStep cfg) a) ∧ AllExact (c.step (writerStep cfg) a) := by
    rintro c a ⟨hinv, hexact⟩ halone
    exact ⟨writerInv_step hinv, exact_step hinv hexact halone⟩
  exact Meets.of_invariant hlawful hstep ⟨writerInv_start w calls, allExact_start w calls⟩ h

/-! ## A copy that was overtaken -/

/-- Calls 1 and 3 send the draft of call 0, and call 2 records that it was opened. -/
def overtakingCalls : Nat → WriterCall
  | 0 => .system (.prepare samplePrepareCall)
  | 2 => .system (.response ⟨sampleContext, "execution", .opened⟩)
  | _ => .system (.send sampleSendCall)

/-- The provider refuses the message for now. -/
def refuses (i : Nat) : Tick Input :=
  ⟨i, { now := .epoch, answer := { status := .failed, retryClassification := some .retryable } }⟩

/-- The draft is sent and refused, and no attempt is counted under a stored version. -/
def refusedSchedule : List (Tick Input) :=
  List.replicate 5 (personalizes 0) ++ List.replicate 11 (refuses 1)

/-- A call that saves an attempt moves the version. -/
def countsLoudly (c : Interleave.Config World WriterPc) (a : Tick Input) : Bool :=
  !((c.pc a.call).held.any Held.countsSilently)

theorem countsAlone_of_loudly {c : Interleave.Config World WriterPc} {a : Tick Input}
    (h : countsLoudly c a = true) : CountsAlone c a := by
  intro _ k hk hsilent
  simp [countsLoudly, hk, hsilent] at h

theorem lawful_refused :
    Meets (writerStep {})
      (fun c a => Lawful c.world.executions (c.step (writerStep {}) a).world.executions)
      (startWriters undraftedWorld overtakingCalls) refusedSchedule :=
  lawful_of_countsAlone {} undraftedWorld overtakingCalls refusedSchedule
    (Meets.mono (P := fun c a => countsLoudly c a = true) (by decide +kernel)
      fun _ _ => countsAlone_of_loudly)

/-- Between the load and the save of the response the message is sent and refused again. -/
def overtakenSchedule : List (Tick Input) :=
  refusedSchedule ++ [allowed 2] ++ List.replicate 11 (refuses 3)

/-- The attempts of the stored execution. -/
def storedAttempts (c : Interleave.Config World WriterPc) : Option Nat :=
  (c.world.executions.find (rowKey sampleContext "execution")).map fun r => r.payload.attempts

/-- The save of the response takes back the second attempt. -/
theorem not_lawful_overtaken :
    ¬ Meets (writerStep {})
      (fun c a => Lawful c.world.executions (c.step (writerStep {}) a).world.executions)
      (startWriters undraftedWorld overtakingCalls) (overtakenSchedule ++ [allowed 2]) := by
  intro h
  have hlast := (meets_append.mp h).2.1
  have hbefore : storedAttempts (run (writerStep {}) (startWriters undraftedWorld overtakingCalls)
      overtakenSchedule) = some 2 := by decide +kernel
  have hafter : storedAttempts ((run (writerStep {}) (startWriters undraftedWorld overtakingCalls)
      overtakenSchedule).step (writerStep {}) (allowed 2)) = some 1 := by decide +kernel
  obtain ⟨r, hr, hattempts⟩ := Option.map_eq_some_iff.mp hbefore
  obtain ⟨r', hr', hattempts'⟩ := Option.map_eq_some_iff.mp hafter
  have hle := hlast.attempts _ r r' hr hr'
  omega

end VegaRevenue.Outreach
