import VegaRevenue.Lib.Interleave
import VegaRevenue.Lib.Versioned

/-!
# Writers on one versioned row

Any number of writers load a row, apply operations to their copies and save them by
compare-and-swap, in any interleaving. An operation that changes the copy without moving its
version makes the swap blind: another copy of the same version still saves.

* `noLostUpdate_of_loud` — where no operation is silent on a copy whose version has not moved,
  every save starts from what the save before it stored
* `noLostUpdate_iff_loud` — and only there
* `lasting_stays` — even where updates are lost, what no operation ends, and none brings about
  silently, stays in the row
-/

namespace LostUpdate

open Versioned Interleave

/-- The operations of an aggregate, and where they write without an event. -/
structure Model where
  State : Type
  Event : Type
  Op : Type
  apply : Op → Aggregate State Event → Aggregate State Event
  silent : Op → State → Prop

/-- Outside its silent branches an operation that changes the state moves the version. -/
def Model.Lawful (M : Model) : Prop :=
  ∀ (op : M.Op) (a : Aggregate M.State M.Event), a.Tracks (M.apply op a) (M.silent op a.state)

/-- In a silent branch the state changes and the version stays. -/
def Model.Exact (M : Model) : Prop :=
  ∀ (op : M.Op) (a : Aggregate M.State M.Event), M.silent op a.state →
    (M.apply op a).version = a.version ∧ (M.apply op a).state ≠ a.state

/-! ## The system -/

/-- A copy together with the state it was computed from. -/
structure Session (M : Model) where
  copy : Aggregate M.State M.Event
  base : M.State

inductive Pc (M : Model) where
  | idle
  | holding (s : Session M)

inductive Action (M : Model) where
  | load
  | operate (op : M.Op)
  | save

/-- A save that succeeded: the state it was computed from and the state it stored. -/
structure Write (σ : Type) where
  base : σ
  saved : σ
deriving DecidableEq

/-- The row and the saves that succeeded, the latest first. -/
structure World (M : Model) where
  row : Row M.State
  writes : List (Write M.State)

/-- A save keeps the copy, which has then the version it was saved with. -/
def save {M : Model} (w : World M) (s : Session M) : World M × Pc M :=
  match w.row.swap s.copy with
  | none => (w, .holding s)
  | some row =>
    (⟨row, ⟨s.base, s.copy.state⟩ :: w.writes⟩,
      .holding ⟨s.copy.setVersion s.copy.version, s.copy.state⟩)

def step (M : Model) : Stepper (World M) (Pc M) (Action M)
  | _, .load, w, _ => (w, .holding ⟨.reconstitute w.row.payload w.row.version, w.row.payload⟩)
  | _, .operate op, w, .holding s => (w, .holding { s with copy := M.apply op s.copy })
  | _, .save, w, .holding s => save w s
  | _, _, w, .idle => (w, .idle)

def start {M : Model} (row : Row M.State) : Config (World M) (Pc M) := ⟨⟨row, []⟩, fun _ => .idle⟩

/-! ## What is promised -/

/-- The version of the copy has moved since it was loaded. -/
def Moved {σ ε : Type} (a : Aggregate σ ε) : Prop := ∃ v, a.loadedVersion = some v ∧ v < a.version

/-- The state the saves left, from the one there was before them. -/
def stored {σ : Type} (initial : σ) : List (Write σ) → σ
  | [] => initial
  | w :: _ => w.saved

/-- Every save was computed from what the save before it left. -/
def Chained {σ : Type} (initial : σ) : List (Write σ) → Prop
  | [] => True
  | w :: ws => w.base = stored initial ws ∧ Chained initial ws

/-- No update is lost in this configuration. -/
structure NoLostUpdate {M : Model} (initial : M.State) (c : Config (World M) (Pc M)) : Prop where
  /-- A copy that differs from what was loaded has a greater version. -/
  moved : ∀ i s, c.pc i = .holding s → s.copy.state ≠ s.base → Moved s.copy
  chained : Chained initial c.world.writes
  /-- The row holds what the last save stored. -/
  row : c.world.row.payload = stored initial c.world.writes

/-- No operation is silent on a copy whose version has not moved. -/
def Loud {M : Model} (c : Config (World M) (Pc M)) (a : Tick (Action M)) : Prop :=
  ∀ op s, a.input = .operate op → c.pc a.call = .holding s → M.silent op s.copy.state →
    Moved s.copy

/-! ## The invariant -/

/-- What holds of a copy beside the row. -/
structure Consistent {M : Model} (row : Row M.State) (s : Session M) : Prop where
  loaded : ∃ v, s.copy.loadedVersion = some v ∧ v ≤ row.version ∧ v ≤ s.copy.version ∧
    (v = row.version → row.payload = s.base)
  moved : s.copy.state ≠ s.base → Moved s.copy

structure Inv {M : Model} (initial : M.State) (c : Config (World M) (Pc M)) : Prop where
  consistent : ∀ i s, c.pc i = .holding s → Consistent c.world.row s
  chained : Chained initial c.world.writes
  row : c.world.row.payload = stored initial c.world.writes

theorem Inv.noLostUpdate {M : Model} {initial : M.State} {c : Config (World M) (Pc M)}
    (h : Inv initial c) : NoLostUpdate initial c :=
  ⟨fun i s hs => (h.consistent i s hs).moved, h.chained, h.row⟩

theorem inv_start {M : Model} (row : Row M.State) : Inv row.payload (start row : Config _ (Pc M)) := by
  refine ⟨?_, trivial, rfl⟩
  intro i s h
  cases h

/-- Moving one writer's copy, with the row left alone. -/
theorem Inv.update_pc {M : Model} {initial : M.State} {c : Config (World M) (Pc M)} {i : Nat}
    {s' : Session M} (h : Inv initial c) (hs' : Consistent c.world.row s') :
    Inv initial ⟨c.world, Function.update c.pc i (.holding s')⟩ := by
  refine ⟨?_, h.chained, h.row⟩
  intro j s hj
  by_cases hji : j = i
  · subst hji
    obtain rfl : s' = s := by simpa using hj
    exact hs'
  · exact h.consistent j s (by simpa [hji] using hj)

theorem consistent_load {M : Model} (row : Row M.State) :
    Consistent row (⟨.reconstitute row.payload row.version, row.payload⟩ : Session M) :=
  ⟨⟨row.version, rfl, Nat.le_refl _, Nat.le_refl _, fun _ => rfl⟩, fun h => absurd rfl h⟩

/-- An operation keeps a copy consistent unless it is silent on one that has not moved. -/
theorem Consistent.operate {M : Model} (hM : M.Lawful) {row : Row M.State} {s : Session M}
    (h : Consistent row s) (op : M.Op) (hloud : M.silent op s.copy.state → Moved s.copy) :
    Consistent row { s with copy := M.apply op s.copy } := by
  obtain ⟨⟨v, hv, hle, hver, hbase⟩, hmoved⟩ := h
  have htr := hM op s.copy
  have hge := htr.version_le
  obtain ⟨hl, hcases⟩ := htr
  refine ⟨⟨v, hl.trans hv, hle, Nat.le_trans hver hge, hbase⟩, ?_⟩
  intro hne
  have hmv : Moved s.copy ∨ s.copy.version < (M.apply op s.copy).version := by
    rcases hcases with hlt | ⟨-, hstate | hsilent⟩
    · exact .inr hlt
    · exact .inl (hmoved (hstate ▸ hne))
    · exact .inl (hloud hsilent)
  refine ⟨v, hl.trans hv, ?_⟩
  rcases hmv with ⟨v', hv', hlt⟩ | hlt
  · obtain rfl : v' = v := Option.some.inj (hv'.symm.trans hv)
    show v' < (M.apply op s.copy).version
    omega
  · show v < (M.apply op s.copy).version
    omega

/-- A save that succeeds keeps every copy consistent with the new row. -/
theorem Inv.save {M : Model} {initial : M.State} {c : Config (World M) (Pc M)} {i : Nat}
    {s : Session M} (h : Inv initial c) (hs : c.pc i = .holding s) :
    Inv initial ⟨(save c.world s).1, Function.update c.pc i (save c.world s).2⟩ := by
  obtain ⟨⟨v, hv, hle, hver, hbase⟩, hmoved⟩ := h.consistent i s hs
  unfold LostUpdate.save Row.swap
  by_cases heq : s.copy.loadedVersion = some c.world.row.version
  · rw [if_pos heq]
    obtain rfl : v = c.world.row.version := Option.some.inj (hv.symm.trans heq)
    have hfrom : s.base = c.world.row.payload := (hbase rfl).symm
    refine ⟨?_, ⟨hfrom.trans h.row, h.chained⟩, rfl⟩
    intro j t hj
    by_cases hji : j = i
    · subst hji
      obtain rfl : (⟨s.copy.setVersion s.copy.version, s.copy.state⟩ : Session M) = t := by
        simpa using hj
      exact ⟨⟨s.copy.version, rfl, Nat.le_refl _, Nat.le_refl _, fun _ => rfl⟩, fun hne => absurd rfl hne⟩
    · obtain ⟨⟨u, hu, hule, huver, hubase⟩, humoved⟩ :=
        h.consistent j t (by simpa [hji] using hj)
      refine ⟨⟨u, hu, Nat.le_trans hule hver, huver, ?_⟩, humoved⟩
      intro hequ
      -- the version did not move, so the save stored what it had loaded
      have hsame : u = c.world.row.version := by
        dsimp only at hequ
        omega
      have hstate : s.copy.state = s.base := by
        by_contra hne
        obtain ⟨v', hv', hlt⟩ := hmoved hne
        obtain rfl : v' = c.world.row.version := Option.some.inj (hv'.symm.trans hv)
        dsimp only at hequ
        omega
      show s.copy.state = t.base
      rw [hstate, hfrom, hubase hsame]
  · rw [if_neg heq]
    exact h.update_pc (h.consistent i s hs)

/-- Every step of a loud run keeps the invariant. -/
theorem inv_step {M : Model} (hM : M.Lawful) {initial : M.State} (c : Config (World M) (Pc M))
    (a : Tick (Action M)) (h : Inv initial c) (hloud : Loud c a) :
    Inv initial (c.step (step M) a) := by
  obtain ⟨i, input⟩ := a
  unfold Config.step
  dsimp only
  cases input with
  | load => exact h.update_pc (consistent_load _)
  | operate op =>
    cases hpc : c.pc i with
    | idle =>
      refine ⟨?_, h.chained, h.row⟩
      intro j s hj
      by_cases hji : j = i
      · subst hji; simp [step] at hj
      · exact h.consistent j s (by simpa [hji] using hj)
    | holding s =>
      exact h.update_pc ((h.consistent i s hpc).operate hM op fun hsil =>
        hloud op s rfl hpc hsil)
  | save =>
    cases hpc : c.pc i with
    | idle =>
      refine ⟨?_, h.chained, h.row⟩
      intro j s hj
      by_cases hji : j = i
      · subst hji; simp [step] at hj
      · exact h.consistent j s (by simpa [hji] using hj)
    | holding s => exact h.save hpc

/-- **Where no operation is silent on a copy whose version has not moved, no update is lost.** -/
theorem noLostUpdate_of_loud {M : Model} (hM : M.Lawful) (row : Row M.State)
    (schedule : List (Tick (Action M))) (h : Meets (step M) Loud (start row) schedule) :
    NoLostUpdate row.payload (run (step M) (start row) schedule) :=
  (run_invariant_of_meets (inv_step hM) (inv_start row) h).noLostUpdate

/-! ## The condition is exact -/

/-- A silent operation on an unmoved copy leaves a changed copy that has not moved. -/
theorem loud_of_noLostUpdate_step {M : Model} (hM : M.Lawful) (hE : M.Exact) {initial : M.State}
    {c : Config (World M) (Pc M)} {a : Tick (Action M)} (h : Inv initial c)
    (hnext : NoLostUpdate initial (c.step (step M) a)) : Loud c a := by
  intro op s hop hs hsilent
  by_contra hunmoved
  have hbase : s.copy.state = s.base := by
    by_contra hne
    exact hunmoved ((h.consistent a.call s hs).moved hne)
  obtain ⟨hversion, hstate⟩ := hE op s.copy hsilent
  have hpc : (c.step (step M) a).pc a.call = .holding { s with copy := M.apply op s.copy } := by
    rw [Config.step_pc_self, hop, hs]
    rfl
  obtain ⟨v, hv, hlt⟩ := hnext.moved a.call _ hpc (by rw [← hbase]; exact hstate)
  have hl := (hM op s.copy).1
  exact hunmoved ⟨v, hl.symm.trans hv, by dsimp only at hlt; omega⟩

/-- **No update is lost along a run iff no operation is silent on an unmoved copy.** -/
theorem noLostUpdate_iff_loud {M : Model} (hM : M.Lawful) (hE : M.Exact) (row : Row M.State)
    (schedule : List (Tick (Action M))) :
    (∀ p, p <+: schedule → NoLostUpdate row.payload (run (step M) (start row) p)) ↔
      Meets (step M) Loud (start row) schedule := by
  constructor
  · suffices h : ∀ c : Config (World M) (Pc M), Inv row.payload c →
        (∀ p, p <+: schedule → NoLostUpdate row.payload (run (step M) c p)) →
        Meets (step M) Loud c schedule from h _ (inv_start row)
    induction schedule with
    | nil => intro c _ _; trivial
    | cons a schedule ih =>
      intro c hc hall
      have hloud : Loud c a :=
        loud_of_noLostUpdate_step hM hE hc (hall [a] ⟨schedule, rfl⟩)
      refine ⟨hloud, ih _ (inv_step hM c a hc hloud) ?_⟩
      rintro p ⟨q, rfl⟩
      exact hall (a :: p) ⟨q, rfl⟩
  · rintro h p ⟨q, rfl⟩
    exact noLostUpdate_of_loud hM row p (meets_append.mp h).1

/-! ## What stays in the row

A save may overwrite what another one stored. A property stays all the same where no operation ends
it and where none brings it about without moving the version. -/

structure Model.Lasting (M : Model) (P : M.State → Prop) : Prop where
  stays : ∀ (op : M.Op) (a : Aggregate M.State M.Event), P a.state → P (M.apply op a).state
  loud : ∀ (op : M.Op) (a : Aggregate M.State M.Event), ¬ P a.state → P (M.apply op a).state →
    a.version < (M.apply op a).version

/-- What a copy knows of the property beside the row: loaded at the version of the row it has it iff
the row does, and where it got it since, its version has moved. -/
structure Aware {M : Model} (P : M.State → Prop) (row : Row M.State) (s : Session M) : Prop where
  loaded : ∃ v, s.copy.loadedVersion = some v ∧ v ≤ row.version ∧ v ≤ s.copy.version ∧
    (v = row.version → (P s.base ↔ P row.payload)) ∧
    (P s.copy.state → P s.base ∨ v < s.copy.version)
  kept : P s.base → P s.copy.state

def AllAware {M : Model} (P : M.State → Prop) (c : Config (World M) (Pc M)) : Prop :=
  ∀ i s, c.pc i = .holding s → Aware P c.world.row s

variable {M : Model} {P : M.State → Prop} {c : Config (World M) (Pc M)}

theorem aware_load (row : Row M.State) :
    Aware P row (⟨.reconstitute row.payload row.version, row.payload⟩ : Session M) :=
  ⟨⟨row.version, rfl, Nat.le_refl _, Nat.le_refl _, fun _ => Iff.rfl, .inl⟩, id⟩

theorem Aware.operate (hM : M.Lawful) (hP : M.Lasting P) {row : Row M.State} {s : Session M}
    (h : Aware P row s) (op : M.Op) : Aware P row { s with copy := M.apply op s.copy } := by
  obtain ⟨⟨v, hv, hle, hver, hbase, hgot⟩, hkept⟩ := h
  have htr := hM op s.copy
  have hge := htr.version_le
  refine ⟨⟨v, htr.1.trans hv, hle, Nat.le_trans hver hge, hbase, fun hafter => ?_⟩,
    fun hb => hP.stays op s.copy (hkept hb)⟩
  by_cases hbefore : P s.copy.state
  · exact (hgot hbefore).imp id fun hlt => Nat.lt_of_lt_of_le hlt hge
  · exact .inr (Nat.lt_of_le_of_lt hver (hP.loud op s.copy hbefore hafter))

/-- Moving one writer's copy, with the row left alone. -/
theorem AllAware.update_pc (h : AllAware P c) {i : Nat} {s' : Session M}
    (hs' : Aware P c.world.row s') :
    AllAware P ⟨c.world, Function.update c.pc i (.holding s')⟩ := by
  intro j s hj
  by_cases hji : j = i
  · subst hji
    obtain rfl : s' = s := by simpa using hj
    exact hs'
  · exact h j s (by simpa [hji] using hj)

/-- A save keeps the property of the row, and every copy aware of the new row. -/
theorem AllAware.save (h : AllAware P c) {i : Nat} {s : Session M} (hs : c.pc i = .holding s) :
    AllAware P ⟨(LostUpdate.save c.world s).1,
        Function.update c.pc i (LostUpdate.save c.world s).2⟩ ∧
      (P c.world.row.payload → P (LostUpdate.save c.world s).1.row.payload) := by
  obtain ⟨⟨v, hv, hle, hver, hbase, hgot⟩, hkept⟩ := h i s hs
  unfold LostUpdate.save Row.swap
  by_cases heq : s.copy.loadedVersion = some c.world.row.version
  · rw [if_pos heq]
    obtain rfl : v = c.world.row.version := Option.some.inj (hv.symm.trans heq)
    refine ⟨fun j t hj => ?_, fun hrow => hkept ((hbase rfl).mpr hrow)⟩
    by_cases hji : j = i
    · subst hji
      obtain rfl : (⟨s.copy.setVersion s.copy.version, s.copy.state⟩ : Session M) = t := by
        simpa using hj
      exact ⟨⟨s.copy.version, rfl, Nat.le_refl _, Nat.le_refl _, fun _ => Iff.rfl, .inl⟩, id⟩
    · obtain ⟨⟨u, hu, hule, huver, hubase, hugot⟩, hukept⟩ := h j t (by simpa [hji] using hj)
      refine ⟨⟨u, hu, Nat.le_trans hule hver, huver, fun hequ => ?_, hugot⟩, hukept⟩
      -- the version did not move, so the save brought the property about only if it was there
      dsimp only at hequ
      have hsame : u = c.world.row.version := by omega
      rw [hubase hsame, ← hbase rfl]
      constructor
      · exact hkept
      · exact fun hstate => (hgot hstate).resolve_right (by omega)
  · rw [if_neg heq]
    exact ⟨h.update_pc (h i s hs), id⟩

/-- **A step keeps a lasting property of the row.** -/
theorem lasting_step (hM : M.Lawful) (hP : M.Lasting P) (a : Tick (Action M)) (h : AllAware P c) :
    AllAware P (c.step (step M) a) ∧
      (P c.world.row.payload → P (c.step (step M) a).world.row.payload) := by
  obtain ⟨i, input⟩ := a
  have hidle : c.pc i = .idle → AllAware P ⟨c.world, Function.update c.pc i .idle⟩ := by
    intro hpc j s hj
    by_cases hji : j = i
    · subst hji
      simp at hj
    · exact h j s (by simpa [hji] using hj)
  unfold Config.step
  dsimp only
  cases input with
  | load => exact ⟨h.update_pc (aware_load _), id⟩
  | operate op =>
    cases hpc : c.pc i with
    | idle => exact ⟨hidle hpc, id⟩
    | holding s => exact ⟨h.update_pc ((h i s hpc).operate hM hP op), id⟩
  | save =>
    cases hpc : c.pc i with
    | idle => exact ⟨hidle hpc, id⟩
    | holding s => exact h.save hpc

theorem allAware_run (hM : M.Lawful) (hP : M.Lasting P) (row : Row M.State)
    (schedule : List (Tick (Action M))) : AllAware P (run (step M) (start row) schedule) := by
  have hstart : AllAware P (start row : Config _ (Pc M)) := fun i s hs => nomatch hs
  have hstep : ∀ c a, AllAware P c → AllAware P (c.step (step M) a) :=
    fun c a h => (lasting_step hM hP a h).1
  exact run_invariant hstep hstart

/-- **Once a lasting property is stored it stays stored**, whichever copies the writers still hold
and however they go on. -/
theorem lasting_stays (hM : M.Lawful) (hP : M.Lasting P) (row : Row M.State)
    (schedule later : List (Tick (Action M)))
    (h : P (run (step M) (start row) schedule).world.row.payload) :
    P (run (step M) (start row) (schedule ++ later)).world.row.payload := by
  rw [run_append]
  have hstep : ∀ c a, AllAware P c ∧ P c.world.row.payload →
      AllAware P (c.step (step M) a) ∧ P (c.step (step M) a).world.row.payload := by
    rintro c a ⟨haware, hrow⟩
    obtain ⟨hnext, hkeeps⟩ := lasting_step hM hP a haware
    exact ⟨hnext, hkeeps hrow⟩
  exact (run_invariant hstep ⟨allAware_run hM hP row schedule, h⟩).2

end LostUpdate
