import VegaRevenue.ControlPlane.AgentVersions

/-!
# Lifecycle, immutability and isolation of agent versions

A registration that changes a stored version writes its lifecycle as it is given; every other write
moves a version along `ALLOWED_TRANSITIONS`.

* `step_row` — what a call does to the row of one version
* `lifecycleRespected_iff` — a history respects the lifecycles iff no registration of it moves a
  version where no transition does
* `not_lifecycleRespected_activated` — a registration activates a draft
-/

namespace VegaRevenue.ControlPlane

open RowSecurity (Policy Table)

/-- A lifecycle stays, or moves along an allowed transition. -/
def Follows (a b : AgentLifecycle) : Prop := b = a ∨ canTransitionAgentLifecycle a b = true

instance : DecidableRel Follows := fun _ _ => inferInstanceAs (Decidable (_ ∨ _))

/-- The row is another tenant's. -/
def OfAnother (tenantId : String) (r : AgentVersion) : Prop :=
  ∃ u, r.tenantId = some u ∧ u ≠ tenantId

/-- The lifecycles of a version along a history, from the one it is first stored with. -/
def history (id : String) (t : AgentTable) (h : List Call) : List AgentLifecycle :=
  Machine.trace step (fun t => (t.lookup id).map AgentVersion.lifecycle) t h

/-- What a history of calls owes to the versions that are stored. -/
structure LifecycleRespected (t : AgentTable) (h : List Call) : Prop where
  /-- The lifecycles of each version are a path in the allowed transitions. -/
  path : ∀ id, (history id t h).IsChain Follows
  /-- A version is first stored as it is registered. -/
  registered : ∀ before c after id r, h = before ++ c :: after →
    (Machine.final step t before).lookup id = none →
    (Machine.final step t (before ++ [c])).lookup id = some r →
    c.request = .registerAgentVersion r
  /-- A version that has been APPROVED, ACTIVE, DEPRECATED or RETIRED keeps its implementation key
  and its definition. -/
  immutable : ∀ before after id r, h = before ++ after →
    (Machine.final step t before).lookup id = some r →
    isMutableAgentLifecycle r.lifecycle = false →
    ∃ r', (Machine.final step t h).lookup id = some r' ∧
      r'.implementationKey = r.implementationKey ∧ r'.definition = r.definition
  /-- A call neither changes nor makes a row of another tenant. -/
  isolated : ∀ before c after id r, h = before ++ c :: after → OfAnother c.tenantId r →
    ((Machine.final step t (before ++ [c])).lookup id = some r ↔
      (Machine.final step t before).lookup id = some r)

/-- The call is a registration that changes the stored version `old`. -/
structure Rewrites (t : AgentTable) (c : Call) (old version : AgentVersion) : Prop where
  request : c.request = .registerAgentVersion version
  accepted : c.env.rejects = false
  /-- The version found under the agent and the version number does not stop it. -/
  found : ∀ e, getActiveVersion t c.env c.tenantId version.agentId version.version = some e →
    areVersionDefinitionsEqual e version ≠ none ∧ isMutableAgentLifecycle e.lifecycle = true
  stored : t.lookup version.versionId = some old
  visible : (tenantIsolation c.tenantId).visible old = true
  differs : areVersionDefinitionsEqual old version ≠ none
  isMutable : isMutableAgentLifecycle old.lifecycle = true
  permitted : (tenantIsolation c.tenantId).check old = true

/-- Where the call changes a stored version, it leaves its lifecycle or moves it along an allowed
transition. -/
def KeepsPath (t : AgentTable) (c : Call) : Prop :=
  ∀ old version, Rewrites t c old version → Follows old.lifecycle version.lifecycle

/-! ## One call -/

/-- What a call does to the row of one version. -/
inductive RowChange (t : AgentTable) (c : Call) : Option AgentVersion → Option AgentVersion → Prop
  | same (o : Option AgentVersion) : RowChange t c o o
  | inserted (version : AgentVersion) (request : c.request = .registerAgentVersion version)
      (permitted : (tenantIsolation c.tenantId).check version = true) :
      RowChange t c none (some version)
  | rewritten (old version : AgentVersion) (h : Rewrites t c old version) :
      RowChange t c (some old) (some (version.rewrite old))
  | moved (r : AgentVersion) (target : AgentLifecycle)
      (allowed : canTransitionAgentLifecycle r.lifecycle target = true)
      (permitted : (tenantIsolation c.tenantId).check r = true) :
      RowChange t c (some r) (some (r.move target))

section

variable {t : AgentTable} {c : Call} {id : String}

/-- A call that writes leaves the table, or what it wrote. -/
theorem written_cases (t : AgentTable) (env : Environment) (o : Option AgentTable) :
    (written t env o).1 = t ∨
      ∃ t', o = some t' ∧ env.rejects = false ∧ (written t env o).1 = t' := by
  cases o with
  | none => exact .inl rfl
  | some t' =>
    cases hr : env.rejects with
    | true => exact .inl (by simp [written, hr])
    | false => exact .inr ⟨t', rfl, rfl, by simp [written, hr]⟩

/-- What a transition does to one row. -/
theorem transitionLifecycle_row {agentId version : String} {origin target : AgentLifecycle}
    (hallowed : canTransitionAgentLifecycle origin target = true) :
    RowChange t c (t.lookup id)
      ((transitionLifecycle t c.env c.tenantId agentId version origin target).1.lookup id) := by
  unfold transitionLifecycle
  dsimp only
  split
  · exact .same _
  rcases written_cases t c.env (t.update? (tenantIsolation c.tenantId) (isAt agentId version origin)
      (AgentVersion.move target) fun _ => rfl) with h | ⟨t', ht', -, h⟩ <;> rw [h]
  · exact .same _
  · rw [Table.lookup_update ht']
    cases hr : t.lookup id with
    | none => exact .same _
    | some r =>
      rw [Option.map_some]
      split
      next hsel =>
        have hcheck := Table.check_of_update ht' (Table.mem_of_lookup hr) hsel
        simp only [Table.selects, isAt, Bool.and_eq_true, decide_eq_true_eq] at hsel
        obtain ⟨-, ⟨-, -⟩, rfl⟩ := hsel
        exact .moved r target hallowed hcheck
      · exact .same _

/-- What a save does to one row, where the registration lets it through. -/
theorem saveVersion_row {version : AgentVersion}
    (hrequest : c.request = .registerAgentVersion version)
    (hfound : ∀ e, getActiveVersion t c.env c.tenantId version.agentId version.version = some e →
      areVersionDefinitionsEqual e version ≠ none ∧ isMutableAgentLifecycle e.lifecycle = true) :
    RowChange t c (t.lookup id) ((saveVersion t c.env c.tenantId version).1.lookup id) := by
  unfold saveVersion
  split
  next old hold =>
    rw [Table.head?_select_key, Option.filter_eq_some_iff] at hold
    obtain ⟨hstored, hvisible⟩ := hold
    split
    · exact .same _
    next diff hdiff =>
      split
      next hmutable =>
        rcases written_cases t c.env (t.update? (tenantIsolation c.tenantId)
            (·.versionId = version.versionId) version.rewrite fun _ => rfl) with
          h | ⟨t', ht', haccepted, h⟩ <;> rw [h]
        · exact .same _
        · have hpermitted := Table.check_of_update ht' (Table.mem_of_lookup hstored)
            (by simp [Table.selects, hvisible, Table.key_of_lookup hstored])
          rw [Table.lookup_update ht']
          cases hr : t.lookup id with
          | none => exact .same _
          | some r =>
            rw [Option.map_some]
            split
            next hsel =>
              -- the row is the one that was found
              have hid : r.versionId = version.versionId := by
                simpa [Table.selects] using (Bool.and_eq_true_iff.mp hsel).2
              rw [← Table.key_of_lookup hr, hid, hstored] at hr
              cases hr
              exact .rewritten old version ⟨hrequest, haccepted, hfound, hstored, hvisible,
                by simp [hdiff], hmutable, hpermitted⟩
            · exact .same _
      · exact .same _
  · rcases written_cases t c.env (t.insert? (tenantIsolation c.tenantId) version) with
      h | ⟨t', ht', -, h⟩ <;> rw [h]
    · exact .same _
    · obtain ⟨hcheck, hnew⟩ := Table.of_insert ht'
      rw [Table.lookup_insert ht']
      split
      next hid =>
        rw [← hid, hnew]
        exact .inserted version hrequest hcheck
      · exact .same _

/-- **What a call does to the row of one version.** -/
theorem step_row (t : AgentTable) (c : Call) (id : String) :
    RowChange t c (t.lookup id) ((step t c).1.lookup id) := by
  obtain ⟨tenantId, request, env⟩ := c
  cases request with
  | registerAgentVersion version =>
    simp only [step, registerAgentVersion]
    split
    next hnone =>
      exact saveVersion_row (c := ⟨tenantId, .registerAgentVersion version, env⟩) rfl
        fun e he => absurd (he.symm.trans hnone) (by simp)
    next existing hexisting =>
      split
      · exact .same _
      next diff hdiff =>
        split
        next hmutable =>
          refine saveVersion_row (c := ⟨tenantId, .registerAgentVersion version, env⟩) rfl ?_
          intro e he
          rw [hexisting] at he
          cases he
          exact ⟨by simp [hdiff], hmutable⟩
        · exact .same _
  | transition agentId version target =>
    simp only [step, transition]
    split
    · exact .same _
    · split
      next hallowed =>
        exact transitionLifecycle_row (c := ⟨tenantId, .transition agentId version target, env⟩)
          hallowed
      · exact .same _
  | activateVersion agentId version =>
    exact transitionLifecycle_row (c := ⟨tenantId, .activateVersion agentId version, env⟩) rfl

/-- A registration that changes a stored version writes the lifecycle it is given. -/
theorem lookup_step_of_rewrites {old version : AgentVersion} (h : Rewrites t c old version) :
    (step t c).1.lookup version.versionId = some (version.rewrite old) := by
  obtain ⟨tenantId, request, env⟩ := c
  obtain ⟨rfl, haccepted, hfound, hstored, hvisible, hdiffers, hmutable, hpermitted⟩ := h
  have hsave : (step t ⟨tenantId, .registerAgentVersion version, env⟩).1 =
      (saveVersion t env tenantId version).1 := by
    simp only [step, registerAgentVersion]
    split
    · rfl
    next existing hexisting =>
      obtain ⟨hdiff, hmut⟩ := hfound existing hexisting
      split
      next hnone => exact absurd hnone hdiff
      · rw [if_pos hmut]
  rw [hsave, saveVersion, Table.head?_select_key, hstored, Option.filter_some, if_pos hvisible]
  dsimp only
  split
  next hnone => exact absurd hnone hdiffers
  next diff _ =>
    rw [if_pos hmutable]
    obtain ⟨t', ht'⟩ := t.exists_update (tenantIsolation tenantId)
      (·.versionId = version.versionId) version.rewrite (fun _ => rfl) (by
        intro r hr hsel
        have hid : r.versionId = version.versionId := by
          simpa [Table.selects] using (Bool.and_eq_true_iff.mp hsel).2
        have hlookup := Table.lookup_of_mem hr
        rw [hid, hstored] at hlookup
        cases hlookup
        exact hpermitted)
    have haccepted' : env.rejects = false := haccepted
    rw [ht', written, haccepted']
    show t'.lookup version.versionId = _
    rw [Table.lookup_update ht', hstored, Option.map_some, if_pos]
    simpa [Table.selects, Table.key_of_lookup hstored] using hvisible

/-! ## Rows -/

variable {o o' : Option AgentVersion} {r : AgentVersion}

/-- A row is never deleted. -/
theorem RowChange.isSome (h : RowChange t c o o') (ho : o.isSome) : o'.isSome := by
  cases h with
  | same => exact ho
  | inserted => cases ho
  | rewritten => rfl
  | moved => rfl

theorem RowChange.follows (h : RowChange t c o o') (hkeeps : KeepsPath t c) :
    ∀ a ∈ o.map AgentVersion.lifecycle, ∀ b ∈ o'.map AgentVersion.lifecycle, Follows a b := by
  intro a ha b hb
  cases h with
  | same =>
    cases o with
    | none => cases ha
    | some r =>
      cases ha
      cases hb
      exact .inl rfl
  | inserted => cases ha
  | rewritten old version hrewrites =>
    cases ha
    cases hb
    exact hkeeps old version hrewrites
  | moved r target hallowed _ =>
    cases ha
    cases hb
    exact .inr hallowed

theorem RowChange.registered (h : RowChange t c none (some r)) :
    c.request = .registerAgentVersion r := by
  cases h with
  | inserted version hrequest _ => exact hrequest

/-- No transition leads back to a mutable lifecycle. -/
theorem immutable_of_canTransition {a b : AgentLifecycle} (ha : isMutableAgentLifecycle a = false)
    (h : canTransitionAgentLifecycle a b = true) : isMutableAgentLifecycle b = false := by
  cases a <;> cases b <;> revert ha h <;> decide

theorem RowChange.immutable (h : RowChange t c (some r) o')
    (hr : isMutableAgentLifecycle r.lifecycle = false) :
    ∃ r', o' = some r' ∧ isMutableAgentLifecycle r'.lifecycle = false ∧
      r'.implementationKey = r.implementationKey ∧ r'.definition = r.definition := by
  cases h with
  | same => exact ⟨r, rfl, hr, rfl, rfl⟩
  | rewritten _ version hrewrites =>
    have hmutable := hrewrites.isMutable
    rw [hr] at hmutable
    cases hmutable
  | moved _ target hallowed _ =>
    exact ⟨r.move target, rfl, immutable_of_canTransition hr hallowed, rfl, rfl⟩

/-- A row that passes the check is not another tenant's. -/
theorem not_ofAnother_of_check {tenantId : String}
    (h : (tenantIsolation tenantId).check r = true) : ¬ OfAnother tenantId r := by
  rintro ⟨u, hu, hne⟩
  simp only [tenantIsolation, hu, Option.some.injEq, hne, reduceCtorEq, decide_false, Bool.and_false,
    Bool.or_false, Bool.false_eq_true] at h

theorem RowChange.isolated (h : RowChange t c o o') (hr : OfAnother c.tenantId r) :
    o' = some r ↔ o = some r := by
  cases h with
  | same => exact Iff.rfl
  | inserted version _ hpermitted =>
    refine iff_of_false ?_ nofun
    rintro heq
    cases heq
    exact not_ofAnother_of_check hpermitted hr
  | rewritten old version hrewrites =>
    have hold := not_ofAnother_of_check hrewrites.permitted
    constructor
    · intro heq
      cases heq
      exact absurd hr hold
    · intro heq
      cases heq
      exact absurd hr hold
  | moved r₀ target _ hpermitted =>
    have hold := not_ofAnother_of_check hpermitted
    constructor
    · intro heq
      cases heq
      exact absurd hr hold
    · intro heq
      cases heq
      exact absurd hr hold

end

/-! ## Histories -/

/-- The row of an immutable version keeps its key and its definition along a history. -/
theorem final_immutable {id : String} (h : List Call) {t : AgentTable} {r : AgentVersion}
    (hr : t.lookup id = some r) (hmutable : isMutableAgentLifecycle r.lifecycle = false) :
    ∃ r', (Machine.final step t h).lookup id = some r' ∧
      r'.implementationKey = r.implementationKey ∧ r'.definition = r.definition := by
  induction h generalizing t r with
  | nil => exact ⟨r, hr, rfl, rfl⟩
  | cons c h ih =>
    have hchange := step_row t c id
    rw [hr] at hchange
    obtain ⟨r₁, hr₁, hmutable₁, hkey₁, hdef₁⟩ := hchange.immutable hmutable
    obtain ⟨r', hr', hkey, hdef⟩ := ih hr₁ hmutable₁
    exact ⟨r', hr', hkey.trans hkey₁, hdef.trans hdef₁⟩

/-- The lifecycles of all versions are paths iff no registration leaves one. -/
theorem path_iff (t : AgentTable) (h : List Call) :
    (∀ id, (history id t h).IsChain Follows) ↔ Machine.Meets step KeepsPath t h := by
  have hchain : ∀ id, (history id t h).IsChain Follows ↔ Machine.Meets step
      (fun t c => ∀ a ∈ (t.lookup id).map AgentVersion.lifecycle,
        ∀ b ∈ ((step t c).1.lookup id).map AgentVersion.lifecycle, Follows a b) t h := by
    intro id
    refine Machine.isChain_trace_iff (fun t c hsome => ?_) h
    rw [Option.isSome_map] at hsome ⊢
    exact (step_row t c id).isSome hsome
  simp only [hchain]
  clear hchain
  induction h generalizing t with
  | nil => simp [Machine.Meets]
  | cons c h ih =>
    simp only [Machine.Meets, forall_and, ih]
    refine and_congr_left fun _ => ?_
    constructor
    · intro hlinks old version hrewrites
      refine hlinks version.versionId old.lifecycle ?_ version.lifecycle ?_
      · rw [hrewrites.stored]
        rfl
      · rw [lookup_step_of_rewrites hrewrites]
        rfl
    · intro hkeeps id
      exact (step_row t c id).follows hkeeps

/-- **A history respects the lifecycles iff every registration that changes a stored version leaves
its lifecycle or moves it along an allowed transition.** -/
theorem lifecycleRespected_iff (t : AgentTable) (h : List Call) :
    LifecycleRespected t h ↔ Machine.Meets step KeepsPath t h := by
  constructor
  · intro hrespected
    exact (path_iff t h).mp hrespected.path
  · intro hkeeps
    constructor
    · exact (path_iff t h).mpr hkeeps
    · intro before c after id r _ hnone hsome
      rw [Machine.final_concat] at hsome
      have hchange := step_row (Machine.final step t before) c id
      rw [hnone, hsome] at hchange
      exact hchange.registered
    · intro before after id r hh hr hmutable
      rw [hh, Machine.final_append]
      exact final_immutable after hr hmutable
    · intro before c after id r _ hr
      rw [Machine.final_concat]
      exact (step_row (Machine.final step t before) c id).isolated hr

/-! ## A registration that activates a draft -/

def draftDefinition : AgentDefinition where
  name := "Writer"
  role := "writer"
  description := "writes"
  capabilities := []
  tools := []
  policies := []
  modelPolicy := ⟨"", 0, 0⟩
  memoryPolicy := ⟨[], [], false⟩
  knowledgePolicy := ⟨[], []⟩
  autonomyLevelDefault := 0
  evaluationPolicy := ⟨[], 0⟩
  owner := "o1"

def draftVersion : AgentVersion :=
  ⟨"v1", "a1", some "t1", false, "1.0.0", .draft, "writer", draftDefinition⟩

/-- The draft with another description, as an active version. -/
def activatedVersion : AgentVersion :=
  { draftVersion with
    lifecycle := .active
    definition := { draftDefinition with description := "writes drafts" } }

/-- Rows come as they were inserted, and no statement is rejected. -/
def Environment.plain : Environment := ⟨fun _ _ => true, id, fun _ => .refl _, false⟩

def draftTable : AgentTable := ⟨[draftVersion], by decide⟩

def registerActivated : Call := ⟨"t1", .registerAgentVersion activatedVersion, .plain⟩

/-- **A draft is registered again, changed, as ACTIVE, and is ACTIVE.** -/
theorem not_lifecycleRespected_activated :
    ¬ LifecycleRespected draftTable [registerActivated] := by
  intro h
  have hpath := h.path "v1"
  revert hpath
  decide +kernel

end VegaRevenue.ControlPlane
