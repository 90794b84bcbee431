import VegaRevenue.Lib.Grouping
import VegaRevenue.ToolGateway.Contract

/-!
# Tool resolution

`resolveToolDefinition`: from a reference and the candidates a tenant can see, one definition or
the reason why there is none.

* `resolveById_iff`, `resolvePinned_iff` — what an id, or a tool and version, resolves to
-/

namespace VegaRevenue.ToolGateway

inductive ToolLifecycle where
  | draft
  | active
  | deprecated
  | retired
deriving DecidableEq

def ToolLifecycle.text : ToolLifecycle → String
  | draft => "DRAFT"
  | active => "ACTIVE"
  | deprecated => "DEPRECATED"
  | retired => "RETIRED"

/-- A definition of the registry; one without a tenant is global. -/
structure RegisteredDefinition extends ToolDefinition where
  tenantId : Option String
  lifecycle : ToolLifecycle
  enabled : Bool

structure ToolResolutionRef where
  toolDefinitionId : Option String := none
  toolId : Option String := none
  version : Option String := none

/-- What `resolveToolDefinition` returns. -/
inductive Resolution where
  | resolved (definition : RegisteredDefinition)
  | unresolved (kind : Unresolved) (reason : String) (definition : Option RegisteredDefinition)

/-- What the gateway reads of a resolution. -/
def Resolution.answer : Resolution → ToolResolution
  | resolved definition => .resolved definition.toToolDefinition
  | unresolved kind reason _ => .unresolved kind reason

/-- `isExecutable`; the reason where a definition is not. -/
def isExecutable (d : RegisteredDefinition) : Except String Unit :=
  if d.lifecycle ≠ .active then .error s!"lifecycle={d.lifecycle.text}"
  else if !d.enabled then .error "disabled"
  else .ok ()

/-- The definition where it is executable. -/
def ifExecutable (d : RegisteredDefinition) (kind : Unresolved) (describe : String → String)
    (named : Option RegisteredDefinition) : Resolution :=
  match isExecutable d with
  | .ok _ => .resolved d
  | .error reason => .unresolved kind (describe reason) named

def notFound (reason : String) : Resolution := .unresolved .notFound reason none

/-- Rule 1: an explicit `toolDefinitionId`. -/
def resolveById (toolDefinitionId : String) (candidates : List RegisteredDefinition)
    (tenantId : String) : Resolution :=
  match candidates.find? fun d => d.toolDefinitionId = toolDefinitionId with
  | none => notFound s!"tool_definition_id {toolDefinitionId} not found"
  | some exact =>
    if exact.tenantId ≠ none ∧ exact.tenantId ≠ some tenantId then
      notFound "definition not visible to tenant"
    else
      match candidates.find? fun d => d.tenantId = some tenantId with
      | some tenantDef =>
        if tenantDef.toolDefinitionId ≠ exact.toolDefinitionId then
          .unresolved .shadowed
            "tenant-specific definition shadows the requested global tool_definition_id" none
        else
          ifExecutable tenantDef .notExecutable
            (fun reason => s!"tenant override not executable: {reason}") (some tenantDef)
      | none => ifExecutable exact .notExecutable id (some exact)

/-- Rule 2: `toolId` and `version`. -/
def resolvePinned (toolId version : String) (candidates : List RegisteredDefinition)
    (tenantId : String) : Resolution :=
  let inScope := candidates.filter fun d => d.toolId = toolId ∧ d.version = version
  match inScope.find? fun d => d.tenantId = some tenantId with
  | some t =>
    ifExecutable t .shadowed (fun reason => s!"tenant override not executable: {reason}") none
  | none =>
    match inScope.find? fun d => d.tenantId = none with
    | some g => ifExecutable g .notExecutable id (some g)
    | none => notFound s!"no definition for {toolId}@{version}"

/-- An absent or empty text of a reference is none. -/
def given (text : Option String) : Option String := text.filter (· ≠ "")

@[simp] theorem given_none : given none = none := rfl

@[simp] theorem given_some (text : String) :
    given (some text) = if text = "" then none else some text := by
  unfold given
  rw [Option.filter_some]
  by_cases h : text = "" <;> simp [h]

def resolveToolDefinition (ref : ToolResolutionRef) (candidates : List RegisteredDefinition)
    (tenantId : String) : Resolution :=
  match given ref.toolDefinitionId, given ref.toolId, given ref.version with
  | some id, _, _ => resolveById id candidates tenantId
  | none, some _, none =>
    .unresolved .versionRequired "version-less execution is not permitted" none
  | none, some toolId, some version => resolvePinned toolId version candidates tenantId
  | none, none, _ => .unresolved .ambiguous "no resolvable tool reference supplied" none

/-! ## Usable definitions -/

def SameTool (e d : RegisteredDefinition) : Prop := e.toolId = d.toolId ∧ e.version = d.version

/-- What no two definitions share. -/
def RegisteredDefinition.scope (d : RegisteredDefinition) : Option String × String × String :=
  (d.tenantId, d.toolId, d.version)

def Executable (d : RegisteredDefinition) : Prop := d.lifecycle = .active ∧ d.enabled = true

/-- The definition that decides for its tool and version: the tenant's own, or the global one where
the tenant has none. -/
def Effective (ds : List RegisteredDefinition) (tenantId : String) (d : RegisteredDefinition) :
    Prop :=
  d.tenantId = some tenantId ∨
    d.tenantId = none ∧ ∀ e ∈ ds, e.tenantId = some tenantId → ¬ SameTool e d

/-- The definition can be used by the tenant. -/
structure Usable (ds : List RegisteredDefinition) (tenantId : String) (d : RegisteredDefinition) :
    Prop where
  mem : d ∈ ds
  effective : Effective ds tenantId d
  executable : Executable d

theorem isExecutable_iff (d : RegisteredDefinition) : isExecutable d = .ok () ↔ Executable d := by
  unfold isExecutable Executable
  split
  next hnot => simp [hnot]
  next hactive =>
    have hlifecycle : d.lifecycle = .active := by simpa using hactive
    cases henabled : d.enabled <;> simp [hlifecycle]

variable {ds : List RegisteredDefinition} {tenantId : String} {d e : RegisteredDefinition}

/-- A refusal resolves nothing. -/
theorem ifExecutable_eq_resolved_iff {kind : Unresolved} {describe : String → String}
    {named : Option RegisteredDefinition} :
    ifExecutable e kind describe named = .resolved d ↔ e = d ∧ Executable e := by
  rw [← isExecutable_iff]
  unfold ifExecutable
  cases isExecutable e with
  | ok u =>
    rw [Resolution.resolved.injEq]
    exact ⟨fun h => ⟨h, rfl⟩, And.left⟩
  | error reason => simp

/-- Two definitions of one scope are one. -/
theorem eq_of_scope (hscopes : (ds.map RegisteredDefinition.scope).Nodup) (hd : d ∈ ds)
    (he : e ∈ ds) (htenant : e.tenantId = d.tenantId) (hsame : SameTool e d) : e = d := by
  refine List.inj_on_of_nodup_map hscopes he hd ?_
  unfold RegisteredDefinition.scope
  rw [htenant, hsame.1, hsame.2]

/-- The tenant's own definition of a tool and version, or the global one, is found where there is
one. -/
theorem find?_scope (hscopes : (ds.map RegisteredDefinition.scope).Nodup)
    (owner : Option String) (toolId version : String) :
    ((ds.filter fun d => d.toolId = toolId ∧ d.version = version).find?
      fun d => d.tenantId = owner) = some d ↔
    d ∈ ds ∧ (d.toolId = toolId ∧ d.version = version) ∧ d.tenantId = owner := by
  have hunique : ∀ a ∈ ds.filter fun d => d.toolId = toolId ∧ d.version = version,
      ∀ b ∈ ds.filter fun d => d.toolId = toolId ∧ d.version = version,
      decide (a.tenantId = owner) = true → decide (b.tenantId = owner) = true → a = b := by
    intro a ha b hb hat hbt
    obtain ⟨ha, hatool⟩ := List.mem_filter.mp ha
    obtain ⟨hb, hbtool⟩ := List.mem_filter.mp hb
    rw [decide_eq_true_eq] at hat hbt hatool hbtool
    exact eq_of_scope hscopes hb ha (hat.trans hbt.symm)
      ⟨hatool.1.trans hbtool.1.symm, hatool.2.trans hbtool.2.symm⟩
  rw [Grouping.find?_eq_some_iff_of_unique hunique, List.mem_filter, decide_eq_true_eq,
    decide_eq_true_eq, and_assoc]

/-- **A tool and version resolve to the usable definition with them.** -/
theorem resolvePinned_iff (hscopes : (ds.map RegisteredDefinition.scope).Nodup)
    (toolId version : String) :
    resolvePinned toolId version ds tenantId = .resolved d ↔
      (d.toolId = toolId ∧ d.version = version) ∧ Usable ds tenantId d := by
  unfold resolvePinned
  dsimp only
  split
  next t ht =>
    obtain ⟨ht, htool, hown⟩ := (find?_scope hscopes _ _ _).mp ht
    rw [ifExecutable_eq_resolved_iff]
    constructor
    · rintro ⟨rfl, hexecutable⟩
      exact ⟨htool, ht, .inl hown, hexecutable⟩
    · rintro ⟨hdtool, hd, heffective, hexecutable⟩
      have hsame : SameTool t d := ⟨htool.1.trans hdtool.1.symm, htool.2.trans hdtool.2.symm⟩
      rcases heffective with hdown | ⟨-, hnone⟩
      · obtain rfl := eq_of_scope hscopes hd ht (hown.trans hdown.symm) hsame
        exact ⟨rfl, hexecutable⟩
      · exact absurd hsame (hnone t ht hown)
  next hnoown =>
    have hown : ∀ e ∈ ds, e.tenantId = some tenantId →
        ¬ (e.toolId = toolId ∧ e.version = version) := by
      intro e he hown htool
      have hfound := (find?_scope hscopes _ _ _).mpr ⟨he, htool, hown⟩
      rw [hnoown] at hfound
      cases hfound
    split
    next g hg =>
      obtain ⟨hg, htool, hglobal⟩ := (find?_scope hscopes _ _ _).mp hg
      rw [ifExecutable_eq_resolved_iff]
      constructor
      · rintro ⟨rfl, hexecutable⟩
        refine ⟨htool, hg, .inr ⟨hglobal, fun e he hetenant hsame => ?_⟩, hexecutable⟩
        exact hown e he hetenant ⟨hsame.1.trans htool.1, hsame.2.trans htool.2⟩
      · rintro ⟨hdtool, hd, heffective, hexecutable⟩
        rcases heffective with hdown | ⟨hdglobal, -⟩
        · exact absurd hdtool (hown d hd hdown)
        · obtain rfl := eq_of_scope hscopes hd hg (hglobal.trans hdglobal.symm)
            ⟨htool.1.trans hdtool.1.symm, htool.2.trans hdtool.2.symm⟩
          exact ⟨rfl, hexecutable⟩
    next hnoglobal =>
      constructor
      · exact nofun
      · rintro ⟨hdtool, hd, heffective, -⟩
        rcases heffective with hdown | ⟨hdglobal, -⟩
        · exact absurd hdtool (hown d hd hdown)
        · have hfound := (find?_scope hscopes _ _ _).mpr ⟨hd, hdtool, hdglobal⟩
          rw [hnoglobal] at hfound
          cases hfound

/-- **An id resolves to the usable definition with it**, among candidates of one tool and
version. -/
theorem resolveById_iff (hids : (ds.map fun d => d.toolDefinitionId).Nodup)
    (hscopes : (ds.map RegisteredDefinition.scope).Nodup)
    (hsame : ∀ a ∈ ds, ∀ b ∈ ds, SameTool a b) (id : String) :
    resolveById id ds tenantId = .resolved d ↔ d.toolDefinitionId = id ∧ Usable ds tenantId d := by
  have hid : ∀ {a}, (ds.find? fun d => d.toolDefinitionId = id) = some a ↔
      a ∈ ds ∧ a.toolDefinitionId = id := by
    intro a
    rw [Grouping.find?_eq_some_iff_of_unique, decide_eq_true_eq]
    intro x hx y hy hxid hyid
    rw [decide_eq_true_eq] at hxid hyid
    exact List.inj_on_of_nodup_map hids hx hy (hxid.trans hyid.symm)
  unfold resolveById
  split
  next hnone =>
    constructor
    · exact nofun
    · rintro ⟨hdid, hd, -⟩
      have hfound := hid.mpr ⟨hd, hdid⟩
      rw [hnone] at hfound
      cases hfound
  next exact hexact =>
    obtain ⟨hmem, hexactid⟩ := hid.mp hexact
    have hexactd : d.toolDefinitionId = id → d ∈ ds → exact = d := fun hdid hd =>
      List.inj_on_of_nodup_map hids hmem hd (hexactid.trans hdid.symm)
    split
    next hinvisible =>
      constructor
      · exact nofun
      · rintro ⟨hdid, hd, heffective, -⟩
        obtain rfl := hexactd hdid hd
        rcases heffective with hown | ⟨hglobal, -⟩
        · exact absurd hown hinvisible.2
        · exact absurd hglobal hinvisible.1
    next hvisible =>
      split
      next t ht =>
        have htmem := List.mem_of_find?_eq_some ht
        have htown : t.tenantId = some tenantId := by simpa using List.find?_some ht
        split
        next hne =>
          -- the tenant has its own definition: what was asked for is global, and shadowed
          constructor
          · exact nofun
          · rintro ⟨hdid, hd, heffective, -⟩
            obtain rfl := hexactd hdid hd
            rcases heffective with hown | ⟨-, hnone⟩
            · obtain rfl := eq_of_scope hscopes hd htmem (htown.trans hown.symm)
                (hsame t htmem exact hd)
              exact absurd rfl hne
            · exact absurd (hsame t htmem exact hd) (hnone t htmem htown)
        next heq =>
          obtain rfl : t = exact := List.inj_on_of_nodup_map hids htmem hmem (not_not.mp heq)
          rw [ifExecutable_eq_resolved_iff]
          constructor
          · rintro ⟨rfl, hexecutable⟩
            exact ⟨hexactid, hmem, .inl htown, hexecutable⟩
          · rintro ⟨hdid, hd, -, hexecutable⟩
            obtain rfl := hexactd hdid hd
            exact ⟨rfl, hexecutable⟩
      next hnoown =>
        have hnone : ∀ e ∈ ds, e.tenantId ≠ some tenantId := by
          intro e he
          simpa using List.find?_eq_none.mp hnoown e he
        rw [ifExecutable_eq_resolved_iff]
        constructor
        · rintro ⟨rfl, hexecutable⟩
          have hglobal : exact.tenantId = none := by
            by_contra hsome
            exact hvisible ⟨hsome, hnone exact hmem⟩
          exact ⟨hexactid, hmem, .inr ⟨hglobal, fun e he hown => absurd hown (hnone e he)⟩,
            hexecutable⟩
        · rintro ⟨hdid, hd, -, hexecutable⟩
          obtain rfl := hexactd hdid hd
          exact ⟨rfl, hexecutable⟩

end VegaRevenue.ToolGateway
