import VegaRevenue.Lib.Grouping
import VegaRevenue.Lib.RowSecurity
import VegaRevenue.ToolGateway.Gateway
import VegaRevenue.ToolGateway.ToolResolution

/-!
# `PostgresToolRegistry`

The table `tool_registry.tool_definitions` under row-level security, and the three ways to an
executable definition: by id, by tool and version, and by discovery.

* `resolveExecutable_id_iff`, `resolveExecutable_version_iff`, `mem_discoverExecutable_iff` — what
  each of them finds
* `gates_usable` — what the gateway grants with the answers of the registry
* `agree_iff` — when they agree
* `hidden`, `own_or_global` — what none of them ever returns
-/

namespace VegaRevenue.ToolGateway

open RowSecurity (Policy Table)

/-! ## The registry -/

/-- The rows, with a primary key and the two partial unique indexes. -/
structure Registry where
  definitions : Table fun d : RegisteredDefinition => d.toolDefinitionId
  scopes_unique : (definitions.rows.map RegisteredDefinition.scope).Nodup

/-- `tool_definitions_tenant_isolation`. -/
def tenantIsolation (tenantId : String) : Policy RegisteredDefinition where
  visible d := d.tenantId = none ∨ d.tenantId = some tenantId
  check d := d.tenantId = some tenantId

/-- The orders in which rows come: with `ORDER BY tool_id, version`, which the collation decides and
which leaves ties, and without. -/
structure RegistryScan where
  catalog : List RegisteredDefinition → List RegisteredDefinition
  candidates : List RegisteredDefinition → List RegisteredDefinition
  catalog_perm : ∀ ds, (catalog ds).Perm ds
  candidates_perm : ∀ ds, (candidates ds).Perm ds

section

variable (registry : Registry) (scan : RegistryScan) (tenantId : String)

def getById (toolDefinitionId : String) : Option RegisteredDefinition :=
  (registry.definitions.select (tenantIsolation tenantId)
    fun d => d.toolDefinitionId = toolDefinitionId).head?

def findByToolVersion (toolId version : String) : List RegisteredDefinition :=
  scan.candidates (registry.definitions.select (tenantIsolation tenantId)
    fun d => d.toolId = toolId ∧ d.version = version)

def listCatalog : List RegisteredDefinition :=
  scan.catalog (registry.definitions.select (tenantIsolation tenantId) fun _ => true)

/-- The key of the groups of `discoverExecutable`. -/
def toolKey (d : RegisteredDefinition) : String := s!"{d.toolId}@{d.version}"

/-- `tenant ?? global`. -/
def effective (group : List RegisteredDefinition) : Option RegisteredDefinition :=
  (group.find? fun d => d.tenantId = some tenantId).or (group.find? fun d => d.tenantId = none)

/-- What a group offers to these capabilities. -/
def offered (capabilities : List String) (group : List RegisteredDefinition) :
    Option RegisteredDefinition :=
  (effective tenantId group).filter fun d =>
    d.lifecycle = .active && d.enabled &&
      (d.requiredCapabilities.filter fun c => !capabilities.contains c) = []

def discoverExecutable (capabilities : List String) : List RegisteredDefinition :=
  Grouping.choose toolKey (offered tenantId capabilities) (listCatalog registry scan tenantId)

def resolveExecutable (ref : ToolResolutionRef) : Resolution :=
  let candidates :=
    match given ref.toolDefinitionId with
    | some id =>
      match getById registry tenantId id with
      | some exact => findByToolVersion registry scan tenantId exact.toolId exact.version
      | none => []
    | none =>
      match given ref.toolId, given ref.version with
      | some toolId, some version => findByToolVersion registry scan tenantId toolId version
      | _, _ => []
  resolveToolDefinition ref candidates tenantId

end

/-! ## What is visible -/

section

variable {registry : Registry} {scan : RegistryScan} {tenantId : String}
variable {d e : RegisteredDefinition}

/-- The rows the tenant sees. -/
def visible (registry : Registry) (tenantId : String) : List RegisteredDefinition :=
  registry.definitions.rows.filter (tenantIsolation tenantId).visible

theorem mem_visible : d ∈ visible registry tenantId ↔
    d ∈ registry.definitions.rows ∧ (d.tenantId = none ∨ d.tenantId = some tenantId) := by
  unfold visible tenantIsolation
  rw [List.mem_filter, decide_eq_true_eq]

theorem mem_select {p : RegisteredDefinition → Bool} :
    d ∈ registry.definitions.select (tenantIsolation tenantId) p ↔
      d ∈ visible registry tenantId ∧ p d = true := by
  unfold Table.select Table.selects visible
  rw [List.mem_filter, List.mem_filter, Bool.and_eq_true, and_assoc]

theorem nodup_ids {p : RegisteredDefinition → Bool} :
    ((registry.definitions.select (tenantIsolation tenantId) p).map
      fun d => d.toolDefinitionId).Nodup :=
  registry.definitions.unique.sublist (List.filter_sublist.map _)

theorem nodup_scopes {p : RegisteredDefinition → Bool} :
    ((registry.definitions.select (tenantIsolation tenantId) p).map
      RegisteredDefinition.scope).Nodup :=
  registry.scopes_unique.sublist (List.filter_sublist.map _)

theorem mem_listCatalog : d ∈ listCatalog registry scan tenantId ↔
    d ∈ visible registry tenantId := by
  unfold listCatalog
  rw [(scan.catalog_perm _).mem_iff, mem_select]
  exact and_iff_left rfl

theorem mem_findByToolVersion {toolId version : String} :
    d ∈ findByToolVersion registry scan tenantId toolId version ↔
      d ∈ visible registry tenantId ∧ d.toolId = toolId ∧ d.version = version := by
  unfold findByToolVersion
  rw [(scan.candidates_perm _).mem_iff, mem_select, decide_eq_true_eq]

theorem nodup_candidate_ids (toolId version : String) :
    ((findByToolVersion registry scan tenantId toolId version).map
      fun d => d.toolDefinitionId).Nodup :=
  nodup_ids.perm ((scan.candidates_perm _).map _).symm

theorem nodup_candidate_scopes (toolId version : String) :
    ((findByToolVersion registry scan tenantId toolId version).map
      RegisteredDefinition.scope).Nodup :=
  nodup_scopes.perm ((scan.candidates_perm _).map _).symm

theorem nodup_listCatalog : (listCatalog registry scan tenantId).Nodup :=
  (List.Nodup.of_map _ nodup_ids).perm (scan.catalog_perm _).symm

/-- The definition of an id is found where it is visible. -/
theorem getById_eq_some_iff {id : String} : getById registry tenantId id = some d ↔
    d ∈ visible registry tenantId ∧ d.toolDefinitionId = id := by
  unfold getById
  constructor
  · intro h
    have hmem := mem_select.mp (List.mem_of_head? h)
    exact ⟨hmem.1, of_decide_eq_true hmem.2⟩
  · rintro ⟨hd, rfl⟩
    obtain ⟨hrow, hvisible⟩ := mem_visible.mp hd
    have hpolicy : (tenantIsolation tenantId).visible d = true := decide_eq_true hvisible
    rw [RowSecurity.Table.head?_select_key, RowSecurity.Table.lookup_of_mem hrow,
      Option.filter_some, if_pos hpolicy]

/-- Among the candidates of its tool and version a definition is usable as it is among all. -/
theorem usable_candidates {toolId version : String} (htool : d.toolId = toolId)
    (hversion : d.version = version) :
    Usable (findByToolVersion registry scan tenantId toolId version) tenantId d ↔
      Usable (visible registry tenantId) tenantId d := by
  constructor
  · rintro ⟨hd, heffective, hexecutable⟩
    refine ⟨(mem_findByToolVersion.mp hd).1, heffective.imp id fun hglobal => ?_, hexecutable⟩
    refine ⟨hglobal.1, fun e he hown hsame => hglobal.2 e ?_ hown hsame⟩
    exact mem_findByToolVersion.mpr ⟨he, hsame.1.trans htool, hsame.2.trans hversion⟩
  · rintro ⟨hd, heffective, hexecutable⟩
    refine ⟨mem_findByToolVersion.mpr ⟨hd, htool, hversion⟩, heffective.imp id fun hglobal => ?_,
      hexecutable⟩
    exact ⟨hglobal.1, fun e he => hglobal.2 e (mem_findByToolVersion.mp he).1⟩

/-! ## Resolution -/

/-- The reference names the definition. -/
def Names (ref : ToolResolutionRef) (d : RegisteredDefinition) : Prop :=
  match given ref.toolDefinitionId, given ref.toolId, given ref.version with
  | some id, _, _ => d.toolDefinitionId = id
  | none, some toolId, some version => d.toolId = toolId ∧ d.version = version
  | none, _, _ => False

/-- **A reference resolves to the usable definition it names.** -/
theorem resolveExecutable_iff (ref : ToolResolutionRef) :
    resolveExecutable registry scan tenantId ref = .resolved d ↔
      Names ref d ∧ Usable (visible registry tenantId) tenantId d := by
  unfold resolveExecutable resolveToolDefinition Names
  cases hid : given ref.toolDefinitionId with
  | some id =>
    dsimp only
    cases hexact : getById registry tenantId id with
    | none =>
      constructor
      · exact nofun
      · rintro ⟨hdid, hd, -⟩
        have hfound := getById_eq_some_iff.mpr ⟨hd, hdid⟩
        rw [hexact] at hfound
        cases hfound
    | some exact =>
      have hcandidates : ∀ a ∈ findByToolVersion registry scan tenantId exact.toolId exact.version,
          a.toolId = exact.toolId ∧ a.version = exact.version :=
        fun a ha => (mem_findByToolVersion.mp ha).2
      dsimp only
      rw [resolveById_iff (nodup_candidate_ids _ _) (nodup_candidate_scopes _ _)
        fun a ha b hb => ⟨(hcandidates a ha).1.trans (hcandidates b hb).1.symm,
          (hcandidates a ha).2.trans (hcandidates b hb).2.symm⟩]
      constructor
      · rintro ⟨hdid, husable⟩
        obtain ⟨htool, hversion⟩ := hcandidates d husable.mem
        exact ⟨hdid, (usable_candidates htool hversion).mp husable⟩
      · rintro ⟨hdid, husable⟩
        have hfound := getById_eq_some_iff.mpr ⟨husable.mem, hdid⟩
        rw [hexact] at hfound
        obtain rfl := Option.some.inj hfound
        exact ⟨hdid, (usable_candidates rfl rfl).mpr husable⟩
  | none =>
    cases given ref.toolId with
    | none => simp
    | some toolId =>
      cases given ref.version with
      | none => simp
      | some version =>
        dsimp only
        rw [resolvePinned_iff (nodup_candidate_scopes _ _)]
        exact and_congr_right fun htool => usable_candidates htool.1 htool.2

theorem resolveExecutable_id_iff (id : String) :
    resolveExecutable registry scan tenantId { toolDefinitionId := some id } = .resolved d ↔
      (id ≠ "" ∧ d.toolDefinitionId = id) ∧ Usable (visible registry tenantId) tenantId d := by
  rw [resolveExecutable_iff]
  refine and_congr_left fun _ => ?_
  by_cases hid : id = "" <;> simp [Names, hid]

theorem resolveExecutable_version_iff (toolId version : String) :
    resolveExecutable registry scan tenantId { toolId := some toolId, version := some version } =
        .resolved d ↔
      ((toolId ≠ "" ∧ version ≠ "") ∧ d.toolId = toolId ∧ d.version = version) ∧
        Usable (visible registry tenantId) tenantId d := by
  rw [resolveExecutable_iff]
  refine and_congr_left fun _ => ?_
  by_cases htool : toolId = "" <;> by_cases hversion : version = "" <;>
    simp [Names, htool, hversion]

/-- **The gateway grants usable definitions only**, where the registry answers it. -/
theorem gates_usable {deps : Deps} {request : ToolCallRequest} {answers : Answers} {grant : Grant}
    (ref : ToolResolutionRef)
    (hanswer : answers.resolution = (resolveExecutable registry scan tenantId ref).answer)
    (h : gates deps request answers = .inr grant) :
    ∃ d, grant.definition = d.toToolDefinition ∧ Usable (visible registry tenantId) tenantId d := by
  unfold gates at h
  cases hresolved : resolveExecutable registry scan tenantId ref with
  | unresolved kind reason definition =>
    rw [hanswer, hresolved] at h
    cases h
  | resolved d =>
    refine ⟨d, ?_, ((resolveExecutable_iff ref).mp hresolved).2⟩
    rw [hanswer, hresolved] at h
    dsimp only [Resolution.answer] at h
    split at h
    · cases h
    · obtain rfl := Sum.inr.inj h
      rfl

/-! ## Discovery -/

/-- A definition of another tool or version has the same key, and the group takes it instead. -/
def Displaced (catalog : List RegisteredDefinition) (tenantId : String)
    (d : RegisteredDefinition) : Prop :=
  ∃ e ∈ catalog, toolKey e = toolKey d ∧ ¬ SameTool e d ∧
    (e.tenantId = some tenantId ∧ d.tenantId = none ∨
      e.tenantId = d.tenantId ∧ [e, d].Sublist catalog)

theorem offered_eq_some_iff {capabilities : List String} {group : List RegisteredDefinition} :
    offered tenantId capabilities group = some d ↔
      effective tenantId group = some d ∧ Executable d ∧
        ∀ c ∈ d.requiredCapabilities, c ∈ capabilities := by
  unfold offered Executable
  rw [Option.filter_eq_some_iff]
  simp [and_assoc]

theorem mem_of_effective {group : List RegisteredDefinition}
    (h : effective tenantId group = some d) : d ∈ group := by
  unfold effective at h
  rcases Option.or_eq_some_iff.mp h with hown | ⟨-, hglobal⟩
  · exact List.mem_of_find?_eq_some hown
  · exact List.mem_of_find?_eq_some hglobal

theorem selects_offered (capabilities : List String) :
    Grouping.Selects (offered tenantId capabilities) :=
  fun _ _ h => mem_of_effective (offered_eq_some_iff.mp h).1

/-- In a catalog, a definition that comes before another one of its scope is not of its tool. -/
theorem not_sameTool_of_before (htenant : e.tenantId = d.tenantId)
    (hbefore : [e, d].Sublist (listCatalog registry scan tenantId)) : ¬ SameTool e d := by
  intro hsame
  have he := (mem_visible.mp (mem_listCatalog.mp (hbefore.subset (by simp : e ∈ [e, d])))).1
  have hd := (mem_visible.mp (mem_listCatalog.mp (hbefore.subset (by simp : d ∈ [e, d])))).1
  obtain rfl := eq_of_scope registry.scopes_unique hd he htenant hsame
  have htwice := nodup_listCatalog.sublist hbefore
  simp at htwice

/-- The first definition of an owner in the group of `d`. -/
theorem find?_group_iff (owner : Option String) :
    (((listCatalog registry scan tenantId).filter (toolKey · = toolKey d)).find?
        fun e => e.tenantId = owner) = some d ↔
      d ∈ visible registry tenantId ∧ d.tenantId = owner ∧
        ∀ e, e.tenantId = owner → toolKey e = toolKey d →
          ¬ [e, d].Sublist (listCatalog registry scan tenantId) := by
  rw [Grouping.find?_eq_some_iff_first (nodup_listCatalog.filter _), List.mem_filter,
    mem_listCatalog, decide_eq_true_eq, and_iff_left rfl]
  refine and_congr_right fun _ => and_congr decide_eq_true_iff (forall_congr' fun e => ?_)
  simp only [Grouping.pair_sublist_filter, decide_eq_true_eq, and_true]
  tauto

/-- The group of `d` holds no definition of the tenant. -/
theorem find?_own_eq_none_iff :
    (((listCatalog registry scan tenantId).filter (toolKey · = toolKey d)).find?
        fun e => e.tenantId = some tenantId) = none ↔
      ∀ e ∈ visible registry tenantId, toolKey e = toolKey d → e.tenantId ≠ some tenantId := by
  rw [List.find?_eq_none]
  refine forall_congr' fun e => ?_
  rw [List.mem_filter, mem_listCatalog, decide_eq_true_eq, decide_eq_true_eq, and_imp]

theorem toolKey_of_sameTool (h : SameTool e d) : toolKey e = toolKey d := by
  unfold toolKey
  rw [h.1, h.2]

/-- **The group of a definition offers it** iff it is the effective one of its tool and version, and
is not displaced by a definition of another. -/
theorem effective_group_iff :
    effective tenantId ((listCatalog registry scan tenantId).filter (toolKey · = toolKey d)) =
        some d ↔
      d ∈ visible registry tenantId ∧ Effective (visible registry tenantId) tenantId d ∧
        ¬ Displaced (listCatalog registry scan tenantId) tenantId d := by
  unfold effective
  rw [Option.or_eq_some_iff, find?_group_iff, find?_group_iff, find?_own_eq_none_iff]
  constructor
  · rintro (⟨hd, hown, hfirst⟩ | ⟨hnone, hd, hglobal, hfirst⟩)
    · refine ⟨hd, .inl hown, ?_⟩
      rintro ⟨e, -, hkey, -, ⟨-, hglobal⟩ | ⟨htenant, hbefore⟩⟩
      · rw [hown] at hglobal
        cases hglobal
      · exact hfirst e (htenant.trans hown) hkey hbefore
    · refine ⟨hd, .inr ⟨hglobal, fun e he hown hsame => ?_⟩, ?_⟩
      · exact hnone e he (toolKey_of_sameTool hsame) hown
      · rintro ⟨e, he, hkey, -, ⟨hown, -⟩ | ⟨htenant, hbefore⟩⟩
        · exact hnone e (mem_listCatalog.mp he) hkey hown
        · exact hfirst e (htenant.trans hglobal) hkey hbefore
  · rintro ⟨hd, heffective, hplace⟩
    rcases heffective with hown | ⟨hglobal, hnoown⟩
    · refine .inl ⟨hd, hown, fun e heown hkey hbefore => hplace ⟨e, ?_, hkey, ?_, .inr ⟨?_, hbefore⟩⟩⟩
      · exact hbefore.subset (by simp)
      · exact not_sameTool_of_before (heown.trans hown.symm) hbefore
      · exact heown.trans hown.symm
    · refine .inr ⟨fun e he hkey heown => ?_, hd, hglobal, fun e heglobal hkey hbefore => ?_⟩
      · by_cases hsame : SameTool e d
        · exact hnoown e he heown hsame
        · exact hplace ⟨e, mem_listCatalog.mpr he, hkey, hsame, .inl ⟨heown, hglobal⟩⟩
      · have htenant := heglobal.trans hglobal.symm
        exact hplace ⟨e, hbefore.subset (by simp), hkey,
          not_sameTool_of_before htenant hbefore, .inr ⟨htenant, hbefore⟩⟩

/-- **Discovery finds the usable definitions that are covered and not displaced**, each once. -/
theorem mem_discoverExecutable_iff {capabilities : List String} :
    d ∈ discoverExecutable registry scan tenantId capabilities ↔
      Usable (visible registry tenantId) tenantId d ∧
        (∀ c ∈ d.requiredCapabilities, c ∈ capabilities) ∧
        ¬ Displaced (listCatalog registry scan tenantId) tenantId d := by
  unfold discoverExecutable
  rw [Grouping.mem_choose_iff (selects_offered capabilities), offered_eq_some_iff,
    effective_group_iff]
  constructor
  · rintro ⟨⟨hd, heffective, hplace⟩, hexecutable, hcovered⟩
    exact ⟨⟨hd, heffective, hexecutable⟩, hcovered, hplace⟩
  · rintro ⟨⟨hd, heffective, hexecutable⟩, hcovered, hplace⟩
    exact ⟨⟨hd, heffective, hplace⟩, hexecutable, hcovered⟩

/-! ## Agreement -/

variable (registry scan tenantId)

/-- Discovery, resolution by tool and version, and resolution by id agree, and return nothing that
is hidden or of another tenant. -/
structure Agree : Prop where
  discovery : ∀ capabilities d, d ∈ discoverExecutable registry scan tenantId capabilities ↔
    resolveExecutable registry scan tenantId { toolId := some d.toolId, version := some d.version } =
        .resolved d ∧
      ∀ c ∈ d.requiredCapabilities, c ∈ capabilities
  once : ∀ capabilities, (discoverExecutable registry scan tenantId capabilities).Nodup
  byId : ∀ id d,
    resolveExecutable registry scan tenantId { toolDefinitionId := some id } = .resolved d ↔
      d.toolDefinitionId = id ∧
        resolveExecutable registry scan tenantId
          { toolId := some d.toolId, version := some d.version } = .resolved d
  hides : ∀ own ∈ registry.definitions.rows, own.tenantId = some tenantId →
    ∀ d, d.tenantId = none → SameTool own d →
      (∀ capabilities, d ∉ discoverExecutable registry scan tenantId capabilities) ∧
        ∀ ref, resolveExecutable registry scan tenantId ref ≠ .resolved d
  isolated : ∀ d, d.tenantId ≠ none → d.tenantId ≠ some tenantId →
    (∀ capabilities, d ∉ discoverExecutable registry scan tenantId capabilities) ∧
      ∀ ref, resolveExecutable registry scan tenantId ref ≠ .resolved d

/-- Every usable definition is addressed by all three ways or by none: its tool id and version are
not empty, nor is its id, and its key is not taken by another tool or version. -/
def Addressable : Prop :=
  ∀ d, Usable (visible registry tenantId) tenantId d →
    ((d.toolId ≠ "" ∧ d.version ≠ "") ↔
      ¬ Displaced (listCatalog registry scan tenantId) tenantId d) ∧
    ((d.toolId ≠ "" ∧ d.version ≠ "") ↔ d.toolDefinitionId ≠ "")

variable {registry scan tenantId}

/-- Discovery and resolution return usable definitions only. -/
theorem not_returned (h : ¬ Usable (visible registry tenantId) tenantId d) :
    (∀ capabilities, d ∉ discoverExecutable registry scan tenantId capabilities) ∧
      ∀ ref, resolveExecutable registry scan tenantId ref ≠ .resolved d :=
  ⟨fun _ hd => h (mem_discoverExecutable_iff.mp hd).1,
    fun ref hd => h ((resolveExecutable_iff ref).mp hd).2⟩

/-- **A definition of the tenant hides the global one**, executable or not. -/
theorem hidden {own : RegisteredDefinition} (hown : own ∈ registry.definitions.rows)
    (htenant : own.tenantId = some tenantId) (hglobal : d.tenantId = none)
    (hsame : SameTool own d) : ¬ Usable (visible registry tenantId) tenantId d := by
  rintro ⟨-, hd | ⟨-, hnone⟩, -⟩
  · rw [hglobal] at hd
    cases hd
  · exact hnone own (mem_visible.mpr ⟨hown, .inr htenant⟩) htenant hsame

/-- **What can be used is of the tenant, or global.** -/
theorem own_or_global (h : Usable (visible registry tenantId) tenantId d) :
    d.tenantId = none ∨ d.tenantId = some tenantId :=
  (mem_visible.mp h.mem).2

/-- What is resolved by its tool and version. -/
theorem resolveExecutable_own_iff :
    resolveExecutable registry scan tenantId { toolId := some d.toolId, version := some d.version } =
        .resolved d ↔
      (d.toolId ≠ "" ∧ d.version ≠ "") ∧ Usable (visible registry tenantId) tenantId d := by
  rw [resolveExecutable_version_iff]
  simp

/-- **When discovery, pinned resolution and resolution by id agree.** -/
theorem agree_iff : Agree registry scan tenantId ↔ Addressable registry scan tenantId := by
  constructor
  · intro h d husable
    have hdiscovery := h.discovery d.requiredCapabilities d
    have hid := h.byId d.toolDefinitionId d
    rw [mem_discoverExecutable_iff, resolveExecutable_own_iff] at hdiscovery
    rw [resolveExecutable_id_iff, resolveExecutable_own_iff] at hid
    constructor
    · constructor
      · exact fun hnamed => (hdiscovery.mpr ⟨⟨hnamed, husable⟩, fun _ => id⟩).2.2
      · exact fun hplace => (hdiscovery.mp ⟨husable, fun _ => id, hplace⟩).1.1
    · constructor
      · exact fun hnamed => (hid.mpr ⟨rfl, hnamed, husable⟩).1.1
      · exact fun hne => (hid.mp ⟨⟨hne, rfl⟩, husable⟩).2.1
  · intro h
    refine ⟨fun capabilities d => ?_, fun capabilities => ?_, fun id d => ?_, ?_, ?_⟩
    · rw [mem_discoverExecutable_iff, resolveExecutable_own_iff]
      constructor
      · rintro ⟨husable, hcovered, hplace⟩
        exact ⟨⟨(h d husable).1.mpr hplace, husable⟩, hcovered⟩
      · rintro ⟨⟨hnamed, husable⟩, hcovered⟩
        exact ⟨husable, hcovered, (h d husable).1.mp hnamed⟩
    · exact Grouping.nodup_choose (selects_offered capabilities)
    · rw [resolveExecutable_id_iff, resolveExecutable_own_iff]
      constructor
      · rintro ⟨⟨hne, rfl⟩, husable⟩
        exact ⟨rfl, (h d husable).2.mpr hne, husable⟩
      · rintro ⟨rfl, hnamed, husable⟩
        exact ⟨⟨(h d husable).2.mp hnamed, rfl⟩, husable⟩
    · exact fun own hown htenant d hglobal hsame => not_returned (hidden hown htenant hglobal hsame)
    · intro d hglobal hown
      refine not_returned fun husable => ?_
      exact (own_or_global husable).elim hglobal hown

end

/-! ## Two tools with one key -/

def keyedTool (id toolId version : String) : RegisteredDefinition where
  toToolDefinition :=
    { toolDefinitionId := id
      toolId := toolId
      version := version
      inputSchema := none
      outputSchema := none
      requiredCapabilities := []
      sideEffectClass := .readOnly
      riskCategory := "LOW"
      requiredApproval := false
      providerId := "p1"
      maxRetries := 0
      idempotencyRequired := false }
  tenantId := none
  lifecycle := .active
  enabled := true

/-- Two global tools: the version of one and the id of the other have an `@`. -/
def keyedRegistry : Registry where
  definitions := ⟨[keyedTool "d1" "a" "b@c", keyedTool "d2" "a@b" "c"], by decide⟩
  scopes_unique := by decide

/-- Rows in the order of their insertion. -/
def insertedScan : RegistryScan := ⟨id, id, fun _ => .refl _, fun _ => .refl _⟩

/-- **The second tool resolves, and is not discovered.** -/
theorem not_agree_keyed : ¬ Agree keyedRegistry insertedScan "t1" := by
  intro h
  have hid : resolveExecutable keyedRegistry insertedScan "t1"
      { toolId := some "a@b", version := some "c" } = .resolved (keyedTool "d2" "a@b" "c") := by
    rfl
  have hfound := (h.discovery [] (keyedTool "d2" "a@b" "c")).mpr ⟨hid, nofun⟩
  have hids : ((discoverExecutable keyedRegistry insertedScan "t1" []).map
    fun d => d.toolDefinitionId) = ["d1"] := by decide +kernel
  have hmem := List.mem_map_of_mem (f := fun d : RegisteredDefinition => d.toolDefinitionId) hfound
  rw [hids] at hmem
  exact absurd hmem (by decide)

end VegaRevenue.ToolGateway
