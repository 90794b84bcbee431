import VegaRevenue.Domain.Mission

/-!
# The task graph of a mission in progress

While a mission is EXECUTING, PAUSED or BLOCKED its task graph should be well formed. `planValid` and
`replan` check the graph; `addTask`, and the ways out of PLANNING that bypass `planValid`, do not.

* `validateTaskGraph_eq_none_iff` — what the check accepts
* `validateTaskGraph_decides` — the check ends with one answer, however deep its visits go
* `inOrder_iff` — a run keeps the graph well formed iff it sees to what the checks leave to it
* `not_inOrder_addTask` — a task with an unknown dependency, added to an executing mission
-/

namespace VegaRevenue.Mission

/-! ## Well-formed graphs -/

/-- A task with the first id depends on the second. -/
def DependsOn (tasks : List MissionTask) (id dependency : String) : Prop :=
  ∃ t ∈ tasks, t.id = id ∧ dependency ∈ t.dependsOn

/-- Distinct tasks, with dependencies among them and no cycle. -/
structure TaskGraph (tasks : List MissionTask) : Prop where
  ids : (tasks.map (·.id)).Nodup
  planned : ∀ t ∈ tasks, ∀ d ∈ t.dependsOn, d ∈ tasks.map (·.id)
  acyclic : ∀ id, ¬ Relation.TransGen (DependsOn tasks) id id

/-- A graph whose tasks have distinct idempotency keys, too. -/
structure WellFormed (tasks : List MissionTask) : Prop extends TaskGraph tasks where
  keys : (tasks.map (·.idempotencyKey)).Nodup

section

variable {tasks tasks' : List MissionTask} {t : MissionTask} {id d : String}

theorem mem_of_taskById (h : taskById tasks id = some t) : t ∈ tasks ∧ t.id = id := by
  refine ⟨List.mem_reverse.mp (List.mem_of_find?_eq_some h), ?_⟩
  have hid := List.find?_some h
  simpa using hid

theorem eq_of_id (hnodup : (tasks.map (·.id)).Nodup) {t' : MissionTask} (ht : t ∈ tasks)
    (ht' : t' ∈ tasks) (hid : t.id = t'.id) : t = t' :=
  List.inj_on_of_nodup_map hnodup ht ht' hid

/-- The dependencies a visit follows are those of the graph. -/
theorem edge_dependencies_iff (hnodup : (tasks.map (·.id)).Nodup) :
    DepthFirst.Edge (dependencies tasks) id d ↔ DependsOn tasks id d := by
  unfold DepthFirst.Edge dependencies
  constructor
  · intro h
    cases hfind : taskById tasks id with
    | none => rw [hfind] at h; cases h
    | some t =>
      rw [hfind] at h
      obtain ⟨ht, hid⟩ := mem_of_taskById hfind
      exact ⟨t, ht, hid, h⟩
  · rintro ⟨t, ht, hid, hd⟩
    have hsome : (taskById tasks id).isSome := by
      unfold taskById
      rw [List.find?_isSome]
      exact ⟨t, List.mem_reverse.mpr ht, by simpa using hid⟩
    obtain ⟨t', hfind⟩ := Option.isSome_iff_exists.mp hsome
    obtain ⟨ht', hid'⟩ := mem_of_taskById hfind
    obtain rfl : t = t' := eq_of_id hnodup ht ht' (hid.trans hid'.symm)
    rw [hfind]
    exact hd

theorem acyclic_dependencies_iff (hnodup : (tasks.map (·.id)).Nodup) :
    DepthFirst.Acyclic (dependencies tasks) ↔
      ∀ id, ¬ Relation.TransGen (DependsOn tasks) id id := by
  have hedge : DepthFirst.Edge (dependencies tasks) = DependsOn tasks := by
    funext a b
    exact propext (edge_dependencies_iff hnodup)
  unfold DepthFirst.Acyclic
  rw [hedge]

/-- A task that names an agent and no empty capability. -/
def Named (t : MissionTask) : Prop :=
  trim t.agentId ≠ "" ∧ t.requiredCapability.any (trim · = "") = false

theorem taskError_eq_none_iff {ids : List String} :
    taskError ids t = none ↔ Named t ∧ ∀ d ∈ t.dependsOn, d ∈ ids := by
  unfold taskError Named
  by_cases hagent : trim t.agentId = ""
  · simp [hagent]
  · rw [if_neg hagent]
    cases hcap : t.requiredCapability.any (trim · = "") with
    | true => simp
    | false => simp [hagent]

/-- **The check accepts exactly the graphs of named tasks under a positive version.** -/
theorem validateTaskGraph_eq_none_iff {version : Int} :
    validateTaskGraph tasks version = none ↔
      0 < version ∧ TaskGraph tasks ∧ ∀ t ∈ tasks, Named t := by
  unfold validateTaskGraph
  dsimp only
  by_cases hversion : version ≤ 0
  · rw [if_pos hversion]
    refine iff_of_false (by simp) fun h => ?_
    omega
  rw [if_neg hversion]
  by_cases hnodup : (tasks.map (·.id)).Nodup
  · rw [if_neg (not_not_intro hnodup)]
    cases herror : tasks.findSome? (taskError (tasks.map (·.id))) with
    | some message =>
      obtain ⟨t, ht, hmessage⟩ := List.exists_of_findSome?_eq_some herror
      refine iff_of_false (by simp) fun ⟨_, hgraph, hnamed⟩ => ?_
      have hnone := taskError_eq_none_iff.mpr ⟨hnamed t ht, hgraph.planned t ht⟩
      rw [hnone] at hmessage
      cases hmessage
    | none =>
      rw [List.findSome?_eq_none_iff] at herror
      have herrors := fun t ht => taskError_eq_none_iff.mp (herror t ht)
      have hclosed : ∀ id ∈ tasks.map (·.id), dependencies tasks id ⊆ tasks.map (·.id) := by
        intro id _ d hd
        obtain ⟨t, ht, -, hd⟩ := (edge_dependencies_iff hnodup).mp hd
        exact (herrors t ht).2 d hd
      have houtside : ∀ id, id ∉ tasks.map (·.id) → dependencies tasks id = [] := by
        intro id hid
        unfold dependencies
        cases hfind : taskById tasks id with
        | none => rfl
        | some t =>
          obtain ⟨ht, rfl⟩ := mem_of_taskById hfind
          exact absurd (List.mem_map_of_mem ht) hid
      have hsearch := DepthFirst.visitAll_isSome_iff _ hclosed houtside (Nat.le_refl _)
      rw [acyclic_dependencies_iff hnodup] at hsearch
      dsimp only
      split
      next h =>
        refine iff_of_true rfl ⟨Int.not_le.mp hversion, ?_, fun t ht => (herrors t ht).1⟩
        exact ⟨hnodup, fun t ht => (herrors t ht).2, hsearch.mp h⟩
      next h => exact iff_of_false (by simp) fun ⟨_, hgraph, _⟩ => h (hsearch.mpr hgraph.acyclic)
  · rw [if_pos hnodup]
    exact iff_of_false (by simp) fun ⟨_, hgraph, _⟩ => hnodup hgraph.ids

/-! ### The check as it runs -/

/-- The error before the search for a cycle. -/
def errorBeforeSearch (tasks : List MissionTask) (planVersion : Int) : Option String :=
  let ids := tasks.map (·.id)
  if planVersion ≤ 0 then some "Plan version must be positive"
  else if ¬ ids.Nodup then some "Duplicate task IDs in plan"
  else tasks.findSome? (taskError ids)

/-- A run of the check that ends with this answer. Its visits call each other without a bound. -/
def ValidatesTo (tasks : List MissionTask) (planVersion : Int) (answer : Option String) : Prop :=
  match errorBeforeSearch tasks planVersion with
  | some message => answer = some message
  | none => ∃ visited, DepthFirst.Search (dependencies tasks) [] [] (tasks.map (·.id)) visited ∧
      answer = if visited.isSome then none else some "Cyclic dependency detected in plan"

theorem validateTaskGraph_eq {version : Int} : validateTaskGraph tasks version =
    match errorBeforeSearch tasks version with
    | some message => some message
    | none =>
      if (DepthFirst.visitAll (dependencies tasks) ((tasks.map (·.id)).length + 1)
        (tasks.map (·.id))).isSome then none else some "Cyclic dependency detected in plan" := by
  unfold validateTaskGraph errorBeforeSearch
  dsimp only
  split
  · rfl
  · split <;> rfl

/-- Once nothing is missing, the search stays among the tasks. -/
theorem dependencies_subset {version : Int} (h : errorBeforeSearch tasks version = none) :
    ∀ id ∈ tasks.map (·.id), dependencies tasks id ⊆ tasks.map (·.id) := by
  unfold errorBeforeSearch at h
  dsimp only at h
  split at h
  · cases h
  · split at h
    · cases h
    next hnodup =>
      intro id _ d hd
      obtain ⟨t, ht, -, hd⟩ := (edge_dependencies_iff (not_not.mp hnodup)).mp hd
      exact (taskError_eq_none_iff.mp (List.findSome?_eq_none_iff.mp h t ht)).2 d hd

/-- A run of the check ends with the answer of `validateTaskGraph`, and with no other. -/
theorem validatesTo_iff {version : Int} {answer : Option String} :
    ValidatesTo tasks version answer ↔ answer = validateTaskGraph tasks version := by
  rw [validateTaskGraph_eq]
  unfold ValidatesTo
  cases herror : errorBeforeSearch tasks version with
  | some message => exact Iff.rfl
  | none =>
    have htotal := DepthFirst.search_total (dependencies_subset herror)
    constructor
    · rintro ⟨visited, hsearch, rfl⟩
      rw [hsearch.unique htotal]
    · rintro rfl
      exact ⟨_, htotal, rfl⟩

/-- **The check decides well-formedness**: it ends, with one answer, and finds no error iff the
version is positive, the ids are distinct, no agent and no capability is blank, no dependency is
missing and none is circular. -/
theorem validateTaskGraph_decides (tasks : List MissionTask) (planVersion : Int) :
    (∃! answer, ValidatesTo tasks planVersion answer) ∧
      (ValidatesTo tasks planVersion none ↔
        0 < planVersion ∧ (tasks.map (·.id)).Nodup ∧
        (∀ t ∈ tasks, trim t.agentId ≠ "" ∧
          ∀ capability, t.requiredCapability = some capability → trim capability ≠ "") ∧
        (∀ t ∈ tasks, ∀ d ∈ t.dependsOn, ∃ t' ∈ tasks, t'.id = d) ∧
        ∀ id, ¬ Relation.TransGen (DependsOn tasks) id id) := by
  refine ⟨⟨_, validatesTo_iff.mpr rfl, fun answer => validatesTo_iff.mp⟩, ?_⟩
  rw [validatesTo_iff, eq_comm, validateTaskGraph_eq_none_iff]
  have hnamed : ∀ t : MissionTask, Named t ↔ trim t.agentId ≠ "" ∧
      ∀ capability, t.requiredCapability = some capability → trim capability ≠ "" := by
    intro t
    unfold Named
    cases t.requiredCapability <;> simp
  constructor
  · rintro ⟨hversion, hgraph, hnames⟩
    refine ⟨hversion, hgraph.ids, fun t ht => (hnamed t).mp (hnames t ht), ?_, hgraph.acyclic⟩
    exact fun t ht d hd => List.mem_map.mp (hgraph.planned t ht d hd)
  · rintro ⟨hversion, hids, hnames, hplanned, hacyclic⟩
    refine ⟨hversion, ⟨hids, ?_, hacyclic⟩, fun t ht => (hnamed t).mpr (hnames t ht)⟩
    exact fun t ht d hd => List.mem_map.mpr (hplanned t ht d hd)

/-! ## Graphs with one more task, and graphs with a task that moved -/

theorem dependsOn_append :
    DependsOn (tasks ++ [t]) id d ↔ DependsOn tasks id d ∨ t.id = id ∧ d ∈ t.dependsOn := by
  unfold DependsOn
  constructor
  · rintro ⟨t', ht', hid, hd⟩
    rcases List.mem_append.mp ht' with ht' | ht'
    · exact .inl ⟨t', ht', hid, hd⟩
    · obtain rfl := List.mem_singleton.mp ht'
      exact .inr ⟨hid, hd⟩
  · rintro (⟨t', ht', hid, hd⟩ | ⟨hid, hd⟩)
    · exact ⟨t', List.mem_append_left _ ht', hid, hd⟩
    · exact ⟨t, List.mem_append_right _ (List.mem_singleton_self t), hid, hd⟩

/-- A new task that depends on planned ones closes no cycle. -/
theorem TaskGraph.append (h : TaskGraph tasks) (hnew : ∀ t' ∈ tasks, t'.id ≠ t.id)
    (hdeps : ∀ d ∈ t.dependsOn, d ∈ tasks.map (·.id)) : TaskGraph (tasks ++ [t]) := by
  have hfresh : t.id ∉ tasks.map (·.id) := by
    rintro hmem
    obtain ⟨t', ht', hid⟩ := List.mem_map.mp hmem
    exact hnew t' ht' hid
  have htarget : ∀ {a b}, DependsOn (tasks ++ [t]) a b → b ∈ tasks.map (·.id) := by
    intro a b hab
    rcases dependsOn_append.mp hab with ⟨t', ht', -, hb⟩ | ⟨-, hb⟩
    · exact h.planned t' ht' b hb
    · exact hdeps b hb
  -- from a planned task only the old dependencies are followed
  have hold : ∀ {a b}, a ∈ tasks.map (·.id) →
      Relation.TransGen (DependsOn (tasks ++ [t])) a b →
      Relation.TransGen (DependsOn tasks) a b ∧ b ∈ tasks.map (·.id) := by
    have hedge : ∀ {a b}, a ∈ tasks.map (·.id) → DependsOn (tasks ++ [t]) a b →
        DependsOn tasks a b := by
      intro a b ha hab
      rcases dependsOn_append.mp hab with hab | ⟨rfl, -⟩
      · exact hab
      · exact absurd ha hfresh
    intro a b ha hab
    induction hab with
    | single hab => exact ⟨.single (hedge ha hab), htarget hab⟩
    | tail _ hbc ih => exact ⟨ih.1.tail (hedge ih.2 hbc), htarget hbc⟩
  refine ⟨?_, fun t' ht' d hd => ?_, fun a hcycle => ?_⟩
  · rw [List.map_append, List.map_singleton]
    exact List.nodup_append'.mpr ⟨h.ids, List.nodup_singleton _, by simpa using hfresh⟩
  · rw [List.map_append, List.mem_append]
    exact .inl (htarget ⟨t', ht', rfl, hd⟩)
  · have ha : a ∈ tasks.map (·.id) := by
      obtain ⟨b, -, hba⟩ := Relation.TransGen.tail'_iff.mp hcycle
      exact htarget hba
    exact h.acyclic a (hold ha hcycle).1

/-- In a graph the last task depends on earlier ones. -/
theorem TaskGraph.last (h : TaskGraph (tasks ++ [t])) (hd : d ∈ t.dependsOn) :
    d ∈ tasks.map (·.id) := by
  have hmem : t ∈ tasks ++ [t] := List.mem_append_right _ (List.mem_singleton_self t)
  have hplanned := h.planned t hmem d hd
  rw [List.map_append, List.map_singleton, List.mem_append] at hplanned
  rcases hplanned with hold | hself
  · exact hold
  · obtain rfl := List.mem_singleton.mp hself
    exact absurd (.single ⟨t, hmem, rfl, hd⟩) (h.acyclic t.id)

/-- What the graph sees of a task. -/
structure Shape where
  id : String
  idempotencyKey : String
  dependsOn : List String

def shape (t : MissionTask) : Shape := ⟨t.id, t.idempotencyKey, t.dependsOn⟩

/-- Tasks of the same shapes have the same graph. -/
theorem WellFormed.congr (h : WellFormed tasks) (hs : tasks'.map shape = tasks.map shape) :
    WellFormed tasks' := by
  have hids : tasks'.map (·.id) = tasks.map (·.id) := by
    have := congrArg (List.map Shape.id) hs
    simpa [Function.comp_def, shape] using this
  have hkeys : tasks'.map (·.idempotencyKey) = tasks.map (·.idempotencyKey) := by
    have := congrArg (List.map Shape.idempotencyKey) hs
    simpa [Function.comp_def, shape] using this
  have hmem : ∀ t' ∈ tasks', ∃ t ∈ tasks, shape t = shape t' := by
    intro t' ht'
    exact List.mem_map.mp (hs ▸ List.mem_map_of_mem ht')
  have hedge : ∀ {a b}, DependsOn tasks' a b → DependsOn tasks a b := by
    rintro a b ⟨t', ht', rfl, hb⟩
    obtain ⟨t, ht, hshape⟩ := hmem t' ht'
    have hdeps : t.dependsOn = t'.dependsOn := congrArg Shape.dependsOn hshape
    exact ⟨t, ht, congrArg Shape.id hshape, hdeps ▸ hb⟩
  refine ⟨⟨hids ▸ h.ids, fun t' ht' d hd => ?_, fun a hcycle => ?_⟩, hkeys ▸ h.keys⟩
  · obtain ⟨t, ht, hshape⟩ := hmem t' ht'
    have hdeps : t.dependsOn = t'.dependsOn := congrArg Shape.dependsOn hshape
    rw [hids]
    exact h.planned t ht d (hdeps ▸ hd)
  · exact h.acyclic a (hcycle.lift id fun _ _ hab => hedge hab)

theorem map_setTask {β : Type*} {f : MissionTask → β} {t' : MissionTask}
    (hfind : findTask tasks id = some t) (hf : f t' = f t) :
    (setTask id t' tasks).map f = tasks.map f := by
  obtain ⟨l, r, rfl, hset⟩ := setTask_split hfind
  rw [hset, List.map_append, List.map_append, List.map_cons, List.map_cons, hf]

end

/-! ## The condition -/

/-- The statuses in which the mission has begun and is not over. -/
def active (s : Status) : Bool := s = .executing || s = .paused || s = .blocked

/-- The graph of a mission in progress is well formed. -/
def InOrder (m : Mission) : Prop := active m.state.status = true → WellFormed m.state.tasks

/-- The mission gets into progress by this transition. -/
def Enters (m : Mission) (target : Status) : Prop :=
  active m.state.status = false ∧ canTransition m.state.status target = true

/-- What the checks of an operation leave to its caller: a task is added to a mission in progress
after its dependencies, the tasks of a new plan have keys of their own, and the mission gets into
progress only with a well-formed graph, which `planValid` sees to except for the keys. -/
def keepsOrder (m : Mission) : Op → Prop
  | .addTask props => active m.state.status = true → Addable m props →
      ∀ d ∈ props.dependsOn, d ∈ m.state.tasks.map (·.id)
  | .replan newPlan newTasks => active m.state.status = true → Replannable m newPlan newTasks →
      (newTasks.map (·.idempotencyKey)).Nodup
  | .planValid => Enters m .executing →
      validateTaskGraph m.state.tasks m.state.plan.version = none →
      (m.state.tasks.map (·.idempotencyKey)).Nodup
  | .pause _ => Enters m .paused → WellFormed m.state.tasks
  | .resume | .unblock => Enters m .executing → WellFormed m.state.tasks
  | _ => True

/-! ## One operation -/

section

variable {m : Mission} {now : Date}

theorem inOrder_transitionTo (h : InOrder m) (target : Status) (event : Event) :
    InOrder (transitionTo m target event now).1 ↔
      (active target = true → Enters m target → WellFormed m.state.tasks) := by
  rcases transitionTo_cases m target event now with ⟨hcan, hr⟩ | ⟨hcan, hr⟩ <;> rw [hr]
  · refine iff_of_true h fun _ hen => ?_
    have htrue := hen.2
    rw [hcan] at htrue
    cases htrue
  · show (active target = true → WellFormed m.state.tasks) ↔ _
    constructor
    · exact fun hw ha _ => hw ha
    · intro hw ha
      cases hm : active m.state.status with
      | true => exact h hm
      | false => exact hw ha ⟨hm, hcan⟩

theorem inOrder_complete (h : InOrder m) (outcomes : Outcomes) :
    InOrder (complete m outcomes now).1 := by
  have hmoves : InOrder (transitionTo m .completed (.completed m.state.id outcomes) now).1 :=
    (inOrder_transitionTo h _ _).mpr fun ha => by cases ha
  unfold complete
  split
  next m' hr =>
    rw [hr] at hmoves
    exact hmoves
  · exact hmoves

theorem inOrder_moveTask (h : InOrder m) (id : String) (target : TaskStatus)
    {change : MissionTask → MissionTask} (hchange : ∀ t, shape (change t) = shape t)
    (events : List Event) : InOrder (moveTask m id target change events now).1 := by
  rcases moveTask_cases m id target change events now with hr | ⟨t, t', hfind, hok, hr⟩
  · rw [hr]
    exact h
  · obtain ⟨-, hprops, -⟩ := transitionStatus_ok hok
    rw [InOrder, hr]
    refine fun ha => (h ha).congr ?_
    refine map_setTask hfind ((hchange t').trans ?_)
    simp only [shape, hprops]

theorem inOrder_addTask (h : InOrder m) (props : MissionTaskProps) :
    InOrder (addTask m props).1 ↔ keepsOrder m (.addTask props) := by
  rcases addTask_cases m props with ⟨hrefused, hr⟩ | ⟨hadd, hr⟩ <;> rw [hr]
  · exact iff_of_true h fun _ hadd => absurd hadd hrefused
  · show (active m.state.status = true → WellFormed (m.state.tasks ++ [.init props])) ↔ _
    constructor
    · intro hw ha _ d hd
      exact (hw ha).toTaskGraph.last hd
    · intro hdeps ha
      refine ⟨(h ha).toTaskGraph.append hadd.newId (hdeps ha hadd), ?_⟩
      rw [List.map_append, List.map_singleton]
      refine List.nodup_append'.mpr ⟨(h ha).keys, List.nodup_singleton _, ?_⟩
      simpa [MissionTask.init] using fun t ht => hadd.newKey t ht

/-- A task of a new plan has the shape the plan gives it. -/
theorem replanTask_props (tasks : List MissionTask) (props : MissionTaskProps) :
    (replanTask tasks props).toMissionTaskProps = props := by
  unfold replanTask
  split <;> rfl

theorem inOrder_replan (h : InOrder m) (newPlan : Plan) (newTasks : List MissionTaskProps) :
    InOrder (replan m newPlan newTasks now).1 ↔ keepsOrder m (.replan newPlan newTasks) := by
  rcases replan_cases m newPlan newTasks now with ⟨hrefused, hr⟩ | ⟨hplan, hr⟩ <;> rw [hr]
  · exact iff_of_true h fun _ hplan => absurd hplan hrefused
  · show (active m.state.status = true → WellFormed (replanned m newTasks)) ↔ _
    have hkeys : (replanned m newTasks).map (·.idempotencyKey) =
        newTasks.map (·.idempotencyKey) := by
      unfold replanned
      rw [List.map_map]
      refine List.map_congr_left fun props _ => ?_
      show (replanTask m.state.tasks props).toMissionTaskProps.idempotencyKey = _
      rw [replanTask_props]
    constructor
    · intro hw ha _
      rw [← hkeys]
      exact (hw ha).keys
    · intro hnodup ha
      obtain ⟨-, hgraph, -⟩ := validateTaskGraph_eq_none_iff.mp hplan.valid
      exact ⟨hgraph, hkeys ▸ hnodup ha hplan⟩

theorem inOrder_planValid (h : InOrder m) :
    InOrder (planValid m now).1 ↔ keepsOrder m .planValid := by
  unfold planValid
  split
  next message hinvalid =>
    refine iff_of_true h fun _ hvalid => ?_
    rw [hvalid] at hinvalid
    cases hinvalid
  next hvalid =>
    rw [inOrder_transitionTo h]
    obtain ⟨-, hgraph, -⟩ := validateTaskGraph_eq_none_iff.mp hvalid
    constructor
    · exact fun hw hen _ => (hw rfl hen).keys
    · exact fun hkeys _ hen => ⟨hgraph, hkeys hen hvalid⟩

/-- **An operation keeps the graph of a mission in progress well formed iff its caller sees to what
it does not check.** -/
theorem inOrder_step (m : Mission) (i : Op × Date) (h : InOrder m) :
    InOrder (step m i).1 ↔ keepsOrder m i.1 := by
  obtain ⟨op, now⟩ := i
  cases op with
  | addTask props => exact inOrder_addTask h props
  | replan newPlan newTasks => exact inOrder_replan h newPlan newTasks
  | planValid => exact inOrder_planValid h
  | pause reason => exact (inOrder_transitionTo h _ _).trans ⟨fun hw => hw rfl, fun hw _ => hw⟩
  | resume => exact (inOrder_transitionTo h _ _).trans ⟨fun hw => hw rfl, fun hw _ => hw⟩
  | unblock => exact (inOrder_transitionTo h _ _).trans ⟨fun hw => hw rfl, fun hw _ => hw⟩
  | block reason =>
    -- only an executing mission is blocked
    have hexecuting : ∀ s, canTransition s .blocked = true → active s = true := by
      intro s
      cases s <;> decide
    refine iff_of_true ((inOrder_transitionTo h _ _).mpr fun _ hen => ?_) trivial
    have hactive := hexecuting _ hen.2
    rw [hen.1] at hactive
    cases hactive
  | complete outcomes => exact iff_of_true (inOrder_complete h outcomes) trivial
  | setPlan plan => exact iff_of_true h trivial
  | startTask id =>
    refine iff_of_true ?_ trivial
    show InOrder (startTask m id now).1
    unfold startTask
    split
    · exact h
    · split
      · exact h
      · split
        · exact h
        · exact inOrder_moveTask h _ _ (fun _ => rfl) _
  | completeTask id output => exact iff_of_true (inOrder_moveTask h _ _ (by intro t; rfl) _) trivial
  | failTask id reason => exact iff_of_true (inOrder_moveTask h _ _ (by intro t; rfl) _) trivial
  | timeoutTask id => exact iff_of_true (inOrder_moveTask h _ _ (by intro t; rfl) _) trivial
  | cancelTask id reason => exact iff_of_true (inOrder_moveTask h _ _ (by intro t; rfl) _) trivial
  | markTaskAwaitingApproval id gate =>
    exact iff_of_true (inOrder_moveTask h _ _ (by intro t; rfl) _) trivial
  | _ => exact iff_of_true ((inOrder_transitionTo h _ _).mpr fun ha => by cases ha) trivial

end

/-! ## Runs -/

/-- **A new mission stays in order through a run iff it is created in order and every operation of
the run sees to what the checks leave to it.** -/
theorem inOrder_iff (props : Props) (now : Date) (m : Mission) (hcreate : create props now = .ok m)
    (ops : List (Op × Date)) :
    Machine.Throughout step InOrder m ops ↔
      (active props.status = true → WellFormed props.tasks) ∧
        Machine.Meets step (fun m i => keepsOrder m i.1) m ops := by
  have hstate : m.state = props := by rw [create_ok hcreate]; rfl
  rw [Machine.throughout_iff_meets inOrder_step ops, InOrder, hstate]

/-- The mission is planned with one task, and executes. -/
def executingOps : List (Op × Date) :=
  [(.approve "user", 0), (.start, 0), (.addTask (sampleTask "research" []), 0), (.planValid, 0)]

theorem inOrder_executing : Machine.Throughout step InOrder sampleCreated executingOps := by
  refine (inOrder_iff sampleMission 0 sampleCreated create_sampleMission executingOps).mpr
    ⟨nofun, ?_⟩
  simp only [executingOps, Machine.Meets]
  refine ⟨trivial, trivial, fun h => ?_, fun _ _ => ?_, trivial⟩
  · cases h
  · decide

/-- A task is added that waits for one nobody planned. -/
def danglingOps : List (Op × Date) :=
  executingOps ++ [(.addTask (sampleTask "send" ["draft"]), 0)]

theorem not_inOrder_addTask :
    ¬ ∀ (props : Props) (now : Date) (m : Mission), create props now = .ok m →
      ∀ ops : List (Op × Date), Machine.Throughout step InOrder m ops := by
  intro h
  have hfinal := (h sampleMission 0 sampleCreated create_sampleMission danglingOps).final
  have hgraph := (hfinal rfl).toTaskGraph
  have hdangling : "draft" ∈ (Machine.final step sampleCreated danglingOps).state.tasks.map (·.id) :=
    hgraph.planned _ (List.mem_cons_of_mem _ List.mem_cons_self) "draft" List.mem_cons_self
  revert hdangling
  decide +kernel

end VegaRevenue.Mission
