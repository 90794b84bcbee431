import VegaRevenue.MissionWorkflow.Workflow

/-!
# What the mission workflow owes its signals

Every control request is acted on once and in the order it came, no activity is started after a
`CANCEL` came, and every decision of an approval reaches an activity.

* `lossless_step` — one event keeps this iff it comes in order
* `lossless_iff_orderly` — a run keeps it iff each of its events does
* `cancel_during_checkpoint` — a mission that was cancelled takes its next step
-/

namespace VegaRevenue.MissionWorkflow

variable {input : Input} {s : State}

/-! ## The law -/

/-- The decisions that activities were given. -/
def State.passed (s : State) : List ApprovalDecisionSignal :=
  s.starts.flatMap fun start => start.command.decisions

structure Lossless (s : State) : Prop where
  /-- When the workflow ended none waits: all that came were acted on. -/
  controls : s.controlRequest.InOrder
  cancels : ∀ start ∈ s.starts, ∀ request ∈ start.requests, request.action ≠ .cancel
  approvals : s.pendingApproval.received.Perm (s.pendingApproval.waiting ++ s.passed)

/-! ## The condition -/

/-- No control request waits for the loop. -/
def ControlsRead (s : State) : Prop := s.controlRequest.waiting = []

/-- No decision is in its variable. -/
def NoDecision (s : State) : Prop := s.pendingApproval.waiting = []

/-- At the head of the loop no decision is in its variable, unless the loop pauses or replans. -/
def Ready (s : State) : Prop :=
  (∃ request ∈ s.controlRequest.current, request.action = .pause ∨ request.action = .replan) ∨
    NoDecision s

/-- When the event comes in order: no variable is written over, cleared or left behind while it
holds what nobody read, and no step of the mission is started while a `CANCEL` waits. -/
def Orderly (s : State) : Event → Prop
  | .control _ => ControlsRead s
  | .approvalDecision _ => NoDecision s
  | .plannedMission => s.pc = .planMission → Ready s
  | .replannedMission => s.pc = .replanMission → ControlsRead s ∧ NoDecision s
  | .checkpointed =>
    s.pc = .checkpoint → ∀ request ∈ s.controlRequest.current, request.action ≠ .cancel
  | .executedStep result =>
    s.pc = .executeMissionStep →
      if result.status ∈ terminalStatuses then ControlsRead s ∧ NoDecision s else Ready s
  | .wake => s.pc = .paused → s.controlRequest.current ≠ none → Ready s
  | .activityFailed =>
    s.pc.isEnded = false → s.pc ≠ .paused → ControlsRead s ∧ NoDecision s

/-! ## What every run keeps -/

/-- Outside a replan what is in the variable was not read, and a `CANCEL` that was read ended the
workflow. -/
structure Sound (s : State) : Prop where
  unread : s.pc ≠ .replanMission →
    s.controlRequest.waiting = s.controlRequest.current.toList
  running : s.pc.isEnded = false → ∀ request ∈ s.controlRequest.read, request.action ≠ .cancel

theorem sound_finish (s : State) (outcome : Outcome) : Sound (finish s outcome) where
  unread := fun _ => rfl
  running := nofun

/-- At the head of the loop nothing in the variable was read, and no `CANCEL`. -/
structure AtHead (s : State) : Prop where
  unread : s.controlRequest.waiting = s.controlRequest.current.toList
  running : ∀ request ∈ s.controlRequest.read, request.action ≠ .cancel

/-- The request in the variable is read next. -/
theorem AtHead.running_take (hs : AtHead s) {request : MissionControlSignal}
    (hcurrent : s.controlRequest.current = some request) (haction : request.action ≠ .cancel) :
    ∀ r ∈ s.controlRequest.take.read, r.action ≠ .cancel := by
  intro r hr
  rw [Slot.read_take, hs.unread, hcurrent] at hr
  rcases List.mem_cons.mp hr with rfl | hr
  · exact haction
  · exact hs.running r hr

theorem sound_proceed (hs : AtHead s) : Sound (proceed input s).1 where
  unread := fun _ => hs.unread
  running := fun _ => hs.running

theorem sound_iterate (hs : AtHead s) : Sound (iterate input s).1 := by
  unfold iterate
  cases hcurrent : s.controlRequest.current with
  | none => exact sound_proceed hs
  | some request =>
    dsimp only
    cases haction : request.action with
    | cancel => exact sound_finish _ _
    | pause =>
      have hread := hs.running_take hcurrent (by rw [haction]; decide)
      exact ⟨fun _ => rfl, fun _ => hread⟩
    | replan =>
      have hread := hs.running_take hcurrent (by rw [haction]; decide)
      exact ⟨fun hpc => absurd rfl hpc, fun _ => hread⟩
    | resume =>
      have hread := hs.running_take hcurrent (by rw [haction]; decide)
      exact sound_proceed ⟨rfl, hread⟩

/-- Where an activity other than a replan ends, the workflow is at the head of its loop. -/
theorem Sound.atHead (hs : Sound s) (hended : s.pc.isEnded = false)
    (hpc : s.pc ≠ .replanMission) : AtHead s :=
  ⟨hs.unread hpc, hs.running hended⟩

/-- A replan clears the variable when it ends. -/
theorem Sound.replanned (hs : Sound s) (hpc : s.pc = .replanMission) :
    AtHead { setStatus s .executing with controlRequest := s.controlRequest.clear () } where
  unread := rfl
  running := hs.running (by rw [hpc]; rfl)

theorem sound_resume (hs : Sound s) (event : Event) : Sound (resume input s event).1 := by
  cases event with
  | control request => exact hs
  | approvalDecision decision => exact hs
  | plannedMission =>
    cases hpc : s.pc <;> simp only [resume, hpc] <;> try exact hs
    have hhead := hs.atHead (by rw [hpc]; rfl) (by rw [hpc]; decide)
    exact sound_iterate ⟨hhead.unread, hhead.running⟩
  | replannedMission =>
    cases hpc : s.pc <;> simp only [resume, hpc] <;> try exact hs
    exact sound_iterate (hs.replanned hpc)
  | checkpointed =>
    cases hpc : s.pc <;> simp only [resume, hpc] <;> try exact hs
    have hhead := hs.atHead (by rw [hpc]; rfl) (by rw [hpc]; decide)
    exact ⟨fun _ => hhead.unread, fun _ => hhead.running⟩
  | executedStep result =>
    cases hpc : s.pc <;> simp only [resume, hpc] <;> try exact hs
    have hhead := hs.atHead (by rw [hpc]; rfl) (by rw [hpc]; decide)
    unfold onStep
    dsimp only
    split
    · exact sound_finish _ _
    · exact sound_iterate ⟨hhead.unread, hhead.running⟩
  | wake =>
    simp only [resume]
    split
    next hpc _ => exact sound_iterate (hs.atHead (by rw [hpc]; rfl) (by rw [hpc]; decide))
    next => exact hs
  | activityFailed =>
    cases hpc : s.pc <;> simp only [resume, hpc] <;> first | exact hs | exact sound_finish _ _

theorem sound_step (hs : Sound s) (event : Event) : Sound (step input s event).1 := by
  unfold step
  split
  · exact hs
  · cases event with
    | control request => exact ⟨fun _ => rfl, hs.running⟩
    | approvalDecision decision => exact ⟨hs.unread, hs.running⟩
    | _ => exact sound_resume hs _

/-! ## Parts of the loop -/

/-- No activity is given a decision. -/
theorem passed_eq_nil (s : State) : s.passed = [] := by
  apply List.flatMap_eq_nil_iff.mpr
  intro start _
  cases start.command <;> rfl

theorem approvals_iff : s.pendingApproval.received.Perm (s.pendingApproval.waiting ++ s.passed) ↔
    s.pendingApproval.received.Perm s.pendingApproval.waiting := by
  rw [passed_eq_nil, List.append_nil]

/-- A decision that is cleared reaches no activity. -/
theorem approvals_clear (hs : Lossless s) :
    s.pendingApproval.received.Perm [] ↔ NoDecision s := by
  have hall := approvals_iff.mp hs.approvals
  rw [List.perm_nil]
  constructor
  · intro hnil
    rw [hnil] at hall
    exact hall.nil_eq.symm
  · intro hwaiting
    rw [show s.pendingApproval.waiting = [] from hwaiting] at hall
    exact hall.eq_nil

theorem lossless_finish (hs : Lossless s) (outcome : Outcome) :
    Lossless (finish s outcome) ↔ ControlsRead s ∧ NoDecision s := by
  constructor
  · intro h
    exact ⟨(Slot.inOrder_clear () hs.controls).mp h.controls,
      (approvals_clear hs).mp (approvals_iff.mp h.approvals)⟩
  · rintro ⟨hcontrols, hdecision⟩
    exact {
      controls := (Slot.inOrder_clear () hs.controls).mpr hcontrols
      cancels := hs.cancels
      approvals := approvals_iff.mpr ((approvals_clear hs).mpr hdecision) }

/-- An activity may start as long as no `CANCEL` came. -/
theorem lossless_launch (hs : Lossless s) (pc : Pc) (command : Command) :
    Lossless (launch s pc command).1 ↔
      ∀ request ∈ s.controlRequest.received, request.action ≠ .cancel := by
  constructor
  · intro h
    exact h.cancels _ List.mem_cons_self
  · intro hnone
    exact {
      controls := hs.controls
      cancels := by
        intro start hstart
        rcases List.mem_cons.mp hstart with rfl | hstart
        · exact hnone
        · exact hs.cancels start hstart
      approvals := by
        have hall := approvals_iff.mp hs.approvals
        exact approvals_iff.mpr hall }

/-- The requests that came are those that were read and the one in the variable. -/
theorem Lossless.received (hs : Lossless s) (hhead : AtHead s) :
    s.controlRequest.received = s.controlRequest.current.toList ++ s.controlRequest.read := by
  have horder : s.controlRequest.received = s.controlRequest.waiting ++ s.controlRequest.read :=
    hs.controls
  rw [horder, hhead.unread]

/-- Whether a `CANCEL` came is seen in the variable. -/
theorem cancel_received_iff (hs : Lossless s) (hhead : AtHead s) :
    (∀ request ∈ s.controlRequest.received, request.action ≠ .cancel) ↔
      ∀ request ∈ s.controlRequest.current, request.action ≠ .cancel := by
  rw [hs.received hhead]
  constructor
  · intro h request hr
    exact h request (List.mem_append_left _ (Option.mem_toList.mpr hr))
  · intro h request hr
    rcases List.mem_append.mp hr with hr | hr
    · exact h request (Option.mem_toList.mp hr)
    · exact hhead.running request hr

theorem lossless_proceed (hs : Lossless s)
    (hnone : ∀ request ∈ s.controlRequest.received, request.action ≠ .cancel) :
    Lossless (proceed input s).1 ↔ NoDecision s := by
  constructor
  · intro h
    exact (approvals_clear hs).mp (approvals_iff.mp h.approvals)
  · intro hdecision
    have hcleared : Lossless { s with pendingApproval := s.pendingApproval.clear () } := {
      controls := hs.controls
      cancels := hs.cancels
      approvals := approvals_iff.mpr ((approvals_clear hs).mpr hdecision) }
    exact (lossless_launch hcleared .checkpoint _).mpr hnone

/-- The law does not speak of the status. -/
theorem Lossless.setStatus (hs : Lossless s) (status : Mission.Status) :
    Lossless (setStatus s status) :=
  ⟨hs.controls, hs.cancels, hs.approvals⟩

/-- The request that is acted on is the next in order. -/
theorem Lossless.take (hs : Lossless s) :
    Lossless { s with controlRequest := s.controlRequest.take } :=
  ⟨hs.controls.take, hs.cancels, hs.approvals⟩

theorem lossless_iterate (hs : Lossless s) (hhead : AtHead s) :
    Lossless (iterate input s).1 ↔ Ready s := by
  have hcancel := cancel_received_iff hs hhead
  unfold iterate Ready
  cases hcurrent : s.controlRequest.current with
  | none =>
    rw [hcurrent] at hcancel
    have hnone := hcancel.mpr nofun
    simp [lossless_proceed hs hnone]
  | some request =>
    rw [hcurrent] at hcancel
    dsimp only
    cases haction : request.action with
    | cancel =>
      refine (lossless_finish (hs.setStatus .cancelled).take .returned).trans ?_
      simp [ControlsRead, NoDecision, setStatus, haction]
    | pause =>
      have hcleared := (Slot.inOrder_clear () hs.controls.take).mpr rfl
      refine iff_of_true ⟨hcleared, hs.cancels, hs.approvals⟩ (.inl ⟨request, rfl, .inl haction⟩)
    | replan =>
      have hnone := hcancel.mpr (by simp [haction])
      refine iff_of_true ?_ (.inl ⟨request, rfl, .inr haction⟩)
      exact (lossless_launch hs.take .replanMission _).mpr hnone
    | resume =>
      have hnone := hcancel.mpr (by simp [haction])
      have hcleared := (Slot.inOrder_clear () hs.controls.take).mpr rfl
      have hnext : Lossless { setStatus s .executing with
          controlRequest := s.controlRequest.take.clear () } :=
        ⟨hcleared, hs.cancels, hs.approvals⟩
      rw [lossless_proceed hnext hnone]
      simp [haction, NoDecision, setStatus]

/-! ## One event -/

attribute [local simp] resume Orderly

theorem lossless_plannedMission (hs : Lossless s) (hi : Sound s) :
    Lossless (resume input s .plannedMission).1 ↔ Orderly s .plannedMission := by
  rw [resume, Orderly]
  split
  next hpc =>
    have hhead := hi.atHead (by rw [hpc]; rfl) (by rw [hpc]; decide)
    rw [lossless_iterate (hs.setStatus .executing) ⟨hhead.unread, hhead.running⟩,
      forall_prop_of_true hpc]
    rfl
  next hne => exact iff_of_true hs fun hpc => absurd hpc hne

/-- A replan that ends clears what came meanwhile. -/
theorem lossless_replannedMission (hs : Lossless s) (hi : Sound s) :
    Lossless (resume input s .replannedMission).1 ↔ Orderly s .replannedMission := by
  rw [resume, Orderly]
  split
  next hpc =>
    rw [forall_prop_of_true hpc]
    have hhead := hi.replanned hpc
    constructor
    · intro h
      have hcontrols : (s.controlRequest.clear ()).InOrder := h.controls
      have hdecision := (approvals_clear hs).mp (approvals_iff.mp h.approvals)
      exact ⟨(Slot.inOrder_clear () hs.controls).mp hcontrols, hdecision⟩
    · rintro ⟨hcontrols, hdecision⟩
      have hcleared := (Slot.inOrder_clear () hs.controls).mpr hcontrols
      have hnext : Lossless
          { setStatus s .executing with controlRequest := s.controlRequest.clear () } :=
        ⟨hcleared, hs.cancels, hs.approvals⟩
      exact (lossless_iterate hnext hhead).mpr (.inr hdecision)
  next hne => exact iff_of_true hs fun hpc => absurd hpc hne

theorem lossless_checkpointed (hs : Lossless s) (hi : Sound s) :
    Lossless (resume input s .checkpointed).1 ↔ Orderly s .checkpointed := by
  rw [resume, Orderly]
  split
  next hpc =>
    have hhead := hi.atHead (by rw [hpc]; rfl) (by rw [hpc]; decide)
    rw [lossless_launch hs, cancel_received_iff hs hhead, forall_prop_of_true hpc]
  next hne => exact iff_of_true hs fun hpc => absurd hpc hne

theorem lossless_executedStep (hs : Lossless s) (hi : Sound s) (result : StepResult) :
    Lossless (resume input s (.executedStep result)).1 ↔ Orderly s (.executedStep result) := by
  rw [resume, Orderly]
  split
  next hpc =>
    have hhead := hi.atHead (by rw [hpc]; rfl) (by rw [hpc]; decide)
    have hnext : Lossless { s with status := ⟨result.missionId, result.status,
        result.completedTaskId⟩ } := ⟨hs.controls, hs.cancels, hs.approvals⟩
    rw [forall_prop_of_true hpc]
    unfold onStep
    dsimp only
    split
    · exact lossless_finish hnext .returned
    · exact lossless_iterate hnext ⟨hhead.unread, hhead.running⟩
  next hne => exact iff_of_true hs fun hpc => absurd hpc hne

theorem lossless_wake (hs : Lossless s) (hi : Sound s) :
    Lossless (resume input s .wake).1 ↔ Orderly s .wake := by
  rw [resume, Orderly]
  split
  next request hpc hcurrent =>
    have hhead := hi.atHead (by rw [hpc]; rfl) (by rw [hpc]; decide)
    rw [lossless_iterate hs hhead, forall_prop_of_true hpc,
      forall_prop_of_true (by rw [hcurrent]; simp)]
  next hne =>
    refine iff_of_true hs fun hpc hsome => ?_
    obtain ⟨request, hcurrent⟩ := Option.ne_none_iff_exists'.mp hsome
    exact absurd hcurrent (hne request hpc)

theorem lossless_activityFailed (hs : Lossless s) :
    Lossless (resume input s .activityFailed).1 ↔ Orderly s .activityFailed := by
  rw [resume, Orderly]
  cases hpc : s.pc with
  | planMission | replanMission | checkpoint | executeMissionStep =>
    simp [lossless_finish hs, Pc.isEnded]
  | paused => exact iff_of_true hs fun _ hne => absurd rfl hne
  | ended outcome => exact iff_of_true hs nofun

theorem lossless_control (hs : Lossless s) (request : MissionControlSignal) :
    Lossless { s with controlRequest := s.controlRequest.put () request } ↔ ControlsRead s := by
  constructor
  · intro h
    exact (Slot.inOrder_put () request hs.controls).mp h.controls
  · intro hread
    exact ⟨(Slot.inOrder_put () request hs.controls).mpr hread, hs.cancels, hs.approvals⟩

theorem lossless_approvalDecision (hs : Lossless s) (decision : ApprovalDecisionSignal) :
    Lossless { s with pendingApproval := s.pendingApproval.put () decision } ↔ NoDecision s := by
  rw [← approvals_clear hs]
  constructor
  · intro h
    have hall : (decision :: s.pendingApproval.received).Perm [decision] :=
      approvals_iff.mp h.approvals
    exact hall.cons_inv
  · intro hnil
    have hall : (decision :: s.pendingApproval.received).Perm [decision] := hnil.cons decision
    exact ⟨hs.controls, hs.cancels, approvals_iff.mpr hall⟩

/-- **One event keeps the law iff it comes in order.** -/
theorem lossless_step (hi : Sound s) (hs : Lossless s) (event : Event) :
    Lossless (step input s event).1 ↔ (s.pc.isEnded = false → Orderly s event) := by
  unfold step
  cases hended : s.pc.isEnded with
  | true =>
    rw [if_pos rfl]
    exact iff_of_true hs nofun
  | false =>
    rw [if_neg (by decide), forall_prop_of_true rfl]
    cases event with
    | control request => exact lossless_control hs request
    | approvalDecision decision => exact lossless_approvalDecision hs decision
    | plannedMission => exact lossless_plannedMission hs hi
    | replannedMission => exact lossless_replannedMission hs hi
    | checkpointed => exact lossless_checkpointed hs hi
    | executedStep result => exact lossless_executedStep hs hi result
    | wake => exact lossless_wake hs hi
    | activityFailed => exact lossless_activityFailed hs

/-! ## Runs -/

theorem sound_start (input : Input) : Sound (start input) where
  unread := fun _ => rfl
  running := by
    intro _ request hr
    cases hr

theorem lossless_start (input : Input) : Lossless (start input) where
  controls := Slot.inOrder_empty
  cancels := by
    intro s hs request hr
    obtain rfl := List.mem_singleton.mp hs
    cases hr
  approvals := .nil

/-- **A run keeps the law iff each of its events comes in order.** -/
theorem lossless_iff_orderly (input : Input) (events : List Event) :
    Machine.Throughout (step input) Lossless (start input) events ↔
      Machine.Meets (step input) (fun s event => s.pc.isEnded = false → Orderly s event)
        (start input) events := by
  have hiff := Machine.throughout_iff_meets_of_invariant (m := step input) (P := Lossless)
    (fun s event hs => sound_step hs event) (fun s event hi hs => lossless_step hi hs event)
    events (sound_start input)
  rw [hiff]
  exact and_iff_right (lossless_start input)

/-! ## A mission that is cancelled during a checkpoint -/

/-- The mission is cancelled while its first checkpoint is awaited. -/
def cancelRun : List Event := [.plannedMission, .control ⟨.cancel, none⟩, .checkpointed]

/-- The step of the mission after the checkpoint is started, although the `CANCEL` had come. -/
theorem cancel_during_checkpoint :
    let input : Input := ⟨⟨"t", "w", "u", "c"⟩, "m"⟩
    let s := Machine.final (step input) (start input) cancelRun
    s.starts.head? = some ⟨.executeMissionStep ⟨"t", "w", "u", "c"⟩ "m", [⟨.cancel, none⟩]⟩ ∧
      ¬ Machine.Throughout (step input) Lossless (start input) cancelRun := by
  intro input s
  have hstart : s.starts.head? =
      some ⟨.executeMissionStep ⟨"t", "w", "u", "c"⟩ "m", [⟨.cancel, none⟩]⟩ := by
    decide +kernel
  refine ⟨hstart, fun h => ?_⟩
  have hcancels := h.final.cancels _ (List.mem_of_head? hstart)
  exact absurd rfl (hcancels ⟨.cancel, none⟩ List.mem_cons_self)

end VegaRevenue.MissionWorkflow
