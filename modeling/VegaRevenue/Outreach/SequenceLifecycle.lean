import VegaRevenue.Domain.LastingStates
import VegaRevenue.MissionOrchestrator.ApprovalService

/-!
# Starting the workflow of a sequence

Any number of callers start the workflow of one sequence, beside others that load, change and save
it. A call asks the workflow server for the workflow, links the sequence to it and saves by
compare-and-swap; a request or a save can be lost, or take effect and go unanswered.

* `starts_sound` — in every interleaving at most one workflow is started, and a call that returns
  leaves the sequence linked to it for good
* `retry_links` — whatever failed before, a call that runs alone links the sequence
-/

namespace VegaRevenue.Outreach.SequenceLifecycle

open Interleave Versioned
open ApprovalService.WorkflowIdFactory (forOutreachSequence)

/-! ## `TemporalWorkflowClient` -/

/-- `OutreachRepositoryContext`. -/
structure RepositoryContext where
  tenantId : String
  workspaceId : String
  correlationId : String
deriving DecidableEq

variable {ι : Type}

/-- An execution the server has accepted. -/
structure Execution (ι : Type) where
  workflowType : String
  taskQueue : String
  workflowId : String
  args : ι
  runId : String
deriving DecidableEq

abbrev Server (ι : Type) := List (Execution ι)

/-- The server under `REJECT_DUPLICATE`: whether the execution is accepted. -/
def Server.start (server : Server ι) (e : Execution ι) : Server ι × Bool :=
  if server.any (·.workflowId = e.workflowId) then (server, false) else (server ++ [e], true)

structure WorkflowStartOptions where
  workflowId : Option String
  taskQueue : Option String

inductive StartStatus where
  | started
  | alreadyRunning
deriving DecidableEq

structure WorkflowStartResult where
  workflowId : String
  runId : Option String
  tenantId : String
  correlationId : String
  status : StartStatus
deriving DecidableEq

/-- `start`: the server afterwards and the answer, or the error it throws. -/
def start (server : Server ι) (delivery : Delivery) (runId : String) (ctx : RepositoryContext)
    (workflowType : String) (input : ι) (options : WorkflowStartOptions) :
    Server ι × Except String WorkflowStartResult :=
  let workflowId := options.workflowId.getD ""
  if workflowId = "" then
    (server, .error "Deterministic workflowId is required; use WorkflowIdFactory.")
  else
    let e : Execution ι := ⟨workflowType, options.taskQueue.getD "default", workflowId, input, runId⟩
    match delivery with
    | .lost message => (server, .error message)
    | .unanswered message => ((server.start e).1, .error message)
    | .answered =>
      ((server.start e).1, .ok
        (if (server.start e).2 then ⟨workflowId, some runId, ctx.tenantId, ctx.correlationId, .started⟩
        else ⟨workflowId, none, ctx.tenantId, ctx.correlationId, .alreadyRunning⟩))

/-! ## `OutreachSequenceLifecycleService` -/

/-- What the workflow is started with; `startInput` is handed on as it is. -/
structure WorkflowInput (ι : Type) where
  tenantId : String
  workspaceId : String
  correlationId : String
  sequenceId : String
  startInput : ι
deriving DecidableEq

structure OutreachSequenceWorkflowStartResult where
  status : StartStatus
  workflowId : String
  runId : Option String
deriving DecidableEq

def workflowIdOf (ctx : RepositoryContext) (s : Sequence.Props) : String :=
  forOutreachSequence ctx.tenantId s.id

/-- `startWorkflow`, up to the answer of the workflow client. -/
def requestStart (server : Server (WorkflowInput ι)) (delivery : Delivery) (runId : String)
    (taskQueue : Option String) (ctx : RepositoryContext) (s : Sequence.Props) (startInput : ι) :
    Server (WorkflowInput ι) × Except String WorkflowStartResult :=
  start server delivery runId ctx "OutreachSequenceWorkflow"
    ⟨ctx.tenantId, s.workspaceId, ctx.correlationId, s.id, startInput⟩
    ⟨some (workflowIdOf ctx s), some (taskQueue.getD "outreach-execution")⟩

/-- What `PostgresSequenceRepository.save` throws before it reaches the database. -/
def ownership (ctx : RepositoryContext) (s : Sequence.Props) : Except String Unit :=
  if s.tenantId ≠ ctx.tenantId then .error "Sequence tenant mismatch"
  else if s.workspaceId ≠ ctx.workspaceId then .error "Sequence workspace mismatch"
  else .ok ()

/-! ## The system -/

/-- The row of the sequence, and the writers of it. -/
abbrev store : LostUpdate.Model := Repository.sequences.model

/-- How far a caller is. -/
inductive Stage where
  /-- No call is under way. -/
  | idle
  /-- The workflow client has answered. -/
  | requested (ctx : RepositoryContext) (result : WorkflowStartResult)
  | returned (result : OutreachSequenceWorkflowStartResult)
  /-- `loadAndStartWorkflow` returned `null`. -/
  | returnedNull
  | threw (message : String)
deriving DecidableEq

structure Caller where
  copy : LostUpdate.Pc store
  stage : Stage

structure World (ι : Type) where
  rows : LostUpdate.World store
  server : Server (WorkflowInput ι)

inductive Input (ι : Type) where
  | load (ctx : RepositoryContext) (sequenceId : String)
  /-- Another operation of the aggregate on the copy. -/
  | operate (op : { op : Sequence.Op // ∀ workflowId, op ≠ .linkWorkflow workflowId }) (now : Date)
  | save (ctx : RepositoryContext) (delivery : Delivery)
  | request (ctx : RepositoryContext) (taskQueue : Option String) (startInput : ι)
      (delivery : Delivery) (runId : String)
  /-- The link and the save after the answer. -/
  | finish (delivery : Delivery) (now : Date)

/-- A caller whose call threw has dropped its copy. -/
def Stage.usable : Stage → Bool
  | idle | returned _ => true
  | _ => false

def selects (ctx : RepositoryContext) (sequenceId : String) (s : Sequence.Props) : Bool :=
  s.tenantId = ctx.tenantId ∧ s.workspaceId = ctx.workspaceId ∧ s.id = sequenceId

def load (ctx : RepositoryContext) (sequenceId : String) (w : World ι) (caller : Caller) :
    World ι × Caller :=
  if selects ctx sequenceId w.rows.row.payload then
    (w, ⟨.holding ⟨.reconstitute w.rows.row.payload w.rows.row.version, w.rows.row.payload⟩, .idle⟩)
  else (w, { caller with stage := .returnedNull })

/-- `save`, where `after` is the stage it leads to. -/
def save (ctx : RepositoryContext) (delivery : Delivery) (after : Stage) (w : World ι)
    (s : LostUpdate.Session store) : World ι × Caller :=
  match ownership ctx s.copy.state with
  | .error message => (w, ⟨.holding s, .threw message⟩)
  | .ok () =>
    match delivery, w.rows.row.swap s.copy with
    | .lost message, _ => (w, ⟨.holding s, .threw message⟩)
    | _, none => (w, ⟨.holding s, .threw "Stale sequence or wrong workspace"⟩)
    | delivery, some _ =>
      let (rows, copy) := LostUpdate.save w.rows s
      ({ w with rows },
        ⟨copy, match delivery with | .unanswered message => .threw message | _ => after⟩)

def request (ctx : RepositoryContext) (taskQueue : Option String) (startInput : ι)
    (delivery : Delivery) (runId : String) (w : World ι) (s : LostUpdate.Session store) :
    World ι × Caller :=
  let (server, result) := requestStart w.server delivery runId taskQueue ctx s.copy.state startInput
  ({ w with server },
    ⟨.holding s, match result with
      | .error message => .threw message
      | .ok result => .requested ctx result⟩)

/-- `startWorkflow`, from the answer of the workflow client on. -/
def finish (ctx : RepositoryContext) (result : WorkflowStartResult) (delivery : Delivery)
    (now : Date) (w : World ι) (s : LostUpdate.Session store) : World ι × Caller :=
  match Sequence.linkWorkflow s.copy result.workflowId now with
  | (_, .fail message) | (_, .threw message) =>
    (w, ⟨.holding s, .threw ("Failed to link sequence to workflow: " ++ message)⟩)
  | (sequence, .ok) =>
    save ctx delivery (.returned ⟨result.status, result.workflowId, result.runId⟩) w
      { s with copy := sequence }

def step : Stepper (World ι) Caller (Input ι) := fun _ input w caller =>
  match input, caller with
  | .load ctx sequenceId, caller => load ctx sequenceId w caller
  | .operate op now, ⟨.holding s, stage⟩ =>
    if stage.usable then
      (w, ⟨.holding { s with copy := Sequence.Op.apply now s.copy op }, stage⟩)
    else (w, ⟨.holding s, stage⟩)
  | .save ctx delivery, ⟨.holding s, stage⟩ =>
    if stage.usable then save ctx delivery stage w s else (w, ⟨.holding s, stage⟩)
  | .request ctx taskQueue startInput delivery runId, ⟨.holding s, stage⟩ =>
    if stage.usable then request ctx taskQueue startInput delivery runId w s
    else (w, ⟨.holding s, stage⟩)
  | .finish delivery now, ⟨.holding s, .requested ctx result⟩ => finish ctx result delivery now w s
  | _, caller => (w, caller)

def init (row : Row Sequence.Props) : Interleave.Config (World ι) Caller :=
  ⟨⟨⟨row, []⟩, []⟩, fun _ => ⟨.idle, .idle⟩⟩

/-! ## What the operations leave -/

/-- What names the sequence. -/
structure Identity where
  id : String
  tenantId : String
  workspaceId : String
deriving DecidableEq

def identity (s : Sequence.Props) : Identity := ⟨s.id, s.tenantId, s.workspaceId⟩

/-- Both sequences are the same one, linked alike. -/
def SameLink (s t : Sequence.Props) : Prop :=
  identity s = identity t ∧ s.workflowId = t.workflowId

theorem SameLink.transition {a b : Sequence} (h : SameLink b.state a.state)
    (target : Sequence.Status) (reason decidedBy : Option String) (now : Date) :
    SameLink (Sequence.transition b target reason decidedBy now).1.state a.state := by
  unfold Sequence.transition
  split <;> exact h

theorem startStep_sameLink (a : Sequence) (executionId : String) (scheduledAt : Date) :
    SameLink (Sequence.startStep a executionId scheduledAt).1.state a.state := by
  unfold Sequence.startStep
  split
  · exact ⟨rfl, rfl⟩
  · split
    · exact ⟨rfl, rfl⟩
    · split <;> exact ⟨rfl, rfl⟩

theorem completeStep_sameLink (a : Sequence) (executionId : String) (nextDueAt : Option Date)
    (now : Date) :
    SameLink (Sequence.completeStep a executionId nextDueAt now).1.state a.state := by
  unfold Sequence.completeStep
  split
  · exact ⟨rfl, rfl⟩
  · dsimp only
    split
    · exact ⟨rfl, rfl⟩
    · split
      · exact ⟨rfl, rfl⟩
      · refine SameLink.transition ?_ _ _ _ now
        exact ⟨rfl, rfl⟩

theorem failStep_sameLink (a : Sequence) (executionId reason : String) (retryable : Bool)
    (now : Date) :
    SameLink (Sequence.failStep a executionId reason retryable now).1.state a.state := by
  unfold Sequence.failStep
  split
  · exact ⟨rfl, rfl⟩
  · split
    · exact ⟨rfl, rfl⟩
    · dsimp only
      split
      · exact ⟨rfl, rfl⟩
      · refine SameLink.transition ?_ _ _ _ now
        exact ⟨rfl, rfl⟩

/-- Only `linkWorkflow` touches the link. -/
theorem apply_sameLink (now : Date) (op : Sequence.Op) (a : Sequence)
    (h : ∀ workflowId, op ≠ .linkWorkflow workflowId) :
    SameLink (op.apply now a).state a.state := by
  cases op with
  | startStep executionId scheduledAt => exact startStep_sameLink a executionId scheduledAt
  | completeStep executionId nextDueAt => exact completeStep_sameLink a executionId nextDueAt now
  | failStep executionId reason retryable =>
    exact failStep_sameLink a executionId reason retryable now
  | waitForResponse deadline =>
    show SameLink (Sequence.waitForResponse a deadline now).1.state a.state
    unfold Sequence.waitForResponse
    split
    · exact ⟨rfl, rfl⟩
    · refine SameLink.transition ?_ _ _ _ now
      exact ⟨rfl, rfl⟩
  | linkWorkflow workflowId => exact absurd rfl (h workflowId)
  | _ =>
    refine SameLink.transition ?_ _ _ _ now
    exact ⟨rfl, rfl⟩

/-- `linkWorkflow` links an unlinked sequence, links one again to its workflow and refuses any other
one. -/
theorem linkWorkflow_cases (a : Sequence) (workflowId : String) (now : Date) :
    ((blank a.state.workflowId = true ∨ a.state.workflowId = some workflowId) ∧
      (Sequence.linkWorkflow a workflowId now).2 = .ok ∧
      (Sequence.linkWorkflow a workflowId now).1.version = a.version + 1 ∧
      (Sequence.linkWorkflow a workflowId now).1.loadedVersion = a.loadedVersion ∧
      identity (Sequence.linkWorkflow a workflowId now).1.state = identity a.state ∧
      (Sequence.linkWorkflow a workflowId now).1.state.workflowId = some workflowId) ∨
    (blank a.state.workflowId = false ∧ a.state.workflowId ≠ some workflowId ∧
      ∃ message, Sequence.linkWorkflow a workflowId now = (a, .fail message)) := by
  unfold Sequence.linkWorkflow
  by_cases h : !blank a.state.workflowId ∧ a.state.workflowId ≠ some workflowId
  · rw [if_pos h]
    exact .inr ⟨by simpa using h.1, h.2, _, rfl⟩
  · rw [if_neg h]
    refine .inl ⟨?_, rfl, rfl, rfl, rfl, rfl⟩
    by_contra hnot
    push Not at hnot
    exact h ⟨by simpa using hnot.1, hnot.2⟩

theorem forOutreachSequence_ne_empty (tenantId sequenceId : String) :
    forOutreachSequence tenantId sequenceId ≠ "" := by
  intro h
  have hlength := congrArg String.length h
  unfold forOutreachSequence at hlength
  simp [String.length_append] at hlength
  exact absurd hlength.1.1.1 (by decide)

/-- A link lasts. -/
theorem lasting_link {workflowId : String} (hne : workflowId ≠ "") :
    store.Lasting fun s => Sequence.Props.workflowId s = some workflowId := by
  have hblank : blank (some workflowId) = false := by simpa [blank] using hne
  constructor
  · rintro ⟨op, now⟩ (a : Sequence) (ha : a.state.workflowId = some workflowId)
    show (op.apply now a).state.workflowId = some workflowId
    by_cases hlink : ∃ w, op = .linkWorkflow w
    · obtain ⟨w, rfl⟩ := hlink
      rcases linkWorkflow_cases a w now with ⟨hor, -, -, -, -, hw⟩ | ⟨-, -, message, h⟩
      · rw [ha, hblank] at hor
        rcases hor with hor | hor
        · cases hor
        · exact hw.trans hor.symm
      · show (Sequence.linkWorkflow a w now).1.state.workflowId = some workflowId
        rw [h]
        exact ha
    · rw [(apply_sameLink now op a fun w hw => hlink ⟨w, hw⟩).2]
      exact ha
  · rintro ⟨op, now⟩ (a : Sequence) (ha : a.state.workflowId ≠ some workflowId) hafter
    have hafter : (op.apply now a).state.workflowId = some workflowId := hafter
    show a.version < (op.apply now a).version
    by_cases hlink : ∃ w, op = .linkWorkflow w
    · obtain ⟨w, rfl⟩ := hlink
      have hafter : (Sequence.linkWorkflow a w now).1.state.workflowId = some workflowId := hafter
      rcases linkWorkflow_cases a w now with ⟨-, -, hv, -⟩ | ⟨-, -, message, h⟩
      · show a.version < (Sequence.linkWorkflow a w now).1.version
        omega
      · rw [h] at hafter
        exact absurd hafter ha
    · rw [(apply_sameLink now op a fun w hw => hlink ⟨w, hw⟩).2] at hafter
      exact absurd hafter ha

/-! ## What a step does -/

/-- A save throws and leaves the rows, or stores the copy. -/
theorem save_cases (ctx : RepositoryContext) (delivery : Delivery) (after : Stage) (w : World ι)
    (s : LostUpdate.Session store) :
    (∃ message, save ctx delivery after w s = (w, ⟨.holding s, .threw message⟩)) ∨
    (ownership ctx s.copy.state = .ok () ∧ ∃ row, w.rows.row.swap s.copy = some row ∧
      ∃ stage, (stage = after ∨ ∃ m, stage = .threw m) ∧
        save ctx delivery after w s = ({ w with rows := (LostUpdate.save w.rows s).1 },
          ⟨(LostUpdate.save w.rows s).2, stage⟩)) := by
  unfold save
  cases ownership ctx s.copy.state with
  | error message => exact .inl ⟨message, rfl⟩
  | ok _ =>
    cases hswap : w.rows.row.swap s.copy with
    | none => cases delivery <;> exact .inl ⟨_, rfl⟩
    | some row =>
      cases delivery with
      | lost message => exact .inl ⟨message, rfl⟩
      | unanswered message => exact .inr ⟨rfl, row, rfl, _, .inr ⟨message, rfl⟩, rfl⟩
      | answered => exact .inr ⟨rfl, row, rfl, _, .inl rfl, rfl⟩

/-- What a save that succeeds stores. -/
theorem save_stores {rows : LostUpdate.World store} {s : LostUpdate.Session store}
    {row : Row store.State} (h : rows.row.swap s.copy = some row) :
    (LostUpdate.save rows s).1.row.payload = s.copy.state ∧
      (LostUpdate.save rows s).2 =
        .holding ⟨s.copy.setVersion s.copy.version, s.copy.state⟩ := by
  unfold LostUpdate.save
  rw [h]
  unfold Row.swap at h
  split at h
  · obtain rfl := Option.some.inj h
    exact ⟨rfl, rfl⟩
  · cases h

theorem tenantId_of_ownership {ctx : RepositoryContext} {s : Sequence.Props}
    (h : ownership ctx s = .ok ()) : s.tenantId = ctx.tenantId := by
  unfold ownership at h
  split at h
  · cases h
  next heq => exact not_not.mp heq

/-- What a request asks the server for. -/
def execution (taskQueue : Option String) (ctx : RepositoryContext) (s : Sequence.Props)
    (startInput : ι) (runId : String) : Execution (WorkflowInput ι) :=
  ⟨"OutreachSequenceWorkflow", taskQueue.getD "outreach-execution", workflowIdOf ctx s,
    ⟨ctx.tenantId, s.workspaceId, ctx.correlationId, s.id, startInput⟩, runId⟩

/-- A request throws, or the server has the workflow it answers with. -/
theorem requestStart_cases (server : Server (WorkflowInput ι)) (delivery : Delivery)
    (runId : String) (taskQueue : Option String) (ctx : RepositoryContext) (s : Sequence.Props)
    (startInput : ι) :
    let x := requestStart server delivery runId taskQueue ctx s startInput
    let y := server.start (execution taskQueue ctx s startInput runId)
    (x.1 = server ∨ x.1 = y.1) ∧ ∀ answer, x.2 = .ok answer →
      x.1 = y.1 ∧ answer.workflowId = workflowIdOf ctx s ∧ (answer.status = .started ↔ y.2 = true) := by
  have hne : workflowIdOf ctx s ≠ "" := forOutreachSequence_ne_empty ctx.tenantId s.id
  unfold requestStart start
  dsimp only [Option.getD_some]
  rw [if_neg hne]
  cases delivery with
  | lost message => exact ⟨.inl rfl, fun answer h => nomatch h⟩
  | unanswered message => exact ⟨.inr rfl, fun answer h => nomatch h⟩
  | answered =>
    refine ⟨.inr rfl, fun answer h => ⟨rfl, ?_⟩⟩
    obtain rfl := Except.ok.inj h
    split
    next haccepted => exact ⟨rfl, iff_of_true rfl haccepted⟩
    next hrefused => exact ⟨rfl, iff_of_false (fun h => nomatch h) hrefused⟩

/-! ## The rows alone

The callers are writers of one versioned row, so every run of theirs is one of the writers. -/

/-- The writers and their row. -/
def view (c : Interleave.Config (World ι) Caller) :
    Interleave.Config (LostUpdate.World store) (LostUpdate.Pc store) :=
  ⟨c.world.rows, fun i => (c.pc i).copy⟩

/-- What writer `i` does to the row and its copy. -/
def writes (i : Nat) (actions : List (LostUpdate.Action store))
    (x : LostUpdate.World store × LostUpdate.Pc store) :
    LostUpdate.World store × LostUpdate.Pc store :=
  actions.foldl (fun x action => LostUpdate.step store i action x.1 x.2) x

theorem save_writes (i : Nat) (ctx : RepositoryContext) (delivery : Delivery) (after : Stage)
    (w : World ι) (s : LostUpdate.Session store) :
    ∃ actions, writes i actions (w.rows, .holding s) =
      ((save ctx delivery after w s).1.rows, (save ctx delivery after w s).2.copy) := by
  rcases save_cases ctx delivery after w s with ⟨message, h⟩ | ⟨-, row, -, stage, -, h⟩
  · exact ⟨[], by rw [h]; rfl⟩
  · exact ⟨[.save], by rw [h]; rfl⟩

theorem finish_writes (i : Nat) (ctx : RepositoryContext) (result : WorkflowStartResult)
    (delivery : Delivery) (now : Date) (w : World ι) (s : LostUpdate.Session store) :
    ∃ actions, writes i actions (w.rows, .holding s) =
      ((finish ctx result delivery now w s).1.rows,
        (finish ctx result delivery now w s).2.copy) := by
  unfold finish
  split
  · exact ⟨[], rfl⟩
  · exact ⟨[], rfl⟩
  next sequence hlink =>
    obtain ⟨actions, h⟩ := save_writes i ctx delivery
      (.returned ⟨result.status, result.workflowId, result.runId⟩) w { s with copy := sequence }
    refine ⟨.operate (.linkWorkflow result.workflowId, now) :: actions, ?_⟩
    have happly : store.apply (.linkWorkflow result.workflowId, now) s.copy = sequence :=
      congrArg Prod.fst hlink
    rw [← h, ← happly]
    rfl

theorem step_writes (i : Nat) (input : Input ι) (w : World ι) (caller : Caller) :
    ∃ actions, writes i actions (w.rows, caller.copy) =
      ((step i input w caller).1.rows, (step i input w caller).2.copy) := by
  unfold step
  split
  · unfold load
    split
    · exact ⟨[.load], rfl⟩
    · exact ⟨[], rfl⟩
  next op now s stage =>
    split
    · exact ⟨[.operate (op.1, now)], rfl⟩
    · exact ⟨[], rfl⟩
  next ctx delivery s stage =>
    split
    · exact save_writes i ctx delivery stage w s
    · exact ⟨[], rfl⟩
  · split
    · exact ⟨[], rfl⟩
    · exact ⟨[], rfl⟩
  next delivery now s ctx result => exact finish_writes i ctx result delivery now w s
  · exact ⟨[], rfl⟩

/-- A step is some steps of the writers. -/
theorem view_step (c : Interleave.Config (World ι) Caller) (a : Tick (Input ι)) :
    ∃ ticks, view (c.step step a) = run (LostUpdate.step store) (view c) ticks := by
  obtain ⟨actions, h⟩ := step_writes a.call a.input c.world (c.pc a.call)
  refine ⟨actions.map (⟨a.call, ·⟩), ?_⟩
  rw [run_alone]
  have hfold : actions.foldl (fun x e => LostUpdate.step store a.call e x.1 x.2)
      ((view c).world, (view c).pc a.call) = _ := h
  rw [hfold]
  unfold view Interleave.Config.step
  congr 1
  funext i
  by_cases hi : i = a.call
  · subst hi
    simp
  · simp [hi]

/-! ## The invariant -/

section

variable {p : Sequence.Props} {w w' : World ι} {caller caller' : Caller}

/-- The workflow of the sequence `p`. -/
def ownId (p : Sequence.Props) : String :=
  forOutreachSequence p.tenantId p.id

def Started (server : Server (WorkflowInput ι)) (workflowId : String) : Prop :=
  ∃ e ∈ server, e.workflowId = workflowId

/-- A sequence is linked to nothing, or to its own workflow, which the server has. -/
def Confirmed (p : Sequence.Props) (server : Server (WorkflowInput ι)) (s : Sequence.Props) : Prop :=
  s.workflowId = none ∨ s.workflowId = some (ownId p) ∧ Started server (ownId p)

/-- No execution is there twice, and each was started for this sequence. -/
structure ServerOk (p : Sequence.Props) (server : Server (WorkflowInput ι)) : Prop where
  once : (server.map Execution.workflowId).Nodup
  args : ∀ e ∈ server, e.args.sequenceId = p.id ∧ e.args.workspaceId = p.workspaceId ∧
    e.workflowId = forOutreachSequence e.args.tenantId p.id

structure WorldOk (p : Sequence.Props) (w : World ι) : Prop where
  server : ServerOk p w.server
  same : identity w.rows.row.payload = identity p
  confirmed : Confirmed p w.server w.rows.row.payload

/-- The workflow a call was answered to have started. -/
def Stage.starts : Stage → Option String
  | requested _ result => if result.status = .started then some result.workflowId else none
  | returned result => if result.status = .started then some result.workflowId else none
  | _ => none

/-- The copy of a call that has failed is not used again. -/
def Stage.alive : Stage → Bool
  | returnedNull | threw _ => false
  | _ => true

structure CallerOk (p : Sequence.Props) (w : World ι) (caller : Caller) : Prop where
  same : ∀ s, caller.copy = .holding s → identity s.copy.state = identity p
  /-- A call that threw may leave its copy linked to another workflow. -/
  confirmed : ∀ s, caller.copy = .holding s → caller.stage.alive = true →
    Confirmed p w.server s.copy.state
  requested : ∀ ctx result, caller.stage = .requested ctx result →
    result.workflowId = forOutreachSequence ctx.tenantId p.id ∧
      Started w.server result.workflowId
  returned : ∀ result, caller.stage = .returned result →
    result.workflowId = ownId p ∧ w.rows.row.payload.workflowId = some (ownId p)

/-- What holds after a step of a caller, and what the others may rely on. -/
structure StepOk (p : Sequence.Props) (w : World ι) (caller : Caller) (w' : World ι)
    (caller' : Caller) : Prop where
  world : WorldOk p w'
  moved : CallerOk p w' caller'
  server : ∀ workflowId, Started w.server workflowId → Started w'.server workflowId
  fresh : ∀ workflowId, caller'.stage.starts = some workflowId →
    caller.stage.starts = some workflowId ∨ ¬ Started w.server workflowId

/-- The link of the row, once it is there, stays. -/
def KeepsLink (p : Sequence.Props) (w w' : World ι) : Prop :=
  w.rows.row.payload.workflowId = some (ownId p) →
    w'.rows.row.payload.workflowId = some (ownId p)

theorem Confirmed.mono {server server' : Server (WorkflowInput ι)} {s : Sequence.Props}
    (h : Confirmed p server s)
    (hserver : ∀ workflowId, Started server workflowId → Started server' workflowId) :
    Confirmed p server' s := h.imp id fun ⟨hlink, hstarted⟩ => ⟨hlink, hserver _ hstarted⟩

/-- A caller that does not move stays right. -/
theorem CallerOk.mono (h : CallerOk p w caller)
    (hserver : ∀ workflowId, Started w.server workflowId → Started w'.server workflowId)
    (hlink : KeepsLink p w w') : CallerOk p w' caller where
  same := h.same
  confirmed s hs hstage := (h.confirmed s hs hstage).mono hserver
  requested ctx result hstage := by
    obtain ⟨hid, hstarted⟩ := h.requested ctx result hstage
    exact ⟨hid, hserver _ hstarted⟩
  returned result hstage := by
    obtain ⟨hid, hrow⟩ := h.returned result hstage
    exact ⟨hid, hlink hrow⟩

/-- What a caller was told to have started, the server has. -/
theorem CallerOk.started (h : CallerOk p w caller) (hw : WorldOk p w) {workflowId : String}
    (hstarts : caller.stage.starts = some workflowId) : Started w.server workflowId := by
  unfold Stage.starts at hstarts
  split at hstarts
  next ctx result hstage =>
    split at hstarts
    · obtain rfl := Option.some.inj hstarts
      exact (h.requested ctx result hstage).2
    · cases hstarts
  next result hstage =>
    split at hstarts
    · obtain rfl := Option.some.inj hstarts
      obtain ⟨hid, hrow⟩ := h.returned result hstage
      rw [hid]
      rcases hw.confirmed with hnone | ⟨-, hstarted⟩
      · rw [hrow] at hnone
        cases hnone
      · exact hstarted
    · cases hstarts
  · cases hstarts

/-- A caller that throws. -/
theorem StepOk.threw (hw : WorldOk p w) {s : LostUpdate.Session store}
    (hs : identity s.copy.state = identity p) (message : String) :
    StepOk p w caller w ⟨.holding s, .threw message⟩ where
  world := hw
  moved :=
    { same := by
        rintro _ ⟨⟩
        exact hs
      confirmed := fun _ _ h => nomatch h
      requested := fun _ _ h => nomatch h
      returned := fun _ h => nomatch h }
  server _ h := h
  fresh _ h := nomatch h

theorem StepOk.refl (hw : WorldOk p w) (hcaller : CallerOk p w caller) :
    StepOk p w caller w caller := ⟨hw, hcaller, fun _ h => h, fun _ h => .inl h⟩

theorem step_load (hw : WorldOk p w) (hcaller : CallerOk p w caller) (ctx : RepositoryContext)
    (sequenceId : String) :
    StepOk p w caller (load ctx sequenceId w caller).1 (load ctx sequenceId w caller).2 := by
  unfold load
  split
  · refine ⟨hw, ?_, fun _ h => h, fun _ h => nomatch h⟩
    refine ⟨?_, ?_, fun _ _ h => (nomatch h), fun _ h => nomatch h⟩
    · rintro _ ⟨⟩
      exact hw.same
    · rintro _ ⟨⟩ -
      exact hw.confirmed
  · refine ⟨hw, ?_, fun _ h => h, fun _ h => nomatch h⟩
    exact ⟨hcaller.same, fun _ _ h => (nomatch h), fun _ _ h => (nomatch h), fun _ h => nomatch h⟩

theorem step_save (hw : WorldOk p w) {ctx : RepositoryContext} {delivery : Delivery}
    {after : Stage} {s : LostUpdate.Session store}
    (hs : identity s.copy.state = identity p)
    (hconfirmed : ownership ctx s.copy.state = .ok () → Confirmed p w.server s.copy.state)
    (hrequested : ∀ ctx result, after ≠ .requested ctx result)
    (hreturned : ∀ result, after = .returned result → ownership ctx s.copy.state = .ok () →
      result.workflowId = ownId p ∧ (w.rows.row.payload.workflowId = some (ownId p) ∨
        s.copy.state.workflowId = some (ownId p)))
    (hstarts : ∀ workflowId, after.starts = some workflowId →
      caller.stage.starts = some workflowId)
    (hlink : KeepsLink p w (save ctx delivery after w s).1) :
    StepOk p w caller (save ctx delivery after w s).1 (save ctx delivery after w s).2 := by
  rcases save_cases ctx delivery after w s with ⟨message, h⟩ | ⟨hown, row, hswap, stage, hstage, h⟩
  · rw [h]
    exact .threw hw hs message
  · rw [h] at hlink ⊢
    obtain ⟨hrow, hcopy⟩ := save_stores hswap
    have hconf := hconfirmed hown
    constructor
    · refine ⟨hw.server, ?_, ?_⟩
      · show identity (LostUpdate.save w.rows s).1.row.payload = identity p
        rw [hrow]
        exact hs
      · show Confirmed p w.server (LostUpdate.save w.rows s).1.row.payload
        rw [hrow]
        exact hconf
    · constructor
      · intro t ht
        rw [hcopy] at ht
        obtain rfl := LostUpdate.Pc.holding.inj ht
        exact hs
      · intro t ht _
        rw [hcopy] at ht
        obtain rfl := LostUpdate.Pc.holding.inj ht
        exact hconf
      · intro ctx' result hst
        rcases hstage with rfl | ⟨m, rfl⟩
        · exact absurd hst (hrequested ctx' result)
        · cases hst
      · intro result hst
        rcases hstage with rfl | ⟨m, rfl⟩
        · obtain ⟨hid, hor⟩ := hreturned result hst hown
          refine ⟨hid, hor.elim hlink fun hcopied => ?_⟩
          show Sequence.Props.workflowId (LostUpdate.save w.rows s).1.row.payload = _
          rw [hrow]
          exact hcopied
        · cases hst
    · exact fun _ h => h
    · intro workflowId hst
      rcases hstage with rfl | ⟨m, rfl⟩
      · exact .inl (hstarts workflowId hst)
      · cases hst

theorem step_operate (hw : WorldOk p w) {s : LostUpdate.Session store} {stage : Stage}
    (hcaller : CallerOk p w ⟨.holding s, stage⟩)
    (op : { op : Sequence.Op // ∀ workflowId, op ≠ .linkWorkflow workflowId }) (now : Date) :
    StepOk p w ⟨.holding s, stage⟩ w
      ⟨.holding { s with copy := Sequence.Op.apply now s.copy op }, stage⟩ := by
  obtain ⟨hsame, hlink⟩ := apply_sameLink now op.1 s.copy op.2
  refine ⟨hw, ?_, fun _ h => h, fun _ h => .inl h⟩
  refine ⟨?_, ?_, hcaller.requested, hcaller.returned⟩
  · rintro _ ⟨⟩
    exact hsame.trans (hcaller.same s rfl)
  · rintro _ ⟨⟩ halive
    unfold Confirmed
    rw [hlink]
    exact hcaller.confirmed s rfl halive

/-- A start keeps the executions apart. -/
theorem ServerOk.start {server : Server (WorkflowInput ι)} (h : ServerOk p server)
    {e : Execution (WorkflowInput ι)}
    (he : e.args.sequenceId = p.id ∧ e.args.workspaceId = p.workspaceId ∧
      e.workflowId = forOutreachSequence e.args.tenantId p.id) :
    ServerOk p (server.start e).1 ∧
      (∀ workflowId, Started server workflowId → Started (server.start e).1 workflowId) ∧
      Started (server.start e).1 e.workflowId ∧
      ((server.start e).2 = true → ¬ Started server e.workflowId) := by
  have hany : server.any (·.workflowId = e.workflowId) = true ↔ Started server e.workflowId := by
    simp [Started]
  unfold Server.start
  by_cases hstarted : Started server e.workflowId
  · rw [if_pos (hany.mpr hstarted)]
    exact ⟨h, fun _ h => h, hstarted, fun h => nomatch h⟩
  · rw [if_neg (fun h => hstarted (hany.mp h))]
    refine ⟨⟨?_, ?_⟩, ?_, ⟨e, List.mem_append_right _ List.mem_cons_self, rfl⟩, fun _ => hstarted⟩
    · rw [List.map_append, List.nodup_append]
      refine ⟨h.once, List.nodup_singleton _, ?_⟩
      rintro _ hid _ hown rfl
      obtain ⟨d, hd, hdid⟩ := List.mem_map.mp hid
      exact hstarted ⟨d, hd, hdid.trans (List.mem_singleton.mp hown)⟩
    · intro d hd
      rcases List.mem_append.mp hd with hd | hd
      · exact h.args d hd
      · rw [List.mem_singleton.mp hd]
        exact he
    · rintro workflowId ⟨d, hd, hid⟩
      exact ⟨d, List.mem_append_left _ hd, hid⟩

theorem step_request (hw : WorldOk p w) {s : LostUpdate.Session store} {stage : Stage}
    (hcaller : CallerOk p w ⟨.holding s, stage⟩) (halive : stage.alive = true)
    (ctx : RepositoryContext) (taskQueue : Option String) (startInput : ι) (delivery : Delivery)
    (runId : String) :
    StepOk p w ⟨.holding s, stage⟩ (request ctx taskQueue startInput delivery runId w s).1
      (request ctx taskQueue startInput delivery runId w s).2 := by
  have hsame := hcaller.same s rfl
  have hid : Sequence.Props.id s.copy.state = p.id := congrArg Identity.id hsame
  have hown : workflowIdOf ctx s.copy.state =
      forOutreachSequence ctx.tenantId p.id := by rw [← hid]; rfl
  obtain ⟨hserver, hgrows, hstarted, hfresh⟩ := hw.server.start
    (e := execution taskQueue ctx s.copy.state startInput runId)
    ⟨hid, congrArg Identity.workspaceId hsame, hown⟩
  obtain ⟨hor, hanswer⟩ := requestStart_cases w.server delivery runId taskQueue ctx s.copy.state
    startInput
  unfold request
  generalize requestStart w.server delivery runId taskQueue ctx s.copy.state startInput = answer
    at hor hanswer ⊢
  obtain ⟨server', result⟩ := answer
  dsimp only at hor hanswer ⊢
  have hgrows' : ∀ workflowId, Started w.server workflowId → Started server' workflowId := by
    rcases hor with rfl | rfl
    · exact fun _ h => h
    · exact hgrows
  have hserver' : ServerOk p server' := by
    rcases hor with rfl | rfl
    · exact hw.server
    · exact hserver
  have hworld : WorldOk p { w with server := server' } :=
    ⟨hserver', hw.same, hw.confirmed.mono hgrows'⟩
  cases result with
  | error message =>
    refine ⟨hworld, ?_, hgrows', fun _ h => nomatch h⟩
    refine ⟨?_, fun _ _ h => (nomatch h), fun _ _ h => (nomatch h), fun _ h => nomatch h⟩
    rintro _ ⟨⟩
    exact hsame
  | ok answer =>
    obtain ⟨rfl, hanswerid, hstatus⟩ := hanswer answer rfl
    refine ⟨hworld, ?_, hgrows', ?_⟩
    · refine ⟨?_, ?_, ?_, fun _ h => nomatch h⟩
      · rintro _ ⟨⟩
        exact hsame
      · rintro _ ⟨⟩ -
        exact (hcaller.confirmed s rfl halive).mono hgrows
      · rintro _ _ ⟨⟩
        rw [hanswerid]
        exact ⟨hown, hstarted⟩
    · intro workflowId hst
      unfold Stage.starts at hst
      dsimp only at hst
      split at hst
      next hst' =>
        obtain rfl := Option.some.inj hst
        rw [hanswerid]
        exact .inr (hfresh (hstatus.mp hst'))
      · cases hst

theorem step_finish (hw : WorldOk p w) {s : LostUpdate.Session store} {ctx : RepositoryContext}
    {result : WorkflowStartResult}
    (hcaller : CallerOk p w ⟨.holding s, .requested ctx result⟩) (delivery : Delivery) (now : Date)
    (hlink : KeepsLink p w (finish ctx result delivery now w s).1) :
    StepOk p w ⟨.holding s, .requested ctx result⟩ (finish ctx result delivery now w s).1
      (finish ctx result delivery now w s).2 := by
  have hsame := hcaller.same s rfl
  obtain ⟨hid, hstarted⟩ := hcaller.requested ctx result rfl
  have hcases := linkWorkflow_cases s.copy result.workflowId now
  unfold finish at hlink ⊢
  rcases hcases with ⟨-, hok, -, -, hident, hlinked⟩ | ⟨-, -, message, h⟩
  · generalize Sequence.linkWorkflow s.copy result.workflowId now = linked
      at hok hident hlinked hlink ⊢
    obtain ⟨sequence, _⟩ := linked
    obtain rfl := hok
    dsimp only at hident hlinked hlink ⊢
    -- the copy is this sequence, so a context that may save it names its workflow
    have hown : ownership ctx sequence.state = .ok () → result.workflowId = ownId p := by
      intro how
      have htenant := (tenantId_of_ownership how).symm.trans
        (congrArg Identity.tenantId (hident.trans hsame))
      rw [hid, htenant]
      rfl
    refine step_save hw (hident.trans hsame) ?_ (fun _ _ h => (nomatch h)) ?_ ?_ hlink
    · intro how
      rw [hown how] at hlinked hstarted
      exact .inr ⟨hlinked, hstarted⟩
    · rintro _ ⟨⟩ how
      refine ⟨hown how, .inr ?_⟩
      rw [hown how] at hlinked
      exact hlinked
    · exact fun _ h => h
  · rw [h]
    exact .threw hw hsame _

/-- Every step of a caller keeps the world and the caller right. -/
theorem step_ok (i : Nat) (input : Input ι) (hw : WorldOk p w) (hcaller : CallerOk p w caller)
    (hlink : KeepsLink p w (step i input w caller).1) :
    StepOk p w caller (step i input w caller).1 (step i input w caller).2 := by
  unfold step at hlink ⊢
  split
  next ctx sequenceId => exact step_load hw hcaller ctx sequenceId
  next op now s stage =>
    split
    · exact step_operate hw hcaller op now
    · exact .refl hw hcaller
  next ctx delivery s stage =>
    dsimp only at hlink
    split
    next husable =>
      rw [if_pos husable] at hlink
      have halive : stage.alive = true := by
        cases stage with
        | idle | returned _ => rfl
        | _ => cases husable
      refine step_save hw (hcaller.same s rfl) (fun _ => hcaller.confirmed s rfl halive) ?_ ?_
        (fun _ h => h) hlink
      · rintro _ _ rfl
        cases husable
      · intro result hst _
        obtain ⟨hid, hrow⟩ := hcaller.returned result hst
        exact ⟨hid, .inl hrow⟩
    · exact .refl hw hcaller
  next ctx taskQueue startInput delivery runId s stage =>
    split
    next husable =>
      have halive : stage.alive = true := by
        cases stage with
        | idle | returned _ => rfl
        | _ => cases husable
      exact step_request hw hcaller halive ctx taskQueue startInput delivery runId
    · exact .refl hw hcaller
  next delivery now s ctx result => exact step_finish hw hcaller delivery now hlink
  · exact .refl hw hcaller

end

structure Inv (p : Sequence.Props) (c : Interleave.Config (World ι) Caller) : Prop where
  aware : LostUpdate.AllAware (fun s => Sequence.Props.workflowId s = some (ownId p)) (view c)
  world : WorldOk p c.world
  callers : ∀ i, CallerOk p c.world (c.pc i)
  /-- No two calls were told to have started the same workflow. -/
  starters : ∀ i j workflowId, i ≠ j → (c.pc i).stage.starts = some workflowId →
    (c.pc j).stage.starts ≠ some workflowId

theorem inv_init (row : Row Sequence.Props) (hrow : row.payload.workflowId = none) :
    Inv row.payload (init row : Interleave.Config (World ι) Caller) where
  aware _ _ h := nomatch h
  world := ⟨⟨List.nodup_nil, fun _ h => nomatch h⟩, rfl, .inl hrow⟩
  callers _ := ⟨fun _ h => (nomatch h), fun _ h => (nomatch h), fun _ _ h => (nomatch h),
    fun _ h => nomatch h⟩
  starters _ _ _ _ h := nomatch h

/-- The callers know of the link what they have to, and it stays. -/
theorem aware_step {p : Sequence.Props} {c : Interleave.Config (World ι) Caller}
    (h : LostUpdate.AllAware (fun s => Sequence.Props.workflowId s = some (ownId p)) (view c))
    (a : Tick (Input ι)) :
    LostUpdate.AllAware (fun s => Sequence.Props.workflowId s = some (ownId p))
        (view (c.step step a)) ∧ KeepsLink p c.world (c.step step a).world := by
  obtain ⟨ticks, hview⟩ := view_step c a
  have hlasting := lasting_link (forOutreachSequence_ne_empty p.tenantId p.id)
  have hstep := fun d b => LostUpdate.lasting_step (c := d) Repository.sequences.lawful hlasting b
  let Linked (d : Interleave.Config (LostUpdate.World store) (LostUpdate.Pc store)) :=
    LostUpdate.AllAware (fun s => Sequence.Props.workflowId s = some (ownId p)) d ∧
      Sequence.Props.workflowId d.world.row.payload = some (ownId p)
  constructor
  · rw [hview]
    exact run_invariant (fun d b hd => (hstep d b hd).1) h
  · intro hrow
    have hboth : ∀ d b, Linked d → Linked (d.step (LostUpdate.step store) b) :=
      fun d b hd => ⟨(hstep d b hd.1).1, (hstep d b hd.1).2 hd.2⟩
    have hrow' := (run_invariant hboth (s := ticks) ⟨h, hrow⟩).2
    rw [← hview] at hrow'
    exact hrow'

theorem inv_step {p : Sequence.Props} (c : Interleave.Config (World ι) Caller) (a : Tick (Input ι))
    (h : Inv p c) : Inv p (c.step step a) := by
  obtain ⟨haware, hlink⟩ := aware_step h.aware a
  have hok := step_ok a.call a.input h.world (h.callers a.call) hlink
  refine ⟨haware, hok.world, ?_, ?_⟩
  · intro i
    by_cases hi : i = a.call
    · subst hi
      rw [Interleave.Config.step_pc_self]
      exact hok.moved
    · rw [Interleave.Config.step_pc_ne step c hi]
      exact (h.callers i).mono hok.server hlink
  · -- the caller that moves is told so only if the server did not have the workflow
    have hmoved : ∀ j workflowId, j ≠ a.call →
        ((c.step step a).pc a.call).stage.starts = some workflowId →
        (c.pc j).stage.starts ≠ some workflowId := by
      intro j workflowId hj hst hst'
      rw [Interleave.Config.step_pc_self] at hst
      rcases hok.fresh workflowId hst with hbefore | hfresh
      · exact h.starters a.call j workflowId (Ne.symm hj) hbefore hst'
      · exact hfresh ((h.callers j).started h.world hst')
    intro i j workflowId hij hst hst'
    by_cases hi : i = a.call
    · subst hi
      rw [Interleave.Config.step_pc_ne step c (Ne.symm hij)] at hst'
      exact hmoved j workflowId (Ne.symm hij) hst hst'
    · rw [Interleave.Config.step_pc_ne step c hi] at hst
      by_cases hj : j = a.call
      · subst hj
        exact hmoved i workflowId hi hst' hst
      · rw [Interleave.Config.step_pc_ne step c hj] at hst'
        exact h.starters i j workflowId hij hst hst'

/-! ## The law -/

/-- What holds of the sequence `p` and its workflow. -/
structure Sound (p : Sequence.Props) (c : Interleave.Config (World ι) Caller) : Prop where
  /-- No workflow is started twice. -/
  once : (c.world.server.map Execution.workflowId).Nodup
  /-- A link is to the workflow of the sequence, which was started with it. -/
  linked : ∀ workflowId, c.world.rows.row.payload.workflowId = some workflowId →
    workflowId = ownId p ∧ ∃ e ∈ c.world.server, e.workflowId = workflowId ∧
      e.args.tenantId = p.tenantId ∧ e.args.workspaceId = p.workspaceId ∧
      e.args.sequenceId = p.id
  /-- A call that has returned left the link, and it is still there. -/
  returned : ∀ i result, (c.pc i).stage = .returned result →
    result.workflowId = ownId p ∧
      c.world.rows.row.payload.workflowId = some result.workflowId
  /-- At most one of them reports that it started the workflow. -/
  starter : ∀ i j result result', i ≠ j → (c.pc i).stage = .returned result →
    (c.pc j).stage = .returned result' → result.status = .started →
    result'.status = .alreadyRunning

theorem tenantId_of_forOutreachSequence {tenantId tenantId' sequenceId : String}
    (h : forOutreachSequence tenantId sequenceId =
      forOutreachSequence tenantId' sequenceId) : tenantId = tenantId' := by
  unfold forOutreachSequence at h
  have hfront := String.append_left_inj _ |>.mp h
  have hstart := String.append_left_inj _ |>.mp hfront
  exact String.append_right_inj _ |>.mp hstart

theorem Inv.sound {p : Sequence.Props} {c : Interleave.Config (World ι) Caller} (h : Inv p c) :
    Sound p c := by
  have hreturned : ∀ i result, (c.pc i).stage = .returned result → result.workflowId = ownId p :=
    fun i result hst => ((h.callers i).returned result hst).1
  refine ⟨h.world.server.once, ?_, ?_, ?_⟩
  · intro workflowId hrow
    rcases h.world.confirmed with hnone | ⟨hown, e, he, hid⟩
    · rw [hrow] at hnone
      cases hnone
    · rw [hrow] at hown
      obtain rfl := Option.some.inj hown
      obtain ⟨hsequence, hworkspace, htenant⟩ := h.world.server.args e he
      exact ⟨rfl, e, he, hid, tenantId_of_forOutreachSequence (htenant.symm.trans hid),
        hworkspace, hsequence⟩
  · intro i result hst
    obtain ⟨hid, hrow⟩ := (h.callers i).returned result hst
    rw [hid]
    exact ⟨rfl, hrow⟩
  · intro i j result result' hij hst hst' hstarted
    cases hstatus : result'.status with
    | alreadyRunning => rfl
    | started =>
      have hi : (c.pc i).stage.starts = some (ownId p) := by
        rw [hst, ← hreturned i result hst]
        exact if_pos hstarted
      have hj : (c.pc j).stage.starts = some (ownId p) := by
        rw [hst', ← hreturned j result' hst']
        exact if_pos hstatus
      exact absurd hj (h.starters i j _ hij hi)

/-- A stored sequence that no workflow runs. -/
def approvedSequence : Row Sequence.Props :=
  ⟨{ id := "seq-1", tenantId := "t1", workspaceId := "ws1", campaignId := "camp-1",
     leadId := "lead-1", contactId := "contact-1", recipientProtectionState := .legacyUnavailable,
     steps := [], status := .approved, createdAt := 0, updatedAt := 0 }, 3⟩

def operator : RepositoryContext := ⟨"t1", "ws1", "corr-1"⟩

/-- Two callers load the sequence and ask for its workflow; the answer to the first is lost. -/
def raced : List (Tick (Input Unit)) :=
  [⟨0, .load operator "seq-1"⟩, ⟨1, .load operator "seq-1"⟩,
    ⟨0, .request operator none () (.unanswered "deadline exceeded") "run-1"⟩,
    ⟨1, .request operator none () .answered "run-2"⟩, ⟨1, .finish .answered 5⟩]

/-- `loadAndStartWorkflow` by a caller that nobody disturbs and every system answers. -/
def undisturbed (ctx : RepositoryContext) (sequenceId : String) (taskQueue : Option String)
    (startInput : ι) (runId : String) (now : Date) : List (Input ι) :=
  [.load ctx sequenceId, .request ctx taskQueue startInput .answered runId, .finish .answered now]

/-- A request that is answered leads to the link. -/
theorem request_answered (ctx : RepositoryContext) (taskQueue : Option String) (startInput : ι)
    (runId : String) (w : World ι) (s : LostUpdate.Session store) :
    ∃ server result, request ctx taskQueue startInput .answered runId w s =
        ({ w with server }, ⟨.holding s, .requested ctx result⟩) ∧
      result.workflowId = workflowIdOf ctx s.copy.state := by
  unfold request requestStart start
  dsimp only [Option.getD_some]
  have hne : workflowIdOf ctx s.copy.state ≠ "" := forOutreachSequence_ne_empty ctx.tenantId _
  rw [if_neg hne]
  refine ⟨_, _, rfl, ?_⟩
  split <;> rfl

/-- The save of a copy that is up to date succeeds. -/
theorem save_answered {ctx : RepositoryContext} (after : Stage) {w : World ι}
    {s : LostUpdate.Session store} (hown : ownership ctx s.copy.state = .ok ())
    (hversion : s.copy.loadedVersion = some w.rows.row.version) :
    (save ctx .answered after w s).2.stage = after ∧
      (save ctx .answered after w s).1.rows.row.payload = s.copy.state := by
  have hswap : w.rows.row.swap s.copy = some ⟨s.copy.state, s.copy.version⟩ := by
    unfold Row.swap
    rw [if_pos hversion]
  unfold save
  rw [hown, hswap]
  exact ⟨rfl, (save_stores hswap).1⟩

theorem undisturbed_returns {p : Sequence.Props} {w : World ι} (hw : WorldOk p w) (i : Nat)
    (caller : Caller) {ctx : RepositoryContext} (htenant : ctx.tenantId = p.tenantId)
    (hworkspace : ctx.workspaceId = p.workspaceId) (taskQueue : Option String) (startInput : ι)
    (runId : String) (now : Date) :
    let x := (undisturbed ctx p.id taskQueue startInput runId now).foldl
      (fun x input => step i input x.1 x.2) (w, caller)
    (∃ result, x.2.stage = .returned result ∧ result.workflowId = ownId p) ∧
      x.1.rows.row.payload.workflowId = some (ownId p) := by
  have hid : Sequence.Props.id w.rows.row.payload = p.id := congrArg Identity.id hw.same
  have htenant' : Sequence.Props.tenantId w.rows.row.payload = ctx.tenantId :=
    (congrArg Identity.tenantId hw.same).trans htenant.symm
  have hworkspace' : Sequence.Props.workspaceId w.rows.row.payload = ctx.workspaceId :=
    (congrArg Identity.workspaceId hw.same).trans hworkspace.symm
  let s : LostUpdate.Session store :=
    ⟨.reconstitute w.rows.row.payload w.rows.row.version, w.rows.row.payload⟩
  have hload : step i (.load ctx p.id : Input ι) w caller = (w, ⟨.holding s, .idle⟩) :=
    if_pos (by simp [selects, hid, htenant', hworkspace'])
  obtain ⟨server, result, hrequest, hresult⟩ :=
    request_answered ctx taskQueue startInput runId w s
  have hown : result.workflowId = ownId p := by
    rw [hresult]
    show forOutreachSequence ctx.tenantId
      (Sequence.Props.id w.rows.row.payload) = _
    rw [hid, htenant]
    rfl
  have hasked : step i (.request ctx taskQueue startInput .answered runId) w
      ⟨.holding s, .idle⟩ = ({ w with server }, ⟨.holding s, .requested ctx result⟩) := hrequest
  simp only [undisturbed, List.foldl_cons, List.foldl_nil, hload, hasked]
  show (∃ result', (finish ctx result .answered now { w with server } s).2.stage =
      .returned result' ∧ _) ∧
    Sequence.Props.workflowId (finish ctx result .answered now { w with server } s).1.rows.row.payload
      = _
  -- the copy is as the row, so it is linked to nothing else
  rcases linkWorkflow_cases s.copy result.workflowId now with
    ⟨-, hok, -, hl, hident, hlinked⟩ | ⟨hblank, hne, -⟩
  · unfold finish
    generalize Sequence.linkWorkflow s.copy result.workflowId now = linked at hok hl hident hlinked ⊢
    obtain ⟨sequence, _⟩ := linked
    obtain rfl := hok
    dsimp only at hl hident hlinked ⊢
    have hownership : ownership ctx sequence.state = .ok () := by
      have htenant'' : sequence.state.tenantId = ctx.tenantId :=
        (congrArg Identity.tenantId hident).trans htenant'
      have hworkspace'' : sequence.state.workspaceId = ctx.workspaceId :=
        (congrArg Identity.workspaceId hident).trans hworkspace'
      unfold ownership
      rw [if_neg (not_not_intro htenant''), if_neg (not_not_intro hworkspace'')]
    obtain ⟨hstage, hrow⟩ := save_answered
      (.returned ⟨result.status, result.workflowId, result.runId⟩) (w := { w with server })
      (s := { s with copy := sequence }) hownership hl
    refine ⟨⟨_, hstage, hown⟩, ?_⟩
    rw [hrow, ← hown]
    exact hlinked
  · rcases hw.confirmed with hnone | ⟨hrow, -⟩
    · have hcopy : s.copy.state.workflowId = none := hnone
      rw [hcopy] at hblank
      cases hblank
    · rw [hown] at hne
      exact absurd hrow hne

/-- **Whatever failed before, a call that runs undisturbed returns, and the sequence is linked to
its workflow for good.** -/
theorem retry_links (row : Row Sequence.Props) (hrow : row.payload.workflowId = none)
    (schedule later : List (Tick (Input ι))) (i : Nat) {ctx : RepositoryContext}
    (htenant : ctx.tenantId = row.payload.tenantId)
    (hworkspace : ctx.workspaceId = row.payload.workspaceId) (taskQueue : Option String)
    (startInput : ι) (runId : String) (now : Date) :
    let c := run step (init row) (schedule ++
      (undisturbed ctx row.payload.id taskQueue startInput runId now).map (⟨i, ·⟩))
    (∃ result, (c.pc i).stage = .returned result ∧ result.workflowId = ownId row.payload) ∧
      (run step c later).world.rows.row.payload.workflowId = some (ownId row.payload) := by
  intro c
  have hinv : Inv row.payload (run step (init row) schedule) :=
    run_invariant inv_step (inv_init row hrow)
  have hc : Inv row.payload c := run_invariant inv_step (inv_init row hrow)
  obtain ⟨⟨result, hstage, hid⟩, hlinked⟩ := undisturbed_returns hinv.world i
    ((run step (init row) schedule).pc i) htenant hworkspace taskQueue startInput runId now
  have heq : c = _ := (run_append step (init row) schedule _).trans (run_alone step i _ _)
  constructor
  · refine ⟨result, ?_, hid⟩
    rw [heq]
    simpa using hstage
  · have hstep : ∀ (d : Interleave.Config (World ι) Caller) (a : Tick (Input ι)), Inv row.payload d ∧
        d.world.rows.row.payload.workflowId = some (ownId row.payload) →
        Inv row.payload (d.step step a) ∧
          (d.step step a).world.rows.row.payload.workflowId = some (ownId row.payload) :=
      fun d a hd => ⟨inv_step d a hd.1, (aware_step hd.1.aware a).2 hd.2⟩
    refine (run_invariant hstep ⟨hc, ?_⟩).2
    rw [heq]
    exact hlinked

theorem retry_links_raced :
    let c := run step (init approvedSequence) (raced ++
      (undisturbed operator "seq-1" none () "run-3" 9).map (⟨0, ·⟩))
    (∃ result, (c.pc 0).stage = .returned result ∧
      result.workflowId = ownId approvedSequence.payload) ∧
      (run step c [⟨1, .save operator .answered⟩]).world.rows.row.payload.workflowId =
        some (ownId approvedSequence.payload) :=
  retry_links approvedSequence rfl raced [⟨1, .save operator .answered⟩] 0 rfl rfl none () "run-3" 9

end VegaRevenue.Outreach.SequenceLifecycle
