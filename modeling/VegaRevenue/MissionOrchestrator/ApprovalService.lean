import VegaRevenue.Domain.Approval
import VegaRevenue.Lib.Copies
import VegaRevenue.Lib.Interleave

/-!
# Decisions on approvals and their signals

Any number of calls that approve, reject or expire an approval, each of which loads it, saves it and
signals the workflow behind it, interleaved over the stored approvals.

* `signalWorkflow` — the signal of a decision
* `next` — one step of a call
* `followsDecisions_iff` — a run signals as it was decided iff no refusal of an approval with a
  sequence gets as far as its signal
* `reject_signals_granted` — the rejection of such an approval is signalled as a grant
-/

namespace VegaRevenue.ApprovalService

open Interleave Versioned
open Approval (Props Status)

/-- The tenant of the caller, and the workspace where it has one. -/
structure TenantContext where
  tenantId : String
  workspaceId : Option String

/-! ## The repository -/

/-- The rows under the tenant and the id. -/
abbrev Approvals := Table (String × String) Props

/-- The columns of the row go over what its payload says. -/
def restore (key : String × String) (row : Row Props) : Approval :=
  .reconstitute { row.payload with tenantId := key.1, id := key.2 } row.version

def load (rows : Approvals) (ctx : TenantContext) (approvalId : String) : Option Approval :=
  if blank ctx.workspaceId then none
  else
    match rows.find (ctx.tenantId, approvalId) with
    | none => none
    | some row =>
      if row.payload.workspaceId = ctx.workspaceId then
        some (restore (ctx.tenantId, approvalId) row)
      else none

def ownershipMismatch (ctx : TenantContext) (approval : Approval) : Bool :=
  blank ctx.workspaceId || approval.state.workspaceBindingState ≠ .workspaceBound ||
    approval.state.workspaceId ≠ ctx.workspaceId || approval.state.tenantId ≠ ctx.tenantId

/-- The stored row under this key is one of the workspace. -/
def inWorkspace (rows : Approvals) (ctx : TenantContext) (approvalId : String) : Bool :=
  (rows.find (ctx.tenantId, approvalId)).all (·.payload.workspaceId = ctx.workspaceId)

def save (rows : Approvals) (ctx : TenantContext) (approval : Approval) :
    Except String Approvals :=
  if ownershipMismatch ctx approval then .error "Approval workspace ownership mismatch"
  else if approval.loadedVersion.isSome && !inWorkspace rows ctx approval.state.id then
    .error "Stale approval or wrong workspace"
  else
    match rows.save (ctx.tenantId, approval.state.id) approval with
    | some rows' => .ok rows'
    | none =>
      .error (if approval.loadedVersion.isSome then "Stale approval or wrong workspace"
        else "Approval already exists")

/-! ## The service -/

structure SubmitApprovalDecisionCommand where
  approvalId : String
  actorId : String
  reason : String

inductive Request where
  | approve (cmd : SubmitApprovalDecisionCommand)
  | reject (cmd : SubmitApprovalDecisionCommand)
  | timeout (approvalId : String)

namespace Request

def approvalId : Request → String
  | approve cmd | reject cmd => cmd.approvalId
  | timeout approvalId => approvalId

/-- The decision that is signalled, and the status the approval is to take. -/
def decision : Request → Status
  | approve _ => .approved
  | reject _ => .rejected
  | timeout _ => .expired

def reason : Request → String
  | approve cmd | reject cmd => cmd.reason
  | timeout _ => "Approval timeout exceeded"

/-- What a refusal of the aggregate is reported as. -/
def refusal (request : Request) (message : String) : String :=
  match request with
  | approve _ => "Cannot approved approval: " ++ message
  | reject _ => "Cannot rejected approval: " ++ message
  | timeout _ => "Cannot expire approval: " ++ message

def apply (request : Request) (approval : Approval) (now : Date) : Approval × OpResult :=
  match request with
  | approve cmd => approval.approve cmd.actorId cmd.reason now
  | reject cmd => approval.reject cmd.actorId cmd.reason now
  | timeout _ => approval.expire now

end Request

def loadApproval (rows : Approvals) (ctx : TenantContext) (approvalId : String) :
    Except String Approval :=
  if blank ctx.workspaceId then .error "Workspace access denied"
  else
    match load rows ctx approvalId with
    | none => .error "Approval access denied"
    | some approval =>
      if approval.state.workspaceBindingState ≠ .workspaceBound ∨
          approval.state.workspaceId ≠ ctx.workspaceId then .error "Approval access denied"
      else if ctx.tenantId ≠ approval.state.tenantId then .error "Cross-tenant access detected"
      else .ok approval

namespace WorkflowIdFactory

def forOutreachSequence (tenantId sequenceId : String) : String :=
  s!"outreach-sequence-v1-{tenantId}-{sequenceId}"

def forMission (tenantId missionId : String) : String := s!"mission-v1-{tenantId}-{missionId}"

end WorkflowIdFactory

inductive SignalPayload where
  | outreach (executionId : Option String) (approvalId : String)
  | decision (approvalId decision reason : String)

structure Signal where
  workflowId : String
  tenantId : String
  signalName : String
  payload : SignalPayload

def signalWorkflow (approval : Approval) (decision : Status) (reason : String) : Signal :=
  let p := approval.state
  if blank p.sequenceId then
    ⟨WorkflowIdFactory.forMission p.tenantId p.missionId, p.tenantId, "approvalDecision",
      .decision p.id decision.name reason⟩
  else
    ⟨WorkflowIdFactory.forOutreachSequence p.tenantId (p.sequenceId.getD ""), p.tenantId,
      "outreachApprovalGranted", .outreach p.executionId p.id⟩

/-- A workflow goes on with the action at this signal. -/
def Signal.grants (s : Signal) : Bool :=
  match s.payload with
  | .outreach _ _ => s.signalName = "outreachApprovalGranted"
  | .decision _ decision _ => s.signalName = "approvalDecision" && decision = "APPROVED"

/-! ## Calls -/

/-- A save that was committed, and a signal that was sent. -/
inductive Entry where
  | saved (call : Nat) (key : String × String) (status : Status)
  | signalled (call : Nat) (key : String × String) (signal : Signal)

/-- The stored approvals, and what the calls did, the latest first. -/
structure World where
  approvals : Approvals
  log : List Entry := []

structure Input where
  now : Date
  /-- The operation that is awaited throws and does nothing. -/
  fault : Option String := none
  /-- It does what it has to, then throws. -/
  unanswered : Option String := none

structure Call where
  ctx : TenantContext
  request : Request

/-- What a call waits for. -/
inductive Pc where
  | load (call : Call)
  | save (call : Call) (approval : Approval)
  | signal (call : Call) (approval : Approval)
  | returned
  | threw (message : String)

def Call.key (call : Call) (approval : Approval) : String × String :=
  (call.ctx.tenantId, approval.state.id)

def Call.signal (call : Call) (approval : Approval) : Signal :=
  signalWorkflow approval call.request.decision call.request.reason

/-- `decide` and `timeout` on the approval that was loaded. -/
def Call.decide (call : Call) (now : Date) (loaded : Except String Approval) : Pc :=
  match loaded with
  | .error message => .threw message
  | .ok approval =>
    match call.request.apply approval now with
    | (approval, .ok) => .save call approval
    | (_, .fail message) | (_, .threw message) => .threw (call.request.refusal message)

/-- One step that is not refused at once. -/
def proceed (i : Nat) (input : Input) (w : World) : Pc → World × Pc
  | .load call =>
    (w, call.decide input.now (loadApproval w.approvals call.ctx call.request.approvalId))
  | .save call approval =>
    match save w.approvals call.ctx approval with
    | .error message => (w, .threw message)
    | .ok approvals =>
      (⟨approvals, .saved i (call.key approval) approval.state.status :: w.log⟩,
        match input.unanswered with
        | some message => .threw message
        | none => .signal call (approval.setVersion approval.version))
  | .signal call approval =>
    ({ w with log := .signalled i (call.key approval) (call.signal approval) :: w.log },
      match input.unanswered with
      | some message => .threw message
      | none => .returned)
  | p => (w, p)

def Pc.isEnded : Pc → Bool
  | returned | threw _ => true
  | _ => false

def next : Stepper World Pc Input := fun i input w p =>
  match input.fault with
  | some message => (w, if p.isEnded then p else .threw message)
  | none => proceed i input w p

/-- Nothing has run yet. -/
def start (approvals : Approvals) (calls : Nat → Call) : Interleave.Config World Pc :=
  ⟨{ approvals }, fun i => .load (calls i)⟩

/-! ## The law -/

/-- Every signal comes after a save of the same call, and a grant after one that left the approval
APPROVED. -/
def SignalsFollow : List Entry → Prop
  | [] => True
  | .saved _ _ _ :: log => SignalsFollow log
  | .signalled i key signal :: log =>
    (∃ status, .saved i key status ∈ log ∧ (signal.grants = true → status = .approved)) ∧
      SignalsFollow log

/-- What was granted is APPROVED, and neither rejected nor expired. -/
def GrantedApproved (w : World) : Prop :=
  ∀ i key signal, .signalled i key signal ∈ w.log → signal.grants = true →
    ∃ row, w.approvals.find key = some row ∧ row.payload.status = .approved

structure FollowsDecisions (w : World) : Prop where
  signals : SignalsFollow w.log
  approved : GrantedApproved w

/-- A refusal of an approval with a sequence is signalled. -/
def SignalsRefusal (c : Interleave.Config World Pc) (a : Tick Input) : Prop :=
  match c.pc a.call with
  | .signal call approval =>
    a.input.fault = none ∧ blank approval.state.sequenceId = false ∧
      call.request.decision ≠ .approved
  | _ => False

/-! ## What is signalled and saved -/

/-- **A grant is signalled for an approval with a sequence, whatever was decided, and else for an
approved one.** -/
theorem signalWorkflow_grants (approval : Approval) (request : Request) (reason : String) :
    (signalWorkflow approval request.decision reason).grants = true ↔
      blank approval.state.sequenceId = false ∨ request.decision = .approved := by
  have hname : request.decision.name = "APPROVED" ↔ request.decision = .approved := by
    cases request <;> simp [Request.decision, Status.name]
  simp only [signalWorkflow]
  cases hblank : blank approval.state.sequenceId with
  | true => simp [Signal.grants, hname]
  | false => simp [Signal.grants]

theorem transition_ok {a b : Approval} {status : Status} {decidedBy : Option String}
    {reason : String} {now : Date} (h : a.transition status decidedBy reason now = (b, .ok)) :
    Approval.canTransition a.state.status status = true ∧ b.state.status = status ∧
      b.state.id = a.state.id ∧ b.loadedVersion = a.loadedVersion ∧ b.version = a.version + 1 := by
  unfold Approval.transition at h
  split at h
  next hcan =>
    obtain ⟨rfl, -⟩ := Prod.mk.inj h
    exact ⟨hcan, rfl, rfl, rfl, rfl⟩
  · cases (Prod.mk.inj h).2

theorem Request.apply_ok {request : Request} {a b : Approval} {now : Date}
    (h : request.apply a now = (b, .ok)) :
    Approval.canTransition a.state.status request.decision = true ∧
      b.state.status = request.decision ∧ b.state.id = a.state.id ∧
      b.loadedVersion = a.loadedVersion ∧ b.version = a.version + 1 := by
  cases request with
  | approve cmd => exact transition_ok h
  | reject cmd => exact transition_ok h
  | timeout approvalId => exact transition_ok h

/-- A status that is decided does not change any more. -/
theorem final_decision (request : Request) : request.decision.transitions = [] := by
  cases request <;> rfl

theorem not_final_of_canTransition {s t : Status} (h : Approval.canTransition s t = true) :
    s.transitions ≠ [] := by
  intro hfinal
  rw [Approval.canTransition, hfinal] at h
  cases h

/-- A decided approval stays as it is. -/
def Keeps (s t : Status) : Prop := s.transitions = [] → t = s

/-- The row is stored under the key, at its version or a later one. -/
abbrev Evolves (r r' : Row Props) : Prop := r.Evolves (·.status) (fun _ => ()) Keeps r'

/-- The copy was loaded from the row, maybe long ago. -/
abbrev IsCopy (r : Row Props) (a : Approval) : Prop := Copy (·.status) (fun _ => ()) r a

theorem loadApproval_ok {rows : Approvals} {ctx : TenantContext} {approvalId : String}
    {a : Approval} (h : loadApproval rows ctx approvalId = .ok a) :
    a.state.id = approvalId ∧ ∃ r, rows.find (ctx.tenantId, approvalId) = some r ∧ IsCopy r a ∧
      a.state.status = r.payload.status ∧ Fresh r a := by
  unfold loadApproval at h
  split at h
  · cases h
  · split at h
    · cases h
    next b hload =>
      unfold load at hload
      split at hload
      · cases hload
      · split at hload
        · cases hload
        next row hrow =>
          split at hload
          · obtain rfl := Option.some.inj hload
            split at h
            · cases h
            · split at h
              · cases h
              · obtain rfl := Except.ok.inj h
                exact ⟨rfl, row, hrow, Copy.load rfl rfl, rfl, rfl⟩
          · cases hload

theorem save_ok {rows rows' : Approvals} {ctx : TenantContext} {a : Approval}
    (h : save rows ctx a = .ok rows') :
    rows.save (ctx.tenantId, a.state.id) a = some rows' := by
  unfold save at h
  split at h
  · cases h
  · split at h
    · cases h
    · split at h
      next hsaved =>
        obtain rfl := Except.ok.inj h
        exact hsaved
      · cases h

/-! ## What the calls know -/

/-- The log says nothing else about the save of call `i` than this status. -/
def SavedAs (i : Nat) (status : Option Status) (log : List Entry) : Prop :=
  ∀ key s, .saved i key s ∈ log → status = some s

/-- A call knows the row of its approval. It has saved nothing before its save, and after it the
row is as it was decided. -/
def Knows (i : Nat) (w : World) : Pc → Prop
  | .load _ => SavedAs i none w.log
  | .save call approval =>
    SavedAs i none w.log ∧ approval.state.status = call.request.decision ∧
      ∃ r, w.approvals.find (call.key approval) = some r ∧ IsCopy r approval ∧
        (Fresh r approval → r.payload.status.transitions ≠ [])
  | .signal call approval =>
    SavedAs i (some call.request.decision) w.log ∧
      .saved i (call.key approval) call.request.decision ∈ w.log ∧
      ∃ r, w.approvals.find (call.key approval) = some r ∧ r.payload.status = call.request.decision
  | _ => True

/-- What other calls do to the world of call `i`. -/
structure Moves (i : Nat) (w w' : World) : Prop where
  rows : ∀ key r, w.approvals.find key = some r →
    ∃ r', w'.approvals.find key = some r' ∧ Evolves r r'
  log : ∃ new, w'.log = new ++ w.log ∧ ∀ key s, .saved i key s ∉ new

theorem evolves_refl (r : Row Props) : Evolves r r := Row.Evolves.refl (fun _ _ => rfl) r

theorem SavedAs.moves {i : Nat} {w w' : World} {status : Option Status}
    (h : SavedAs i status w.log) (hw : Moves i w w') : SavedAs i status w'.log := by
  obtain ⟨new, hlog, hnew⟩ := hw.log
  intro key s hs
  rw [hlog] at hs
  rcases List.mem_append.mp hs with hs | hs
  · exact absurd hs (hnew key s)
  · exact h key s hs

/-- **What a call knows stays true while others move.** -/
theorem Knows.moves {i : Nat} {w w' : World} {p : Pc} (h : Knows i w p) (hw : Moves i w w') :
    Knows i w' p := by
  cases p with
  | load call => exact SavedAs.moves h hw
  | save call approval =>
    obtain ⟨hsaved, hstatus, r, hr, hcopy, hopen⟩ := h
    obtain ⟨r', hr', hevolves⟩ := hw.rows _ r hr
    refine ⟨hsaved.moves hw, hstatus, r', hr', hcopy.evolve hevolves, fun hfresh => ?_⟩
    exact Fresh.evolve (Q := fun s => s.transitions ≠ []) hcopy hevolves hopen hfresh
  | signal call approval =>
    obtain ⟨hsaved, hmem, r, hr, hstatus⟩ := h
    obtain ⟨r', hr', hevolves⟩ := hw.rows _ r hr
    obtain ⟨new, hlog, -⟩ := hw.log
    refine ⟨hsaved.moves hw, ?_, r', hr', ?_⟩
    · rw [hlog]
      exact List.mem_append_right _ hmem
    · have hfinal : r.payload.status.transitions = [] := by
        rw [hstatus]
        exact final_decision call.request
      exact (hevolves.moves hfinal).trans hstatus
  | returned => trivial
  | threw message => trivial

/-! ## One step -/

/-- What a step does to the world, and where the call goes. -/
inductive Effect (i : Nat) (input : Input) (w : World) (p : Pc) : World × Pc → Prop where
  | ends {p' : Pc} (hended : p'.isEnded = true)
      (hquiet : ∀ call approval, p = .signal call approval → input.fault ≠ none) :
      Effect i input w p (w, p')
  | loads (call : Call) (a b : Approval) (hp : p = .load call)
      (hload : loadApproval w.approvals call.ctx call.request.approvalId = .ok a)
      (happly : call.request.apply a input.now = (b, .ok)) : Effect i input w p (w, .save call b)
  | saves (call : Call) (approval : Approval) (hp : p = .save call approval) (rows : Approvals)
      (hsave : w.approvals.save (call.key approval) approval = some rows) {p' : Pc}
      (hp' : p'.isEnded = true ∨ p' = .signal call (approval.setVersion approval.version)) :
      Effect i input w p
        (⟨rows, .saved i (call.key approval) approval.state.status :: w.log⟩, p')
  | signals (call : Call) (approval : Approval) (hp : p = .signal call approval)
      (hfault : input.fault = none) {p' : Pc} (hended : p'.isEnded = true) :
      Effect i input w p
        ({ w with log := .signalled i (call.key approval) (call.signal approval) :: w.log }, p')

theorem decide_cases (call : Call) (now : Date) (loaded : Except String Approval) :
    (call.decide now loaded).isEnded = true ∨ ∃ a b, loaded = .ok a ∧
      call.request.apply a now = (b, .ok) ∧ call.decide now loaded = .save call b := by
  unfold Call.decide
  cases loaded with
  | error message => exact .inl rfl
  | ok a =>
    dsimp only
    split
    next b h => exact .inr ⟨a, b, rfl, h, rfl⟩
    · exact .inl rfl
    · exact .inl rfl

theorem effect_next (i : Nat) (input : Input) (w : World) (p : Pc) :
    Effect i input w p (next i input w p) := by
  unfold next
  cases hfault : input.fault with
  | some message =>
    have hquiet : ∀ call approval, p = .signal call approval → input.fault ≠ none := by
      intro call approval hp
      rw [hfault]
      simp
    dsimp only
    split
    next hended => exact .ends hended hquiet
    · exact .ends rfl hquiet
  | none =>
    cases p with
    | load call =>
      simp only [proceed]
      rcases decide_cases call input.now
          (loadApproval w.approvals call.ctx call.request.approvalId) with
        hended | ⟨a, b, hload, happly, h⟩
      · exact .ends hended (by simp)
      · rw [h]
        exact .loads call a b rfl hload happly
    | save call approval =>
      simp only [proceed]
      split
      · exact .ends rfl (by simp)
      next rows hsave =>
        refine .saves call approval rfl rows (save_ok hsave) ?_
        cases input.unanswered with
        | some message => exact .inl rfl
        | none => exact .inr rfl
    | signal call approval =>
      refine .signals call approval rfl hfault ?_
      cases input.unanswered with
      | some message => rfl
      | none => rfl
    | returned => exact .ends rfl (by simp)
    | threw message => exact .ends rfl (by simp)

theorem knows_of_isEnded {i : Nat} {w : World} {p : Pc} (h : p.isEnded = true) :
    Knows i w p := by
  cases p with
  | returned => trivial
  | threw message => trivial
  | load call => cases h
  | save call approval => cases h
  | signal call approval => cases h

/-- A save of a copy makes the rows evolve. -/
theorem evolves_save {rows rows' : Approvals} {key : String × String} {a : Approval} {r : Row Props}
    (hsave : rows.save key a = some rows') (hr : rows.find key = some r) (hcopy : IsCopy r a)
    (hopen : Fresh r a → r.payload.status.transitions ≠ []) :
    ∀ key' r₀, rows.find key' = some r₀ →
      ∃ r', rows'.find key' = some r' ∧ Evolves r₀ r' := by
  intro key' r₀ hr₀
  by_cases hkey : key' = key
  · subst hkey
    obtain rfl := Option.some.inj (hr.symm.trans hr₀)
    rw [Table.save_eq_swap hr] at hsave
    obtain ⟨r', hswap, rfl⟩ := Option.map_eq_some_iff.mp hsave
    refine ⟨r', Table.find_replace_self r' hr, ?_⟩
    exact (hcopy.swap (fun hfresh hfinal => absurd hfinal (hopen hfresh)) hswap).1
  · exact ⟨r₀, (Table.find_save_ne hsave hkey).trans hr₀, evolves_refl r₀⟩

/-- What a step does is a move of the world for every other call. -/
theorem Effect.moves {i j : Nat} {input : Input} {w : World} {p : Pc} {r : World × Pc}
    (h : Effect i input w p r) (hknows : Knows i w p) (hne : j ≠ i) : Moves j w r.1 := by
  cases h with
  | ends hended hquiet => exact ⟨fun _ r₀ hr₀ => ⟨r₀, hr₀, evolves_refl r₀⟩, [], rfl, by simp⟩
  | loads call a b hp hload happly =>
    exact ⟨fun _ r₀ hr₀ => ⟨r₀, hr₀, evolves_refl r₀⟩, [], rfl, by simp⟩
  | saves call approval hp rows hsave hp' =>
    subst hp
    obtain ⟨-, -, row, hrow, hcopy, hopen⟩ := hknows
    refine ⟨evolves_save hsave hrow hcopy hopen, [_], rfl, ?_⟩
    intro key s hmem
    cases List.mem_singleton.mp hmem
    exact hne rfl
  | signals call approval hp hfault hended =>
    exact ⟨fun _ r₀ hr₀ => ⟨r₀, hr₀, evolves_refl r₀⟩, [_], rfl, by simp⟩

/-- What the call that moves knows afterwards. -/
theorem Effect.knows {i : Nat} {input : Input} {w : World} {p : Pc} {r : World × Pc}
    (h : Effect i input w p r) (hknows : Knows i w p) : Knows i r.1 r.2 := by
  cases h with
  | ends hended hquiet => exact knows_of_isEnded hended
  | loads call a b hp hload happly =>
    subst hp
    obtain ⟨hid, row, hrow, hcopy, hstatus, hfresh⟩ := loadApproval_ok hload
    obtain ⟨hcan, hb, hbid, hloaded, hversion⟩ := Request.apply_ok happly
    refine ⟨hknows, hb, row, ?_, ?_, fun _ => ?_⟩
    · rw [Call.key, hbid, hid]
      exact hrow
    · refine hcopy.op hloaded (by omega) (fun heq => ?_) rfl
      omega
    · rw [← hstatus]
      exact not_final_of_canTransition hcan
  | saves call approval hp rows hsave hp' =>
    subst hp
    obtain ⟨hsaved, hstatus, -⟩ := hknows
    rcases hp' with hended | rfl
    · exact knows_of_isEnded hended
    · refine ⟨?_, ?_, _, Table.find_save_self hsave, hstatus⟩
      · intro key s hmem
        rcases List.mem_cons.mp hmem with heq | hmem
        · cases heq
          rw [hstatus]
        · exact absurd (hsaved key s hmem) (by simp)
      · rw [← hstatus]
        exact List.mem_cons_self
  | signals call approval hp hfault hended => exact knows_of_isEnded hended

/-- A step keeps what all calls know. -/
theorem knows_step (c : Interleave.Config World Pc) (a : Tick Input) (h : Each Knows c) :
    Each Knows (c.step next a) := by
  have heffect := effect_next a.call a.input c.world (c.pc a.call)
  refine h.step (heffect.knows (h a.call)) fun j p hj hp => ?_
  exact hp.moves (heffect.moves (h a.call) hj)

/-! ## Runs -/

/-- Only a call that is about to signal can signal a refusal. -/
theorem not_signalsRefusal {c : Interleave.Config World Pc} {a : Tick Input}
    (h : ∀ call approval, c.pc a.call = .signal call approval → a.input.fault ≠ none) :
    ¬ SignalsRefusal c a := by
  unfold SignalsRefusal
  split
  next call approval hp => exact fun hrefusal => h call approval hp hrefusal.1
  · exact not_false

/-- **A step signals as it was decided iff it does not signal the refusal of an approval with a
sequence.** -/
theorem signalsFollow_step {c : Interleave.Config World Pc} (hknows : Each Knows c)
    (a : Tick Input) : SignalsFollow (c.step next a).world.log ↔
      SignalsFollow c.world.log ∧ ¬ SignalsRefusal c a := by
  have hown := hknows a.call
  have heffect := effect_next a.call a.input c.world (c.pc a.call)
  rw [Config.step_world]
  generalize next a.call a.input c.world (c.pc a.call) = r at heffect
  cases heffect with
  | ends hended hquiet => simp [not_signalsRefusal hquiet]
  | loads call b b' hp hload happly =>
    simp [not_signalsRefusal (c := c) (a := a) fun _ _ hp' => by simp [hp] at hp']
  | saves call approval hp rows hsave hp' =>
    simp [SignalsFollow,
      not_signalsRefusal (c := c) (a := a) fun _ _ hp' => by simp [hp] at hp']
  | signals call approval hp hfault hended =>
    rw [hp] at hown
    obtain ⟨hsaved, hmem, -⟩ := hown
    have hgrants := signalWorkflow_grants approval call.request call.request.reason
    simp only [SignalsRefusal, hp, hfault, true_and, SignalsFollow]
    constructor
    · rintro ⟨⟨status, hstored, himp⟩, hlog⟩
      obtain rfl := Option.some.inj (hsaved _ _ hstored)
      exact ⟨hlog, fun hrefusal => hrefusal.2 (himp (hgrants.mpr (.inl hrefusal.1)))⟩
    · rintro ⟨hlog, hnot⟩
      refine ⟨⟨_, hmem, fun hg => ?_⟩, hlog⟩
      rcases hgrants.mp hg with hsequence | hdecision
      · by_contra hne
        exact hnot ⟨hsequence, hne⟩
      · exact hdecision

theorem signalsFollow_run (s : List (Tick Input)) {c : Interleave.Config World Pc}
    (hknows : Each Knows c) : SignalsFollow (run next c s).world.log ↔
      SignalsFollow c.world.log ∧ Meets next (fun c a => ¬ SignalsRefusal c a) c s := by
  induction s generalizing c with
  | nil => simp [Meets]
  | cons a s ih =>
    rw [run_cons, Meets, ih (knows_step c a hknows), signalsFollow_step hknows, and_assoc]

/-- A step without such a refusal grants what is APPROVED, and that stays so. -/
theorem grantedApproved_step {c : Interleave.Config World Pc} {a : Tick Input}
    (hknows : Each Knows c) (h : GrantedApproved c.world) (hnot : ¬ SignalsRefusal c a) :
    GrantedApproved (c.step next a).world := by
  have hown := hknows a.call
  have heffect := effect_next a.call a.input c.world (c.pc a.call)
  rw [Config.step_world]
  generalize next a.call a.input c.world (c.pc a.call) = r at heffect
  cases heffect with
  | ends hended hquiet => exact h
  | loads call b b' hp hload happly => exact h
  | saves call approval hp rows hsave hp' =>
    rw [hp] at hown
    obtain ⟨-, -, row, hrow, hcopy, hopen⟩ := hown
    intro i key signal hmem hgrants
    rcases List.mem_cons.mp hmem with heq | hmem
    · cases heq
    · obtain ⟨r, hr, hstatus⟩ := h i key signal hmem hgrants
      obtain ⟨r', hr', hevolves⟩ := evolves_save hsave hrow hcopy hopen key r hr
      have hfinal : r.payload.status.transitions = [] := by rw [hstatus]; rfl
      exact ⟨r', hr', (hevolves.moves hfinal).trans hstatus⟩
  | signals call approval hp hfault hended =>
    rw [hp] at hown
    obtain ⟨-, -, r, hr, hstatus⟩ := hown
    simp only [SignalsRefusal, hp, hfault, true_and] at hnot
    intro i key signal hmem hgrants
    rcases List.mem_cons.mp hmem with heq | hmem
    · cases heq
      rcases (signalWorkflow_grants approval call.request _).mp hgrants with hsequence | hdecision
      · by_contra hne
        refine hnot ⟨hsequence, fun hdecision => hne ⟨r, hr, hstatus.trans hdecision⟩⟩
      · exact ⟨r, hr, hstatus.trans hdecision⟩
    · exact h i key signal hmem hgrants

theorem knows_start (approvals : Approvals) (calls : Nat → Call) :
    Each Knows (start approvals calls) := fun i key s hmem => by cases hmem

/-- **In every run of any calls on any approvals, the signals follow the decisions iff no rejection
or timeout of an approval with a sequence is signalled.** -/
theorem followsDecisions_iff (approvals : Approvals) (calls : Nat → Call) (s : List (Tick Input)) :
    FollowsDecisions (run next (start approvals calls) s).world ↔
      Meets next (fun c a => ¬ SignalsRefusal c a) (start approvals calls) s := by
  have hsignals := signalsFollow_run s (knows_start approvals calls)
  constructor
  · intro h
    exact (hsignals.mp h.signals).2
  · intro hmeets
    have hstep : ∀ c a, Each Knows c ∧ GrantedApproved c.world → ¬ SignalsRefusal c a →
        Each Knows (c.step next a) ∧ GrantedApproved (c.step next a).world := by
      intro c a hc hnot
      exact ⟨knows_step c a hc.1, grantedApproved_step hc.1 hc.2 hnot⟩
    have hstart : Each Knows (start approvals calls) ∧
        GrantedApproved (start approvals calls).world :=
      ⟨knows_start approvals calls, fun i key signal hmem => by cases hmem⟩
    exact ⟨hsignals.mpr ⟨trivial, hmeets⟩, (run_invariant_of_meets hstep hstart hmeets).2⟩

/-! ## A rejection -/

def sequenceApproval : Props where
  id := "a1"
  tenantId := "t1"
  workspaceId := some "w1"
  workspaceBindingState := .workspaceBound
  missionId := "m1"
  sequenceId := some "s1"
  executionId := some "e1"
  actionType := "OUTREACH_SEND"
  riskCategory := "MEDIUM"
  proposedAction := []
  evidence := []
  reasoning := ""
  confidence := 1
  requestedBy := "agent"
  approverRole := "mission-owner"
  timeoutSeconds := 3600
  idempotencyKey := "k1"
  createdAt := 0
  updatedAt := 0

/-- An operator rejects the approval. -/
def rejection : Call := ⟨⟨"t1", some "w1"⟩, .reject ⟨"a1", "operator", "Too early"⟩⟩

/-- **Its workflow is signalled that it was granted.** -/
theorem reject_signals_granted :
    let c := run next (start [(("t1", "a1"), ⟨sequenceApproval, 1⟩)] fun _ => rejection)
      (List.replicate 3 ⟨0, { now := 1 }⟩)
    c.world.log.head? = some (.signalled 0 ("t1", "a1") ⟨"outreach-sequence-v1-t1-s1", "t1",
      "outreachApprovalGranted", .outreach (some "e1") "a1"⟩) ∧ ¬ FollowsDecisions c.world := by
  refine ⟨rfl, fun h => ?_⟩
  have hmeets := (signalsFollow_run _ (knows_start _ _)).mp h.signals
  exact hmeets.2.2.2.1 ⟨rfl, rfl, by decide⟩

end VegaRevenue.ApprovalService
