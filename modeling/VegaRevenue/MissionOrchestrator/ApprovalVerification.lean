import VegaRevenue.MissionExecution.ApprovalBinding
import VegaRevenue.MissionOrchestrator.ApprovalService
import VegaRevenue.Outreach.SafetyGate

/-!
# The two verifiers of an approval

The adapter that the safety gate asks checks a loaded approval; the binding that the executor asks
is a query over the payloads of the tenant.

* `verify_approved_iff` — when the adapter approves
* `hasValidApproval_iff` — when the binding accepts a row
* `sound_and_agree_iff` — where the adapter is sound and the two agree
* `differs_at_expiry` — at the end of the window they do not
-/

namespace VegaRevenue.ApprovalVerification

open ApprovalService (TenantContext Approvals load restore)
open Approval (Props)
open MissionExecution (boundTo castSeconds firstUnexpired hasValidApproval resolveValidApproval)
open AiRuntime (ExecutionApprovalBinding)
open Outreach (ApprovalOutcome)
open Versioned

structure ApprovalVerificationRequest where
  approvalId : String
  sequenceId : String
  executionId : String
  idempotencyKey : String
  actionType : String

structure ApprovalVerificationResult where
  outcome : ApprovalOutcome
  reason : String

/-- The last millisecond of the window of the approval. -/
def expiresAtMs (p : Props) : Rat := p.createdAt + p.timeoutSeconds * 1000

/-- The checks on an approval that was loaded. -/
def check (ctx : TenantContext) (request : ApprovalVerificationRequest) (now : Date) (p : Props) :
    ApprovalVerificationResult :=
  let id := request.approvalId
  let executionId := p.executionId.getD ""
  let sequenceId := p.sequenceId.getD ""
  if p.tenantId ≠ ctx.tenantId then
    ⟨.wrongTenant, s!"Approval {id} belongs to a different tenant"⟩
  else if p.executionId.any (· ≠ request.executionId) then
    ⟨.wrongTarget, s!"Approval {id} targets execution {executionId}, not {request.executionId}"⟩
  else if p.sequenceId.any (· ≠ request.sequenceId) then
    ⟨.wrongTarget, s!"Approval {id} targets sequence {sequenceId}, not {request.sequenceId}"⟩
  else if p.idempotencyKey ≠ request.idempotencyKey then
    ⟨.wrongTarget, s!"Approval {id} idempotency key does not match execution"⟩
  else if p.actionType ≠ request.actionType then
    ⟨.invalidActionType, s!"Approval {id} was requested for actionType {p.actionType}, not " ++
        request.actionType⟩
  else
    match p.status with
    | .rejected =>
      ⟨.rejected, s!"Approval {id} was rejected: " ++ p.decisionReason.getD "no reason given"⟩
    | .escalated | .pending =>
      ⟨.pending, s!"Approval {id} is not yet decided (status: {p.status.name})"⟩
    | .expired => ⟨.expired, s!"Approval {id} has expired"⟩
    | .approved =>
      if expiresAtMs p < now then
        ⟨.expired, s!"Approval {id} exceeded its timeout window and must be re-requested"⟩
      else ⟨.approved, "Approval is valid, current-tenant, target-matched, and unexpired"⟩

/-- `ApprovalVerificationAdapter.verify`. -/
def verify (rows : Approvals) (ctx : TenantContext) (request : ApprovalVerificationRequest)
    (now : Date) : ApprovalVerificationResult :=
  match load rows ctx request.approvalId with
  | none => ⟨.notFound, s!"Approval {request.approvalId} not found"⟩
  | some approval => check ctx request now approval.state

/-! ## The binding -/

/-- The keys under which the binding looks for the approval of the request. -/
def ApprovalVerificationRequest.keys (request : ApprovalVerificationRequest) :
    ExecutionApprovalBinding :=
  ⟨request.executionId, request.idempotencyKey, some request.actionType⟩

/-- The row the request is about, as the session of the tenant sees it. -/
def asked (rows : Approvals) (ctx : TenantContext) (request : ApprovalVerificationRequest) :
    Table String Props :=
  match rows.find (ctx.tenantId, request.approvalId) with
  | none => []
  | some row =>
    [(request.approvalId, ⟨(restore (ctx.tenantId, request.approvalId) row).state, row.version⟩)]

/-- `PostgresExecutionApprovalBinding` accepts the approval of the request. -/
def Accepts (rows : Approvals) (ctx : TenantContext) (request : ApprovalVerificationRequest)
    (now : Date) : Prop :=
  hasValidApproval ctx.tenantId now (asked rows ctx request) request.keys = .ok true

/-! ## The law -/

/-- What an approval of the adapter promises. -/
structure Valid (ctx : TenantContext) (request : ApprovalVerificationRequest) (now : Date)
    (p : Props) : Prop where
  tenantId : p.tenantId = ctx.tenantId
  workspaceId : p.workspaceId = ctx.workspaceId
  approved : p.status = .approved
  unexpired : (now : Rat) ≤ expiresAtMs p
  executionId : p.executionId = some request.executionId
  sequenceId : p.sequenceId = some request.sequenceId
  idempotencyKey : p.idempotencyKey = request.idempotencyKey
  actionType : p.actionType = request.actionType

def Sound (rows : Approvals) (ctx : TenantContext) (request : ApprovalVerificationRequest)
    (now : Date) : Prop :=
  (verify rows ctx request now).outcome = .approved →
    ∃ approval, load rows ctx request.approvalId = some approval ∧
      Valid ctx request now approval.state

def Agree (rows : Approvals) (ctx : TenantContext) (request : ApprovalVerificationRequest)
    (now : Date) : Prop :=
  (verify rows ctx request now).outcome = .approved ↔ Accepts rows ctx request now

/-! ## The condition -/

/-- What both verifiers ask for, an approval that names no execution being taken as one for any. -/
structure Offered (request : ApprovalVerificationRequest) (now : Date) (p : Props) : Prop where
  approved : p.status = .approved
  idempotencyKey : p.idempotencyKey = request.idempotencyKey
  actionType : p.actionType = request.actionType
  executionId : ∀ executionId ∈ p.executionId, executionId = request.executionId
  unexpired : (now : Rat) ≤ expiresAtMs p

/-- What only the binding asks for: an execution, a window of whole seconds, and an instant before
its end. -/
structure Strict (now : Date) (p : Props) : Prop where
  executionId : p.executionId.isSome = true
  seconds : (castSeconds p.timeoutSeconds).isSome = true
  unexpired : (now : Rat) < expiresAtMs p

/-- The approval is one of the workspace of the caller. -/
def OfWorkspace (ctx : TenantContext) (p : Props) : Prop :=
  blank ctx.workspaceId = false ∧ p.workspaceId = ctx.workspaceId

/-- An approval that is offered is of the workspace and names the sequence of the request, where it
is offered strictly, and else it is of another workspace or names another sequence. -/
def Aligned (ctx : TenantContext) (request : ApprovalVerificationRequest) (now : Date) (p : Props) :
    Prop :=
  Offered request now p →
    (Strict now p → OfWorkspace ctx p ∧ p.sequenceId = some request.sequenceId) ∧
    (¬ Strict now p → OfWorkspace ctx p → ∃ sequenceId ∈ p.sequenceId,
      sequenceId ≠ request.sequenceId)

/-! ## The adapter -/

section

variable {rows : Approvals} {ctx : TenantContext} {request : ApprovalVerificationRequest}
  {now : Date} {p : Props}

theorem any_ne_eq_false {o : Option String} {x : String} :
    o.any (· ≠ x) = false ↔ ∀ y ∈ o, y = x := by
  cases o <;> simp

theorem offered_iff : Offered request now p ↔
    p.status = .approved ∧ p.idempotencyKey = request.idempotencyKey ∧
      p.actionType = request.actionType ∧ p.executionId.any (· ≠ request.executionId) = false ∧
      ¬ expiresAtMs p < now := by
  rw [any_ne_eq_false, Rat.not_lt]
  constructor
  · rintro ⟨hstatus, hkey, haction, hexecution, hwindow⟩
    exact ⟨hstatus, hkey, haction, hexecution, hwindow⟩
  · rintro ⟨hstatus, hkey, haction, hexecution, hwindow⟩
    exact ⟨hstatus, hkey, haction, hexecution, hwindow⟩

/-- When the checks let an approval of the tenant pass. -/
theorem check_approved_iff (htenant : p.tenantId = ctx.tenantId) :
    (check ctx request now p).outcome = .approved ↔
      Offered request now p ∧ p.sequenceId.any (· ≠ request.sequenceId) = false := by
  rw [offered_iff]
  simp only [check]
  rw [if_neg (by simp [htenant])]
  cases hexecution : p.executionId.any (· ≠ request.executionId) with
  | true => simp
  | false =>
    rw [if_neg (by simp)]
    cases hsequence : p.sequenceId.any (· ≠ request.sequenceId) with
    | true => simp
    | false =>
      rw [if_neg (by simp)]
      by_cases hkey : p.idempotencyKey = request.idempotencyKey
      · rw [if_neg (by simp [hkey])]
        by_cases haction : p.actionType = request.actionType
        · rw [if_neg (by simp [haction])]
          cases hstatus : p.status with
          | approved =>
            by_cases hwindow : expiresAtMs p < now
            · simp [hwindow]
            · simp [hwindow, hkey, haction]
          | rejected => simp
          | escalated => simp
          | pending => simp
          | expired => simp
        · simp [haction]
      · simp [hkey]

theorem load_eq (rows : Approvals) (ctx : TenantContext) (approvalId : String)
    {row : Row Props} (hrow : rows.find (ctx.tenantId, approvalId) = some row) :
    load rows ctx approvalId =
      if blank ctx.workspaceId = false ∧ row.payload.workspaceId = ctx.workspaceId then
        some (restore (ctx.tenantId, approvalId) row)
      else none := by
  unfold load
  rw [hrow]
  cases blank ctx.workspaceId <;> simp

/-! ## The binding -/

theorem castSeconds_eq {timeoutSeconds : Rat} {seconds : Int}
    (h : castSeconds timeoutSeconds = some seconds) : timeoutSeconds = seconds := by
  unfold castSeconds at h
  split at h
  next hwhole =>
    obtain rfl := Option.some.inj h
    exact (Rat.den_eq_one_iff _).mp hwhole.1 |>.symm
  · cases h

/-- The binding accepts a row that is bound to the keys, with an unexpired window of whole
seconds. -/
theorem hasValidApproval_iff {id : String} {version : Nat} {keys : ExecutionApprovalBinding} :
    hasValidApproval p.tenantId now [(id, ⟨p, version⟩)] keys = .ok true ↔
      boundTo p.tenantId keys p = true ∧ (castSeconds p.timeoutSeconds).isSome = true ∧
        (now : Rat) < expiresAtMs p := by
  unfold hasValidApproval resolveValidApproval
  cases hbound : boundTo p.tenantId keys p with
  | false => simp [hbound, firstUnexpired, Except.map]
  | true =>
    simp only [List.filter, hbound, firstUnexpired, true_and]
    cases hcast : castSeconds p.timeoutSeconds with
    | none => simp [Except.map]
    | some seconds =>
      have hend : (now : Rat) < expiresAtMs p ↔ now < p.createdAt + seconds * 1000 := by
        unfold expiresAtMs
        rw [castSeconds_eq hcast]
        exact_mod_cast Iff.rfl
      rw [hend]
      by_cases hwindow : now < p.createdAt + seconds * 1000
      · simp [hwindow, Except.map]
      · simp [hwindow, Except.map]

/-- What the query over all the rows answers with is a row that is accepted by itself. -/
theorem accepted_of_found {tenantId : String} {table : Table String Props}
    {keys : ExecutionApprovalBinding} {evidence : AiRuntime.ExecutionApprovalEvidence}
    (h : resolveValidApproval tenantId now table keys = .ok (some evidence)) :
    ∃ row ∈ table, evidence.approvalId = row.1 ∧
      hasValidApproval tenantId now [row] keys = .ok true := by
  unfold resolveValidApproval at h
  induction table with
  | nil => cases h
  | cons row table ih =>
    cases hbound : boundTo tenantId keys row.2.payload with
    | false =>
      rw [List.filter_cons_of_neg (by simp [hbound])] at h
      obtain ⟨found, hmem, hfound⟩ := ih h
      exact ⟨found, List.mem_cons_of_mem row hmem, hfound⟩
    | true =>
      rw [List.filter_cons_of_pos (by simpa using hbound), firstUnexpired] at h
      split at h
      · cases h
      next seconds hcast =>
        split at h
        next hwindow =>
          obtain rfl := Option.some.inj (Except.ok.inj h)
          refine ⟨row, List.mem_cons_self, rfl, ?_⟩
          simp [hasValidApproval, resolveValidApproval, hbound, firstUnexpired, hcast, hwindow,
            Except.map]
        · obtain ⟨found, hmem, hfound⟩ := ih h
          exact ⟨found, List.mem_cons_of_mem row hmem, hfound⟩

theorem boundTo_iff : boundTo p.tenantId request.keys p = true ↔
    p.executionId = some request.executionId ∧ p.idempotencyKey = request.idempotencyKey ∧
      p.status = .approved ∧ p.actionType = request.actionType := by
  simp only [boundTo, Bool.and_eq_true, decide_eq_true_eq, and_assoc, true_and]
  simp [ApprovalVerificationRequest.keys]

/-- An approval is accepted iff it is offered strictly. -/
theorem accepted_iff {id : String} {version : Nat} :
    hasValidApproval p.tenantId now [(id, ⟨p, version⟩)] request.keys = .ok true ↔
      Offered request now p ∧ Strict now p := by
  rw [hasValidApproval_iff, boundTo_iff]
  constructor
  · rintro ⟨⟨hexecution, hkey, hstatus, haction⟩, hseconds, hwindow⟩
    refine ⟨⟨hstatus, hkey, haction, ?_, Rat.le_of_lt hwindow⟩, ?_, hseconds, hwindow⟩
    · intro executionId h
      rw [hexecution] at h
      exact (Option.some.inj h).symm
    · rw [hexecution]
      rfl
  · rintro ⟨hoffered, hstrict⟩
    obtain ⟨executionId, hexecution⟩ := Option.isSome_iff_exists.mp hstrict.executionId
    refine ⟨⟨?_, hoffered.idempotencyKey, hoffered.approved, hoffered.actionType⟩,
      hstrict.seconds, hstrict.unexpired⟩
    rw [hexecution, hoffered.executionId executionId hexecution]

/-! ## Both -/

/-- The approval names no other sequence than the one of the request. -/
def NamesNoOther (request : ApprovalVerificationRequest) (p : Props) : Prop :=
  ∀ sequenceId ∈ p.sequenceId, sequenceId = request.sequenceId

theorem verify_approved_iff {row : Row Props}
    (hrow : rows.find (ctx.tenantId, request.approvalId) = some row)
    (hp : (restore (ctx.tenantId, request.approvalId) row).state = p) :
    (verify rows ctx request now).outcome = .approved ↔
      OfWorkspace ctx p ∧ Offered request now p ∧ NamesNoOther request p := by
  have hworkspace : p.workspaceId = row.payload.workspaceId := by rw [← hp]; rfl
  have htenant : p.tenantId = ctx.tenantId := by rw [← hp]; rfl
  unfold verify OfWorkspace NamesNoOther
  rw [load_eq rows ctx request.approvalId hrow, hworkspace, ← any_ne_eq_false]
  split
  next hnone =>
    split at hnone
    · cases hnone
    next hno => simp [hno]
  next approval hsome =>
    split at hsome
    next hyes =>
      obtain rfl := Option.some.inj hsome
      rw [hp, check_approved_iff htenant]
      simp [hyes]
    · cases hsome

variable (rows ctx request now) in
/-- **For every approval, request and instant, the adapter is sound and agrees with the binding iff
the approval is aligned.** -/
theorem sound_and_agree_iff : Sound rows ctx request now ∧ Agree rows ctx request now ↔
    ∀ row, rows.find (ctx.tenantId, request.approvalId) = some row →
      Aligned ctx request now (restore (ctx.tenantId, request.approvalId) row).state := by
  cases hrow : rows.find (ctx.tenantId, request.approvalId) with
  | none =>
    have hload : load rows ctx request.approvalId = none := by
      unfold load
      rw [hrow]
      split <;> rfl
    have hrefused : (verify rows ctx request now).outcome ≠ .approved := by
      unfold verify
      rw [hload]
      simp
    have hnone : ¬ Accepts rows ctx request now := by
      unfold Accepts asked
      rw [hrow]
      simp [hasValidApproval, resolveValidApproval, firstUnexpired, Except.map]
    refine iff_of_true ⟨fun h => absurd h hrefused, iff_of_false hrefused hnone⟩ ?_
    intro row h
    cases h
  | some row =>
    let p := (restore (ctx.tenantId, request.approvalId) row).state
    have happroved : (verify rows ctx request now).outcome = .approved ↔
        OfWorkspace ctx p ∧ Offered request now p ∧ NamesNoOther request p :=
      verify_approved_iff hrow rfl
    have haccepts : Accepts rows ctx request now ↔ Offered request now p ∧ Strict now p := by
      unfold Accepts asked
      rw [hrow]
      exact accepted_iff
    have hload : OfWorkspace ctx p → load rows ctx request.approvalId =
        some (restore (ctx.tenantId, request.approvalId) row) := by
      intro hworkspace
      rw [load_eq rows ctx request.approvalId hrow]
      exact if_pos hworkspace
    have hvalid : OfWorkspace ctx p → Offered request now p →
        ((∃ approval, load rows ctx request.approvalId = some approval ∧
          Valid ctx request now approval.state) ↔
          p.executionId.isSome = true ∧ p.sequenceId = some request.sequenceId) := by
      intro hworkspace hoffered
      rw [hload hworkspace]
      constructor
      · rintro ⟨_, ⟨rfl⟩, hv⟩
        exact ⟨by rw [show p.executionId = _ from hv.executionId]; rfl, hv.sequenceId⟩
      · rintro ⟨hsome, hsequence⟩
        obtain ⟨executionId, hexecution⟩ := Option.isSome_iff_exists.mp hsome
        refine ⟨_, rfl, rfl, hworkspace.2, hoffered.approved, hoffered.unexpired, ?_, hsequence,
          hoffered.idempotencyKey, hoffered.actionType⟩
        rw [hexecution.trans (congrArg some (hoffered.executionId executionId hexecution))]
    have hnames : p.sequenceId = some request.sequenceId → NamesNoOther request p := by
      intro hsequence sequenceId h
      rw [hsequence] at h
      exact (Option.some.inj h).symm
    have hother : ¬ NamesNoOther request p ↔
        ∃ sequenceId ∈ p.sequenceId, sequenceId ≠ request.sequenceId := by
      unfold NamesNoOther
      push Not
      rfl
    have haligned : (∀ row', some row = some row' →
        Aligned ctx request now (restore (ctx.tenantId, request.approvalId) row').state) ↔
        Aligned ctx request now p :=
      ⟨fun h => h row rfl, fun h row' heq => by cases heq; exact h⟩
    rw [haligned]
    unfold Sound Agree Aligned
    rw [happroved, haccepts, ← hother]
    constructor
    · rintro ⟨hsound, hagree⟩ hoffered
      constructor
      · intro hstrict
        have hall := hagree.mpr ⟨hoffered, hstrict⟩
        exact ⟨hall.1, ((hvalid hall.1 hoffered).mp (hsound hall)).2⟩
      · intro hnot hworkspace hnone
        exact hnot (hagree.mp ⟨hworkspace, hoffered, hnone⟩).2
    · intro h
      constructor
      · rintro ⟨hworkspace, hoffered, hnone⟩
        have hstrict : Strict now p := by
          by_contra hnot
          exact (h hoffered).2 hnot hworkspace hnone
        exact (hvalid hworkspace hoffered).mpr
          ⟨hstrict.executionId, ((h hoffered).1 hstrict).2⟩
      · constructor
        · rintro ⟨hworkspace, hoffered, hnone⟩
          refine ⟨hoffered, ?_⟩
          by_contra hnot
          exact (h hoffered).2 hnot hworkspace hnone
        · rintro ⟨hoffered, hstrict⟩
          obtain ⟨hworkspace, hsequence⟩ := (h hoffered).1 hstrict
          exact ⟨hworkspace, hoffered, hnames hsequence⟩

end

/-! ## The end of a window -/

/-- An approved approval of one hour. -/
def approvedApproval : Props := { ApprovalService.sequenceApproval with status := .approved }

def sendRequest : ApprovalVerificationRequest := ⟨"a1", "s1", "e1", "k1", "OUTREACH_SEND"⟩

/-- **At its end the adapter approves and the binding does not accept.** -/
theorem differs_at_expiry :
    let rows : Approvals := [(("t1", "a1"), ⟨approvedApproval, 2⟩)]
    let ctx : TenantContext := ⟨"t1", some "w1"⟩
    (verify rows ctx sendRequest 3600000).outcome = .approved ∧
      hasValidApproval "t1" 3600000 (asked rows ctx sendRequest) sendRequest.keys = .ok false ∧
      ¬ Agree rows ctx sendRequest 3600000 := by
  have happroved : (verify [(("t1", "a1"), ⟨approvedApproval, 2⟩)] ⟨"t1", some "w1"⟩ sendRequest
      3600000).outcome = .approved := by decide +kernel
  have hrefused : hasValidApproval "t1" 3600000 (asked [(("t1", "a1"), ⟨approvedApproval, 2⟩)]
      ⟨"t1", some "w1"⟩ sendRequest) sendRequest.keys = .ok false :=
    eq_ok_of_toOption (by decide +kernel)
  refine ⟨happroved, hrefused, fun hagree => ?_⟩
  have haccepts : hasValidApproval "t1" 3600000 (asked [(("t1", "a1"), ⟨approvedApproval, 2⟩)]
      ⟨"t1", some "w1"⟩ sendRequest) sendRequest.keys = .ok true := hagree.mp happroved
  rw [hrefused] at haccepts
  cases haccepts

end VegaRevenue.ApprovalVerification
