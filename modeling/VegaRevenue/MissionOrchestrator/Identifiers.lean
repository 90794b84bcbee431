import VegaRevenue.Intelligence.AccountCache
import VegaRevenue.MissionOrchestrator.ApprovalVerification
import VegaRevenue.Outreach.PrepareDraft

/-!
# What joined identifiers tell

A workflow id, the key of a send and the key of a cached query join free texts with a separator that
may occur in them.

* `identifiers_iff` — where two inputs with one identifier are the same
* `not_identifiers` — inputs that share one
-/

namespace VegaRevenue.Identifiers

open ApprovalService (Approvals TenantContext WorkflowIdFactory.forMission
  WorkflowIdFactory.forOutreachSequence load)
open ApprovalVerification (ApprovalVerificationRequest verify)
open Intelligence.AccountCache (DiscoveryRequest Call Answered)
open JoinedText
open Outreach (makeSendIdempotencyKey OutreachChannel.name)
open Versioned

/-! ## Workflow ids -/

inductive WorkflowKind where
  | outreachSequence
  | mission
deriving DecidableEq

/-- A workflow of a tenant. -/
structure Workflow where
  kind : WorkflowKind
  tenantId : String
  id : String
deriving DecidableEq

/-- `WorkflowIdFactory`. -/
def Workflow.workflowId (w : Workflow) : String :=
  match w.kind with
  | .outreachSequence => WorkflowIdFactory.forOutreachSequence w.tenantId w.id
  | .mission => WorkflowIdFactory.forMission w.tenantId w.id

def WorkflowKind.start : WorkflowKind → String
  | outreachSequence => "outreach-sequence-v1-"
  | mission => "mission-v1-"

def Workflow.parts (w : Workflow) : List (List Char) := [w.tenantId.toList, w.id.toList]

theorem toList_start (s t u : String) :
    (s ++ t ++ "-" ++ u).toList = s.toList ++ joined '-' [t.toList, u.toList] := by
  rw [String.toList_append, String.toList_append, String.toList_append, List.append_assoc,
    List.append_assoc]
  rfl

theorem workflowId_toList (w : Workflow) :
    w.workflowId.toList = w.kind.start.toList ++ joined '-' w.parts := by
  obtain ⟨kind, tenantId, id⟩ := w
  cases kind with
  | outreachSequence => exact toList_start "outreach-sequence-v1-" tenantId id
  | mission => exact toList_start "mission-v1-" tenantId id

/-- Two workflows of a kind whose ids have the same pieces have the same hyphens in the tenant. -/
def Workflow.Distinguished (v w : Workflow) : Prop :=
  v.kind = w.kind → pieces '-' v.parts = pieces '-' w.parts →
    v.tenantId.toList.count '-' = w.tenantId.toList.count '-'

theorem workflowId_eq_iff (v w : Workflow) :
    v.workflowId = w.workflowId ↔
      v.kind = w.kind ∧ pieces '-' v.parts = pieces '-' w.parts := by
  have hjoined : joined '-' v.parts = joined '-' w.parts ↔ _ :=
    joined_eq_iff (List.cons_ne_nil _ _) (List.cons_ne_nil _ _)
  rw [← hjoined, ← String.toList_inj, workflowId_toList, workflowId_toList]
  constructor
  · intro h
    have hkind : v.kind = w.kind := by
      cases hv : v.kind <;> cases hw : w.kind
      · rfl
      · rw [hv, hw] at h
        exact absurd (List.cons.inj h).1 (by decide)
      · rw [hv, hw] at h
        exact absurd (List.cons.inj h).1 (by decide)
      · rfl
    rw [hkind] at h
    exact ⟨hkind, List.append_cancel_left h⟩
  · rintro ⟨hkind, hjoined⟩
    rw [hkind, hjoined]

theorem workflowId_iff (v w : Workflow) :
    (v.workflowId = w.workflowId → v = w) ↔ v.Distinguished w := by
  rw [workflowId_eq_iff, and_imp]
  refine forall_congr' fun hkind => forall_congr' fun hpieces => ⟨fun h => by rw [h], fun hc => ?_⟩
  have hjoined := (joined_eq_iff (List.cons_ne_nil _ _) (List.cons_ne_nil _ _)).mpr hpieces
  obtain ⟨htenant, hid⟩ := append_cons_inj hc hjoined
  obtain ⟨kind, tenantId, id⟩ := v
  obtain ⟨kind', tenantId', id'⟩ := w
  obtain rfl : kind = kind' := hkind
  obtain rfl : tenantId = tenantId' := String.toList_inj.mp htenant
  obtain rfl : id = id' := String.toList_inj.mp hid
  rfl

/-! ## Keys of sends -/

/-- What a send is prepared from. -/
structure Prepared where
  ctx : Context
  campaign : Campaign
  sequence : Sequence
  step : SequenceStep

/-- What its key stands for. -/
structure Send where
  tenantId : String
  campaignId : String
  sequenceId : String
  stepNumber : Nat
  recipientFingerprint : Option String
  channel : OutreachChannel
deriving DecidableEq

namespace Prepared

def send (p : Prepared) : Send :=
  { tenantId := p.ctx.tenantId
    campaignId := p.campaign.state.id
    sequenceId := p.sequence.state.id
    stepNumber := p.step.stepNumber
    recipientFingerprint := p.sequence.state.recipientFingerprint
    channel := p.step.channel }

def key (p : Prepared) : Option String :=
  makeSendIdempotencyKey p.ctx p.campaign p.sequence p.step

end Prepared

namespace Send

def parts (s : Send) : List (List Char) :=
  [s.tenantId.toList, s.campaignId.toList, s.sequenceId.toList, (toString s.stepNumber).toList,
    (s.recipientFingerprint.getD "").toList, (OutreachChannel.name s.channel).toList]

/-- The colons of the ids. -/
def colons (s : Send) : List Nat :=
  [s.tenantId.toList.count ':', s.campaignId.toList.count ':', s.sequenceId.toList.count ':']

/-- Two sends with fingerprints whose keys have the same pieces have the same colons in each id. -/
def Distinguished (s t : Send) : Prop :=
  blank s.recipientFingerprint = false → blank t.recipientFingerprint = false →
    pieces ':' s.parts = pieces ':' t.parts → s.colons = t.colons

end Send

theorem key_eq_some_iff {p : Prepared} {key : String} :
    p.key = some key ↔ blank p.send.recipientFingerprint = false ∧
      key.toList = "outreach:v2:".toList ++ joined ':' p.send.parts := by
  unfold Prepared.key makeSendIdempotencyKey
  rw [show p.sequence.state.recipientFingerprint = p.send.recipientFingerprint from rfl]
  cases hb : blank p.send.recipientFingerprint with
  | true => simp
  | false =>
    rw [if_neg Bool.false_ne_true, Option.some.injEq, ← String.toList_inj]
    have htext : ∀ s t u v w x : String,
        ("outreach:v2:" ++ s ++ ":" ++ t ++ ":" ++ u ++ ":" ++ v ++ ":" ++ w ++ ":" ++ x).toList =
          "outreach:v2:".toList ++ joined ':' [s.toList, t.toList, u.toList, v.toList, w.toList,
            x.toList] := by
      intro s t u v w x
      have hcolon : ":".toList = [':'] := rfl
      simp only [joined, String.toList_append, hcolon, List.append_assoc, List.cons_append,
        List.nil_append]
    rw [htext]
    exact ⟨fun h => ⟨rfl, h.symm⟩, fun h => h.2.symm⟩

theorem name_injective {c d : OutreachChannel}
    (h : (OutreachChannel.name c).toList = (OutreachChannel.name d).toList) : c = d := by
  cases c <;> cases d <;> first | rfl | exact absurd h (by decide)

theorem count_name (c : OutreachChannel) : (OutreachChannel.name c).toList.count ':' = 0 := by
  cases c <;> decide

/-- Sends with the same pieces and the same colons in each id are the same. -/
theorem send_eq {s t : Send} (hs : blank s.recipientFingerprint = false)
    (ht : blank t.recipientFingerprint = false) (hpieces : pieces ':' s.parts = pieces ':' t.parts)
    (hc : s.colons = t.colons) : s = t := by
  have hjoined := (joined_eq_iff (List.cons_ne_nil _ _) (List.cons_ne_nil _ _)).mpr hpieces
  obtain ⟨htenants, hcolons⟩ := List.cons.inj hc
  obtain ⟨hcampaigns, hcolons⟩ := List.cons.inj hcolons
  obtain ⟨hsequences, -⟩ := List.cons.inj hcolons
  obtain ⟨htenant, hrest⟩ := append_cons_inj htenants hjoined
  obtain ⟨hcampaign, hrest⟩ := append_cons_inj hcampaigns hrest
  obtain ⟨hsequence, hrest⟩ := append_cons_inj hsequences hrest
  -- neither the number nor the channel has a colon
  have hnumber : ∀ n : Nat, (toString n).toList.count ':' = 0 := count_toString (by decide)
  obtain ⟨hstep, hrest⟩ := append_cons_inj ((hnumber _).trans (hnumber _).symm) hrest
  have hcount : (s.recipientFingerprint.getD "").toList.count ':' =
      (t.recipientFingerprint.getD "").toList.count ':' := by
    have htotal : ((s.recipientFingerprint.getD "").toList ++ ':' ::
          (OutreachChannel.name s.channel).toList).count ':' =
        ((t.recipientFingerprint.getD "").toList ++ ':' ::
          (OutreachChannel.name t.channel).toList).count ':' := congrArg (List.count ':') hrest
    rw [List.count_append, List.count_append, List.count_cons_self, List.count_cons_self,
      count_name, count_name] at htotal
    exact Nat.add_right_cancel htotal
  obtain ⟨hfingerprint, hchannel⟩ := append_cons_inj hcount hrest
  obtain ⟨tenantId, campaignId, sequenceId, stepNumber, fingerprint, channel⟩ := s
  obtain ⟨tenantId', campaignId', sequenceId', stepNumber', fingerprint', channel'⟩ := t
  obtain rfl : tenantId = tenantId' := String.toList_inj.mp htenant
  obtain rfl : campaignId = campaignId' := String.toList_inj.mp hcampaign
  obtain rfl : sequenceId = sequenceId' := String.toList_inj.mp hsequence
  obtain rfl : stepNumber = stepNumber' := toString_inj hstep
  obtain rfl : channel = channel' := name_injective hchannel
  cases fingerprint with
  | none => cases hs
  | some f =>
    cases fingerprint' with
    | none => cases ht
    | some g =>
      obtain rfl : f = g := String.toList_inj.mp hfingerprint
      rfl

/-- Two sends get one key. -/
def ShareKey (p q : Prepared) : Prop := ∃ key, p.key = some key ∧ q.key = some key

theorem shareKey_iff (p q : Prepared) :
    ShareKey p q ↔ blank p.send.recipientFingerprint = false ∧
      blank q.send.recipientFingerprint = false ∧
        pieces ':' p.send.parts = pieces ':' q.send.parts := by
  unfold ShareKey
  have hjoined : joined ':' p.send.parts = joined ':' q.send.parts ↔ _ :=
    joined_eq_iff (List.cons_ne_nil _ _) (List.cons_ne_nil _ _)
  rw [← hjoined]
  constructor
  · rintro ⟨key, hp, hq⟩
    obtain ⟨hbp, hkp⟩ := key_eq_some_iff.mp hp
    obtain ⟨hbq, hkq⟩ := key_eq_some_iff.mp hq
    exact ⟨hbp, hbq, List.append_cancel_left (hkp.symm.trans hkq)⟩
  · rintro ⟨hbp, hbq, h⟩
    refine ⟨String.ofList ("outreach:v2:".toList ++ joined ':' p.send.parts), ?_, ?_⟩
    · exact key_eq_some_iff.mpr ⟨hbp, String.toList_ofList⟩
    · exact key_eq_some_iff.mpr ⟨hbq, by rw [String.toList_ofList, h]⟩

theorem sendKey_iff (p q : Prepared) :
    (ShareKey p q → p.send = q.send) ↔ p.send.Distinguished q.send := by
  rw [shareKey_iff, and_imp, and_imp]
  refine forall_congr' fun hp => forall_congr' fun hq => forall_congr' fun hpieces =>
    ⟨fun h => by rw [h], fun hc => send_eq hp hq hpieces hc⟩

/-! ## Approvals -/

/-- An approval of the first send verifies for the second one. -/
def Verifies (p q : Prepared) : Prop :=
  ∃ (rows : Approvals) (ctx : TenantContext) (request : ApprovalVerificationRequest) (now : Date)
    (approval : Approval), ctx.tenantId = q.ctx.tenantId ∧
      load rows ctx request.approvalId = some approval ∧
      p.key = some approval.state.idempotencyKey ∧ q.key = some request.idempotencyKey ∧
      request.sequenceId = q.send.sequenceId ∧
      (verify rows ctx request now).outcome = .approved

theorem key_of_approved {rows : Approvals} {ctx : TenantContext}
    {request : ApprovalVerificationRequest} {now : Date} {approval : Approval}
    (hload : load rows ctx request.approvalId = some approval)
    (h : (verify rows ctx request now).outcome = .approved) :
    approval.state.idempotencyKey = request.idempotencyKey := by
  unfold verify ApprovalVerification.check at h
  rw [hload] at h
  dsimp only at h
  split at h
  · cases h
  · split at h
    · cases h
    · split at h
      · cases h
      · split at h
        · cases h
        next hkey => exact not_not.mp hkey

/-- An approval that names neither an execution nor a sequence. -/
def unboundApproval (tenantId key : String) : Approval.Props :=
  { id := "a", tenantId, workspaceId := some "w", workspaceBindingState := .workspaceBound
    missionId := "m", actionType := "OUTREACH_EMAIL_SEND", riskCategory := "MEDIUM"
    proposedAction := [], evidence := [], reasoning := "", confidence := 1, requestedBy := "agent"
    approverRole := "mission-owner", timeoutSeconds := 3600, idempotencyKey := key
    status := .approved, createdAt := 0, updatedAt := 0 }

theorem verifies_of_shareKey {p q : Prepared} (h : ShareKey p q) : Verifies p q := by
  obtain ⟨key, hp, hq⟩ := h
  refine ⟨[((q.ctx.tenantId, "a"), ⟨unboundApproval q.ctx.tenantId key, 1⟩)],
    ⟨q.ctx.tenantId, some "w"⟩, ⟨"a", q.send.sequenceId, "e", key, "OUTREACH_EMAIL_SEND"⟩, 0,
    ApprovalService.restore (q.ctx.tenantId, "a") ⟨unboundApproval q.ctx.tenantId key, 1⟩,
    rfl, ?_, hp, hq, rfl, ?_⟩
  · simp [load, Table.find, unboundApproval, blank]
  · simp [verify, load, Table.find, unboundApproval, blank, ApprovalVerification.check,
      ApprovalVerification.expiresAtMs, ApprovalService.restore, Aggregate.reconstitute,
      Aggregate.setVersion, Aggregate.clearDomainEvents, Aggregate.init]
    rw [if_neg (by norm_num)]

theorem verifies_iff (p q : Prepared) : Verifies p q ↔ ShareKey p q := by
  refine ⟨?_, verifies_of_shareKey⟩
  rintro ⟨rows, ctx, request, now, approval, -, hload, hp, hq, -, happroved⟩
  exact ⟨_, hp, by rw [key_of_approved hload happroved]; exact hq⟩

/-! ## The law -/

/-- **Two workflows with one id are the same, two sends with one key are the same send, an approval
of a send verifies for no other, and a cached answer is that of the query asked, each exactly where
the inputs are distinguished.** -/
theorem identifiers_iff (v w : Workflow) (p q : Prepared) (r s : DiscoveryRequest)
    (S : DiscoveryRequest → Prop) :
    ((v.workflowId = w.workflowId → v = w) ↔ v.Distinguished w) ∧
    ((ShareKey p q → p.send = q.send) ↔ p.send.Distinguished q.send) ∧
    ((Verifies p q → p.send = q.send) ↔ p.send.Distinguished q.send) ∧
    ((r.cacheKey = s.cacheKey → r.query = s.query) ↔
      Intelligence.AccountCache.Distinguished r s) ∧
    ((∀ h call, (∀ c ∈ h ++ [call], S c.request) → Answered h call) ↔
      ∀ r s, S r → S s → Intelligence.AccountCache.Distinguished r s) :=
  ⟨workflowId_iff v w, sendKey_iff p q, by rw [verifies_iff]; exact sendKey_iff p q,
    Intelligence.AccountCache.cacheKey_iff r s, Intelligence.AccountCache.answered_iff S⟩

def samplePrepared (tenantId campaignId sequenceId : String) : Prepared where
  ctx := ⟨tenantId, "w"⟩
  campaign := .init
    { id := campaignId, tenantId, workspaceId := "w", missionId := "m", leadId := "l", contactId := "c"
      recipientProtectionState := .protectedRecipient, channel := .email, steps := []
      createdAt := 0, updatedAt := 0 }
  sequence := .init
    { id := sequenceId, tenantId, workspaceId := "w", campaignId, leadId := "l", contactId := "c"
      recipientFingerprint := some "h1.k.AA", recipientCiphertext := some "c1.k.AA"
      recipientProtectionState := .protectedRecipient, steps := [], createdAt := 0, updatedAt := 0 }
  step := ⟨1, .email, 0, true, none, none⟩

/-- **A hyphen, a colon or a comma goes from one part to the next, and the industries are in no
key.** -/
theorem not_identifiers :
    (Workflow.mk .mission "a-b" "c").workflowId = (Workflow.mk .mission "a" "b-c").workflowId ∧
    (∃ key, (samplePrepared "t" "c:s" "x").key = some key ∧
      (samplePrepared "t" "c" "s:x").key = some key) ∧
    Verifies (samplePrepared "t" "c:s" "x") (samplePrepared "t" "c" "s:x") ∧
    (samplePrepared "t" "c:s" "x").send ≠ (samplePrepared "t" "c" "s:x").send ∧
    (DiscoveryRequest.mk "p" (some ["a,b"]) none none).cacheKey =
      (DiscoveryRequest.mk "p" (some ["a", "b"]) none none).cacheKey ∧
    (DiscoveryRequest.mk "p" (some ["a,b"]) none none).query ≠
      (DiscoveryRequest.mk "p" (some ["a", "b"]) none none).query ∧
    (DiscoveryRequest.mk "p" none none (some ["Software"])).cacheKey =
      (DiscoveryRequest.mk "p" none none (some ["Retail"])).cacheKey ∧
    (DiscoveryRequest.mk "p" none none (some ["Software"])).query ≠
      (DiscoveryRequest.mk "p" none none (some ["Retail"])).query :=
  have hshared : ShareKey (samplePrepared "t" "c:s" "x") (samplePrepared "t" "c" "s:x") :=
    ⟨"outreach:v2:t:c:s:x:1:h1.k.AA:email", by decide, by decide⟩
  ⟨by decide, hshared, verifies_of_shareKey hshared, by decide, by decide, by decide, by decide,
    by decide⟩

end VegaRevenue.Identifiers
