import VegaRevenue.OutreachWorkflow.Workflow

/-!
# What the workflow owes its signals

Every send is for the execution that was drafted last, with an approval of it; no approval of the
current execution is lost; a send that may be tried again waits for no second approval; and every
reply is recorded and interpreted.

* `exact_step` — one event keeps this iff it comes in order
* `exact_iff_orderly` — a run keeps it iff each of its events does
* `stale_approval_sent` — a signal for another execution is sent, and not the draft
-/

namespace VegaRevenue.OutreachWorkflow

variable {input : Input} {s : State}

/-! ## The law -/

/-- The reply that was read and is being recorded. -/
def Pc.recording : Pc → List ReplyReceivedSignal
  | recordResponse _ _ reply => [reply]
  | _ => []

/-- A reply is between its reading and the clearing of its slot. -/
def Pc.handling : Pc → Bool
  | recordResponse _ _ _ | interpretReply _ _ _ => true
  | _ => false

structure Exact (s : State) : Prop where
  sends : ∀ call ∈ s.sends, call.drafted = some call.executionId ∧
    ⟨call.executionId, call.approvalId⟩ ∈ s.pendingApproval.received
  approvals : ∀ loss ∈ s.pendingApproval.lost, loss.1 ≠ some loss.2.executionId
  retries : ∀ executionId, s.pc = .approvalWait executionId → executionId ∉ s.retrying
  replies : s.pendingReply.lost = []
  passed : s.pendingReply.read = s.pc.recording ++ s.passed
  once : s.pc.handling = false → s.pendingReply.waiting = s.pendingReply.current.toList
  /-- When the workflow ended, every reply that came was passed on. -/
  ended : s.pc.isEnded = true → s.pendingReply.received.Perm s.passed

/-! ## The condition -/

/-- No approval of the current execution waits to be read. -/
def ApprovalsRead (s : State) : Prop :=
  ∀ approval ∈ s.pendingApproval.waiting, s.drafted ≠ some approval.executionId

/-- No reply waits to be read. -/
def RepliesRead (s : State) : Prop := s.pendingReply.waiting = []

/-- The execution of a draft that did not fail. -/
def PrepareDraftResult.drafted (result : PrepareDraftResult) : Option String :=
  if result.failed then none else result.executionId.filter (· ≠ "")

def Pc.awaitsActivity : Pc → Bool
  | getSequence | prepareDraft | expireApprovalWait _ | executeSend _ _ | recordResponse _ _ _
  | interpretReply _ _ _ => true
  | _ => false

def ExecuteSendResult.isFailed : ExecuteSendResult → Bool
  | failed _ => true
  | _ => false

/-- When the event comes in order: a slot is written, cleared or left behind only when what it held
was read; the approval that is read is one for the draft; and no draft is of an execution whose send
is to be tried again. -/
def Orderly (input : Input) (s : State) : Event → Prop
  | .outreachApprovalGranted _ => ApprovalsRead s
  | .replyReceived _ => RepliesRead s
  | .gotSequence status =>
    s.pc = .getSequence → terminal status = true → ApprovalsRead s ∧ RepliesRead s
  | .preparedDraft result =>
    s.pc = .prepareDraft →
      match result.drafted with
      | some executionId => executionId ∉ s.retrying
      | none => ApprovalsRead s ∧ RepliesRead s
  | .wake | .timeout _ =>
    ∀ executionId approval, s.pc = .approvalWait executionId →
      s.pendingApproval.current = some approval → s.drafted = some approval.executionId
  | .expiredApprovalWait =>
    ∀ executionId, s.pc = .expireApprovalWait executionId → ApprovalsRead s ∧ RepliesRead s
  | .executedSend result =>
    ∀ executionId approval, s.pc = .executeSend executionId approval →
      ApprovalsRead s ∧ (result.isFailed = true → RepliesRead s)
  | .recordedResponse => True
  | .interpretedReply _ =>
    ∀ approval nextDueAt reply, s.pc = .interpretReply approval nextDueAt reply → RepliesRead s
  | .slept =>
    s.pc = .sleep → input.maxIterations.getD 50 ≤ s.iteration + 1 → ApprovalsRead s ∧ RepliesRead s
  | .activityFailed =>
    s.pc.awaitsActivity = true → ApprovalsRead s ∧ RepliesRead s ∧ s.pc.recording = []

/-! ## Slots that are written over or left behind -/

theorem lost_iff {slot : Slot (Option String) OutreachApprovalSignal}
    (h : ∀ loss ∈ slot.lost, loss.1 ≠ some loss.2.executionId) (drafted : Option String) :
    (∀ loss ∈ slot.waiting.map (drafted, ·) ++ slot.lost, loss.1 ≠ some loss.2.executionId) ↔
      ∀ approval ∈ slot.waiting, drafted ≠ some approval.executionId := by
  constructor
  · intro hall approval ha
    exact hall (drafted, approval) (List.mem_append_left _ (List.mem_map_of_mem ha))
  · intro hread loss hl
    rcases List.mem_append.mp hl with hl | hl
    · obtain ⟨approval, ha, rfl⟩ := List.mem_map.mp hl
      exact hread approval ha
    · exact h loss hl

theorem exact_finish (hs : Exact s) (outcome : Outcome) :
    Exact (finish s outcome) ↔ ApprovalsRead s ∧ RepliesRead s ∧ s.pc.recording = [] := by
  constructor
  · intro h
    refine ⟨(lost_iff hs.approvals s.drafted).mp h.approvals, ?_, ?_⟩
    · have hr := h.replies
      rw [finish, Slot.lost_clear, List.append_eq_nil_iff, List.map_eq_nil_iff] at hr
      exact hr.1
    · have hp := hs.passed
      rw [show s.pendingReply.read = s.passed from h.passed] at hp
      exact List.append_left_eq_self.mp hp.symm
  · rintro ⟨ha, hr, hp⟩
    exact {
      sends := hs.sends
      approvals := (lost_iff hs.approvals s.drafted).mpr ha
      retries := by
        intro executionId hpc
        cases hpc
      replies := by
        rw [finish, Slot.lost_clear, hs.replies, show s.pendingReply.waiting = [] from hr]
        rfl
      passed := by
        have hread := hs.passed
        rw [hp] at hread
        exact hread
      once := fun _ => rfl
      ended := by
        intro _
        have hread := hs.passed
        have hall := s.pendingReply.accounted
        rw [show (if s.pendingReply.unread = true then s.pendingReply.current.toList else []) = []
          from hr, hs.replies, hread, hp, List.nil_append, List.nil_append, List.map_nil,
          List.append_nil] at hall
        exact hall }

theorem recording_of_not_handling {pc : Pc} (h : pc.handling = false) : pc.recording = [] := by
  cases pc <;> first | rfl | cases h

/-- Where nothing is asked of the slots. -/
def Pc.plain : Pc → Bool
  | approvalWait _ | recordResponse _ _ _ | interpretReply _ _ _ | ended _ => false
  | _ => true

/-- What only moves the workflow on keeps the law. -/
theorem Exact.goto (hs : Exact s) (pc : Pc) (hfrom : s.pc.handling = false)
    (hto : pc.plain = true) : Exact { s with pc } where
  sends := hs.sends
  approvals := hs.approvals
  retries := by
    rintro executionId rfl
    cases hto
  replies := hs.replies
  passed := by
    have hread := hs.passed
    rw [recording_of_not_handling hfrom] at hread
    have hrecording : pc.recording = [] := by
      cases pc <;> first | rfl | cases hto
    rw [hrecording]
    exact hread
  once := fun _ => hs.once hfrom
  ended := by
    intro hended
    dsimp only at hended
    cases pc with
    | ended outcome => cases hto
    | _ => cases hended

/-! ## Parts of the loop -/

theorem exact_onApproval (hs : Exact s) {executionId : String} {approval : OutreachApprovalSignal}
    (hpc : s.pc = .approvalWait executionId) (ha : s.pendingApproval.current = some approval) :
    Exact (onApproval s executionId approval).1 ↔ s.drafted = some approval.executionId := by
  constructor
  · intro h
    exact (h.sends _ List.mem_cons_self).1
  · intro hdrafted
    exact {
      sends := by
        intro call hcall
        rcases List.mem_cons.mp hcall with rfl | hcall
        · exact ⟨hdrafted, s.pendingApproval.origin _ ha⟩
        · exact hs.sends call hcall
      approvals := hs.approvals
      retries := by
        intro x hx
        cases hx
      replies := hs.replies
      passed := by
        have hread := hs.passed
        rw [hpc] at hread
        exact hread
      once := by
        intro _
        exact hs.once (by rw [hpc]; rfl)
      ended := nofun }

theorem exact_onReply (hs : Exact s) (approval : OutreachApprovalSignal) (nextDueAt : Option Date)
    {reply : ReplyReceivedSignal} (hfrom : s.pc.handling = false)
    (hr : s.pendingReply.current = some reply) :
    Exact (onReply s approval nextDueAt reply).1 where
  sends := hs.sends
  approvals := hs.approvals
  retries := by
    intro x hx
    cases hx
  replies := hs.replies
  passed := by
    have hread := hs.passed
    rw [recording_of_not_handling hfrom, List.nil_append] at hread
    have hwaiting : s.pendingReply.waiting = [reply] := by
      rw [hs.once hfrom, hr]
      rfl
    rw [onReply, Slot.read_take, hwaiting, hread]
    rfl
  once := nofun
  ended := nofun

theorem exact_iterate (hs : Exact s) (hfrom : s.pc.handling = false) :
    Exact (iterate input s).1 ↔
      (input.maxIterations.getD 50 ≤ s.iteration → ApprovalsRead s ∧ RepliesRead s) := by
  unfold iterate
  by_cases h : s.iteration < input.maxIterations.getD 50
  · rw [if_pos h]
    constructor
    · intro _ hmax
      omega
    · intro _
      exact hs.goto .getSequence hfrom rfl
  · rw [if_neg h, exact_finish hs, recording_of_not_handling hfrom]
    have hmax : input.maxIterations.getD 50 ≤ s.iteration := by omega
    simp [hmax]

theorem exact_sleepUntilDue (hs : Exact s) (hfrom : s.pc.handling = false)
    (nextDueAt : Option Date) (now : Date) : Exact (sleepUntilDue s nextDueAt now).1 :=
  hs.goto .sleep hfrom rfl

theorem exact_onDraft (hs : Exact s) (hfrom : s.pc.handling = false)
    (result : PrepareDraftResult) :
    Exact (onDraft s result).1 ↔
      match result.drafted with
      | some executionId => executionId ∉ s.retrying
      | none => ApprovalsRead s ∧ RepliesRead s := by
  have hfinish : ∀ outcome, Exact (finish s outcome) ↔ ApprovalsRead s ∧ RepliesRead s := by
    intro outcome
    rw [exact_finish hs, recording_of_not_handling hfrom]
    simp
  unfold onDraft PrepareDraftResult.drafted
  by_cases hfailed : result.failed = true
  · rw [if_pos hfailed, if_pos hfailed]
    exact hfinish _
  · rw [if_neg hfailed, if_neg hfailed]
    cases hid : result.executionId with
    | none => exact hfinish _
    | some executionId =>
      dsimp only
      by_cases hempty : executionId = ""
      · subst hempty
        exact hfinish _
      · rw [if_neg hempty]
        have hfilter : (some executionId).filter (fun x => decide (x ≠ "")) = some executionId := by
          simp [hempty]
        rw [hfilter]
        constructor
        · intro h
          exact h.retries executionId rfl
        · intro hnot
          exact {
            sends := hs.sends
            approvals := hs.approvals
            retries := by
              rintro _ ⟨rfl⟩
              exact hnot
            replies := hs.replies
            passed := by
              have hread := hs.passed
              rw [recording_of_not_handling hfrom] at hread
              exact hread
            once := fun _ => hs.once hfrom
            ended := nofun }

/-- The slot is cleared after a send, whatever came since it was read. -/
theorem exact_cleared (hs : Exact s) {executionId : String} {approval : OutreachApprovalSignal}
    (hpc : s.pc = .executeSend executionId approval) (hread : ApprovalsRead s)
    (retrying : List String) :
    Exact { s with pendingApproval := s.pendingApproval.clear s.drafted, retrying } where
  sends := hs.sends
  approvals := (lost_iff hs.approvals s.drafted).mpr hread
  retries := by
    intro x hx
    rw [hpc] at hx
    cases hx
  replies := hs.replies
  passed := hs.passed
  once := hs.once
  ended := hs.ended

theorem exact_onSend (hs : Exact s) {executionId : String} {approval : OutreachApprovalSignal}
    (hpc : s.pc = .executeSend executionId approval) (result : ExecuteSendResult) :
    Exact (onSend s approval result).1 ↔
      ApprovalsRead s ∧ (result.isFailed = true → RepliesRead s) := by
  have hfrom : s.pc.handling = false := by rw [hpc]; rfl
  constructor
  · intro h
    constructor
    · apply (lost_iff hs.approvals s.drafted).mp
      have hlost := h.approvals
      cases result <;> exact hlost
    · intro hfailed
      cases result with
      | failed reason =>
        have hr := h.replies
        rw [onSend, finish, Slot.lost_clear, List.append_eq_nil_iff, List.map_eq_nil_iff] at hr
        exact hr.1
      | completed nextDueAt => cases hfailed
      | retryable retryAfterMs => cases hfailed
  · rintro ⟨ha, hr⟩
    have hcleared := exact_cleared hs hpc ha
    cases result with
    | completed nextDueAt => exact (hcleared _).goto (.replyWait approval nextDueAt) hfrom rfl
    | retryable retryAfterMs =>
      exact (hcleared (approval.executionId :: s.retrying.filter (· ≠ approval.executionId))).goto
        .sleep hfrom rfl
    | failed reason =>
      apply (exact_finish (hcleared _) _).mpr
      exact ⟨fun _ hw => absurd hw List.not_mem_nil, hr rfl, recording_of_not_handling hfrom⟩

/-! ## One event -/

attribute [local simp] resume Orderly

/-- The end of the workflow where nothing is handled. -/
theorem exact_finish_of_not_handling (hs : Exact s) (hfrom : s.pc.handling = false)
    (outcome : Outcome) : Exact (finish s outcome) ↔ ApprovalsRead s ∧ RepliesRead s := by
  rw [exact_finish hs, recording_of_not_handling hfrom]
  simp

theorem exact_gotSequence (hs : Exact s) (status : Sequence.Status) :
    Exact (resume input s (.gotSequence status)).1 ↔ Orderly input s (.gotSequence status) := by
  rw [resume, Orderly]
  split
  next hpc =>
    have hfrom : s.pc.handling = false := by rw [hpc]; rfl
    cases terminal status with
    | true => simp [exact_finish_of_not_handling hs hfrom, hpc]
    | false => simp [hs.goto .prepareDraft hfrom rfl]
  next hne => exact iff_of_true hs fun hpc => absurd hpc hne

theorem exact_preparedDraft (hs : Exact s) (result : PrepareDraftResult) :
    Exact (resume input s (.preparedDraft result)).1 ↔ Orderly input s (.preparedDraft result) := by
  rw [resume, Orderly]
  split
  next hpc =>
    have hfrom : s.pc.handling = false := by rw [hpc]; rfl
    rw [exact_onDraft hs hfrom, forall_prop_of_true hpc]
  next hne => exact iff_of_true hs fun hpc => absurd hpc hne

/-- At a look at its condition the workflow goes on with what is in the slot, and stays where that
is empty. -/
theorem exact_wake (hs : Exact s) : Exact (resume input s .wake).1 ↔ Orderly input s .wake := by
  rw [resume, Orderly]
  cases hpc : s.pc with
  | approvalWait executionId =>
    cases ha : s.pendingApproval.current with
    | none => exact iff_of_true hs fun _ _ _ h => nomatch h
    | some approval =>
      dsimp only
      rw [exact_onApproval hs hpc ha]
      constructor
      · rintro h _ _ _ ⟨rfl⟩
        exact h
      · intro h
        exact h executionId approval rfl rfl
  | replyWait approval nextDueAt =>
    have hfrom : s.pc.handling = false := by rw [hpc]; rfl
    refine iff_of_true ?_ nofun
    cases hr : s.pendingReply.current with
    | none => exact hs
    | some reply => exact exact_onReply hs approval nextDueAt hfrom hr
  | _ => exact iff_of_true hs nofun

theorem exact_timeout (hs : Exact s) (now : Date) :
    Exact (resume input s (.timeout now)).1 ↔ Orderly input s (.timeout now) := by
  rw [resume, Orderly]
  cases hpc : s.pc with
  | approvalWait executionId =>
    have hfrom : s.pc.handling = false := by rw [hpc]; rfl
    cases ha : s.pendingApproval.current with
    | none =>
      refine iff_of_true ?_ fun _ _ _ h => nomatch h
      dsimp only
      split
      · exact hs.goto (.expireApprovalWait executionId) hfrom rfl
      · exact hs
    | some approval =>
      dsimp only
      rw [exact_onApproval hs hpc ha]
      constructor
      · rintro h _ _ _ ⟨rfl⟩
        exact h
      · intro h
        exact h executionId approval rfl rfl
  | replyWait approval nextDueAt =>
    have hfrom : s.pc.handling = false := by rw [hpc]; rfl
    refine iff_of_true ?_ nofun
    cases hr : s.pendingReply.current with
    | none => exact exact_sleepUntilDue hs hfrom nextDueAt now
    | some reply => exact exact_onReply hs approval nextDueAt hfrom hr
  | _ => exact iff_of_true hs nofun

theorem exact_expiredApprovalWait (hs : Exact s) :
    Exact (resume input s .expiredApprovalWait).1 ↔ Orderly input s .expiredApprovalWait := by
  rw [resume, Orderly]
  split
  next executionId hpc =>
    have hfrom : s.pc.handling = false := by rw [hpc]; rfl
    rw [exact_finish_of_not_handling hs hfrom]
    exact ⟨fun h _ _ => h, fun h => h executionId hpc⟩
  next hne => exact iff_of_true hs fun executionId hpc => absurd hpc (hne executionId)

theorem exact_executedSend (hs : Exact s) (result : ExecuteSendResult) :
    Exact (resume input s (.executedSend result)).1 ↔ Orderly input s (.executedSend result) := by
  rw [resume, Orderly]
  split
  next executionId approval hpc =>
    rw [exact_onSend hs hpc]
    exact ⟨fun h _ _ _ => h, fun h => h executionId approval hpc⟩
  next hne => exact iff_of_true hs fun executionId approval hpc => absurd hpc (hne executionId approval)

/-- The reply that was recorded is interpreted. -/
theorem exact_recordedResponse (hs : Exact s) :
    Exact (resume input s .recordedResponse).1 := by
  rw [resume]
  split
  next approval nextDueAt reply hpc =>
    have hread := hs.passed
    rw [hpc] at hread
    exact {
      sends := hs.sends
      approvals := hs.approvals
      retries := by
        intro x hx
        cases hx
      replies := hs.replies
      passed := hread
      once := nofun
      ended := nofun }
  next => exact hs

theorem exact_interpretedReply (hs : Exact s) (now : Date) :
    Exact (resume input s (.interpretedReply now)).1 ↔ Orderly input s (.interpretedReply now) := by
  rw [resume, Orderly]
  split
  next approval nextDueAt reply hpc =>
    constructor
    · intro h _ _ _ _
      have hr : s.pendingReply.waiting.map ((), ·) ++ s.pendingReply.lost = [] := h.replies
      rw [List.append_eq_nil_iff, List.map_eq_nil_iff] at hr
      exact hr.1
    · intro h
      have hwaiting : s.pendingReply.waiting = [] := h approval nextDueAt reply hpc
      have hread := hs.passed
      rw [hpc] at hread
      have hlost : (s.pendingReply.clear ()).lost = [] := by
        rw [Slot.lost_clear, hwaiting, hs.replies]
        rfl
      exact {
        sends := hs.sends
        approvals := hs.approvals
        retries := by
          intro x hx
          cases hx
        replies := hlost
        passed := hread
        once := fun _ => rfl
        ended := nofun }
  next hne =>
    exact iff_of_true hs fun approval nextDueAt reply hpc => absurd hpc (hne approval nextDueAt reply)

theorem exact_slept (hs : Exact s) :
    Exact (resume input s .slept).1 ↔ Orderly input s .slept := by
  rw [resume, Orderly]
  split
  next hpc =>
    have hnext : Exact { s with iteration := s.iteration + 1 } := {
      sends := hs.sends
      approvals := hs.approvals
      retries := hs.retries
      replies := hs.replies
      passed := hs.passed
      once := hs.once
      ended := hs.ended }
    rw [exact_iterate hnext (by dsimp only; rw [hpc]; rfl), forall_prop_of_true hpc]
    rfl
  next hne => exact iff_of_true hs fun hpc => absurd hpc hne

theorem exact_activityFailed (hs : Exact s) :
    Exact (resume input s .activityFailed).1 ↔ Orderly input s .activityFailed := by
  rw [resume, Orderly]
  cases hpc : s.pc with
  | getSequence | prepareDraft | expireApprovalWait _ | executeSend _ _ | recordResponse _ _ _
  | interpretReply _ _ _ =>
    rw [exact_finish hs, hpc]
    simp [Pc.awaitsActivity]
  | _ => exact iff_of_true hs nofun

theorem exact_approvalGranted (hs : Exact s) (payload : OutreachApprovalSignal) :
    Exact { s with pendingApproval := s.pendingApproval.put s.drafted payload } ↔
      ApprovalsRead s := by
  constructor
  · intro h
    exact (lost_iff hs.approvals s.drafted).mp h.approvals
  · intro hread
    exact {
      sends := fun call hcall =>
        ⟨(hs.sends call hcall).1, List.mem_cons_of_mem _ (hs.sends call hcall).2⟩
      approvals := (lost_iff hs.approvals s.drafted).mpr hread
      retries := hs.retries
      replies := hs.replies
      passed := hs.passed
      once := hs.once
      ended := hs.ended }

theorem exact_replyReceived (hs : Exact s) (hended : s.pc.isEnded = false)
    (payload : ReplyReceivedSignal) :
    Exact { s with pendingReply := s.pendingReply.put () payload } ↔ RepliesRead s := by
  constructor
  · intro h
    have hr := h.replies
    rw [Slot.lost_put, List.append_eq_nil_iff, List.map_eq_nil_iff] at hr
    exact hr.1
  · intro hread
    have hwaiting : s.pendingReply.waiting = [] := hread
    exact {
      sends := hs.sends
      approvals := hs.approvals
      retries := hs.retries
      replies := by
        rw [Slot.lost_put, hwaiting, hs.replies]
        rfl
      passed := hs.passed
      once := fun _ => rfl
      ended := by
        intro h
        rw [hended] at h
        cases h }

/-- **One event keeps the law iff it comes in order.** -/
theorem exact_step (hs : Exact s) (event : Event) :
    Exact (step input s event).1 ↔ (s.pc.isEnded = false → Orderly input s event) := by
  unfold step
  cases hended : s.pc.isEnded with
  | true =>
    rw [if_pos rfl]
    exact iff_of_true hs nofun
  | false =>
    rw [if_neg (by nofun), forall_prop_of_true rfl]
    cases event with
    | outreachApprovalGranted payload => exact exact_approvalGranted hs payload
    | replyReceived payload => exact exact_replyReceived hs hended payload
    | gotSequence status => exact exact_gotSequence hs status
    | preparedDraft result => exact exact_preparedDraft hs result
    | wake => exact exact_wake hs
    | timeout now => exact exact_timeout hs now
    | expiredApprovalWait => exact exact_expiredApprovalWait hs
    | executedSend result => exact exact_executedSend hs result
    | recordedResponse => exact iff_of_true (exact_recordedResponse hs) trivial
    | interpretedReply now => exact exact_interpretedReply hs now
    | slept => exact exact_slept hs
    | activityFailed => exact exact_activityFailed hs

/-! ## Runs -/

end VegaRevenue.OutreachWorkflow
