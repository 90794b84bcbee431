import VegaRevenue.Domain.Sequence
import VegaRevenue.Lib.Machine
import VegaRevenue.Lib.Slot

/-!
# The outreach sequence workflow

`OutreachSequenceWorkflow` as a machine. Signals come at any time and write a slot each; between
two awaits the workflow runs without a break. An event is a signal, the end of what the workflow
awaits, or a look at the condition it waits for.

* `step` — what one event does
-/

namespace VegaRevenue.OutreachWorkflow

/-! ## Signals, activities and events -/

structure OutreachApprovalSignal where
  executionId : String
  approvalId : String
deriving DecidableEq

inductive ResponseType where
  | replied
  | opened
deriving DecidableEq

structure ReplyReceivedSignal where
  providerMessageId : String
  content : String
  channel : String
  responseType : ResponseType
  autonomyLevel : Rat
deriving DecidableEq

structure Input where
  sequenceId : String
  leadId : String
  maxIterations : Option Nat := none
  approvalTimeoutMs : Option Nat := none

structure PrepareDraftResult where
  failed : Bool
  executionId : Option String := none
  reason : Option String := none
deriving DecidableEq

inductive ExecuteSendResult where
  | completed (nextDueAt : Option Date)
  | retryable (retryAfterMs : Option Int)
  | failed (reason : Option String)
deriving DecidableEq

/-- An activity that the workflow starts, or a timer. -/
inductive Command where
  | getSequence (sequenceId : String)
  | prepareDraft (sequenceId : String)
  | expireApprovalWait (executionId reason : String)
  | executeSend (executionId approvalId : String)
  | recordResponse (executionId : String) (responseType : ResponseType)
  | interpretReply (executionId leadId : String) (reply : ReplyReceivedSignal)
  | sleep (ms : Int)
deriving DecidableEq

inductive Event where
  | outreachApprovalGranted (payload : OutreachApprovalSignal)
  | replyReceived (payload : ReplyReceivedSignal)
  | gotSequence (status : Sequence.Status)
  | preparedDraft (result : PrepareDraftResult)
  /-- The condition that is waited for is looked at, after the signals that came together. -/
  | wake
  /-- The bound of a wait is over. -/
  | timeout (now : Date)
  | expiredApprovalWait
  | executedSend (result : ExecuteSendResult)
  | recordedResponse
  | interpretedReply (now : Date)
  | slept
  /-- The activity that is awaited failed; it is not retried. -/
  | activityFailed

/-! ## States -/

inductive Outcome where
  | returned (status reason : String)
  | threw
deriving DecidableEq

/-- Where the workflow awaits, with the locals that are still read. -/
inductive Pc where
  | getSequence
  | prepareDraft
  | approvalWait (executionId : String)
  | expireApprovalWait (executionId : String)
  | executeSend (executionId : String) (approval : OutreachApprovalSignal)
  | replyWait (approval : OutreachApprovalSignal) (nextDueAt : Option Date)
  | recordResponse (approval : OutreachApprovalSignal) (nextDueAt : Option Date)
      (reply : ReplyReceivedSignal)
  | interpretReply (approval : OutreachApprovalSignal) (nextDueAt : Option Date)
      (reply : ReplyReceivedSignal)
  | sleep
  | ended (outcome : Outcome)
deriving DecidableEq

/-- A call of `executeSend`, with the execution that was drafted last. -/
structure SendCall where
  drafted : Option String
  executionId : String
  approvalId : String
deriving DecidableEq

/-- The variables of the workflow. The last four fields and those of the slots but `current` are
history, which the workflow does not read. -/
structure State where
  pc : Pc
  iteration : Nat
  pendingApproval : Slot (Option String) OutreachApprovalSignal
  pendingReply : Slot Unit ReplyReceivedSignal
  /-- The execution that the latest `prepareDraft` returned. -/
  drafted : Option String
  sends : List SendCall
  /-- The executions whose latest `executeSend` returned `RETRYABLE`. -/
  retrying : List String
  /-- The replies that were passed to `recordResponse` and `interpretReply`. -/
  passed : List ReplyReceivedSignal

/-! ## The workflow -/

section

variable (input : Input)

/-- The slots go with the workflow. -/
def finish (s : State) (outcome : Outcome) : State :=
  { s with
    pc := .ended outcome
    pendingApproval := s.pendingApproval.clear s.drafted
    pendingReply := s.pendingReply.clear () }

/-- The head of the loop. -/
def iterate (s : State) : State × List Command :=
  if s.iteration < input.maxIterations.getD 50 then
    ({ s with pc := .getSequence }, [.getSequence input.sequenceId])
  else (finish s (.returned "FAILED" "Exceeded maximum workflow iterations"), [])

def terminal (status : Sequence.Status) : Bool :=
  status = .completed || status = .cancelled || status = .failed

/-- After the wait for an approval. -/
def onApproval (s : State) (executionId : String) (approval : OutreachApprovalSignal) :
    State × List Command :=
  ({ s with
      pc := .executeSend executionId approval
      pendingApproval := s.pendingApproval.take
      sends := ⟨s.drafted, approval.executionId, approval.approvalId⟩ :: s.sends },
    [.executeSend approval.executionId approval.approvalId])

/-- The end of an iteration after a completed send. -/
def sleepUntilDue (s : State) (nextDueAt : Option Date) (now : Date) : State × List Command :=
  let nextDueDelayMs := match nextDueAt with
    | some due => max 0 (due - now)
    | none => 0
  ({ s with pc := .sleep }, [.sleep (if 0 < nextDueDelayMs then nextDueDelayMs else 1000)])

/-- After the wait for a reply that came. -/
def onReply (s : State) (approval : OutreachApprovalSignal) (nextDueAt : Option Date)
    (reply : ReplyReceivedSignal) : State × List Command :=
  ({ s with
      pc := .recordResponse approval nextDueAt reply
      pendingReply := s.pendingReply.take },
    [.recordResponse approval.executionId reply.responseType])

def onDraft (s : State) (result : PrepareDraftResult) : State × List Command :=
  if result.failed then
    (finish s (.returned "FAILED" (result.reason.getD "Draft preparation failed")), [])
  else
    match result.executionId with
    | none => (finish s (.returned "FAILED" "Draft result missing executionId"), [])
    | some executionId =>
      if executionId = "" then
        (finish s (.returned "FAILED" "Draft result missing executionId"), [])
      else ({ s with pc := .approvalWait executionId, drafted := some executionId }, [])

def onSend (s : State) (approval : OutreachApprovalSignal) (result : ExecuteSendResult) :
    State × List Command :=
  let s := { s with
    pendingApproval := s.pendingApproval.clear s.drafted
    retrying := s.retrying.filter (· ≠ approval.executionId) }
  match result with
  | .failed reason => (finish s (.returned "FAILED" (reason.getD "Send execution failed")), [])
  | .completed nextDueAt => ({ s with pc := .replyWait approval nextDueAt }, [])
  | .retryable retryAfterMs =>
    ({ s with pc := .sleep, retrying := approval.executionId :: s.retrying },
      [.sleep (retryAfterMs.getD 60000)])

/-- The workflow goes on after the end of what it awaited. -/
def resume (s : State) : Event → State × List Command
  | .gotSequence status =>
    match s.pc with
    | .getSequence =>
      if terminal status then
        (finish s (.returned status.name "Sequence reached terminal state"), [])
      else ({ s with pc := .prepareDraft }, [.prepareDraft input.sequenceId])
    | _ => (s, [])
  | .preparedDraft result =>
    match s.pc with
    | .prepareDraft => onDraft s result
    | _ => (s, [])
  | .wake =>
    match s.pc, s.pendingApproval.current, s.pendingReply.current with
    | .approvalWait executionId, some approval, _ => onApproval s executionId approval
    | .replyWait approval nextDueAt, _, some reply => onReply s approval nextDueAt reply
    | _, _, _ => (s, [])
  | .timeout now =>
    match s.pc, s.pendingApproval.current, s.pendingReply.current with
    | .approvalWait executionId, some approval, _ => onApproval s executionId approval
    | .approvalWait executionId, none, _ =>
      if input.approvalTimeoutMs.isSome then
        ({ s with pc := .expireApprovalWait executionId },
          [.expireApprovalWait executionId "Timed out waiting for approval signal"])
      else (s, [])
    | .replyWait approval nextDueAt, _, some reply => onReply s approval nextDueAt reply
    | .replyWait _ nextDueAt, _, none => sleepUntilDue s nextDueAt now
    | _, _, _ => (s, [])
  | .expiredApprovalWait =>
    match s.pc with
    | .expireApprovalWait _ =>
      (finish s (.returned "TIMEOUT" "Timed out waiting for approval signal"), [])
    | _ => (s, [])
  | .executedSend result =>
    match s.pc with
    | .executeSend _ approval => onSend s approval result
    | _ => (s, [])
  | .recordedResponse =>
    match s.pc with
    | .recordResponse approval nextDueAt reply =>
      ({ s with pc := .interpretReply approval nextDueAt reply, passed := reply :: s.passed },
        [.interpretReply approval.executionId input.leadId reply])
    | _ => (s, [])
  | .interpretedReply now =>
    match s.pc with
    | .interpretReply _ nextDueAt _ =>
      sleepUntilDue { s with pendingReply := s.pendingReply.clear () } nextDueAt now
    | _ => (s, [])
  | .slept =>
    match s.pc with
    | .sleep => iterate input { s with iteration := s.iteration + 1 }
    | _ => (s, [])
  | .activityFailed =>
    match s.pc with
    | .getSequence | .prepareDraft | .expireApprovalWait _ | .executeSend _ _
    | .recordResponse _ _ _ | .interpretReply _ _ _ => (finish s .threw, [])
    | _ => (s, [])
  | _ => (s, [])

def Pc.isEnded : Pc → Bool
  | ended _ => true
  | _ => false

/-- A signal runs its handler at once; nothing reaches a workflow that ended. -/
def step : Machine.Step State Event (List Command) := fun s event =>
  if s.pc.isEnded then (s, [])
  else
    match event with
    | .outreachApprovalGranted payload =>
      ({ s with pendingApproval := s.pendingApproval.put s.drafted payload }, [])
    | .replyReceived payload => ({ s with pendingReply := s.pendingReply.put () payload }, [])
    | event => resume input s event

def start : State :=
  (iterate input {
    pc := .sleep, iteration := 0, pendingApproval := .empty, pendingReply := .empty
    drafted := none, sends := [], retrying := [], passed := [] }).1

end

end VegaRevenue.OutreachWorkflow
