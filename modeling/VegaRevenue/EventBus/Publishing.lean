import VegaRevenue.EventBus.Raised
import VegaRevenue.Lib.KeyedRows
import VegaRevenue.Lib.Outbox

/-!
# Publishing the events of an aggregate

Every public operation is given an event id and hands it to the events it raises. They wait on the
aggregate until they are published into a table that ignores an id it has already.

* `nothingLost_iff_once` — every event that waits reaches the tables iff no operation raises two
-/

namespace VegaRevenue.EventBus

open Versioned

/-! ## Events -/

structure DomainEvent (E : Type) where
  eventId : String
  eventType : String
  eventVersion : String
  occurredAt : Date
  tenantId : String
  correlationId : String
  producer : String
  payload : E
deriving DecidableEq

/-- What distinguishes the aggregates here. -/
structure AggregateModel where
  State : Type
  Event : Type
  Op : Type
  tenantOf : State → String
  apply : Date → Op → Aggregate State Event → Aggregate State Event
  /-- The aggregates that `create` returns. -/
  created : Aggregate State Event → Prop
  raisesTwice : Op → State → Prop
  eventType : Event → String
  producer : String

inductive AggregateKind where
  | mission
  | sequence
  | campaign
  | messageExecution
  | conversation
deriving DecidableEq

def missionEventType : Mission.Event → String
  | .created .. => "MissionCreated"
  | .approved .. => "MissionApproved"
  | .started .. => "MissionStarted"
  | .replanned .. => "MissionReplanned"
  | .paused .. => "MissionPaused"
  | .resumed .. => "MissionResumed"
  | .cancelled .. => "MissionCancelled"
  | .completed .. => "MissionCompleted"
  | .failed .. => "MissionFailed"
  | .archived .. => "MissionArchived"
  | .blocked .. => "MissionBlocked"
  | .unblocked .. => "MissionUnblocked"
  | .taskAdded .. => "MissionTaskAdded"
  | .taskStatusChanged .. => "MissionTaskStatusChanged"
  | .taskTimedOut .. => "MissionTaskTimedOut"
  | .taskCancelled .. => "MissionTaskCancelled"

def sequenceEventType : Sequence.Event → String
  | .created .. => "OutreachSequenceCreated"
  | .statusChanged .. => "OutreachSequenceStatusChanged"
  | .stepStarted .. => "OutreachSequenceStepStarted"
  | .stepCompleted .. => "OutreachSequenceStepCompleted"
  | .stepFailed .. => "OutreachSequenceStepFailed"
  | .workflowLinked .. => "SequenceWorkflowLinked"

def campaignEventType : Campaign.Event → String
  | .created .. => "OutreachCampaignCreated"
  | .statusChanged .. => "OutreachCampaignStatusChanged"

def messageExecutionEventType : MessageExecution.Event → String
  | .created .. => "MessageExecutionCreated"
  | .statusChanged .. => "MessageExecutionStatusChanged"

def conversationEventType : Conversation.Event → String
  | .conversationStarted .. => "ConversationStarted"
  | .replyReceived .. => "ReplyReceived"
  | .optOutRecorded .. => "OptOutRecorded"
  | .intentClassified .. => "IntentClassified"
  | .followUpScheduled .. => "FollowUpScheduled"
  | .conversationClosed .. => "ConversationClosed"

def AggregateKind.model : AggregateKind → AggregateModel
  | mission =>
    { State := Mission.Props, Event := Mission.Event, Op := Mission.Op
      tenantOf := Mission.Props.tenantId
      apply := fun now op m => (op.apply now m).1
      created := fun m => ∃ props now, Mission.create props now = .ok m
      raisesTwice := fun op s => op.raisesTwice s
      eventType := missionEventType, producer := "mission-management" }
  | sequence =>
    { State := Sequence.Props, Event := Sequence.Event, Op := Sequence.Op
      tenantOf := Sequence.Props.tenantId
      apply := fun now op a => op.apply now a
      created := fun a => ∃ props fingerprint, Sequence.create props fingerprint = .ok a
      raisesTwice := fun op s => op.raisesTwice s
      eventType := sequenceEventType, producer := "outreach" }
  | campaign =>
    { State := Campaign.Props, Event := Campaign.Event, Op := Campaign.Op
      tenantOf := Campaign.Props.tenantId
      apply := fun now op a => op.apply now a
      created := fun a => ∃ props, Campaign.create props = .ok a
      raisesTwice := fun _ _ => False
      eventType := campaignEventType, producer := "outreach" }
  | messageExecution =>
    { State := MessageExecution.Props, Event := MessageExecution.Event, Op := MessageExecution.Op
      tenantOf := MessageExecution.Props.tenantId
      apply := fun now op a => op.apply now a
      created := fun a => ∃ props, MessageExecution.create props = .ok a
      raisesTwice := fun _ _ => False
      eventType := messageExecutionEventType, producer := "outreach" }
  | conversation =>
    { State := Conversation.Props, Event := Conversation.Event, Op := Conversation.Op
      tenantOf := Conversation.Props.tenantId
      apply := fun now op a => op.apply now a
      created := fun a => ∃ props, Conversation.create props = a
      raisesTwice := fun _ _ => False
      eventType := conversationEventType, producer := "conversation" }

theorem AggregateKind.raises (kind : AggregateKind) (now : Date) (op : kind.model.Op)
    (a : Aggregate kind.model.State kind.model.Event) :
    a.Raises (kind.model.apply now op a) (kind.model.raisesTwice op a.state) := by
  cases kind with
  | mission => exact op.apply_raises now a
  | sequence => exact op.apply_raises now a
  | campaign => exact (op.apply_raises now a).raises id
  | messageExecution => exact (op.apply_raises now a).raises id
  | conversation => exact (op.apply_raises now a).raises id

theorem AggregateKind.created_raises (kind : AggregateKind)
    {a : Aggregate kind.model.State kind.model.Event} (h : kind.model.created a) :
    a.domainEvents.length = 1 := by
  cases kind with
  | mission =>
    obtain ⟨props, now, h⟩ := h
    exact Mission.create_raises h
  | sequence =>
    obtain ⟨props, fingerprint, h⟩ := h
    exact Sequence.create_raises h
  | campaign =>
    obtain ⟨props, h⟩ := h
    exact Campaign.create_raises h
  | messageExecution =>
    obtain ⟨props, h⟩ := h
    exact MessageExecution.create_raises h
  | conversation =>
    obtain ⟨props, rfl⟩ := h
    rfl

/-! ## Calls -/

section

variable (M : AggregateModel)

inductive Action where
  | operate (op : M.Op)
  | clearDomainEvents

/-- A call of a public operation, and what the clock reads when it runs. -/
structure Call where
  action : Action M
  correlationId : String
  eventId : String
  now : Date

/-- An aggregate with its tenant, which no operation changes. -/
structure Root where
  tenantId : String
  aggregate : Aggregate M.State M.Event

variable {M}

/-- The event that a payload is raised in. -/
def envelope (tenantId correlationId eventId : String) (now : Date) (payload : M.Event) :
    DomainEvent M.Event where
  eventId := eventId
  eventType := M.eventType payload
  eventVersion := "1"
  occurredAt := now
  tenantId := tenantId
  correlationId := correlationId
  producer := M.producer
  payload := payload

def Action.apply (now : Date) (a : Aggregate M.State M.Event) :
    Action M → Aggregate M.State M.Event
  | operate op => M.apply now op a
  | clearDomainEvents => a.clearDomainEvents

/-- The events of a call, each with the id that the call was given. -/
def Root.raised (r : Root M) (c : Call M) : List (DomainEvent M.Event) :=
  match c.action with
  | .operate op =>
    (r.aggregate.raisedSince (M.apply c.now op r.aggregate)).map
      (envelope r.tenantId c.correlationId c.eventId c.now)
  | .clearDomainEvents => []

variable (M)

def source : Outbox.Source (Root M) (Call M) (DomainEvent M.Event) String where
  next r c := { r with aggregate := c.action.apply c.now r.aggregate }
  raised := Root.raised
  clears c :=
    match c.action with
    | .operate _ => false
    | .clearDomainEvents => true
  callId := Call.eventId
  eventId := DomainEvent.eventId
  eventId_raised := by
    intro r c e he
    unfold Root.raised at he
    split at he
    · obtain ⟨payload, -, rfl⟩ := List.mem_map.mp he
      rfl
    · cases he

end

/-! ## Publishing -/

section

variable {E : Type}

/-- `PostgresEventBus.publish`: `ON CONFLICT (event_id) DO NOTHING`. -/
def publish (rows : List (DomainEvent E)) (event : DomainEvent E) : List (DomainEvent E) :=
  KeyedRows.insertMissing DomainEvent.eventId rows event

/-- The events are published one after another. -/
def publishEach (rows events : List (DomainEvent E)) : List (DomainEvent E) :=
  events.foldl publish rows

/-- `byTenant`: a tenant stands where its first event does. -/
def addToTenant (event : DomainEvent E) :
    List (String × List (DomainEvent E)) → List (String × List (DomainEvent E))
  | [] => [(event.tenantId, [event])]
  | (tenantId, events) :: groups =>
    if tenantId = event.tenantId then (tenantId, events ++ [event]) :: groups
    else (tenantId, events) :: addToTenant event groups

def byTenant (events : List (DomainEvent E)) : List (String × List (DomainEvent E)) :=
  events.foldl (fun groups event => addToTenant event groups) []

/-- The row of `audit.domain_events`, which names the publisher as the producer. -/
def DomainEvent.row (producer : String) (event : DomainEvent E) : DomainEvent E :=
  { event with producer }

/-- `PostgresDomainEventPublisher.publish`, tenant by tenant. -/
def publishDomainEvents (producer : String) (rows events : List (DomainEvent E)) :
    List (DomainEvent E) :=
  (byTenant events).foldl
    (fun rows group => KeyedRows.insertAll DomainEvent.eventId rows
      (group.2.map (DomainEvent.row producer))) rows

theorem byTenant_of_same {tenantId : String} {event : DomainEvent E}
    {events : List (DomainEvent E)} (h : ∀ e ∈ event :: events, e.tenantId = tenantId) :
    byTenant (event :: events) = [(tenantId, event :: events)] := by
  have hfold : ∀ before after : List (DomainEvent E), (∀ e ∈ after, e.tenantId = tenantId) →
      after.foldl (fun groups event => addToTenant event groups) [(tenantId, before)] =
        [(tenantId, before ++ after)] := by
    intro before after hafter
    induction after generalizing before with
    | nil => rw [List.foldl_nil, List.append_nil]
    | cons e after ih =>
      have he := hafter e List.mem_cons_self
      rw [List.foldl_cons, addToTenant, if_pos he.symm, ih _ fun x hx =>
        hafter x (List.mem_cons_of_mem e hx), List.append_assoc]
      rfl
  have hevent := h event List.mem_cons_self
  show events.foldl (fun groups event => addToTenant event groups) [(event.tenantId, [event])] = _
  rw [hevent]
  exact hfold [event] events fun e he => h e (List.mem_cons_of_mem event he)

/-- Over the events of one tenant the publisher inserts them in their order. -/
theorem publishDomainEvents_of_same {tenantId : String} (producer : String)
    (rows : List (DomainEvent E)) {events : List (DomainEvent E)}
    (h : ∀ e ∈ events, e.tenantId = tenantId) :
    publishDomainEvents producer rows events =
      KeyedRows.insertAll DomainEvent.eventId rows (events.map (DomainEvent.row producer)) := by
  cases events with
  | nil => rfl
  | cons event events =>
    unfold publishDomainEvents
    rw [byTenant_of_same h]
    rfl

end

/-! ## Nothing is lost -/

section

variable {M : AggregateModel}

abbrev Waiting (M : AggregateModel) := Outbox.Pending (Root M) (DomainEvent M.Event)

/-- An aggregate that was created under an event id, or loaded. -/
def Begun (p : Waiting M) : Prop :=
  (∃ a correlationId eventId now, M.created a ∧
    p = ⟨⟨M.tenantOf a.state, a⟩,
      a.domainEvents.map (envelope (M.tenantOf a.state) correlationId eventId now)⟩) ∨
  ∃ s version, p = ⟨⟨M.tenantOf s, .reconstitute s version⟩, []⟩

/-- The waiting events have different ids, and each table into which they are published holds them
all, in the order raised. -/
structure NothingLost (p : Waiting M) : Prop where
  distinct : (p.events.map DomainEvent.eventId).Nodup
  bus : ∀ rows, (∀ e ∈ p.events, e.eventId ∉ rows.map DomainEvent.eventId) →
    publishEach rows p.events = rows ++ p.events
  publisher : ∀ producer rows, (∀ e ∈ p.events, e.eventId ∉ rows.map DomainEvent.eventId) →
    publishDomainEvents producer rows p.events =
      rows ++ p.events.map (DomainEvent.row producer)

/-- The waiting events are those of the aggregate, and of its tenant. -/
structure Faithful (p : Waiting M) : Prop where
  payloads : p.events.map DomainEvent.payload = p.state.aggregate.domainEvents
  tenants : ∀ e ∈ p.events, e.tenantId = p.state.tenantId

/-- The operation does not raise two events. -/
def RaisesOnce (p : Waiting M) (c : Call M) : Prop :=
  match c.action with
  | .operate op => ¬M.raisesTwice op p.state.aggregate.state
  | .clearDomainEvents => True

theorem map_payload_envelope (tenantId correlationId eventId : String) (now : Date)
    (payloads : List M.Event) :
    (payloads.map (envelope tenantId correlationId eventId now)).map DomainEvent.payload =
      payloads := by
  rw [List.map_map]
  exact List.map_id payloads

theorem Begun.faithful {p : Waiting M} (h : Begun p) : Faithful p := by
  rcases h with ⟨a, correlationId, eventId, now, -, rfl⟩ | ⟨s, version, rfl⟩
  · refine ⟨map_payload_envelope _ _ _ _ _, fun e he => ?_⟩
    obtain ⟨payload, -, rfl⟩ := List.mem_map.mp he
    rfl
  · exact ⟨rfl, nofun⟩

/-- Where the ids differ nothing is lost. -/
theorem nothingLost_iff {p : Waiting M} (h : Faithful p) :
    NothingLost p ↔ (source M).Distinct p := by
  constructor
  · exact NothingLost.distinct
  · intro hdistinct
    refine ⟨hdistinct, fun rows hnew => KeyedRows.insertAll_eq_append hdistinct hnew, ?_⟩
    intro producer rows hnew
    have hids : (p.events.map (DomainEvent.row producer)).map DomainEvent.eventId =
        p.events.map DomainEvent.eventId := by
      rw [List.map_map]
      rfl
    rw [publishDomainEvents_of_same producer rows h.tenants, KeyedRows.insertAll_eq_append]
    · rw [hids]
      exact hdistinct
    · intro e he
      obtain ⟨event, hevent, rfl⟩ := List.mem_map.mp he
      exact hnew event hevent

end

section

variable {kind : AggregateKind}

theorem faithful_call {p : Waiting kind.model} (h : Faithful p) (c : Call kind.model) :
    Faithful ((source kind.model).call p c).1 := by
  obtain ⟨action, correlationId, eventId, now⟩ := c
  cases action with
  | clearDomainEvents => exact ⟨rfl, nofun⟩
  | operate op =>
    have hraised := (kind.raises now op p.state.aggregate).raisedSince.1
    constructor
    · show (p.events ++ List.map _ _).map DomainEvent.payload = _
      rw [List.map_append, map_payload_envelope, h.payloads]
      exact hraised.symm
    · intro e he
      rcases List.mem_append.mp he with hold | hnew
      · exact h.tenants e hold
      · obtain ⟨payload, -, rfl⟩ := List.mem_map.mp hnew
        rfl

theorem once_iff (p : Waiting kind.model) (c : Call kind.model) :
    (source kind.model).Once p c ↔ RaisesOnce p c := by
  obtain ⟨action, correlationId, eventId, now⟩ := c
  cases action with
  | clearDomainEvents => exact iff_of_true (.inl rfl) trivial
  | operate op =>
    have hlength := (kind.raises now op p.state.aggregate).raisedSince.2
    show false = true ∨ (List.map _ _).length ≤ 1 ↔ _
    rw [List.length_map, hlength]
    simp [RaisesOnce]

theorem Begun.distinct {p : Waiting kind.model} (h : Begun p) :
    (source kind.model).Distinct p := by
  rcases h with ⟨a, correlationId, eventId, now, hcreated, rfl⟩ | ⟨s, version, rfl⟩
  · obtain ⟨payload, heq⟩ := List.length_eq_one_iff.mp (kind.created_raises hcreated)
    show ((a.domainEvents.map _).map DomainEvent.eventId).Nodup
    rw [heq]
    exact List.nodup_singleton _
  · exact List.nodup_nil

/-- **No event of an aggregate is lost throughout a history of calls with fresh event ids iff none
of the calls raises two events.** -/
theorem nothingLost_iff_once (kind : AggregateKind) {p : Waiting kind.model} (hbegun : Begun p)
    (calls : List (Call kind.model)) (hfresh : (source kind.model).Fresh p calls) :
    Machine.Throughout (source kind.model).call NothingLost p calls ↔
      Machine.Meets (source kind.model).call RaisesOnce p calls := by
  have hdistinct : Machine.Throughout (source kind.model).call NothingLost p calls ↔
      Machine.Throughout (source kind.model).call (source kind.model).Distinct p calls :=
    Machine.throughout_congr_of_invariant (fun _ h => nothingLost_iff h)
      (fun _ c h => faithful_call h c) calls hbegun.faithful
  rw [hdistinct, Outbox.Source.distinct_iff_once calls hbegun.distinct hfresh]
  exact Machine.meets_congr once_iff calls

end

/-! ## Two runs -/

/-- A running campaign, loaded. -/
def loadedCampaign : Waiting AggregateKind.campaign.model :=
  ⟨⟨"t1", .reconstitute freshCampaign.payload 4⟩, []⟩

theorem nothingLost_iff_once_campaign :
    Machine.Throughout (source AggregateKind.campaign.model).call NothingLost loadedCampaign
      [⟨.operate (.pause "holiday"), "c", "e1", 1⟩, ⟨.operate .resume, "c", "e2", 2⟩] := by
  refine (nothingLost_iff_once .campaign (.inr ⟨freshCampaign.payload, 4, rfl⟩) _
    ⟨by decide, nofun⟩).mpr ⟨id, id, trivial⟩

/-- An executing mission with a running task, loaded. -/
def loadedMission : Waiting AggregateKind.mission.model :=
  ⟨⟨"tenant", .reconstitute { Mission.sampleMission with
    status := .executing
    tasks := [{ Mission.sampleTask "research" [] with status := .running }] } 3⟩, []⟩

def timesOut : Call AggregateKind.mission.model :=
  ⟨.operate (.timeoutTask "research"), "c", "e1", 1⟩

/-- The event that a task timed out is raised under the id of its status change, and dropped. -/
theorem timeoutTask_loses_event :
    ((source AggregateKind.mission.model).call loadedMission timesOut).1.events.map
        DomainEvent.payload =
      [.taskStatusChanged "mission" "research" .timedOut, .taskTimedOut "mission" "research"] ∧
    (publishEach [] ((source AggregateKind.mission.model).call loadedMission
        timesOut).1.events).map DomainEvent.payload =
      [.taskStatusChanged "mission" "research" .timedOut] ∧
    ¬Machine.Throughout (source AggregateKind.mission.model).call NothingLost loadedMission
      [timesOut] := by
  refine ⟨rfl, rfl, fun h => ?_⟩
  have hids : ["e1", "e1"].Nodup := h.final.distinct
  revert hids
  decide

end VegaRevenue.EventBus
