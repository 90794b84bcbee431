import VegaRevenue.GraphInbound.Poller
import VegaRevenue.Lib.Holdings

/-!
# Notifications and polls side by side

Any number of notifications and polls over one idempotency store, in any interleaving: a step of a
call runs up to its next statement on a shared store. A call holds the keys of the messages it has
processed, and the key of the one it is looking at.

* `alone` — a call that nobody interrupts does what its function does
* `step_move` — a step adds a key that it wins to what its call holds, or drops keys
-/

namespace VegaRevenue.GraphInbound

open Interleave
open Conversation (ReplyIngressEvent)
open Idempotency (Triple)
open Idempotency.Postgres (Record Store)

structure Deployment where
  ingress : IngressConfig
  poller : PollerConfig

inductive Call where
  | notification (n : GraphChangeNotification) (ports : IngressPorts)
  | poll (tenantConfig : TenantEmailConfig) (ports : PollPorts)

structure World where
  store : Store
  checkpoints : Checkpoints

inductive Pc where
  | start
  | claimNotified (a : Admitted)
  | produce (a : Admitted)
  | ingested (ended : Ended IngressOutcome)
  | claimNext (i : Nat) (messages : List GraphMessagePayload) (g : Gathered)
  | collect (i : Nat) (message : GraphMessagePayload) (messages : List GraphMessagePayload)
      (g : Gathered)
  | polled (ended : Ended ReconciliationResult)

def stepNotification (cfg : IngressConfig) (n : GraphChangeNotification) (ports : IngressPorts)
    (w : World) : Pc → World × Pc
  | .start =>
    match admitted cfg ports n with
    | .error ended => (w, .ingested ended.rejected)
    | .ok a => (w, .claimNotified a)
  | .claimNotified a =>
    match claim w.store (a.key n) ports.claimFault ports.now with
    | (store, .won) => ({ w with store }, .produce a)
    | (store, .lost) => ({ w with store }, .ingested (.returned .duplicate))
    | (store, .failed message) => ({ w with store }, .ingested (.threw message))
  | .produce a => (w, .ingested (GraphInbound.produce cfg ports n a))
  | pc => (w, pc)

def stepPoll (cfg : PollerConfig) (tenantConfig : TenantEmailConfig) (ports : PollPorts)
    (w : World) : Pc → World × Pc
  | .start =>
    match listed cfg ports tenantConfig w.checkpoints with
    | .error message => (w, .polled (.threw message))
    | .ok (messages, since) => (w, .claimNext 0 messages { latestReceivedAt := since })
  | .claimNext _ [] g =>
    let out := finishPoll cfg ports tenantConfig w.checkpoints g
    ({ w with checkpoints := out.1 }, .polled out.2)
  | .claimNext i (message :: messages) g =>
    match claim w.store (pollKey tenantConfig message) (ports.claimFault i) (ports.now i) with
    | (store, .won) => ({ w with store }, .collect i message messages g)
    | (store, .lost) => ({ w with store }, .claimNext (i + 1) messages
        { g with skippedDuplicates := g.skippedDuplicates + 1 })
    | (store, .failed error) => ({ w with store }, .polled (.threw error))
  | .collect i message messages g =>
    match GraphInbound.collect cfg ports tenantConfig i message g with
    | .error error => (w, .polled (.threw error))
    | .ok g => (w, .claimNext (i + 1) messages g)
  | pc => (w, pc)

def step (d : Deployment) (calls : Nat → Call) : Stepper World Pc Unit :=
  fun i _ w pc =>
    match calls i with
    | .notification n ports => stepNotification d.ingress n ports w pc
    | .poll tenantConfig ports => stepPoll d.poller tenantConfig ports w pc

/-! ## What a call holds -/

def eventKey (source : String) (event : ReplyIngressEvent) : Triple :=
  inboundKey event.tenantId source event.providerMessageId

def pollKeys (events : List ReplyIngressEvent) : List Triple := events.map (eventKey "poll")

def heldByNotification (n : GraphChangeNotification) : Pc → List Triple
  | .produce a => [a.key n]
  | .ingested (.returned (.processed event)) => [eventKey n.subscriptionId event]
  | _ => []

def heldByPoll (tenantConfig : TenantEmailConfig) : Pc → List Triple
  | .claimNext _ _ g => pollKeys g.processed
  | .collect _ message _ g => pollKeys g.processed ++ [pollKey tenantConfig message]
  | .polled (.returned result) => pollKeys result.processed
  | _ => []

def held (calls : Nat → Call) (i : Nat) : Pc → List Triple :=
  match calls i with
  | .notification n _ => heldByNotification n
  | .poll tenantConfig _ => heldByPoll tenantConfig

/-- A claim that was won adds its key to what a call holds. -/
theorem move_of_won {store store' : Store} {key : Triple} {fault : Option String}
    {now : Idempotency.Clock} {o o' : List Triple}
    (h : claim store key fault now = (store', .won)) (ho : o'.Sublist (o ++ [key])) :
    Holdings.Move Record.reclaimable store store' o o' := by
  obtain ⟨-, hfree, r, hr, hs⟩ := claim_won h
  exact .takes key r hfree (by simp [Record.reclaimable, hr]) hs ho

theorem notification_move (cfg : IngressConfig) (n : GraphChangeNotification)
    (ports : IngressPorts) (w : World) (pc : Pc) :
    Holdings.Move Record.reclaimable w.store (stepNotification cfg n ports w pc).1.store
      (heldByNotification n pc) (heldByNotification n (stepNotification cfg n ports w pc).2) := by
  cases pc with
  | start =>
    simp only [stepNotification]
    cases admitted cfg ports n with
    | error ended => cases ended <;> exact .keeps rfl (List.Sublist.refl _)
    | ok a => exact .keeps rfl (List.Sublist.refl _)
  | claimNotified a =>
    simp only [stepNotification]
    cases hc : claim w.store (a.key n) ports.claimFault ports.now with
    | mk store claimed =>
      cases claimed with
      | won => exact move_of_won hc (List.Sublist.refl _)
      | _ => exact .keeps (claim_not_won hc nofun) (List.Sublist.refl _)
  | produce a =>
    simp only [stepNotification]
    refine .keeps rfl ?_
    cases hp : GraphInbound.produce cfg ports n a with
    | threw message => exact List.nil_sublist _
    | returned outcome =>
      cases outcome with
      | processed event =>
        obtain ⟨htenant, hid⟩ := produce_processed hp
        have hkey : eventKey n.subscriptionId event = a.key n := by
          unfold eventKey Admitted.key
          rw [htenant, hid]
        show List.Sublist [eventKey n.subscriptionId event] [a.key n]
        rw [hkey]
      | _ => exact List.nil_sublist _
  | _ => exact .keeps rfl (List.Sublist.refl _)

theorem poll_move (cfg : PollerConfig) (tenantConfig : TenantEmailConfig) (ports : PollPorts)
    (w : World) (pc : Pc) :
    Holdings.Move Record.reclaimable w.store (stepPoll cfg tenantConfig ports w pc).1.store
      (heldByPoll tenantConfig pc)
      (heldByPoll tenantConfig (stepPoll cfg tenantConfig ports w pc).2) := by
  cases pc with
  | start =>
    simp only [stepPoll]
    cases listed cfg ports tenantConfig w.checkpoints with
    | error message => exact .keeps rfl (List.Sublist.refl _)
    | ok seen => exact .keeps rfl (List.Sublist.refl _)
  | claimNext i messages g =>
    cases messages with
    | nil =>
      simp only [stepPoll, finishPoll]
      cases ports.setFault with
      | some message => exact .keeps rfl (List.nil_sublist _)
      | none => exact .keeps rfl (List.Sublist.refl _)
    | cons message messages =>
      simp only [stepPoll]
      cases hc : claim w.store (pollKey tenantConfig message) (ports.claimFault i)
          (ports.now i) with
      | mk store claimed =>
        cases claimed with
        | won => exact move_of_won hc (List.Sublist.refl _)
        | lost => exact .keeps (claim_not_won hc nofun) (List.Sublist.refl _)
        | failed error => exact .keeps (claim_not_won hc nofun) (List.nil_sublist _)
  | collect i message messages g =>
    simp only [stepPoll]
    cases hc : GraphInbound.collect cfg ports tenantConfig i message g with
    | error error => exact .keeps rfl (List.nil_sublist _)
    | ok g' =>
      refine .keeps rfl ?_
      show (pollKeys g'.processed).Sublist (pollKeys g.processed ++ [pollKey tenantConfig message])
      rcases collect_cases hc with hsame | ⟨event, hadded, htenant, hid⟩
      · rw [hsame]
        exact List.sublist_append_left _ _
      · have hkey : eventKey "poll" event = pollKey tenantConfig message := by
          unfold eventKey pollKey
          rw [htenant, hid]
        rw [hadded, pollKeys, List.map_append, List.map_singleton, hkey]
        exact List.Sublist.refl _
  | _ => exact .keeps rfl (List.Sublist.refl _)

/-- **A step adds a key that it wins to what its call holds, or drops keys.** -/
theorem step_move (d : Deployment) (calls : Nat → Call) (i : Nat) (e : Unit) (w : World) (pc : Pc) :
    Holdings.Move Record.reclaimable w.store (step d calls i e w pc).1.store (held calls i pc)
      (held calls i (step d calls i e w pc).2) := by
  unfold step held
  cases calls i with
  | notification n ports => exact notification_move d.ingress n ports w pc
  | poll tenantConfig ports => exact poll_move d.poller tenantConfig ports w pc

/-! ## A call alone -/

theorem iterate_step (f : World → Pc → World × Pc) (steps : Nat) (w : World) (pc : Pc) :
    (fun x : World × Pc => f x.1 x.2)^[steps + 1] (w, pc) =
      (fun x : World × Pc => f x.1 x.2)^[steps] (f w pc) := rfl

theorem stepNotification_alone (cfg : IngressConfig) (n : GraphChangeNotification)
    (ports : IngressPorts) (w : World) :
    (fun x : World × Pc => stepNotification cfg n ports x.1 x.2)^[3] (w, .start) =
      ({ w with store := (ingest cfg ports n w.store).1 },
        .ingested (ingest cfg ports n w.store).2) := by
  simp only [Function.iterate_succ_apply, Function.iterate_zero_apply, stepNotification, ingest]
  cases admitted cfg ports n with
  | error ended => rfl
  | ok a =>
    dsimp only
    cases claim w.store (a.key n) ports.claimFault ports.now with
    | mk store claimed => cases claimed <;> rfl

theorem stepPoll_messages (cfg : PollerConfig) (tenantConfig : TenantEmailConfig)
    (ports : PollPorts) (messages : List GraphMessagePayload) :
    ∀ (i : Nat) (w : World) (g : Gathered), ∃ steps,
      (fun x : World × Pc => stepPoll cfg tenantConfig ports x.1 x.2)^[steps]
          (w, .claimNext i messages g) =
        ({ w with store := (pollMessages cfg ports tenantConfig i messages w.store g).1 },
          match (pollMessages cfg ports tenantConfig i messages w.store g).2 with
          | .error message => .polled (.threw message)
          | .ok g => .claimNext (i + messages.length) [] g) := by
  induction messages with
  | nil => exact fun i w g => ⟨0, rfl⟩
  | cons message messages ih =>
    intro i w g
    have hlength : i + (message :: messages).length = i + 1 + messages.length := by
      rw [List.length_cons]
      omega
    rw [pollMessages, hlength]
    cases hc : claim w.store (pollKey tenantConfig message) (ports.claimFault i)
        (ports.now i) with
    | mk store claimed =>
      cases claimed with
      | failed error =>
        have hstep : stepPoll cfg tenantConfig ports w (.claimNext i (message :: messages) g) =
            ({ w with store }, .polled (.threw error)) := by simp only [stepPoll, hc]
        exact ⟨1, hstep⟩
      | lost =>
        have hstep : stepPoll cfg tenantConfig ports w (.claimNext i (message :: messages) g) =
            ({ w with store }, .claimNext (i + 1) messages
              { g with skippedDuplicates := g.skippedDuplicates + 1 }) := by
          simp only [stepPoll, hc]
        obtain ⟨steps, hs⟩ := ih (i + 1) { w with store }
          { g with skippedDuplicates := g.skippedDuplicates + 1 }
        refine ⟨steps + 1, ?_⟩
        rw [iterate_step (stepPoll cfg tenantConfig ports), hstep]
        exact hs
      | won =>
        have hstep : stepPoll cfg tenantConfig ports w (.claimNext i (message :: messages) g) =
            ({ w with store }, .collect i message messages g) := by simp only [stepPoll, hc]
        cases hcollect : GraphInbound.collect cfg ports tenantConfig i message g with
        | error error =>
          refine ⟨2, ?_⟩
          rw [iterate_step (stepPoll cfg tenantConfig ports), hstep,
            iterate_step (stepPoll cfg tenantConfig ports), stepPoll, hcollect]
          rfl
        | ok g' =>
          obtain ⟨steps, hs⟩ := ih (i + 1) { w with store } g'
          refine ⟨steps + 2, ?_⟩
          rw [iterate_step (stepPoll cfg tenantConfig ports), hstep,
            iterate_step (stepPoll cfg tenantConfig ports), stepPoll, hcollect]
          exact hs

theorem stepPoll_alone (cfg : PollerConfig) (tenantConfig : TenantEmailConfig)
    (ports : PollPorts) (w : World) :
    ∃ steps, (fun x : World × Pc => stepPoll cfg tenantConfig ports x.1 x.2)^[steps] (w, .start) =
      (⟨(pollMailbox cfg ports tenantConfig w.store w.checkpoints).1,
        (pollMailbox cfg ports tenantConfig w.store w.checkpoints).2.1⟩,
        .polled (pollMailbox cfg ports tenantConfig w.store w.checkpoints).2.2) := by
  unfold pollMailbox
  cases hl : listed cfg ports tenantConfig w.checkpoints with
  | error message =>
    have hstep : stepPoll cfg tenantConfig ports w .start = (w, .polled (.threw message)) := by
      simp only [stepPoll, hl]
    exact ⟨1, hstep⟩
  | ok seen =>
    obtain ⟨messages, since⟩ := seen
    have hstep : stepPoll cfg tenantConfig ports w .start =
        (w, .claimNext 0 messages { latestReceivedAt := since }) := by
      simp only [stepPoll, hl]
    obtain ⟨steps, hs⟩ := stepPoll_messages cfg tenantConfig ports messages 0 w
      { latestReceivedAt := since }
    dsimp only
    cases hp : pollMessages cfg ports tenantConfig 0 messages w.store
        { latestReceivedAt := since } with
    | mk store outcome =>
      rw [hp] at hs
      cases outcome with
      | error message =>
        refine ⟨steps + 1, ?_⟩
        rw [iterate_step (stepPoll cfg tenantConfig ports), hstep]
        exact hs
      | ok g =>
        -- the first step lists the messages, the last one moves the checkpoint
        have hloop : (fun x : World × Pc => stepPoll cfg tenantConfig ports x.1 x.2)^[steps + 1]
            (w, .start) = ({ w with store }, .claimNext (0 + messages.length) [] g) := by
          rw [iterate_step (stepPoll cfg tenantConfig ports), hstep]
          exact hs
        refine ⟨1 + (steps + 1), ?_⟩
        rw [Function.iterate_add_apply, hloop]
        rfl

/-- **A call that nobody interrupts does what its function does.** -/
theorem alone (d : Deployment) (calls : Nat → Call) (i : Nat) (c : Interleave.Config World Pc)
    (hstart : c.pc i = .start) :
    ∃ steps, let c' := run (step d calls) c (List.replicate steps ⟨i, ()⟩)
      match calls i with
      | .notification n ports =>
        c'.world.store = (ingest d.ingress ports n c.world.store).1 ∧
          c'.pc i = .ingested (ingest d.ingress ports n c.world.store).2
      | .poll tenantConfig ports =>
        let out := pollMailbox d.poller ports tenantConfig c.world.store c.world.checkpoints
        c'.world = ⟨out.1, out.2.1⟩ ∧ c'.pc i = .polled out.2.2 := by
  have hrun := fun steps => run_replicate (step d calls) i () steps c
  rw [hstart] at hrun
  cases hcall : calls i with
  | notification n ports =>
    have hstep : (fun x : World × Pc => step d calls i () x.1 x.2) =
        fun x => stepNotification d.ingress n ports x.1 x.2 := by
      funext x
      simp only [step, hcall]
    refine ⟨3, ?_⟩
    have h := hrun 3
    rw [hstep, stepNotification_alone] at h
    exact ⟨congrArg (fun x : World × Pc => x.1.store) h, congrArg Prod.snd h⟩
  | poll tenantConfig ports =>
    have hstep : (fun x : World × Pc => step d calls i () x.1 x.2) =
        fun x => stepPoll d.poller tenantConfig ports x.1 x.2 := by
      funext x
      simp only [step, hcall]
    obtain ⟨steps, hs⟩ := stepPoll_alone d.poller tenantConfig ports c.world
    refine ⟨steps, ?_⟩
    have h := hrun steps
    rw [hstep, hs] at h
    exact ⟨congrArg Prod.fst h, congrArg Prod.snd h⟩

end VegaRevenue.GraphInbound
