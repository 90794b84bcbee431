import VegaRevenue.Lib.ExpiringCounter
import VegaRevenue.Outreach.PrepareDraft

/-!
# The rate limits of the gate over Redis

`checkRateLimits` asks `RedisRateLimiter.isAllowed` once for each configured window. All the windows
of a tenant and a channel count under one key, and each question adds one and sets the expiry.

* `checkWindows_eq` — an evaluation by the count it finds under the key
* `checkRateLimits_eq` — the decision is that of the gate for the answers of this limiter
* `recorded_timeline` — the evaluations in the course of time are visits of an expiring counter
-/

namespace VegaRevenue.Outreach.RedisRateLimiter

open ExpiringCounter

structure Window where
  limit : Nat
  windowSeconds : Nat
  label : String
deriving DecidableEq

/-- The windows of `checkRateLimits` whose limit is set. -/
def windows (config : Option RateLimitConfig) : List Window :=
  match config with
  | none => []
  | some config =>
    (config.perSecond.map (⟨·, 1, "per-second"⟩)).toList ++
    (config.perMinute.map (⟨·, 60, "per-minute"⟩)).toList ++
    (config.perHour.map (⟨·, 3600, "per-hour"⟩)).toList ++
    (config.perDay.map (⟨·, 86400, "per-day"⟩)).toList

/-- Its length in milliseconds. -/
def Window.span (w : Window) : Int := w.windowSeconds * 1000

/-- The value of a key, and when it expires. -/
structure Counter where
  count : Nat
  expiresAt : Date
deriving DecidableEq

abbrev Keys := String → Option Counter

/-- What `INCR` adds one to: an expired key is gone. -/
def liveCount (now : Date) : Option Counter → Nat
  | none => 0
  | some counter => if now ≤ counter.expiresAt then counter.count else 0

def fullKey (ctx : Context) (scope key : String) : String :=
  "tenant:" ++ ctx.tenantId ++ ":rate:" ++ scope ++ ":" ++ key

structure RateLimitResult where
  allowed : Bool
  remaining : Nat
  resetAt : Date

/-- `INCR` and `EXPIRE` as one transaction. -/
def isAllowed (keys : Keys) (ctx : Context) (scope key : String) (limit windowSeconds : Nat)
    (now : Date) : Keys × RateLimitResult :=
  let name := fullKey ctx scope key
  let resetAt := now + windowSeconds * 1000
  let count := liveCount now (keys name) + 1
  (Function.update keys name (some ⟨count, now + windowSeconds * 1000⟩),
    ⟨count ≤ limit, limit - count, resetAt⟩)

/-- The key of the sends over one channel. -/
def sendName (ctx : Context) (channel : OutreachChannel) : String :=
  fullKey ctx "outreach-send" (OutreachChannel.name channel)

/-- The loop of `checkRateLimits`: the window that refuses, with the answer of the limiter. -/
def checkWindows (ctx : Context) (channel : OutreachChannel) (now : Date) :
    List Window → Keys → Keys × Option (Window × RateLimitResult)
  | [], keys => (keys, none)
  | w :: rest, keys =>
    let (keys', result) :=
      isAllowed keys ctx "outreach-send" (OutreachChannel.name channel) w.limit w.windowSeconds now
    if result.allowed then checkWindows ctx channel now rest keys'
    else (keys', some (w, result))

/-- What `checkRateLimits` returns of it. -/
def rateLimited (now : Date) (refusal : Window × RateLimitResult) : SafetyDecision :=
  .retryable .rateLimited
    ("Rate limit exceeded (" ++ refusal.1.label ++ ": " ++ toString refusal.1.limit ++ ")")
    (refusal.2.resetAt - now).toNat

def checkRateLimits (config : Option RateLimitConfig) (ctx : Context) (channel : OutreachChannel)
    (now : Date) (keys : Keys) : Keys × Option SafetyDecision :=
  let (keys', refusal) := checkWindows ctx channel now (windows config) keys
  (keys', refusal.map (rateLimited now))

/-! ## Evaluations in the course of time -/

/-- One evaluation: its time, the live count it found under the key, and the window that refused. -/
structure Evaluation where
  time : Date
  found : Nat
  refusedBy : Option Window

structure Timeline where
  keys : Keys
  now : Date
  /-- The newest first. -/
  log : List Evaluation

/-- Nothing was counted yet. -/
def Timeline.start (now : Date) : Timeline := ⟨fun _ => none, now, []⟩

/-- An evaluation `wait` milliseconds after the one before it. -/
def Timeline.evaluate (ws : List Window) (ctx : Context) (channel : OutreachChannel) (s : Timeline)
    (wait : Nat) : Timeline :=
  let now := s.now + wait
  let (keys', refusal) := checkWindows ctx channel now ws s.keys
  ⟨keys', now, ⟨now, liveCount now (s.keys (sendName ctx channel)), refusal.map Prod.fst⟩ :: s.log⟩

/-- The evaluations of one tenant and channel, each `wait` after the one before. -/
def timeline (ws : List Window) (ctx : Context) (channel : OutreachChannel) (start : Date)
    (waits : List Nat) : Timeline :=
  waits.foldl (Timeline.evaluate ws ctx channel) (.start start)

/-- How many evaluations from `x` to `y` passed. -/
def passedWithin (x y : Date) (log : List Evaluation) : Nat :=
  log.countP fun e => e.refusedBy.isNone && (x ≤ e.time && e.time ≤ y)

/-- Every refusal is owed to as many sends that passed within the window as its limit. -/
def RefusalsOwed : List Evaluation → Prop
  | [] => True
  | e :: earlier =>
    (∀ w, e.refusedBy = some w → w.limit ≤ passedWithin (e.time - w.span) e.time earlier) ∧
      RefusalsOwed earlier

/-- No span of a window admits more than twice its limit. -/
def Bounded (ws : List Window) (log : List Evaluation) : Prop :=
  ∀ w ∈ ws, ∀ x, passedWithin x (x + w.span) log ≤ 2 * w.limit

/-- The verdicts of a window. -/
def verdicts (w : Window) (log : List Evaluation) : List Bool :=
  log.map fun e => e.refusedBy = some w

/-- The limits neither refuse nor admit too much, and the window that is asked first decides as it
does alone. -/
structure Composed (ws : List Window) (ctx : Context) (channel : OutreachChannel) (start : Date)
    (waits : List Nat) : Prop where
  owed : RefusalsOwed (timeline ws ctx channel start waits).log
  bounded : Bounded ws (timeline ws ctx channel start waits).log
  first : ∀ w rest, ws = w :: rest → verdicts w (timeline ws ctx channel start waits).log =
    verdicts w (timeline [w] ctx channel start waits).log

/-! ## An evaluation by the count it finds -/

/-- The windows that are asked where the key counts `c`. -/
def asked : List Window → Nat → List Window
  | [], _ => []
  | w :: rest, c => if c + 1 ≤ w.limit then w :: asked rest (c + 1) else [w]

/-- The window that refuses where the key counts `c`. -/
def refusing : List Window → Nat → Option Window
  | [], _ => none
  | w :: rest, c => if c + 1 ≤ w.limit then refusing rest (c + 1) else some w

/-- How long the key is kept: as long as the window asked last says. -/
def kept (ws : List Window) (c : Nat) : Int := ((asked ws c).getLast?.map Window.span).getD 0

/-- The visits of the key by evaluations. -/
def visits (ws : List Window) : Rule where
  adds c := (asked ws c).length
  keeps := kept ws

/-- What the limiter answers for each length of a window, from the count `c` on. -/
def rateAnswer (now : Date) : List Window → Nat → Nat → RateAnswer
  | [], _, _ => .allowed
  | w :: rest, c, windowSeconds =>
    if windowSeconds = w.windowSeconds then
      if c + 1 ≤ w.limit then .allowed else .exceeded (now + w.span)
    else rateAnswer now rest (c + 1) windowSeconds

theorem asked_ne_nil {w : Window} {rest : List Window} (c : Nat) : asked (w :: rest) c ≠ [] := by
  unfold asked
  split <;> simp

theorem kept_cons {w v : Window} {rest : List Window} {c : Nat} (h : c + 1 ≤ w.limit) :
    kept (w :: v :: rest) c = kept (v :: rest) (c + 1) := by
  unfold kept
  conv => lhs; rw [asked, if_pos h]
  rw [List.getLast?_cons_of_ne_nil (asked_ne_nil _)]

theorem kept_of_refused {w : Window} {rest : List Window} {c : Nat} (h : ¬c + 1 ≤ w.limit) :
    kept (w :: rest) c = w.span := by
  unfold kept
  rw [asked, if_neg h]
  rfl

theorem kept_single (w : Window) (c : Nat) : kept [w] c = w.span := by
  unfold kept asked
  split <;> rfl

theorem span_nonneg (w : Window) : 0 ≤ w.span := by
  unfold Window.span
  omega

/-- The first question of the loop. -/
theorem checkWindows_cons (ctx : Context) (channel : OutreachChannel) (now : Date) (w : Window)
    (rest : List Window) (keys : Keys) :
    let c := liveCount now (keys (sendName ctx channel))
    let keys' := Function.update keys (sendName ctx channel) (some ⟨c + 1, now + w.span⟩)
    checkWindows ctx channel now (w :: rest) keys =
      if c + 1 ≤ w.limit then checkWindows ctx channel now rest keys'
      else (keys', some (w, ⟨false, w.limit - (c + 1), now + w.span⟩)) := by
  intro c keys'
  have hstep : checkWindows ctx channel now (w :: rest) keys =
      if decide (c + 1 ≤ w.limit) = true then checkWindows ctx channel now rest keys'
      else (keys', some (w, ⟨c + 1 ≤ w.limit, w.limit - (c + 1), now + w.span⟩)) := rfl
  by_cases h : c + 1 ≤ w.limit
  · rw [hstep, if_pos h, if_pos (decide_eq_true h)]
  · rw [hstep, if_neg h, decide_eq_false h]
    rfl

theorem liveCount_update (keys : Keys) (name : String) (now : Date) (w : Window) (count : Nat) :
    liveCount now (Function.update keys name (some ⟨count, now + w.span⟩) name) = count := by
  rw [Function.update_self, liveCount, if_pos (Int.le_add_of_nonneg_right (span_nonneg w))]

/-- **An evaluation by the count it finds: what it leaves under the key, and what it decides.** -/
theorem checkWindows_eq (ctx : Context) (channel : OutreachChannel) (now : Date) (w : Window)
    (rest : List Window) (keys : Keys) :
    let c := liveCount now (keys (sendName ctx channel))
    let out := checkWindows ctx channel now (w :: rest) keys
    out.1 = Function.update keys (sendName ctx channel)
        (some ⟨c + (asked (w :: rest) c).length, now + kept (w :: rest) c⟩) ∧
      out.2.map (fun r => (r.1, r.2.resetAt)) =
        (refusing (w :: rest) c).map fun w => (w, now + w.span) := by
  induction rest generalizing w keys with
  | nil =>
    intro c out
    unfold out
    rw [checkWindows_cons, kept_single, asked, refusing]
    by_cases h : c + 1 ≤ w.limit
    · rw [if_pos h, if_pos h, if_pos h]
      exact ⟨rfl, rfl⟩
    · rw [if_neg h, if_neg h, if_neg h]
      exact ⟨rfl, rfl⟩
  | cons v rest ih =>
    intro c out
    unfold out
    rw [checkWindows_cons]
    by_cases h : c + 1 ≤ w.limit
    · obtain ⟨hkeys, hrefusal⟩ := ih v (Function.update keys (sendName ctx channel)
        (some ⟨c + 1, now + w.span⟩))
      rw [liveCount_update] at hkeys hrefusal
      rw [if_pos h, kept_cons h, asked, if_pos h, refusing, if_pos h, List.length_cons]
      refine ⟨hkeys.trans ?_, hrefusal⟩
      rw [Function.update_idem, Nat.add_assoc, Nat.add_comm 1]
    · rw [if_neg h, kept_of_refused h, asked, if_neg h, refusing, if_neg h]
      exact ⟨rfl, rfl⟩

/-! ## The decision of the gate -/

theorem windows_pairwise (config : Option RateLimitConfig) :
    (windows config).Pairwise fun w v => w.windowSeconds < v.windowSeconds := by
  rcases config with _ | ⟨_ | _, _ | _, _ | _, _ | _⟩ <;> simp [windows]

/-- The windows that the gate asks for are those whose limit is set. -/
theorem checkRateLimits_windows (config : Option RateLimitConfig) (answers : GateAnswers)
    (now : Date) :
    Outreach.checkRateLimits config answers now =
      (windows config).foldr
        (fun w decision =>
          (checkWindow answers now (some w.limit) w.windowSeconds w.label).or decision) none := by
  rcases config with _ | ⟨_ | _, _ | _, _ | _, _ | _⟩ <;>
    simp [windows, Outreach.checkRateLimits, checkWindow]

/-- The answers that `rateAnswer` gives are those of the windows in their order. -/
theorem checkWindow_eq {ws : List Window} {answers : GateAnswers} {now : Date} {c : Nat}
    (hws : ws.Pairwise fun w v => w.windowSeconds < v.windowSeconds)
    (hanswers : ∀ w ∈ ws, answers.rateLimit w.windowSeconds = rateAnswer now ws c w.windowSeconds) :
    ws.foldr
        (fun w decision =>
          (checkWindow answers now (some w.limit) w.windowSeconds w.label).or decision) none =
      (refusing ws c).map fun w =>
        .retryable .rateLimited
          ("Rate limit exceeded (" ++ w.label ++ ": " ++ toString w.limit ++ ")")
          (now + w.span - now).toNat := by
  induction ws generalizing c with
  | nil => rfl
  | cons w rest ih =>
    rw [List.pairwise_cons] at hws
    have hrest := ih hws.2 fun v hv => by
      rw [hanswers v (List.mem_cons_of_mem _ hv), rateAnswer, if_neg (hws.1 v hv).ne']
    have hw := hanswers w List.mem_cons_self
    rw [rateAnswer, if_pos rfl] at hw
    rw [List.foldr_cons, hrest, refusing, checkWindow, hw]
    by_cases h : c + 1 ≤ w.limit
    · rw [if_pos h, if_pos h]
      rfl
    · rw [if_neg h, if_neg h]
      rfl

/-- **What `checkRateLimits` decides over this limiter is what the gate decides for the answers
that the limiter gives from the count under the key on.** -/
theorem checkRateLimits_eq (config : Option RateLimitConfig) (ctx : Context)
    (channel : OutreachChannel) (now : Date) (keys : Keys) :
    (checkRateLimits config ctx channel now keys).2 =
      Outreach.checkRateLimits config
        { rateLimit :=
            rateAnswer now (windows config) (liveCount now (keys (sendName ctx channel))) } now := by
  rw [checkRateLimits_windows, checkWindow_eq (windows_pairwise config) fun w hw => rfl]
  unfold checkRateLimits
  dsimp only
  cases windows config with
  | nil => rfl
  | cons w rest =>
    obtain ⟨-, hrefusal⟩ := checkWindows_eq ctx channel now w rest keys
    generalize (checkWindows ctx channel now (w :: rest) keys).2 = refusal at hrefusal
    generalize refusing (w :: rest) _ = refusing at hrefusal
    cases refusal with
    | none =>
      cases refusing with
      | none => rfl
      | some v => cases hrefusal
    | some r =>
      cases refusing with
      | none => cases hrefusal
      | some v =>
        obtain ⟨u, result⟩ := r
        simp only [Option.map_some, Option.some.injEq, Prod.mk.injEq] at hrefusal
        obtain ⟨rfl, hreset⟩ := hrefusal
        simp [rateLimited, hreset]

/-! ## A timeline as visits of the key -/

def Evaluation.visit (e : Evaluation) : Visit := ⟨e.time, e.found⟩

/-- The log says what is under the key, and every verdict is that of the count found. -/
structure Recorded (ws : List Window) (ctx : Context) (channel : OutreachChannel) (s : Timeline) :
    Prop where
  visits : (visits ws).Log (s.log.map Evaluation.visit)
  verdict : ∀ e ∈ s.log, e.refusedBy = refusing ws e.found
  past : ∀ e ∈ s.log, e.time ≤ s.now
  live : ∀ t, liveCount t (s.keys (sendName ctx channel)) =
    (RedisRateLimiter.visits ws).found (s.log.map Evaluation.visit) t

theorem Recorded.evaluate {w : Window} {rest : List Window} {ctx : Context}
    {channel : OutreachChannel} {s : Timeline} (h : Recorded (w :: rest) ctx channel s)
    (wait : Nat) : Recorded (w :: rest) ctx channel (s.evaluate (w :: rest) ctx channel wait) := by
  obtain ⟨hkeys, hrefusal⟩ := checkWindows_eq ctx channel (s.now + wait) w rest s.keys
  have hverdict := congrArg (Option.map Prod.fst) hrefusal
  simp only [Option.map_map] at hverdict
  have hlater : ∀ e ∈ s.log, e.time ≤ s.now + wait := fun e he =>
    (h.past e he).trans (Int.le_add_of_nonneg_right (Int.natCast_nonneg wait))
  have hlive := h.live (s.now + wait)
  unfold Timeline.evaluate
  refine ⟨?_, ?_, ?_, ?_⟩
  · show (RedisRateLimiter.visits (w :: rest)).Log (⟨_, _⟩ :: _)
    rw [hlive]
    refine .visit h.visits fun v hv => ?_
    obtain ⟨e, he, rfl⟩ := List.mem_map.mp hv
    exact hlater e he
  · intro e he
    rcases List.mem_cons.mp he with rfl | he
    · exact hverdict.trans Option.map_id'
    · exact h.verdict e he
  · intro e he
    rcases List.mem_cons.mp he with rfl | he
    · exact le_refl _
    · exact hlater e he
  · intro t
    show liveCount t ((checkWindows ctx channel (s.now + wait) (w :: rest) s.keys).1 _) = _
    rw [hkeys, Function.update_self]
    rfl

theorem recorded_timeline (w : Window) (rest : List Window) (ctx : Context)
    (channel : OutreachChannel) (start : Date) (waits : List Nat) :
    Recorded (w :: rest) ctx channel (timeline (w :: rest) ctx channel start waits) := by
  have hstep : ∀ s, Recorded (w :: rest) ctx channel s → Recorded (w :: rest) ctx channel
      (waits.foldl (Timeline.evaluate (w :: rest) ctx channel) s) := by
    induction waits with
    | nil => exact fun s hs => hs
    | cons wait waits ih => exact fun s hs => ih _ (hs.evaluate wait)
  refine hstep _ ⟨.nil, ?_, ?_, fun t => rfl⟩ <;>
    exact fun e he => absurd he List.not_mem_nil

end VegaRevenue.Outreach.RedisRateLimiter
