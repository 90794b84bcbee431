import VegaRevenue.AggregateRepository.RoundTrip
import VegaRevenue.GraphInbound.Ingress
import VegaRevenue.RecipientProtection.Envelope

/-!
# The correlation of a reply with the execution it answers

`GraphReplyCorrelator`: the ids of the References header, of In-Reply-To and of the message itself
are looked up in this order, and what they find is counted, once for each time an id occurs. Where
they find nothing, a subscription that is bound to a workspace falls back to the recipients whose
fingerprint is that of the sender.

* `correlated_iff` — when the answer is CORRELATED
* `find_eq_some_iff` — an id finds the one execution that holds it
* `correlatesWell_iff` — the correlation is sound and complete iff the one matching execution's id
  occurs once, and executions that match beside each other leave nothing to choose
* `not_correlatesWell_repeated` — a reply whose two headers name the same message
-/

namespace VegaRevenue.GraphInbound

open MessageExecution (ExecutionRow findByProviderMessageId findByStatus)

/-- The rows of executions as their repository leaves them. -/
structure ExecutionStore where
  rows : List ExecutionRow
  inv : MessageExecution.mapping.RowsInv rows

inductive MatchMethod where
  | references
  | inReplyTo
  | providerMessageId
  | senderRecipientFallback
deriving DecidableEq

inductive GraphCorrelationOutcome where
  | correlated (execution : Option MessageExecution) (leadId workspaceId : String)
      (matchedBy : MatchMethod)
  | notCorrelated (reason : String)
  | ambiguous (reason : String) (candidateCount : Nat)
deriving DecidableEq

def fallbackStatuses : List MessageExecution.Status :=
  [.providerAccepted, .deliveryPending, .delivered, .opened, .replied]

/-- The version of the key a fingerprint was made with. -/
def extractKeyVersion (fingerprint : String) : Option String :=
  match RecipientProtection.splitDots fingerprint with
  | scheme :: version :: _ :: _ => if scheme = "h1" then some version else none
  | _ => none

structure MessageIdMatch where
  execution : MessageExecution
  matchedBy : MatchMethod
  inScope : Bool
deriving DecidableEq

structure GraphReplyCorrelator where
  store : ExecutionStore
  /-- By tenant, address and key version; it throws where the key is missing. -/
  fingerprintEmailForVersion : String → String → String → Except String String

/-- A subscription that is bound to no workspace has every execution of its tenant in scope. -/
def inScope (subscription : GraphSubscriptionRecord) (e : MessageExecution) : Bool :=
  match subscription.subscriptionScope with
  | .workspaceBound => e.state.workspaceId = subscription.workspaceId.getD ""
  | .legacyUnbound => true

/-- The ids a reply names, each with the header it is taken from. -/
def candidates (normalized : GraphNormalizedReply) : List (String × MatchMethod) :=
  let references := normalized.references.getD []
  let candidateIds := (references ++ normalized.inReplyTo.toList).filter (· ≠ "")
  (candidateIds.map fun candidateId =>
    (candidateId, if references.contains candidateId then .references else .inReplyTo)) ++
  (if normalized.providerMessageId = "" then []
    else [(normalized.providerMessageId, .providerMessageId)])

namespace GraphReplyCorrelator

variable (correlator : GraphReplyCorrelator)

def find (subscription : GraphSubscriptionRecord) (messageId : String) : Option MessageExecution :=
  findByProviderMessageId correlator.store.rows subscription.tenantId messageId

def matchOf (subscription : GraphSubscriptionRecord) (candidate : String × MatchMethod) :
    Option MessageIdMatch :=
  (correlator.find subscription candidate.1).map fun execution =>
    ⟨execution, candidate.2, inScope subscription execution⟩

def findByMessageIds (subscription : GraphSubscriptionRecord) (normalized : GraphNormalizedReply) :
    List MessageIdMatch := (candidates normalized).filterMap (correlator.matchOf subscription)

def toCorrelated (m : MessageIdMatch) : GraphCorrelationOutcome :=
  .correlated (some m.execution) m.execution.state.leadId m.execution.state.workspaceId m.matchedBy

/-- The fingerprint of the sender, made with the key of the recipient's, is the recipient's. -/
def matchesSender (tenantId sender : String) (e : MessageExecution) : Bool :=
  match e.state.recipientFingerprint with
  | none => false
  | some fingerprint =>
    fingerprint ≠ "" && e.state.recipientProtectionState = .protectedRecipient &&
    match extractKeyVersion fingerprint with
    | none => false
    | some keyVersion => keyVersion ≠ "" &&
      (correlator.fingerprintEmailForVersion tenantId sender keyVersion).toOption = some fingerprint

/-- The executions whose recipient is the sender. -/
def matchedExecutions (ctx : Context) (sender : String) : List MessageExecution :=
  (findByStatus correlator.store.rows ctx fallbackStatuses).filter
    (correlator.matchesSender ctx.tenantId sender)

def senderRecipientFallback (ctx : Context) (normalized : GraphNormalizedReply) :
    GraphCorrelationOutcome :=
  if blank normalized.sender then
    .notCorrelated "Protected sender/recipient fallback requires a sender address"
  else
    match correlator.matchedExecutions ctx (normalized.sender.getD "") with
    | [] => .notCorrelated "No protected sender/recipient match found"
    | e :: es =>
      if es.any fun e' => e'.state.leadId ≠ e.state.leadId then
        .notCorrelated "Sender/recipient fallback matches multiple Leads"
      else
        .correlated (if es = [] then some e else none) e.state.leadId e.state.workspaceId
          .senderRecipientFallback

def fallback (subscription : GraphSubscriptionRecord) (normalized : GraphNormalizedReply) :
    GraphCorrelationOutcome :=
  if blank subscription.workspaceId then
    .notCorrelated "WORKSPACE_BOUND subscription has no authoritative workspace"
  else
    correlator.senderRecipientFallback
      ⟨subscription.tenantId, subscription.workspaceId.getD ""⟩ normalized

/-- The context is that of the subscription's tenant. -/
def correlate (subscription : GraphSubscriptionRecord) (normalized : GraphNormalizedReply) :
    GraphCorrelationOutcome :=
  let found := correlator.findByMessageIds subscription normalized
  match subscription.subscriptionScope with
  | .workspaceBound =>
    match found.filter (·.inScope) with
    | [] =>
      if found = [] then correlator.fallback subscription normalized
      else .notCorrelated "Workspace A subscription cannot authorize workspace B execution"
    | [m] => toCorrelated m
    | m :: ms => .ambiguous "Multiple message-id-based matches in workspace" (m :: ms).length
  | .legacyUnbound =>
    match found with
    | [] =>
      .notCorrelated "LEGACY_UNBOUND subscription does not permit sender/recipient fallback"
    | [m] => toCorrelated m
    | _ =>
      .notCorrelated "LEGACY_UNBOUND requires exactly one durable execution; multiple found"

/-- The answer as the ingress reads it. -/
def outcome (subscription : GraphSubscriptionRecord) (normalized : GraphNormalizedReply) :
    CorrelationOutcome :=
  match correlator.correlate subscription normalized with
  | .correlated execution leadId workspaceId _ => .correlated execution leadId workspaceId
  | .notCorrelated reason => .notCorrelated reason
  | .ambiguous reason _ => .ambiguous reason

/-! ## What an id finds -/

/-- The execution is one of the tenant's and has the provider message id. -/
def Holds (tenantId messageId : String) (e : MessageExecution) : Prop :=
  ∃ r ∈ correlator.store.rows, r.key.tenantId = tenantId ∧
    r.index.providerMessageId = some messageId ∧ MessageExecution.mapping.reconstitute r = some e

variable {correlator}
variable {subscription : GraphSubscriptionRecord} {normalized : GraphNormalizedReply}
variable {tenantId messageId : String} {e e' : MessageExecution}

theorem Holds.providerMessageId (h : correlator.Holds tenantId messageId e) :
    e.state.providerMessageId = some messageId := by
  obtain ⟨r, hr, -, hindex, he⟩ := h
  have hcolumns := (correlator.store.inv.owns hr he).2.1
  rw [← hindex, ← hcolumns]
  rfl

/-- Rows with the same execution are one row. -/
theorem eq_of_reconstitute {r r' : ExecutionRow} (hr : r ∈ correlator.store.rows)
    (hr' : r' ∈ correlator.store.rows) (he : MessageExecution.mapping.reconstitute r = some e)
    (he' : MessageExecution.mapping.reconstitute r' = some e) : r = r' := by
  obtain ⟨⟨-, hkey, -⟩, -, -⟩ := correlator.store.inv.owns hr he
  obtain ⟨⟨-, hkey', -⟩, -, -⟩ := correlator.store.inv.owns hr' he'
  refine correlator.store.inv.eq_of_id hr hr' ?_ ?_
  · rw [hkey, hkey']
    rfl
  · rw [hkey, hkey']
    rfl

theorem nodup_rows (correlator : GraphReplyCorrelator) : correlator.store.rows.Nodup := by
  refine correlator.store.inv.apart.imp fun {r r'} hr heq => ?_
  have hself : MessageExecution.mapping.conflicts r r = true := by
    unfold AggregateRepository.Mapping.conflicts
    simp
  rw [← heq, hself] at hr
  cases hr

/-- **An id finds the one execution that holds it.** -/
theorem find_eq_some_iff : correlator.find subscription messageId = some e ↔
    correlator.Holds subscription.tenantId messageId e ∧
      ∀ e', correlator.Holds subscription.tenantId messageId e' → e' = e := by
  have hmem : ∀ r, r ∈ correlator.store.rows.filter (fun r =>
      r.key.tenantId = subscription.tenantId && r.index.providerMessageId = some messageId) ↔
      r ∈ correlator.store.rows ∧ r.key.tenantId = subscription.tenantId ∧
        r.index.providerMessageId = some messageId := by
    intro r
    simp only [List.mem_filter, Bool.and_eq_true, decide_eq_true_eq]
  have hnodup := (nodup_rows correlator).filter (fun r =>
    r.key.tenantId = subscription.tenantId && r.index.providerMessageId = some messageId)
  unfold find findByProviderMessageId
  generalize correlator.store.rows.filter _ = rows at hmem hnodup
  constructor
  · intro h
    split at h
    next r =>
      obtain ⟨hr, htenant, hid⟩ := (hmem r).mp (.head _)
      refine ⟨⟨r, hr, htenant, hid, h⟩, fun e' he' => ?_⟩
      obtain ⟨r', hr', htenant', hid', he'⟩ := he'
      rw [List.mem_singleton.mp ((hmem r').mpr ⟨hr', htenant', hid'⟩), h] at he'
      exact (Option.some.inj he').symm
    next => cases h
  · rintro ⟨⟨r, hr, htenant, hid, he⟩, hone⟩
    have hall : ∀ r' ∈ rows, r' = r := by
      intro r' hr'
      obtain ⟨hr', htenant', hid'⟩ := (hmem r').mp hr'
      obtain ⟨e', he'⟩ : ∃ e' : MessageExecution,
          MessageExecution.mapping.reconstitute r' = some e' :=
        correlator.store.inv.exists_reconstitute hr'
      have heq := hone _ ⟨r', hr', htenant', hid', he'⟩
      rw [heq] at he'
      exact eq_of_reconstitute hr' hr he' he
    have hrows : rows = [r] := by
      match rows, hmem, hnodup, hall with
      | [], hmem, _, _ => exact absurd ((hmem r).mpr ⟨hr, htenant, hid⟩) List.not_mem_nil
      | [r'], _, _, hall => rw [hall r' (.head _)]
      | r' :: r'' :: _, _, hnodup, hall =>
        have heq : r' = r'' :=
          (hall r' (.head _)).trans (hall r'' (.tail _ (.head _))).symm
        rw [heq] at hnodup
        exact absurd (.head _) (List.nodup_cons.mp hnodup).1
    rw [hrows]
    exact he

/-! ## When the answer is CORRELATED -/

def ids (normalized : GraphNormalizedReply) : List String := (candidates normalized).map Prod.fst

/-- The id finds an execution in scope. -/
def identifies (correlator : GraphReplyCorrelator) (subscription : GraphSubscriptionRecord)
    (messageId : String) : Bool :=
  (correlator.find subscription messageId).any (inScope subscription)

/-- The occurrences of ids that find an execution in scope. -/
def occurrences (correlator : GraphReplyCorrelator) (subscription : GraphSubscriptionRecord)
    (normalized : GraphNormalizedReply) : List String :=
  (ids normalized).filter (correlator.identifies subscription)

/-- The sender is the recipient of executions of one lead. -/
structure OneLead (correlator : GraphReplyCorrelator) (subscription : GraphSubscriptionRecord)
    (normalized : GraphNormalizedReply) (executions : List MessageExecution) : Prop where
  workspace : blank subscription.workspaceId = false
  sender : blank normalized.sender = false
  matched : executions = correlator.matchedExecutions
    ⟨subscription.tenantId, subscription.workspaceId.getD ""⟩ (normalized.sender.getD "")
  nonempty : executions ≠ []
  lead : ∀ e ∈ executions, ∀ e' ∈ executions, e.state.leadId = e'.state.leadId

/-- One occurrence of an id finds an execution in scope, or no id finds any and the sender is the
recipient of executions of one lead. -/
def Chooses (correlator : GraphReplyCorrelator) (subscription : GraphSubscriptionRecord)
    (normalized : GraphNormalizedReply) : Prop :=
  (correlator.occurrences subscription normalized).length = 1 ∨
    subscription.subscriptionScope = .workspaceBound ∧
      (∀ messageId ∈ ids normalized, correlator.find subscription messageId = none) ∧
      ∃ executions, correlator.OneLead subscription normalized executions

/-- The matches in scope. -/
def foundInScope (correlator : GraphReplyCorrelator) (subscription : GraphSubscriptionRecord)
    (normalized : GraphNormalizedReply) : List MessageIdMatch :=
  (correlator.findByMessageIds subscription normalized).filter (·.inScope)

theorem length_foundInScope : (correlator.foundInScope subscription normalized).length =
    (correlator.occurrences subscription normalized).length := by
  unfold foundInScope findByMessageIds occurrences ids
  induction candidates normalized with
  | nil => rfl
  | cons candidate rest ih =>
    have hcandidate : (correlator.matchOf subscription candidate).any (·.inScope) =
        correlator.identifies subscription candidate.1 := by
      unfold matchOf identifies
      rw [Option.any_map]
    rw [List.map_cons, List.filter_cons, ← hcandidate]
    cases hmatch : correlator.matchOf subscription candidate with
    | none =>
      rw [List.filterMap_cons_none hmatch]
      exact ih
    | some m =>
      rw [List.filterMap_cons_some hmatch, List.filter_cons, Option.any_some]
      split
      · exact congrArg (· + 1) ih
      · exact ih

theorem mem_findByMessageIds {m : MessageIdMatch}
    (h : m ∈ correlator.findByMessageIds subscription normalized) :
    ∃ messageId ∈ ids normalized, correlator.find subscription messageId = some m.execution ∧
      m.inScope = inScope subscription m.execution ∧ m.matchedBy ≠ .senderRecipientFallback := by
  obtain ⟨candidate, hcandidate, hfound⟩ := List.mem_filterMap.mp h
  obtain ⟨e, he, rfl⟩ := Option.map_eq_some_iff.mp hfound
  refine ⟨candidate.1, List.mem_map_of_mem hcandidate, he, rfl, ?_⟩
  rcases List.mem_append.mp hcandidate with hcandidate | hcandidate
  · obtain ⟨candidateId, -, rfl⟩ := List.mem_map.mp hcandidate
    dsimp only
    split <;> decide
  · split at hcandidate
    · cases hcandidate
    · rw [List.mem_singleton.mp hcandidate]
      show MatchMethod.providerMessageId ≠ _
      decide

theorem findByMessageIds_eq_nil_iff : correlator.findByMessageIds subscription normalized = [] ↔
    ∀ messageId ∈ ids normalized, correlator.find subscription messageId = none := by
  unfold findByMessageIds ids
  rw [List.filterMap_eq_nil_iff]
  simp only [matchOf, Option.map_eq_none_iff, List.mem_map, forall_exists_index, and_imp,
    forall_apply_eq_imp_iff₂]

/-- Without a workspace every match is in scope. -/
theorem foundInScope_of_legacy (h : subscription.subscriptionScope = .legacyUnbound) :
    correlator.foundInScope subscription normalized =
      correlator.findByMessageIds subscription normalized := by
  refine List.filter_eq_self.mpr fun m hm => ?_
  obtain ⟨-, -, -, hscope, -⟩ := mem_findByMessageIds hm
  rw [hscope]
  unfold inScope
  rw [h]

/-! ### The answer by the number of matches in scope -/

theorem correlate_of_single {m : MessageIdMatch}
    (h : correlator.foundInScope subscription normalized = [m]) :
    correlator.correlate subscription normalized = toCorrelated m := by
  unfold correlate
  dsimp only
  split
  next =>
    rw [show List.filter _ _ = _ from h]
  next hlegacy =>
    rw [foundInScope_of_legacy hlegacy] at h
    rw [h]

theorem correlate_of_many (h : 2 ≤ (correlator.foundInScope subscription normalized).length)
    (execution : Option MessageExecution) (leadId workspaceId : String) (matchedBy : MatchMethod) :
    correlator.correlate subscription normalized ≠
      .correlated execution leadId workspaceId matchedBy := by
  unfold correlate
  dsimp only
  split
  next =>
    unfold foundInScope at h
    split
    next hnil =>
      rw [hnil] at h
      cases h
    next hone =>
      rw [hone] at h
      exact absurd h (by simp)
    next => exact fun heq => nomatch heq
  next hlegacy =>
    rw [foundInScope_of_legacy hlegacy] at h
    split
    next => exact fun heq => nomatch heq
    next hone =>
      rw [hone] at h
      exact absurd h (by simp)
    next => exact fun heq => nomatch heq

theorem correlate_of_none (h : correlator.foundInScope subscription normalized = []) :
    subscription.subscriptionScope = .workspaceBound ∧
        correlator.findByMessageIds subscription normalized = [] ∧
        correlator.correlate subscription normalized =
          correlator.fallback subscription normalized ∨
      ¬(subscription.subscriptionScope = .workspaceBound ∧
          correlator.findByMessageIds subscription normalized = []) ∧
        ∃ reason, correlator.correlate subscription normalized = .notCorrelated reason := by
  unfold correlate
  dsimp only
  split
  next hbound =>
    rw [show List.filter _ _ = _ from h]
    dsimp only
    split
    next hnil => exact .inl ⟨hbound, hnil, rfl⟩
    next hne => exact .inr ⟨fun hboth => hne hboth.2, _, rfl⟩
  next hlegacy =>
    rw [foundInScope_of_legacy hlegacy] at h
    rw [h]
    refine .inr ⟨fun hboth => ?_, _, rfl⟩
    rw [hlegacy] at hboth
    cases hboth.1

/-- What the fallback answers. -/
theorem fallback_cases (correlator : GraphReplyCorrelator) (subscription : GraphSubscriptionRecord)
    (normalized : GraphNormalizedReply) : (∃ e executions,
      correlator.OneLead subscription normalized executions ∧ e ∈ executions ∧
      ∃ execution, (∀ e', execution = some e' → e' = e) ∧
        correlator.fallback subscription normalized = .correlated execution e.state.leadId
          e.state.workspaceId .senderRecipientFallback) ∨
    (¬∃ executions, correlator.OneLead subscription normalized executions) ∧
      ∃ reason, correlator.fallback subscription normalized = .notCorrelated reason := by
  unfold fallback
  split
  next hworkspace =>
    refine .inr ⟨?_, _, rfl⟩
    rintro ⟨executions, hlead⟩
    rw [hlead.workspace] at hworkspace
    cases hworkspace
  next hworkspace =>
    unfold senderRecipientFallback
    split
    next hsender =>
      refine .inr ⟨?_, _, rfl⟩
      rintro ⟨executions, hlead⟩
      rw [hlead.sender] at hsender
      cases hsender
    next hsender =>
      split
      next hnil =>
        refine .inr ⟨?_, _, rfl⟩
        rintro ⟨executions, hlead⟩
        exact hlead.nonempty (hlead.matched.trans hnil)
      next e es hcons =>
        split
        next hany =>
          refine .inr ⟨?_, _, rfl⟩
          rintro ⟨executions, hlead⟩
          obtain ⟨e', he', hne⟩ := List.any_eq_true.mp hany
          have hexecutions := hlead.matched.trans hcons
          refine of_decide_eq_true hne (hlead.lead e' ?_ e ?_)
          · rw [hexecutions]
            exact .tail _ he'
          · rw [hexecutions]
            exact .head _
        next hall =>
          have hsame : ∀ e' ∈ e :: es, e'.state.leadId = e.state.leadId := by
            intro e' he'
            rcases List.mem_cons.mp he' with rfl | he'
            · rfl
            · by_contra hne
              exact hall (List.any_eq_true.mpr ⟨e', he', decide_eq_true hne⟩)
          refine .inl ⟨e, e :: es, ⟨?_, ?_, hcons.symm, List.cons_ne_nil _ _, ?_⟩, .head _, _, ?_,
            rfl⟩
          · simpa using hworkspace
          · simpa using hsender
          · exact fun e₁ h₁ e₂ h₂ => (hsame e₁ h₁).trans (hsame e₂ h₂).symm
          · intro e' he'
            split at he' <;> cases he'
            rfl

/-- **When the answer is CORRELATED.** -/
theorem correlated_iff : (∃ execution leadId workspaceId matchedBy,
      correlator.correlate subscription normalized =
        .correlated execution leadId workspaceId matchedBy) ↔
    correlator.Chooses subscription normalized := by
  unfold Chooses
  rw [← length_foundInScope, ← findByMessageIds_eq_nil_iff]
  rcases hfound : correlator.foundInScope subscription normalized with _ | ⟨m, _ | ⟨m', ms⟩⟩
  · rcases correlate_of_none hfound with ⟨hbound, hnil, heq⟩ | ⟨hnot, reason, heq⟩
    · rw [heq]
      rcases correlator.fallback_cases subscription normalized with
        ⟨e, executions, hlead, -, execution, -, heq'⟩ | ⟨hnone, reason, heq'⟩
      · exact iff_of_true ⟨_, _, _, _, heq'⟩ (.inr ⟨hbound, hnil, executions, hlead⟩)
      · refine iff_of_false ?_ ?_
        · rintro ⟨_, _, _, _, hcorrelated⟩
          rw [heq'] at hcorrelated
          cases hcorrelated
        · rintro (hlength | ⟨-, -, hlead⟩)
          · cases hlength
          · exact hnone hlead
    · refine iff_of_false ?_ ?_
      · rintro ⟨_, _, _, _, hcorrelated⟩
        rw [heq] at hcorrelated
        cases hcorrelated
      · rintro (hlength | ⟨hbound, hnil, -⟩)
        · cases hlength
        · exact hnot ⟨hbound, hnil⟩
  · exact iff_of_true ⟨_, _, _, _, correlate_of_single hfound⟩ (.inl rfl)
  · have hlength : 2 ≤ (correlator.foundInScope subscription normalized).length := by
      rw [hfound]
      simp
    refine iff_of_false ?_ ?_
    · rintro ⟨_, _, _, _, hcorrelated⟩
      exact correlate_of_many hlength _ _ _ _ hcorrelated
    · rintro (hone | ⟨-, hnil, -⟩)
      · simp at hone
      · unfold foundInScope at hfound
        rw [hnil] at hfound
        cases hfound

/-! ## What is promised -/

/-- One of the ids is that of the execution. -/
def Matches (correlator : GraphReplyCorrelator) (subscription : GraphSubscriptionRecord)
    (normalized : GraphNormalizedReply) (e : MessageExecution) : Prop :=
  ∃ messageId ∈ ids normalized, correlator.Holds subscription.tenantId messageId e

/-- The execution is stored in the tenant and the workspace of the subscription. -/
def Belongs (correlator : GraphReplyCorrelator) (subscription : GraphSubscriptionRecord)
    (e : MessageExecution) : Prop :=
  e.state.tenantId = subscription.tenantId ∧
    castUuid (subscription.workspaceId.getD "") = some e.state.workspaceId ∧
    ∃ r ∈ correlator.store.rows, MessageExecution.mapping.reconstitute r = some e

/-- The correlation is sound and complete. -/
structure CorrelatesWell (correlator : GraphReplyCorrelator)
    (subscription : GraphSubscriptionRecord) (normalized : GraphNormalizedReply) : Prop where
  /-- The lead, and the execution if any, are of the subscription's workspace. -/
  sound : ∀ execution leadId workspaceId matchedBy,
    subscription.subscriptionScope = .workspaceBound →
    correlator.correlate subscription normalized =
      .correlated execution leadId workspaceId matchedBy →
    ∃ e, correlator.Belongs subscription e ∧ e.state.leadId = leadId ∧
      e.state.workspaceId = workspaceId ∧ ∀ e', execution = some e' → e' = e
  /-- The fallback chooses among executions of one lead. -/
  fallback : ∀ execution leadId workspaceId,
    correlator.correlate subscription normalized =
      .correlated execution leadId workspaceId .senderRecipientFallback →
    ∃ executions, correlator.OneLead subscription normalized executions
  /-- One execution that matches, in scope, is chosen. -/
  complete : ∀ e, correlator.Matches subscription normalized e →
    (∀ e', correlator.Matches subscription normalized e' → e' = e) →
    inScope subscription e = true →
    ∃ matchedBy, correlator.correlate subscription normalized =
      .correlated (some e) e.state.leadId e.state.workspaceId matchedBy
  /-- Between two that match, in scope, none is chosen. -/
  separates : ∀ e e', correlator.Matches subscription normalized e →
    correlator.Matches subscription normalized e' → e ≠ e' →
    inScope subscription e = true → inScope subscription e' = true →
    ∀ execution leadId workspaceId matchedBy, correlator.correlate subscription normalized ≠
      .correlated execution leadId workspaceId matchedBy

/-- The only execution that matches is in scope, and its id occurs again. -/
def Repeated (correlator : GraphReplyCorrelator) (subscription : GraphSubscriptionRecord)
    (normalized : GraphNormalizedReply) : Prop :=
  ∃ e messageId, correlator.Holds subscription.tenantId messageId e ∧
    inScope subscription e = true ∧
    (∀ e', correlator.Matches subscription normalized e' → e' = e) ∧
    1 < (ids normalized).count messageId

/-- Executions in scope match beside each other, under an id they share, and another id or the
sender makes the choice. -/
def Mixed (correlator : GraphReplyCorrelator) (subscription : GraphSubscriptionRecord)
    (normalized : GraphNormalizedReply) : Prop :=
  (∃ e e', correlator.Matches subscription normalized e ∧
    correlator.Matches subscription normalized e' ∧ e ≠ e' ∧
    inScope subscription e = true ∧ inScope subscription e' = true) ∧
  correlator.Chooses subscription normalized

/-! ### Soundness -/

theorem belongs_of_inScope (hbound : subscription.subscriptionScope = .workspaceBound)
    (h : correlator.Holds subscription.tenantId messageId e)
    (hscope : inScope subscription e = true) : correlator.Belongs subscription e := by
  obtain ⟨r, hr, htenant, -, he⟩ := h
  obtain ⟨⟨-, hkey, -⟩, -, -⟩ := correlator.store.inv.owns hr he
  have hcanonical := correlator.store.inv.canonical r hr
  obtain ⟨hcast, -, -⟩ := (correlator.store.inv.owns hr he).1
  have hworkspace : e.state.workspaceId = subscription.workspaceId.getD "" := by
    unfold inScope at hscope
    rw [hbound] at hscope
    exact of_decide_eq_true hscope
  have hcolumn : r.key.workspaceId = e.state.workspaceId := by
    obtain ⟨s, hs⟩ := correlator.store.inv.restorable r hr
    rw [hs, AggregateRepository.Mapping.reconstitute_row] at he
    cases he
    rfl
  refine ⟨?_, ?_, r, hr, he⟩
  · rw [← htenant, hkey]
    rfl
  · rw [← hworkspace, ← hcolumn]
    exact hcanonical

theorem belongs_of_matched {sender : String}
    (h : e ∈ correlator.matchedExecutions
      ⟨subscription.tenantId, subscription.workspaceId.getD ""⟩ sender) :
    correlator.Belongs subscription e := by
  obtain ⟨hfound, -⟩ := List.mem_filter.mp h
  obtain ⟨r, hr, htenant, hworkspace, -, he⟩ := AggregateRepository.Mapping.mem_select.mp hfound
  obtain ⟨s, hs⟩ := correlator.store.inv.restorable r hr
  refine ⟨?_, ?_, r, hr, he⟩
  · rw [hs, AggregateRepository.Mapping.reconstitute_row] at he
    cases he
    rw [hs] at htenant
    exact htenant
  · rw [hs, AggregateRepository.Mapping.reconstitute_row] at he
    cases he
    exact hworkspace

/-- What a CORRELATED answer was chosen from. -/
theorem correlated_cases {execution : Option MessageExecution} {leadId workspaceId : String}
    {matchedBy : MatchMethod}
    (h : correlator.correlate subscription normalized =
      .correlated execution leadId workspaceId matchedBy) :
    (∃ e messageId, messageId ∈ ids normalized ∧
      correlator.find subscription messageId = some e ∧ inScope subscription e = true ∧
      execution = some e ∧ leadId = e.state.leadId ∧ workspaceId = e.state.workspaceId ∧
      matchedBy ≠ .senderRecipientFallback) ∨
    ∃ e executions, correlator.OneLead subscription normalized executions ∧ e ∈ executions ∧
      leadId = e.state.leadId ∧ workspaceId = e.state.workspaceId ∧
      ∀ e', execution = some e' → e' = e := by
  rcases hfound : correlator.foundInScope subscription normalized with _ | ⟨m, _ | ⟨m', ms⟩⟩
  · right
    rcases correlate_of_none hfound with ⟨-, -, heq⟩ | ⟨-, reason, heq⟩
    · rcases correlator.fallback_cases subscription normalized with
        ⟨e, executions, hlead, he, execution', hexecution, heq'⟩ | ⟨-, reason, heq'⟩
      · rw [heq, heq'] at h
        cases h
        exact ⟨e, executions, hlead, he, rfl, rfl, hexecution⟩
      · rw [heq, heq'] at h
        cases h
    · rw [heq] at h
      cases h
  · left
    have hm : m ∈ correlator.foundInScope subscription normalized := by
      rw [hfound]
      exact .head _
    obtain ⟨hm, hscope⟩ := List.mem_filter.mp hm
    obtain ⟨messageId, hid, hfind, hscope', hmethod⟩ := mem_findByMessageIds hm
    rw [correlate_of_single hfound] at h
    cases h
    exact ⟨m.execution, messageId, hid, hfind, hscope' ▸ hscope, rfl, rfl, rfl, hmethod⟩
  · refine absurd h (correlate_of_many ?_ _ _ _ _)
    rw [hfound]
    simp

/-! ### Completeness -/

/-- Where one execution matches, its id finds it and no other id finds any. -/
theorem find_of_only (h : correlator.Holds subscription.tenantId messageId e)
    (hid : messageId ∈ ids normalized)
    (honly : ∀ e', correlator.Matches subscription normalized e' → e' = e) :
    correlator.find subscription messageId = some e ∧
      ∀ id ∈ ids normalized, id ≠ messageId → correlator.find subscription id = none := by
  refine ⟨find_eq_some_iff.mpr ⟨h, fun e' he' => honly e' ⟨messageId, hid, he'⟩⟩, fun id hmem hne => ?_⟩
  cases hfind : correlator.find subscription id with
  | none => rfl
  | some e' =>
    obtain ⟨he', -⟩ := find_eq_some_iff.mp hfind
    have heq := honly e' ⟨id, hmem, he'⟩
    rw [heq] at he'
    exact absurd (Option.some.inj (he'.providerMessageId.symm.trans h.providerMessageId)) hne

/-- The occurrences of the only id that finds an execution. -/
theorem length_occurrences (h : correlator.Holds subscription.tenantId messageId e)
    (hid : messageId ∈ ids normalized)
    (honly : ∀ e', correlator.Matches subscription normalized e' → e' = e)
    (hscope : inScope subscription e = true) :
    (correlator.occurrences subscription normalized).length =
      (ids normalized).count messageId := by
  obtain ⟨hfind, hnone⟩ := find_of_only h hid honly
  unfold occurrences
  rw [List.count_eq_countP, List.countP_eq_length_filter]
  refine congrArg List.length (List.filter_congr fun id hmem => ?_)
  unfold identifies
  by_cases heq : id = messageId
  · rw [heq, hfind]
    simp [hscope]
  · rw [hnone id hmem heq]
    simp [heq]

/-- The only execution that matches is chosen iff its id occurs once. -/
theorem complete_iff (h : correlator.Holds subscription.tenantId messageId e)
    (hid : messageId ∈ ids normalized)
    (honly : ∀ e', correlator.Matches subscription normalized e' → e' = e)
    (hscope : inScope subscription e = true) :
    (∃ matchedBy, correlator.correlate subscription normalized =
      .correlated (some e) e.state.leadId e.state.workspaceId matchedBy) ↔
      (ids normalized).count messageId = 1 := by
  obtain ⟨hfind, hnone⟩ := find_of_only h hid honly
  have hlength := length_occurrences h hid honly hscope
  constructor
  · rintro ⟨matchedBy, hcorrelate⟩
    rcases correlated_iff.mp ⟨_, _, _, _, hcorrelate⟩ with hone | ⟨-, hno, -⟩
    · exact hlength.symm.trans hone
    · have hnothing := hno messageId hid
      rw [hfind] at hnothing
      cases hnothing
  · intro hcount
    rw [← hlength, ← length_foundInScope] at hcount
    obtain ⟨m, hm⟩ := List.length_eq_one_iff.mp hcount
    have hmem : m ∈ correlator.foundInScope subscription normalized := by
      rw [hm]
      exact .head _
    obtain ⟨id, hmem', hfind', -, -⟩ := mem_findByMessageIds (List.mem_filter.mp hmem).1
    have hexecution : m.execution = e :=
      honly m.execution ⟨id, hmem', (find_eq_some_iff.mp hfind').1⟩
    refine ⟨m.matchedBy, ?_⟩
    rw [correlate_of_single hm, ← hexecution]
    rfl

/-- **When the correlation is sound and complete.** -/
theorem correlatesWell_iff (correlator : GraphReplyCorrelator)
    (subscription : GraphSubscriptionRecord) (normalized : GraphNormalizedReply) :
    correlator.CorrelatesWell subscription normalized ↔
      ¬correlator.Repeated subscription normalized ∧
        ¬correlator.Mixed subscription normalized := by
  constructor
  · intro h
    constructor
    · rintro ⟨e, messageId, hholds, hscope, honly, hcount⟩
      have hid : messageId ∈ ids normalized := List.count_pos_iff.mp (by omega)
      have hchosen := h.complete e ⟨messageId, hid, hholds⟩ honly hscope
      have hone := (complete_iff hholds hid honly hscope).mp hchosen
      omega
    · rintro ⟨⟨e, e', hm, hm', hne, hscope, hscope'⟩, hchooses⟩
      obtain ⟨_, _, _, _, hcorrelate⟩ := correlated_iff.mpr hchooses
      exact h.separates e e' hm hm' hne hscope hscope' _ _ _ _ hcorrelate
  · rintro ⟨hrepeated, hmixed⟩
    refine ⟨?_, ?_, ?_, ?_⟩
    · intro execution leadId workspaceId matchedBy hbound hcorrelate
      rcases correlated_cases hcorrelate with
        ⟨e, messageId, -, hfind, hscope, rfl, rfl, rfl, -⟩ |
        ⟨e, executions, hlead, he, rfl, rfl, hexecution⟩
      · refine ⟨e, belongs_of_inScope hbound (find_eq_some_iff.mp hfind).1 hscope, rfl, rfl, ?_⟩
        exact fun e' he' => (Option.some.inj he').symm
      · exact ⟨e, belongs_of_matched (hlead.matched ▸ he), rfl, rfl, hexecution⟩
    · intro execution leadId workspaceId hcorrelate
      rcases correlated_cases hcorrelate with ⟨_, _, -, -, -, -, -, -, hmethod⟩ |
        ⟨e, executions, hlead, -⟩
      · exact absurd rfl hmethod
      · exact ⟨executions, hlead⟩
    · rintro e ⟨messageId, hid, hholds⟩ honly hscope
      refine (complete_iff hholds hid honly hscope).mpr ?_
      have hpos : 0 < (ids normalized).count messageId := List.count_pos_iff.mpr hid
      by_contra hne
      exact hrepeated ⟨e, messageId, hholds, hscope, honly, by omega⟩
    · intro e e' hm hm' hne hscope hscope' execution leadId workspaceId matchedBy hcorrelate
      exact hmixed ⟨⟨e, e', hm, hm', hne, hscope, hscope'⟩,
        correlated_iff.mp ⟨_, _, _, _, hcorrelate⟩⟩

/-! ### Two headers name the same message -/

def answeredProps : MessageExecution.Props where
  id := "execution-1"
  tenantId := "acme"
  workspaceId := "a0eebc99-9c0b-4ef8-bb6d-6bb9bd380a11"
  campaignId := "campaign-1"
  sequenceId := "sequence-1"
  stepNumber := 1
  leadId := "lead-1"
  contactId := "contact-1"
  recipientProtectionState := .legacyUnavailable
  channel := .email
  idempotencyKey := "send-1"
  status := .delivered
  providerMessageId := some "<sent@vega>"
  createdAt := 0
  updatedAt := 0

def answeredRow : ExecutionRow :=
  MessageExecution.mapping.row answeredProps "a0eebc99-9c0b-4ef8-bb6d-6bb9bd380a11" 1

/-- One execution, that was sent. -/
def answeredCorrelator : GraphReplyCorrelator where
  store := {
    rows := [answeredRow]
    inv := by
      refine ⟨List.pairwise_singleton _ _, ?_, ?_⟩
      · intro r hr
        exact ⟨answeredProps, List.mem_singleton.mp hr ▸ rfl⟩
      · intro r hr
        rw [List.mem_singleton.mp hr]
        decide +kernel }
  fingerprintEmailForVersion _ _ _ := .error "no key"

def boundSubscription : GraphSubscriptionRecord where
  tenantId := "acme"
  workspaceId := some "a0eebc99-9c0b-4ef8-bb6d-6bb9bd380a11"
  subscriptionScope := .workspaceBound
  subscriptionId := "subscription-1"
  resource := "users/sales/messages"

/-- A reply as mail clients write it: In-Reply-To is the last of the References. -/
def threadedReply : GraphNormalizedReply where
  channel := "email"
  providerMessageId := "<reply@lead>"
  content := "Tell me more"
  receivedAt := 1
  messageIdHeader := some "<reply@lead>"
  sender := some "lead@example.com"
  recipientAddress := some "sales@vega.example"
  subject := some "Re: Hello"
  htmlBody := none
  inReplyTo := some "<sent@vega>"
  references := some ["<sent@vega>"]
  hadAttachments := false

theorem correlate_threadedReply :
    answeredCorrelator.correlate boundSubscription threadedReply =
      .ambiguous "Multiple message-id-based matches in workspace" 2 := by
  decide +kernel

/-- The reply to the only execution there is finds it twice and is AMBIGUOUS. -/
theorem not_correlatesWell_repeated : ¬∀ (correlator : GraphReplyCorrelator)
    (subscription : GraphSubscriptionRecord) (normalized : GraphNormalizedReply),
    correlator.CorrelatesWell subscription normalized := by
  intro h
  have hholds : ∀ {messageId e}, answeredCorrelator.Holds boundSubscription.tenantId messageId e →
      MessageExecution.mapping.reconstitute answeredRow = some e := by
    rintro messageId e ⟨r, hr, -, -, he⟩
    rw [List.mem_singleton.mp hr] at he
    exact he
  obtain ⟨e, he⟩ : ∃ e : MessageExecution,
      MessageExecution.mapping.reconstitute answeredRow = some e :=
    answeredCorrelator.store.inv.exists_reconstitute (.head _)
  have hmatches : answeredCorrelator.Matches boundSubscription threadedReply e :=
    ⟨"<sent@vega>", by decide, answeredRow, .head _, rfl, rfl, he⟩
  have hscope : inScope boundSubscription e = true := by
    unfold answeredRow at he
    rw [AggregateRepository.Mapping.reconstitute_row] at he
    cases he
    decide
  obtain ⟨matchedBy, hcorrelated⟩ := (h answeredCorrelator boundSubscription threadedReply).complete
    e hmatches (fun e' ⟨_, _, he'⟩ => Option.some.inj ((hholds he').symm.trans he)) hscope
  rw [correlate_threadedReply] at hcorrelated
  cases hcorrelated

end GraphReplyCorrelator

end VegaRevenue.GraphInbound
