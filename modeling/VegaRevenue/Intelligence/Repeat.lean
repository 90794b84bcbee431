import VegaRevenue.Intelligence.ResearchEngine

/-!
# Research runs again

A run that succeeded, decisions on its leads and contacts, and a run over the same accounts and
contacts.

* `repeatable_iff` — the second run is refused for what the first one saved, unless there is no
  account or the first of them cannot be stored
-/

namespace VegaRevenue.Intelligence

open Programs Versioned

/-! ## Decisions -/

/-- What operators and conversations decide about the rows of a run. -/
inductive Decision where
  | approve (leadId : String)
  | reject (leadId reason : String)
  | conversationOutcome (leadId : String) (outcome : Lead.ConversationOutcome) (reason : String)
  | suppress (contactId reason : String) (reference : Option String)

/-- A lead is loaded, decided on and saved. -/
def decideLead (ctx : Context) (id : String) (op : Lead → Lead) (s : Store) : Store :=
  match s.leads.load ctx id with
  | none => s
  | some lead =>
    match s.leads.save ctx (op lead) with
    | .ok leads => { s with leads }
    | .error _ => s

/-- A contact is loaded, decided on and saved. -/
def decideContact (ctx : Context) (id : String) (op : Contact → Contact) (s : Store) : Store :=
  match s.contacts.findById ctx id with
  | none => s
  | some contact =>
    match s.contacts.save ctx (op contact) with
    | .ok (contacts, _) => { s with contacts }
    | .error _ => s

def Decision.apply (ctx : Context) (now : Date) (s : Store) : Decision → Store
  | approve leadId => decideLead ctx leadId (·.approve now) s
  | reject leadId reason => decideLead ctx leadId (·.reject reason now) s
  | conversationOutcome leadId outcome reason =>
    decideLead ctx leadId (fun lead => (lead.recordConversationOutcome outcome reason now).1) s
  | suppress contactId reason reference =>
    decideContact ctx contactId (·.suppress reason reference now) s

/-- The store after the first run and the decisions that follow it. -/
def Env.decided (env : Env) (pass : Pass) (decisions : List (Date × Decision)) (s : Store) : Store :=
  decisions.foldl (fun s d => d.2.apply env.ctx d.1 s) (exec (env.run pass) s).2

/-! ## The law -/

/-- The provider reports the same accounts and the same contacts of them, by their ids. -/
structure SameIds (pass pass' : Pass) : Prop where
  accounts : pass'.accounts.map (·.providerAccountId) = pass.accounts.map (·.providerAccountId)
  contacts : ∀ id, (pass'.contacts id).map (·.providerContactId) =
    (pass.contacts id).map (·.providerContactId)

/-- A run that started in `s` and left `s'` is not refused for a row that exists, and every lead and
every contact has the status it had. -/
structure Repeats (env : Env) (pass : Pass) (s : Store) : Prop where
  notRefused : ∀ e, (exec (env.run pass) s).1 = .error e → e.alreadyExists = false
  leads : ∀ key r, s.leads.find key = some r →
    ∃ r', (exec (env.run pass) s).2.leads.find key = some r' ∧
      r'.payload.status = r.payload.status
  contacts : ∀ id r, s.contacts.find id = some r →
    ∃ r', (exec (env.run pass) s).2.contacts.find id = some r' ∧
      r'.payload.status = r.payload.status

/-! ## The first account -/

section

variable {env : Env}

theorem newAccount_id (pass : Pass) (candidate : AccountCandidate) :
    (env.newAccount pass candidate).state.id = candidate.providerAccountId := by
  unfold Env.newAccount
  split <;> rfl

variable (env) in
theorem newAccount_fresh (pass : Pass) (candidate : AccountCandidate) :
    (env.newAccount pass candidate).loadedVersion = none ∧
      (env.newAccount pass candidate).state.tenantId = env.ctx.tenantId ∧
      (env.newAccount pass candidate).state.workspaceId = env.ctx.workspaceId := by
  unfold Env.newAccount
  split <;> exact ⟨rfl, rfl, rfl⟩

/-- Where the first account is refused, the run fails with it and saves nothing. -/
theorem exec_run_refused {pass : Pass} {candidate : AccountCandidate}
    {candidates : List AccountCandidate} (hpass : pass.accounts = candidate :: candidates) {s : Store}
    {e : RepositoryError}
    (he : s.accounts.save env.ctx (env.newAccount pass candidate) = .error e) :
    exec (env.run pass) s = (.error (.repository .account e), s) := by
  have hsave : exec (env.saveAccount (env.newAccount pass candidate)) s =
      (.error (.repository .account e), s) := by
    unfold Env.saveAccount
    rw [exec_bind, exec_get]
    dsimp only
    rw [he]
    rfl
  unfold Env.run
  rw [hpass]
  exact exec_bind_error (exec_bind_error (exec_bind_error hsave))

variable (env) in
theorem exec_run_nil {pass : Pass} (hpass : pass.accounts = []) (s : Store) :
    ∃ summary, exec (env.run pass) s = (.ok summary, s) := by
  unfold Env.run
  rw [hpass]
  exact ⟨_, rfl⟩

/-- The account is there. -/
def Has (id : String) (s : Store) : Prop := (s.accounts.find id).isSome = true

theorem Has.grows {id : String} (s t : Store) (h : Env.Grows s t) (hs : Has id s) : Has id t :=
  h.accounts id hs

theorem processAccount_has (pass : Pass) (candidate : AccountCandidate) :
    Ensures (fun _ => True) (env.processAccount pass candidate)
      (fun _ => Has candidate.providerAccountId) (fun _ _ => True) := by
  have hsave : Ensures (fun _ => True) (env.saveAccount (env.newAccount pass candidate))
      (fun _ => Has candidate.providerAccountId) (fun _ _ => True) := by
    intro s _
    unfold Env.saveAccount
    rw [exec_bind, exec_get]
    dsimp only
    cases h : s.accounts.save env.ctx (env.newAccount pass candidate) with
    | error e => trivial
    | ok p =>
      obtain ⟨-, hself, -⟩ := Accounts.save_ok h
      rw [newAccount_id] at hself
      exact hself
  exact ensures_bind hsave fun account => (Env.enrichAccount_grows _ _ account).ensures Has.grows fun _ _ _ => trivial

variable (env) in
/-- A run that succeeds has saved its first account. -/
theorem run_has {pass : Pass} {candidate : AccountCandidate} {candidates : List AccountCandidate}
    (hpass : pass.accounts = candidate :: candidates) :
    Ensures (fun _ => True) (env.run pass) (fun _ => Has candidate.providerAccountId)
      (fun _ _ => True) := by
  unfold Env.run
  rw [hpass]
  refine ensures_bind ?_ fun summary => (Env.summarize_grows summary).ensures Has.grows fun _ _ _ => trivial
  refine ensures_bind (processAccount_has pass candidate) fun account => ?_
  refine ensures_bind ((Env.researchAccount_grows pass {} account).ensures Has.grows fun _ _ _ => trivial)
    fun summary => ?_
  exact (Env.researchAll_grows pass summary candidates).ensures Has.grows fun _ _ _ => trivial

theorem decideLead_accounts (ctx : Context) (id : String) (op : Lead → Lead) (s : Store) :
    (decideLead ctx id op s).accounts = s.accounts := by
  unfold decideLead
  split
  · rfl
  · split <;> rfl

theorem decideContact_accounts (ctx : Context) (id : String) (op : Contact → Contact) (s : Store) :
    (decideContact ctx id op s).accounts = s.accounts := by
  unfold decideContact
  split
  · rfl
  · split <;> rfl

/-- Decisions leave the accounts alone. -/
theorem decisions_accounts (ctx : Context) (decisions : List (Date × Decision)) (s : Store) :
    (decisions.foldl (fun s d => d.2.apply ctx d.1 s) s).accounts = s.accounts := by
  induction decisions generalizing s with
  | nil => rfl
  | cons d decisions ih =>
    rw [List.foldl_cons, ih]
    cases d.2 with
    | approve leadId => exact decideLead_accounts ctx leadId _ s
    | reject leadId reason => exact decideLead_accounts ctx leadId _ s
    | conversationOutcome leadId outcome reason => exact decideLead_accounts ctx leadId _ s
    | suppress contactId reason reference => exact decideContact_accounts ctx contactId _ s

/-! ## Two runs -/

/-- Decisions survive every run. -/
theorem repeats_of_notRefused {pass : Pass} {s : Store}
    (h : ∀ e, (exec (env.run pass) s).1 = .error e → e.alreadyExists = false) :
    Repeats env pass s where
  notRefused := h
  leads key r hr := ⟨r, (Env.run_grows pass s).leads key r hr, rfl⟩
  contacts id r hr := ⟨r, (Env.run_grows pass s).contacts id r hr, rfl⟩

variable (env) in
/-- **After a run that succeeded, a run over the same accounts and contacts repeats iff there is no
account, or the first of them has a value that its columns cannot hold.** -/
theorem repeatable_iff {pass pass' : Pass} (hids : SameIds pass pass') {s : Store}
    {summary : Env.Summary} (hfirst : (exec (env.run pass) s).1 = .ok summary)
    (decisions : List (Date × Decision)) :
    Repeats env pass' (env.decided pass decisions s) ↔
      ∀ candidate ∈ pass'.accounts.head?,
        Account.storable (env.newAccount pass' candidate).state = false := by
  cases hpass' : pass'.accounts with
  | nil =>
    obtain ⟨summary', hrun⟩ := exec_run_nil env hpass' (env.decided pass decisions s)
    have hrepeats : Repeats env pass' (env.decided pass decisions s) := by
      refine repeats_of_notRefused fun e he => ?_
      rw [hrun] at he
      cases he
    simpa using hrepeats
  | cons candidate candidates =>
    obtain ⟨hl, htenant, hworkspace⟩ := newAccount_fresh env pass' candidate
    have hhas : Has candidate.providerAccountId (env.decided pass decisions s) := by
      have hsame := hids.accounts
      rw [hpass'] at hsame
      cases hpass : pass.accounts with
      | nil =>
        rw [hpass] at hsame
        cases hsame
      | cons c cs =>
        rw [hpass] at hsame
        have hid : candidate.providerAccountId = c.providerAccountId := (List.cons.inj hsame).1
        have hrun := run_has env hpass s trivial
        generalize hend : exec (env.run pass) s = r at hrun hfirst
        obtain ⟨result, s'⟩ := r
        obtain rfl : result = .ok summary := hfirst
        unfold Has Env.decided
        rw [decisions_accounts, hend, hid]
        exact hrun
    have hhead : (∀ c ∈ (candidate :: candidates).head?,
        Account.storable (env.newAccount pass' c).state = false) ↔
          Account.storable (env.newAccount pass' candidate).state = false := by
      simp
    rw [hhead]
    constructor
    · intro hrepeats
      by_contra hstorable
      have htaken := Accounts.save_taken hl htenant hworkspace (by simpa using hstorable)
        (by rw [newAccount_id]; exact hhas)
      have hrefused := exec_run_refused hpass' htaken
      have hfalse := hrepeats.notRefused _ (congrArg Prod.fst hrefused)
      simp [RunError.alreadyExists, RepositoryError.alreadyExists] at hfalse
    · intro hstorable
      have hother := Accounts.save_unstorable (t := (env.decided pass decisions s).accounts) hl
        htenant hworkspace hstorable
      have hrefused := exec_run_refused hpass' hother
      refine repeats_of_notRefused fun e he => ?_
      rw [hrefused] at he
      cases he
      rfl

end

/-! ## One account with one contact -/

/-- No profile filters, and scores above every threshold. -/
def sampleEvaluation (evidence : List Evidence) (signals : List Signal) (now : Date) :
    Lead.EvaluationInput where
  scores := ⟨.finite 1, .finite 1, .finite 1, .finite 1, .finite 1⟩
  qualificationThreshold := .finite (7 / 10)
  reviewThreshold := .finite (4 / 10)
  hardFilterResults := []
  evidenceIds := evidence.map (·.evidenceId)
  signalIds := signals.map (·.id)
  normalizedFeatures := .obj 0 []
  snapshotSchemaVersion := "1.0"
  scoringPolicyVersion := "1.0"
  algorithmVersion := "1.0"
  evaluatedAt := some now

def sampleEnv : Env where
  ctx := ⟨"t1", "w1"⟩
  missionId := "m1"
  icpProfileId := "icp-1"
  icpProfileVersionId := "v1"
  normalizeDomain := id
  generateEvidenceId n := String.ofList (List.replicate n 'e')
  computeEvidenceFingerprint claimType _ source := claimType ++ ":" ++ source
  evidenceError _ := none
  sanitizeExternalText := id
  signalType := id
  computeDedupIdentity := (·.observedSignal)
  signalError _ := none
  evaluation _ := sampleEvaluation

def samplePass : Pass where
  accounts := [{ providerAccountId := "acme", name := "Acme" }]
  duplicateAccount _ := none
  intelligence _ := {}
  contacts _ := [{ providerContactId := "ann" }]
  duplicateContact _ := false
  enriched candidate := ⟨candidate, 9 / 10, .valid⟩
  signals _ := none
  now := 1000

theorem samplePass_succeeds :
    (exec (sampleEnv.run samplePass) {}).1 = .ok ⟨1, 1, 1, 0⟩ :=
  eq_ok_of_toOption (by decide +kernel)

theorem repeatable_sample :
    Repeats sampleEnv samplePass (sampleEnv.decided samplePass [] {}) ↔
      ∀ candidate ∈ samplePass.accounts.head?,
        Account.storable (sampleEnv.newAccount samplePass candidate).state = false :=
  repeatable_iff sampleEnv ⟨rfl, fun _ => rfl⟩ samplePass_succeeds []

/-- **The same run again fails on its first account.** -/
theorem not_repeats_sample : ¬ Repeats sampleEnv samplePass (sampleEnv.decided samplePass [] {}) := by
  intro h
  have hrefused : (exec (sampleEnv.run samplePass) (sampleEnv.decided samplePass [] {})).1 =
      .error (.repository .account (.concurrencyConflict "Account acme already exists" none)) := by
    decide +kernel
  exact absurd (h.notRefused _ hrefused) (by decide)

end VegaRevenue.Intelligence
