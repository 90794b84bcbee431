import VegaRevenue.Intelligence.SignalIdentity
import VegaRevenue.Lib.Machine

/-!
# Whose the evidence is

A workspace has one row of evidence for a fingerprint, and the fingerprint names the claim, not its
account. The claims of accounts and contacts are inserted; a signal takes the row that it finds.

* `processAccount_placed`, `processContacts_placed` — what accounts and contacts name is theirs
* `saveSignals_iff` — when what the signals name is theirs
* `owned_iff` — which calls keep to the law, one by one and in every run
-/

namespace VegaRevenue.Intelligence.EvidenceOwnership

open KeyedRows
open Machine (Meets Step final)
open Programs
open SignalIdentity (bare content detectSignal hashing key)
open Versioned

/-! ## Calls -/

/-- A call of the engine, with what the provider answers it. -/
inductive Call where
  | account (pass : Pass) (candidate : AccountCandidate)
  | contacts (pass : Pass) (account : Account)
  | signals (pass : Pass) (accountId : String)

def Call.program (env : Env) : Call → Run Unit
  | account pass candidate => do
    let _ ← env.processAccount pass candidate
    pure ()
  | contacts pass a => do
    let _ ← env.processContacts pass a (pass.contacts a.state.id)
    pure ()
  | signals pass accountId => do
    let _ ← env.detectSignalsForAccount pass accountId
    pure ()

/-- A call, however it ends. -/
def step (env : Env) : Step Store Call (Except RunError Unit) := fun s c =>
  let ended := exec (c.program env) s
  (ended.2, ended.1)

/-! ## The law -/

/-- The evidence of a claim is refused for the row that is there. -/
def duplicateEvidence : RunError → Bool
  | .repository .evidence (.duplicateRecord _ _) => true
  | _ => false

/-- The evidence that the lead of an account is evaluated with. -/
def accountEvidence (env : Env) (s : Store) (accountId : String) : List Evidence :=
  s.evidence.filter fun row => row.tenantId = env.ctx.tenantId &&
    row.workspaceId = env.ctx.workspaceId && row.accountId = accountId

/-- The id is one of evidence of the account. -/
def Names (env : Env) (s : Store) (accountId evidenceId : String) : Prop :=
  ∃ row ∈ accountEvidence env s accountId, row.evidenceId = evidenceId

/-- Evidence is only added, and what is written from `s` to `s'` names evidence of its account. -/
structure Placed (env : Env) (s s' : Store) : Prop where
  evidence : ∀ row ∈ s.evidence, row ∈ s'.evidence
  accounts : ∀ id r, s'.accounts.find id = some r → s.accounts.find id = some r ∨
    ∀ evidenceId ∈ r.payload.evidenceReferences, Names env s' r.payload.id evidenceId
  contacts : ∀ id r, s'.contacts.find id = some r → s.contacts.find id = some r ∨
    ∀ evidenceId ∈ r.payload.evidenceReferences, Names env s' r.payload.accountId evidenceId
  signals : ∀ row ∈ s'.signals, row ∈ s.signals ∨
    ∀ evidenceId ∈ row.evidenceIds, Names env s' row.accountId evidenceId

/-- The call is not refused for a claim that is stored, and what it writes names evidence of its
account. -/
def Owned (env : Env) (s : Store) (c : Call) : Prop :=
  (∀ e, (step env s c).2 = .error e → duplicateEvidence e = false) ∧ Placed env s (step env s c).1

/-- Nothing ends the call but evidence that is there. -/
def Unstopped (env : Env) (s : Store) (c : Call) : Prop :=
  ∀ e, (step env s c).2 = .error e → duplicateEvidence e = true

/-! ## The condition -/

def fingerprint (env : Env) (claim : Claim) : String :=
  env.computeEvidenceFingerprint claim.claimType claim.normalizedValue claim.source

/-- The row is the one of the workspace that has the fingerprint. -/
def Matches (env : Env) (fingerprint : String) (row : Evidence) : Prop :=
  row.tenantId = env.ctx.tenantId ∧ row.workspaceId = env.ctx.workspaceId ∧
    row.evidenceFingerprint = fingerprint

/-- No claim is stored, and no two of them are equal. -/
def New (env : Env) (s : Store) (claims : List Claim) : Prop :=
  (claims.map (fingerprint env)).Nodup ∧
    ∀ claim ∈ claims, ∀ row ∈ s.evidence, ¬Matches env (fingerprint env claim) row

/-- The claims of the account, which one of the business system has none of. -/
def accountClaims (pass : Pass) (candidate : AccountCandidate) : List Claim :=
  match pass.duplicateAccount candidate with
  | some _ => []
  | none => Env.extractAccountClaims candidate (pass.intelligence candidate.providerAccountId)

def contactClaim (pass : Pass) (candidate : ContactCandidate) : Claim :=
  ⟨"CONTACT_ROLE", Env.roleValue (pass.enriched candidate), "provider",
    (pass.enriched candidate).confidence⟩

def contactClaims (pass : Pass) (candidates : List ContactCandidate) : List Claim :=
  (candidates.filter fun candidate => !pass.duplicateContact candidate).map (contactClaim pass)

def signalClaim (env : Env) (candidate : BuyingSignal) : Claim :=
  ⟨"BUYING_SIGNAL", .str (env.sanitizeExternalText candidate.observedSignal), candidate.source,
    candidate.confidence⟩

/-- A row with the claim of a signal that is to be stored is the account's own. -/
def OwnRows (env : Env) (accountId : String) (s : Store) (candidates : List BuyingSignal) : Prop :=
  ∀ done c rest, candidates = done ++ c :: rest →
    (∀ row ∈ s.signals, key row ≠ key (content env accountId c)) →
    (∀ d ∈ done, key (content env accountId d) ≠ key (content env accountId c)) →
    ∀ row ∈ s.evidence, Matches env (fingerprint env (signalClaim env c)) row →
      row.accountId = accountId

/-- The claims of a call meet no row of another subject. -/
def Clear (env : Env) (s : Store) : Call → Prop
  | .account pass candidate => New env s (accountClaims pass candidate)
  | .contacts pass account => New env s (contactClaims pass (pass.contacts account.state.id))
  | .signals pass accountId => ∀ detected ∈ pass.signals accountId, OwnRows env accountId s detected

/-- The table of evidence: unique by id and by fingerprint, and the ids that are still to be
generated are not in it. -/
structure Table (env : Env) (s : Store) : Prop where
  fresh : ∀ n, s.generated ≤ n → ∀ row ∈ s.evidence, row.evidenceId ≠ env.generateEvidenceId n
  ids : ∀ a ∈ s.evidence, ∀ b ∈ s.evidence, a.evidenceId = b.evidenceId → a = b
  fingerprints : ∀ fingerprint, ∀ a ∈ s.evidence, ∀ b ∈ s.evidence,
    Matches env fingerprint a → Matches env fingerprint b → a = b

/-! ## The save of evidence -/

section

variable (env : Env)

/-- `createEvidence`, with the `n`-th id. -/
def newEvidence (n : Nat) (now : Date) (claim : Claim) (accountId : String)
    (missionId : Option String) : Evidence where
  evidenceId := env.generateEvidenceId n
  tenantId := env.ctx.tenantId
  workspaceId := env.ctx.workspaceId
  accountId := accountId
  missionId := missionId
  claimType := claim.claimType
  normalizedValue := claim.normalizedValue
  source := claim.source
  observedAt := now
  confidence := claim.confidence
  evidenceFingerprint := fingerprint env claim

/-- One id has been generated. -/
def next (s : Store) : Store := { s with generated := s.generated + 1 }

def withRow (s : Store) (e : Evidence) : Store := { next s with evidence := s.evidence ++ [e] }

theorem exec_saveEvidence (now : Date) (claim : Claim) (accountId : String)
    (missionId : Option String) (s : Store) :
    exec (env.saveEvidence now claim accountId missionId) s =
      match env.evidenceError (newEvidence env s.generated now claim accountId missionId) with
      | some message => (.error (.invariant message), next s)
      | none =>
        if Env.evidenceTaken s (newEvidence env s.generated now claim accountId missionId) then
          (.error (.repository .evidence (.duplicateRecord
            s!"Duplicate research evidence {env.generateEvidenceId s.generated}"
            "evidence_fingerprint")), next s)
        else (.ok (newEvidence env s.generated now claim accountId missionId),
          withRow s (newEvidence env s.generated now claim accountId missionId)) := by
  unfold Env.saveEvidence
  rw [exec_bind, exec_get]
  dsimp only
  rw [exec_bind, exec_set]
  dsimp only
  change exec (match env.evidenceError
      (newEvidence env s.generated now claim accountId missionId) with
    | some message => _
    | none => if Env.evidenceTaken s
        (newEvidence env s.generated now claim accountId missionId) then _ else _) (next s) = _
  cases env.evidenceError (newEvidence env s.generated now claim accountId missionId) with
  | some message => rfl
  | none =>
    dsimp only
    split
    · rfl
    · rfl

variable {env}

theorem evidenceTaken_iff {s : Store} (hs : Table env s) (now : Date) (claim : Claim)
    (accountId : String) (missionId : Option String) :
    Env.evidenceTaken s (newEvidence env s.generated now claim accountId missionId) = true ↔
      ∃ row ∈ s.evidence, Matches env (fingerprint env claim) row := by
  unfold Env.evidenceTaken Matches
  rw [List.any_eq_true]
  refine exists_congr fun row => and_congr_right fun hrow => ?_
  have hfresh := hs.fresh s.generated le_rfl row hrow
  show (row.evidenceId = env.generateEvidenceId s.generated || (row.tenantId = env.ctx.tenantId &&
    row.workspaceId = env.ctx.workspaceId && row.evidenceFingerprint = fingerprint env claim)) =
      true ↔ _
  simp [hfresh, and_assoc]

/-- A row that is not there may be inserted. -/
theorem Table.insert (hid : Function.Injective env.generateEvidenceId) {s : Store}
    (hs : Table env s) {now : Date} {claim : Claim} {accountId : String} {missionId : Option String}
    (hnew : ∀ row ∈ s.evidence, ¬Matches env (fingerprint env claim) row) :
    Table env (withRow s (newEvidence env s.generated now claim accountId missionId)) := by
  generalize he : newEvidence env s.generated now claim accountId missionId = e
  have heid : e.evidenceId = env.generateEvidenceId s.generated := he ▸ rfl
  have hematch : ∀ f, Matches env f e → f = fingerprint env claim := by
    rintro f ⟨-, -, hf⟩
    exact hf.symm.trans (he ▸ rfl)
  constructor
  · intro n hn
    have hlt : s.generated < n := hn
    refine List.forall_mem_append.mpr ⟨hs.fresh n hlt.le, fun row hrow heq => ?_⟩
    rw [List.mem_singleton.mp hrow, heid] at heq
    exact absurd (hid heq) hlt.ne
  · intro a ha b hb heq
    rcases List.mem_append.mp ha with hold | hsame
    · rcases List.mem_append.mp hb with hold' | hsame'
      · exact hs.ids a hold b hold' heq
      · rw [List.mem_singleton.mp hsame', heid] at heq
        exact absurd heq (hs.fresh _ le_rfl a hold)
    · rcases List.mem_append.mp hb with hold' | hsame'
      · rw [List.mem_singleton.mp hsame, heid] at heq
        exact absurd heq.symm (hs.fresh _ le_rfl b hold')
      · rw [List.mem_singleton.mp hsame, List.mem_singleton.mp hsame']
  · intro f a ha b hb hfa hfb
    rcases List.mem_append.mp ha with hold | hsame
    · rcases List.mem_append.mp hb with hold' | hsame'
      · exact hs.fingerprints f a hold b hold' hfa hfb
      · rw [List.mem_singleton.mp hsame'] at hfb
        exact absurd (hematch f hfb ▸ hfa) (hnew a hold)
    · rcases List.mem_append.mp hb with hold' | hsame'
      · rw [List.mem_singleton.mp hsame] at hfa
        exact absurd (hematch f hfa ▸ hfb) (hnew b hold')
      · rw [List.mem_singleton.mp hsame, List.mem_singleton.mp hsame']

/-- The table is as good as one with the same evidence and no more ids generated. -/
theorem Table.of_eq {s s' : Store} (hs : Table env s) (hevidence : s'.evidence = s.evidence)
    (hgenerated : s.generated ≤ s'.generated) : Table env s' where
  fresh n hn := by
    rw [hevidence]
    exact hs.fresh n (le_trans hgenerated hn)
  ids := by
    rw [hevidence]
    exact hs.ids
  fingerprints := by
    rw [hevidence]
    exact hs.fingerprints

/-! ## What a call keeps -/

variable (env) in
/-- What is written names evidence of its account, and the table stays one. -/
structure Kept (s s' : Store) : Prop where
  placed : Placed env s s'
  table : Table env s → Table env s'

theorem Names.mono {s s' : Store} (h : ∀ row ∈ s.evidence, row ∈ s'.evidence)
    {accountId evidenceId : String} (hn : Names env s accountId evidenceId) :
    Names env s' accountId evidenceId := by
  obtain ⟨row, hrow, hid⟩ := hn
  obtain ⟨hmem, howner⟩ := List.mem_filter.mp hrow
  exact ⟨row, List.mem_filter.mpr ⟨h row hmem, howner⟩, hid⟩

theorem Placed.refl (s : Store) : Placed env s s :=
  ⟨fun _ h => h, fun _ _ h => .inl h, fun _ _ h => .inl h, fun _ h => .inl h⟩

theorem Placed.trans {s t v : Store} (h : Placed env s t) (h' : Placed env t v) :
    Placed env s v where
  evidence row hrow := h'.evidence row (h.evidence row hrow)
  accounts id r hr := by
    rcases h'.accounts id r hr with hr | hnames
    · exact (h.accounts id r hr).imp_right fun hnames e he => (hnames e he).mono h'.evidence
    · exact .inr hnames
  contacts id r hr := by
    rcases h'.contacts id r hr with hr | hnames
    · exact (h.contacts id r hr).imp_right fun hnames e he => (hnames e he).mono h'.evidence
    · exact .inr hnames
  signals row hrow := by
    rcases h'.signals row hrow with hrow | hnames
    · exact (h.signals row hrow).imp_right fun hnames e he => (hnames e he).mono h'.evidence
    · exact .inr hnames

theorem Kept.refl (s : Store) : Kept env s s := ⟨.refl s, id⟩

theorem Kept.trans {s t v : Store} (h : Kept env s t) (h' : Kept env t v) : Kept env s v :=
  ⟨h.placed.trans h'.placed, fun hs => h'.table (h.table hs)⟩

variable (env) in
/-- However the program ends, it keeps to the law; where it returns, it returns in `Q`. -/
def Reaches {A : Type} (s : Store) (m : Run A) (Q : A → Store → Prop) : Prop :=
  match exec m s with
  | (.ok a, s') => Kept env s s' ∧ Q a s'
  | (.error _, s') => Kept env s s'

theorem reaches_bind {A B : Type} {s : Store} {m : Run A} {f : A → Run B} {Q : A → Store → Prop}
    {Q' : B → Store → Prop} (hm : Reaches env s m Q)
    (hf : ∀ a s₁, Q a s₁ → Reaches env s₁ (f a) fun b s₂ => Kept env s₁ s₂ → Q' b s₂) :
    Reaches env s (m >>= f) Q' := by
  unfold Reaches at hm ⊢
  rw [exec_bind]
  generalize exec m s = r at hm ⊢
  obtain ⟨result, s₁⟩ := r
  cases result with
  | error e => exact hm
  | ok a =>
    have hrest := hf a s₁ hm.2
    unfold Reaches at hrest
    dsimp only
    generalize exec (f a) s₁ = r at hrest ⊢
    obtain ⟨result, s₂⟩ := r
    cases result with
    | error e => exact hm.1.trans hrest
    | ok b => exact ⟨hm.1.trans hrest.1, hrest.2 hrest.1⟩

theorem reaches_pure {A : Type} {s : Store} {a : A} {Q : A → Store → Prop} (h : Q a s) :
    Reaches env s (pure a) Q := ⟨.refl s, h⟩

theorem Reaches.mono {A : Type} {s : Store} {m : Run A} {Q Q' : A → Store → Prop}
    (h : Reaches env s m Q) (hQ : ∀ a s', Q a s' → Q' a s') : Reaches env s m Q' := by
  unfold Reaches at h ⊢
  generalize exec m s = r at h ⊢
  obtain ⟨result, s'⟩ := r
  cases result with
  | error e => exact h
  | ok a => exact ⟨h.1, hQ a s' h.2⟩

theorem Reaches.kept {A : Type} {s : Store} {m : Run A} {Q : A → Store → Prop}
    (h : Reaches env s m Q) : Kept env s (exec m s).2 := by
  unfold Reaches at h
  generalize exec m s = r at h ⊢
  obtain ⟨result, s'⟩ := r
  cases result with
  | error e => exact h
  | ok a => exact h.1

theorem find_of_saveAccounts {t : Accounts} {ctx : Context} {a : Account} {p : Accounts × Account}
    (h : t.save ctx a = .ok p) {id : String} {r : Row Account.Props} (hr : p.1.find id = some r) :
    t.find id = some r ∨ r.payload = a.state := by
  unfold Accounts.save at h
  split at h
  · cases h
  · split at h
    · cases h
    · obtain ⟨rows, hrows, rfl⟩ := of_map_eq_ok h
      unfold Accounts.write at hrows
      cases hl : a.loadedVersion with
      | none =>
        rw [hl] at hrows
        rw [Accounts.insert_ok hrows, Table.find_append_single] at hr
        rcases Option.or_eq_some_iff.mp hr with hr | ⟨-, hr⟩
        · exact .inl hr
        · split at hr
          · cases hr
            exact .inr rfl
          · cases hr
      | some expectedVersion =>
        rw [hl] at hrows
        obtain ⟨hfound, hrows⟩ := Accounts.update_ok hrows
        rw [hrows] at hr
        obtain ⟨r₀, hr₀⟩ := Option.isSome_iff_exists.mp hfound
        by_cases hne : id = a.state.id
        · rw [hne, Table.find_replace_self _ hr₀] at hr
          cases hr
          exact .inr rfl
        · rw [Table.find_replace_ne _ _ hne] at hr
          exact .inl hr

theorem find_of_saveContacts {t : Contacts} {ctx : Context} {a : Contact} {p : Contacts × Contact}
    (hl : a.loadedVersion = none) (h : t.save ctx a = .ok p) {id : String} {r : Row Contact.Props}
    (hr : p.1.find id = some r) : t.find id = some r ∨ r.payload = a.state := by
  unfold Contacts.save at h
  split at h
  · cases h
  · split at h
    · cases h
    · obtain ⟨rows, hrows, rfl⟩ := of_map_eq_ok h
      unfold Contacts.write Contacts.insert at hrows
      rw [hl] at hrows
      dsimp only at hrows
      split at hrows
      · cases hrows
      · split at hrows
        · cases hrows
        · cases hrows
          rw [Table.find_append_single] at hr
          rcases Option.or_eq_some_iff.mp hr with hr | ⟨-, hr⟩
          · exact .inl hr
          · split at hr
            · cases hr
              exact .inr rfl
            · cases hr

theorem saveAccount_reaches {a : Account} {s : Store}
    (h : ∀ e ∈ a.state.evidenceReferences, Names env s a.state.id e) :
    Reaches env s (env.saveAccount a) fun saved _ => saved.state = a.state := by
  unfold Reaches Env.saveAccount
  rw [exec_bind, exec_get]
  dsimp only
  cases hsave : s.accounts.save env.ctx a with
  | error e => exact .refl s
  | ok p =>
    refine ⟨⟨⟨fun _ h => h, fun id r hr => ?_, fun _ _ h => .inl h, fun _ h => .inl h⟩, ?_⟩,
      (Accounts.save_ok hsave).1⟩
    · refine (find_of_saveAccounts hsave hr).imp_right fun hpayload => ?_
      rw [hpayload]
      exact h
    · exact fun hs => hs.of_eq rfl le_rfl

theorem saveContact_reaches {a : Contact} (hl : a.loadedVersion = none) {s : Store}
    (h : ∀ e ∈ a.state.evidenceReferences, Names env s a.state.accountId e) :
    Reaches env s (env.saveContact a) fun _ _ => True := by
  unfold Reaches Env.saveContact
  rw [exec_bind, exec_get]
  dsimp only
  cases hsave : s.contacts.save env.ctx a with
  | error e => exact .refl s
  | ok p =>
    refine ⟨⟨⟨fun _ h => h, fun _ _ h => .inl h, fun id r hr => ?_, fun _ h => .inl h⟩, ?_⟩, trivial⟩
    · refine (find_of_saveContacts hl hsave hr).imp_right fun hpayload => ?_
      rw [hpayload]
      exact h
    · exact fun hs => hs.of_eq rfl le_rfl

/-- A store that differs from `s` in new evidence only. -/
theorem Placed.of_evidence {s s' : Store} (haccounts : s'.accounts = s.accounts)
    (hcontacts : s'.contacts = s.contacts) (hsignals : s'.signals = s.signals)
    (hevidence : ∀ row ∈ s.evidence, row ∈ s'.evidence) : Placed env s s' := by
  refine ⟨hevidence, fun id r hr => .inl ?_, fun id r hr => .inl ?_, fun row hrow => .inl ?_⟩
  · rwa [haccounts] at hr
  · rwa [hcontacts] at hr
  · rwa [hsignals] at hrow

variable (env) in
/-- Evidence and signals are added, and the table stays one. -/
structure Rest (s s' : Store) : Prop where
  accounts : s'.accounts = s.accounts
  contacts : s'.contacts = s.contacts
  evidence : ∀ row ∈ s.evidence, row ∈ s'.evidence
  signals : ∀ row ∈ s.signals, row ∈ s'.signals
  table : Table env s → Table env s'

theorem Rest.refl (s : Store) : Rest env s s := ⟨rfl, rfl, fun _ h => h, fun _ h => h, id⟩

theorem Rest.trans (s t v : Store) (h : Rest env s t) (h' : Rest env t v) : Rest env s v :=
  ⟨h'.accounts.trans h.accounts, h'.contacts.trans h.contacts,
    fun row hrow => h'.evidence row (h.evidence row hrow),
    fun row hrow => h'.signals row (h.signals row hrow), fun hs => h'.table (h.table hs)⟩

theorem Rest.kept {s s' : Store} (h : Rest env s s') (hsignals : s'.signals = s.signals) :
    Kept env s s' := ⟨.of_evidence h.accounts h.contacts hsignals h.evidence, h.table⟩

theorem newContact_state {pass : Pass} {account : Account} {candidate : ContactCandidate}
    {evidenceId : String} {contact : Contact}
    (h : env.newContact pass account candidate evidenceId = .ok contact) :
    contact.state.evidenceReferences = [evidenceId, evidenceId] ∧
      contact.state.accountId = account.state.id := by
  unfold Env.newContact at h
  obtain ⟨enriched, henrich, h⟩ := of_bind_eq_ok h
  obtain ⟨-, -, henrich⟩ := of_bind_eq_ok henrich
  cases henrich
  split at h
  · obtain ⟨-, -, h⟩ := of_bind_eq_ok h
    cases h
    exact ⟨rfl, rfl⟩
  · cases h
    exact ⟨rfl, rfl⟩

variable (hid : Function.Injective env.generateEvidenceId)

section
include hid

theorem saveEvidence_rest (now : Date) (claim : Claim) (accountId : String)
    (missionId : Option String) :
    Moves (Rest env) (env.saveEvidence now claim accountId missionId) := by
  intro s
  have hnext : Rest env s (next s) :=
    ⟨rfl, rfl, fun _ h => h, fun _ h => h, fun hs => hs.of_eq rfl (Nat.le_succ _)⟩
  rw [exec_saveEvidence]
  cases env.evidenceError (newEvidence env s.generated now claim accountId missionId) with
  | some message => exact hnext
  | none =>
    dsimp only
    by_cases htaken : Env.evidenceTaken s
        (newEvidence env s.generated now claim accountId missionId) = true
    · rw [if_pos htaken]
      exact hnext
    · rw [if_neg htaken]
      refine ⟨rfl, rfl, fun _ h => List.mem_append_left _ h, fun _ h => h, fun hs => ?_⟩
      refine hs.insert hid fun row hrow hmatch => htaken ?_
      exact (evidenceTaken_iff hs now claim accountId missionId).mpr ⟨row, hrow, hmatch⟩

theorem saveEvidence_reaches (now : Date) (claim : Claim) (accountId : String)
    (missionId : Option String) (s : Store) :
    Reaches env s (env.saveEvidence now claim accountId missionId) fun e s' =>
      Names env s' accountId e.evidenceId := by
  have hkept := (saveEvidence_rest hid now claim accountId missionId s).kept
    (SignalIdentity.saveEvidence_signals now claim missionId s)
  unfold Reaches
  rw [exec_saveEvidence] at hkept ⊢
  cases herror : env.evidenceError
      (newEvidence env s.generated now claim accountId missionId) with
  | some message =>
    rw [herror] at hkept
    exact hkept
  | none =>
    rw [herror] at hkept
    dsimp only at hkept ⊢
    by_cases htaken : Env.evidenceTaken s
        (newEvidence env s.generated now claim accountId missionId) = true
    · rw [if_pos htaken] at hkept ⊢
      exact hkept
    · rw [if_neg htaken] at hkept ⊢
      refine ⟨hkept, _, List.mem_filter.mpr
        ⟨List.mem_append_right _ List.mem_cons_self, ?_⟩, rfl⟩
      simp [newEvidence]

theorem saveClaims_reaches (pass : Pass) (accountId : String) (claims : List Claim) (s : Store) :
    Reaches env s (env.saveClaims pass accountId claims) fun ids s' =>
      ∀ e ∈ ids, Names env s' accountId e := by
  induction claims generalizing s with
  | nil => exact reaches_pure fun _ h => absurd h List.not_mem_nil
  | cons claim claims ih =>
    refine reaches_bind (saveEvidence_reaches hid _ _ _ _ s) fun evidence s₁ hnamed => ?_
    exact reaches_bind (ih s₁) fun ids s₂ hids => reaches_pure fun _ hkept =>
      List.forall_mem_cons.mpr ⟨hnamed.mono hkept.placed.evidence, hids⟩

/-- **What an account names is its own.** -/
theorem processAccount_reaches (pass : Pass) (candidate : AccountCandidate) (s : Store) :
    Reaches env s (env.processAccount pass candidate) fun _ _ => True := by
  have hnew : (env.newAccount pass candidate).state.evidenceReferences = [] := by
    unfold Env.newAccount
    split <;> rfl
  have hempty : ∀ e ∈ (env.newAccount pass candidate).state.evidenceReferences,
      Names env s (env.newAccount pass candidate).state.id e := by
    rw [hnew]
    exact fun _ h => absurd h List.not_mem_nil
  refine reaches_bind (saveAccount_reaches hempty) fun account s₁ haccount => ?_
  unfold Env.enrichAccount
  cases pass.duplicateAccount candidate with
  | some accountId => exact reaches_pure fun _ => trivial
  | none =>
    refine reaches_bind (saveClaims_reaches hid _ _ _ s₁) fun ids s₂ hids => ?_
    have hnamed : ∀ e ∈ (account.enrich ids pass.now).state.evidenceReferences,
        Names env s₂ (account.enrich ids pass.now).state.id e := by
      show ∀ e ∈ account.state.evidenceReferences ++ ids, Names env s₂ account.state.id e
      rw [haccount, hnew, newAccount_id, List.nil_append]
      exact hids
    exact (saveAccount_reaches hnamed).mono fun _ _ _ _ _ => trivial

theorem processContact_reaches (pass : Pass) (account : Account) (candidate : ContactCandidate)
    (s : Store) : Reaches env s (env.processContact pass account candidate) fun _ _ => True := by
  refine reaches_bind (saveEvidence_reaches hid _ _ _ _ s) fun evidence s₁ hnamed => ?_
  cases hcontact : env.newContact pass account candidate evidence.evidenceId with
  | error message => exact Kept.refl s₁
  | ok contact =>
    obtain ⟨hreferences, haccount⟩ := newContact_state hcontact
    refine (saveContact_reaches (Env.newContact_loadedVersion hcontact) ?_).mono
      fun _ _ _ _ => trivial
    rw [hreferences, haccount]
    simp [hnamed]

/-- **What contacts name is evidence of their account.** -/
theorem processContacts_reaches (pass : Pass) (account : Account)
    (candidates : List ContactCandidate) (s : Store) :
    Reaches env s (env.processContacts pass account candidates) fun _ _ => True := by
  induction candidates generalizing s with
  | nil => exact reaches_pure trivial
  | cons candidate candidates ih =>
    unfold Env.processContacts
    split
    · exact ih s
    · refine reaches_bind (processContact_reaches hid pass account candidate s) fun _ s₁ _ => ?_
      exact reaches_bind (ih s₁) fun _ _ _ => reaches_pure fun _ _ => trivial

end

/-! ## Inserted claims -/

variable (env) in
/-- The rows of the claims are added to the table, in their order. -/
structure Added (claims : List Claim) (s s' : Store) : Prop where
  table : Table env s'
  rows : ∃ rows, s'.evidence = s.evidence ++ rows ∧
    rows.map (·.evidenceFingerprint) = claims.map (fingerprint env) ∧
      ∀ row ∈ rows, row.tenantId = env.ctx.tenantId ∧ row.workspaceId = env.ctx.workspaceId

variable (env) in
/-- The program adds the claims, and fails for a row that is there only where one is. -/
def Inserts {A : Type} (claims : List Claim) (m : Run A) : Prop :=
  ∀ s, Table env s →
    match exec m s with
    | (.ok _, s') => New env s claims ∧ Added env claims s s'
    | (.error e, _) => duplicateEvidence e = true → ¬New env s claims

theorem New.left {s : Store} {claims claims' : List Claim} (h : New env s (claims ++ claims')) :
    New env s claims := by
  refine ⟨?_, fun claim hclaim => h.2 claim (List.mem_append_left _ hclaim)⟩
  have hnodup := h.1
  rw [List.map_append, List.nodup_append'] at hnodup
  exact hnodup.1

/-- After the first claims have been added, the others are new where all of them were. -/
theorem new_append_iff {claims claims' : List Claim} {s s' : Store}
    (h : Added env claims s s') :
    New env s (claims ++ claims') ↔ New env s claims ∧ New env s' claims' := by
  obtain ⟨rows, hrows, hfingerprints, howner⟩ := h.rows
  have hmeets : ∀ claim, (∀ row ∈ rows, ¬Matches env (fingerprint env claim) row) ↔
      fingerprint env claim ∉ claims.map (fingerprint env) := by
    intro claim
    rw [← hfingerprints]
    constructor
    · intro hnone hmem
      obtain ⟨row, hrow, heq⟩ := List.mem_map.mp hmem
      exact hnone row hrow ⟨(howner row hrow).1, (howner row hrow).2, heq⟩
    · rintro hmem row hrow ⟨-, -, heq⟩
      exact hmem (List.mem_map.mpr ⟨row, hrow, heq⟩)
  have hrest : (∀ claim ∈ claims', ∀ row ∈ s'.evidence, ¬Matches env (fingerprint env claim) row) ↔
      (∀ claim ∈ claims', ∀ row ∈ s.evidence, ¬Matches env (fingerprint env claim) row) ∧
        ∀ claim ∈ claims', fingerprint env claim ∉ claims.map (fingerprint env) := by
    rw [hrows, ← forall₂_and]
    refine forall₂_congr fun claim _ => ?_
    rw [List.forall_mem_append, hmeets claim]
  have hdisjoint : (claims.map (fingerprint env)).Disjoint (claims'.map (fingerprint env)) ↔
      ∀ claim ∈ claims', fingerprint env claim ∉ claims.map (fingerprint env) := by
    rw [List.disjoint_comm, List.disjoint_left, List.forall_mem_map]
  unfold New
  rw [List.map_append, List.nodup_append', hdisjoint, hrest, List.forall_mem_append]
  tauto

theorem Added.refl {s s' : Store} (hs : Table env s') (h : s'.evidence = s.evidence) :
    Added env [] s s' :=
  ⟨hs, [], h.trans (List.append_nil _).symm, rfl, fun _ h => absurd h List.not_mem_nil⟩

theorem Added.trans {claims claims' : List Claim} {s t v : Store} (h : Added env claims s t)
    (h' : Added env claims' t v) : Added env (claims ++ claims') s v := by
  obtain ⟨rows, hrows, hfingerprints, howner⟩ := h.rows
  obtain ⟨rows', hrows', hfingerprints', howner'⟩ := h'.rows
  refine ⟨h'.table, rows ++ rows', ?_, ?_, List.forall_mem_append.mpr ⟨howner, howner'⟩⟩
  · rw [hrows', hrows, List.append_assoc]
  · rw [List.map_append, List.map_append, hfingerprints, hfingerprints']

/-- **What two programs add in a row.** -/
theorem inserts_bind {A B : Type} {claims claims' : List Claim} {m : Run A} {f : A → Run B}
    (hm : Inserts env claims m) (hf : ∀ a, Inserts env claims' (f a)) :
    Inserts env (claims ++ claims') (m >>= f) := by
  intro s hs
  have hfirst := hm s hs
  rw [exec_bind]
  generalize exec m s = r at hfirst ⊢
  obtain ⟨result, s₁⟩ := r
  cases result with
  | error e => exact fun he hnew => hfirst he hnew.left
  | ok a =>
    obtain ⟨hnew, hadded⟩ := hfirst
    have hrest := hf a s₁ hadded.table
    dsimp only
    generalize exec (f a) s₁ = r at hrest ⊢
    obtain ⟨result, s₂⟩ := r
    cases result with
    | error e => exact fun he hall => hrest he ((new_append_iff hadded).mp hall).2
    | ok b => exact ⟨(new_append_iff hadded).mpr ⟨hnew, hrest.1⟩, hadded.trans hrest.2⟩

theorem inserts_then {A B : Type} {claims : List Claim} {m : Run A} {f : A → Run B}
    (hm : Inserts env claims m) (hf : ∀ a, Inserts env [] (f a)) : Inserts env claims (m >>= f) :=
  List.append_nil claims ▸ inserts_bind hm hf

theorem new_nil (s : Store) : New env s [] :=
  ⟨List.nodup_nil, fun _ h => absurd h List.not_mem_nil⟩

theorem inserts_pure {A : Type} (a : A) : Inserts env [] (pure a) :=
  fun s hs => ⟨new_nil s, .refl hs rfl⟩

theorem inserts_throw {A : Type} {e : RunError} (he : duplicateEvidence e = false) :
    Inserts env [] (throw e : Run A) := by
  intro s _ hduplicate
  rw [he] at hduplicate
  cases hduplicate

theorem saveAccount_inserts (a : Account) : Inserts env [] (env.saveAccount a) := by
  intro s hs
  unfold Env.saveAccount
  rw [exec_bind, exec_get]
  dsimp only
  cases s.accounts.save env.ctx a with
  | error e => exact fun he => nomatch he
  | ok p => exact ⟨new_nil s, .refl (hs.of_eq rfl le_rfl) rfl⟩

theorem saveContact_inserts (a : Contact) : Inserts env [] (env.saveContact a) := by
  intro s hs
  unfold Env.saveContact
  rw [exec_bind, exec_get]
  dsimp only
  cases s.contacts.save env.ctx a with
  | error e => exact fun he => nomatch he
  | ok p => exact ⟨new_nil s, .refl (hs.of_eq rfl le_rfl) rfl⟩

section
include hid

theorem saveEvidence_inserts (now : Date) (claim : Claim) (accountId : String)
    (missionId : Option String) :
    Inserts env [claim] (env.saveEvidence now claim accountId missionId) := by
  intro s hs
  have hnew : New env s [claim] ↔ ¬∃ row ∈ s.evidence, Matches env (fingerprint env claim) row := by
    simp [New]
  rw [exec_saveEvidence]
  cases env.evidenceError (newEvidence env s.generated now claim accountId missionId) with
  | some message => exact fun he => nomatch he
  | none =>
    dsimp only
    by_cases htaken : Env.evidenceTaken s
        (newEvidence env s.generated now claim accountId missionId) = true
    · rw [if_pos htaken]
      exact fun _ h => hnew.mp h ((evidenceTaken_iff hs now claim accountId missionId).mp htaken)
    · rw [if_neg htaken]
      have hfree := mt (evidenceTaken_iff hs now claim accountId missionId).mpr htaken
      refine ⟨hnew.mpr hfree, hs.insert hid fun row hrow hmatch => hfree ⟨row, hrow, hmatch⟩, ?_⟩
      exact ⟨_, rfl, rfl, List.forall_mem_singleton.mpr ⟨rfl, rfl⟩⟩

theorem saveClaims_inserts (pass : Pass) (accountId : String) (claims : List Claim) :
    Inserts env claims (env.saveClaims pass accountId claims) := by
  induction claims with
  | nil => exact inserts_pure _
  | cons claim claims ih =>
    exact inserts_bind (saveEvidence_inserts hid _ _ _ _) fun _ =>
      inserts_then ih fun _ => inserts_pure _

theorem processAccount_inserts (pass : Pass) (candidate : AccountCandidate) :
    Inserts env (accountClaims pass candidate) (env.processAccount pass candidate) := by
  refine inserts_bind (saveAccount_inserts _) fun account => ?_
  unfold Env.enrichAccount
  cases pass.duplicateAccount candidate with
  | some accountId => exact inserts_pure _
  | none => exact inserts_then (saveClaims_inserts hid _ _ _) fun _ => saveAccount_inserts _

theorem processContact_inserts (pass : Pass) (account : Account) (candidate : ContactCandidate) :
    Inserts env [contactClaim pass candidate] (env.processContact pass account candidate) := by
  refine inserts_then (saveEvidence_inserts hid _ _ _ _) fun evidence => ?_
  cases env.newContact pass account candidate evidence.evidenceId with
  | error message => exact inserts_throw rfl
  | ok contact => exact saveContact_inserts contact

theorem processContacts_inserts (pass : Pass) (account : Account)
    (candidates : List ContactCandidate) :
    Inserts env (contactClaims pass candidates) (env.processContacts pass account candidates) := by
  induction candidates with
  | nil => exact inserts_pure _
  | cons candidate candidates ih =>
    unfold Env.processContacts contactClaims
    cases hduplicate : pass.duplicateContact candidate with
    | true =>
      rw [if_pos rfl, List.filter_cons_of_neg (by rw [hduplicate]; decide)]
      exact ih
    | false =>
      rw [if_neg Bool.false_ne_true, List.filter_cons_of_pos (by rw [hduplicate]; rfl),
        List.map_cons]
      exact inserts_bind (processContact_inserts hid _ _ _) fun _ =>
        inserts_then ih fun _ => inserts_pure _

end

/-! ## Signals -/

variable {pass : Pass} {accountId : String}

variable (env) in
/-- The evidence of a signal, and the store with it. -/
structure Found (accountId fingerprint : String) (s s' : Store) (e : Evidence) : Prop where
  same : Matches env fingerprint e
  mem : e ∈ s'.evidence
  /-- A row that was not there is the account's own. -/
  added : ∀ row ∈ s'.evidence, row ∈ s.evidence ∨ row.accountId = accountId

variable (pass accountId) in
theorem signalEvidence_found (claim : Claim) {s : Store} (hs : Table env s) :
    match exec (env.signalEvidence pass accountId claim) s with
    | (.ok e, s') => Found env accountId (fingerprint env claim) s s' e
    | (.error e, _) => duplicateEvidence e = false := by
  unfold Env.signalEvidence
  rw [exec_bind, exec_get]
  dsimp only
  generalize hfind : List.find? _ s.evidence = found
  cases found with
  | some e =>
    have hmatch := List.find?_some hfind
    simp only [Bool.and_eq_true, decide_eq_true_eq, and_assoc] at hmatch
    exact ⟨hmatch, List.mem_of_find?_eq_some hfind, fun _ h => .inl h⟩
  | none =>
    have hfree : ¬∃ row ∈ s.evidence, Matches env (fingerprint env claim) row := by
      rintro ⟨row, hrow, hmatch⟩
      have hnone := List.find?_eq_none.mp hfind row hrow
      simp only [Bool.and_eq_true, decide_eq_true_eq, and_assoc] at hnone
      exact hnone hmatch
    have htaken := mt (evidenceTaken_iff hs pass.now claim accountId (some env.missionId)).mp hfree
    dsimp only
    rw [exec_saveEvidence]
    cases env.evidenceError
        (newEvidence env s.generated pass.now claim accountId (some env.missionId)) with
    | some message => rfl
    | none =>
      dsimp only
      rw [if_neg htaken]
      refine ⟨⟨rfl, rfl, rfl⟩, List.mem_append_right _ List.mem_cons_self, fun row hrow => ?_⟩
      exact (List.mem_append.mp hrow).imp_right fun h => by
        rw [List.mem_singleton.mp h]
        rfl

variable (env) in
theorem saveSignal_moves (signal : Signal) :
    Moves (fun s s' => s' = { s with signals := s'.signals }) (env.saveSignal signal) := by
  refine moves_get_bind fun s => ?_
  split
  · rfl
  · split
    · rfl
    · split <;> rfl

theorem saveSignal_rest (signal : Signal) : Moves (Rest env) (env.saveSignal signal) := by
  refine moves_get_bind fun s => ?_
  split
  · exact .refl s
  · split
    · exact .refl s
    · split
      · exact .refl s
      · exact ⟨rfl, rfl, fun _ h => h, fun _ h => List.mem_append_left _ h,
          fun hs => hs.of_eq rfl le_rfl⟩

theorem saveSignal_error {signal : Signal} {s s' : Store} {e : RunError}
    (h : exec (env.saveSignal signal) s = (.error e, s')) : duplicateEvidence e = false := by
  unfold Env.saveSignal at h
  rw [exec_bind, exec_get] at h
  dsimp only at h
  split at h
  · cases h
  · split at h
    · cases h
      rfl
    · split at h
      · cases h
        rfl
      · cases h

section
include hid

variable (pass accountId) in
theorem signalEvidence_rest (claim : Claim) :
    Moves (Rest env) (env.signalEvidence pass accountId claim) := by
  refine moves_get_bind fun s => ?_
  dsimp only
  split
  · exact .refl s
  · exact saveEvidence_rest hid _ _ _ _ s

variable (pass accountId) in
theorem detectSignal_rest (c : BuyingSignal) : Moves (Rest env) (detectSignal env pass accountId c) :=
  (signalEvidence_rest hid pass accountId _).bind Rest.trans fun _ => saveSignal_rest _

end

variable (pass accountId) in
/-- **A signal is not refused for its evidence, and is inserted with the row that it finds.** -/
theorem detectSignal_found (c : BuyingSignal) {s : Store} (hs : Table env s) :
    match exec (detectSignal env pass accountId c) s with
    | (.ok _, s') => ∃ e, Found env accountId (fingerprint env (signalClaim env c)) s s' e ∧
        s'.signals = insertMissing key s.signals (env.newSignal accountId c e.evidenceId)
    | (.error e, _) => duplicateEvidence e = false := by
  have hfound := signalEvidence_found pass accountId (signalClaim env c) hs
  have hsignals := SignalIdentity.signalEvidence_signals env pass accountId (signalClaim env c) s
  show match exec (env.signalEvidence pass accountId (signalClaim env c) >>= fun e =>
      env.saveSignal (env.newSignal accountId c e.evidenceId)) s with
    | (.ok _, s') => _
    | (.error e, _) => _
  rw [exec_bind]
  generalize exec (env.signalEvidence pass accountId (signalClaim env c)) s = r at hfound hsignals ⊢
  obtain ⟨result, s₁⟩ := r
  cases result with
  | error e => exact hfound
  | ok e =>
    dsimp only at hfound hsignals ⊢
    have hmoves := saveSignal_moves env (env.newSignal accountId c e.evidenceId) s₁
    cases hsave : exec (env.saveSignal (env.newSignal accountId c e.evidenceId)) s₁ with
    | mk result s₂ =>
      cases result with
      | error e' => exact saveSignal_error hsave
      | ok _ =>
        have hevidence : s₂.evidence = s₁.evidence := by
          rw [hsave] at hmoves
          have hsame : s₂ = { s₁ with signals := s₂.signals } := hmoves
          rw [hsame]
        refine ⟨e, ⟨hfound.same, hevidence ▸ hfound.mem, hevidence ▸ hfound.added⟩, ?_⟩
        rw [SignalIdentity.saveSignal_ok hsave, hsignals]

/-! ## The signals of an account -/

variable (env) in
/-- The identity of a signal does not depend on its evidence. -/
def Told : Prop :=
  ∀ accountId c e, key (env.newSignal accountId c e) = key (content env accountId c)

/-- What the first signal owes, and what the others owe after it. -/
theorem ownRows_cons_iff {c : BuyingSignal} (cs : List BuyingSignal) {s s₁ : Store}
    (hevidence : ∀ row ∈ s.evidence, row ∈ s₁.evidence)
    (hadded : ∀ row ∈ s₁.evidence, row ∈ s.evidence ∨ row.accountId = accountId)
    {signal : Signal} (hkey : key signal = key (content env accountId c))
    (hsignals : s₁.signals = insertMissing key s.signals signal) :
    OwnRows env accountId s (c :: cs) ↔
      ((∀ row ∈ s.signals, key row ≠ key (content env accountId c)) →
        ∀ row ∈ s.evidence, Matches env (fingerprint env (signalClaim env c)) row →
          row.accountId = accountId) ∧ OwnRows env accountId s₁ cs := by
  have hfree : ∀ d : BuyingSignal, (∀ row ∈ s₁.signals, key row ≠ key (content env accountId d)) ↔
      (∀ row ∈ s.signals, key row ≠ key (content env accountId d)) ∧
        key (content env accountId c) ≠ key (content env accountId d) := by
    intro d
    rw [hsignals, insertMissing]
    by_cases hany : s.signals.any (key · = key signal) = true
    · rw [if_pos hany]
      obtain ⟨row, hrow, heq⟩ := any_key_iff.mp hany
      refine ⟨fun h => ⟨h, ?_⟩, And.left⟩
      rw [← hkey, ← heq]
      exact h row hrow
    · rw [if_neg hany, List.forall_mem_append, List.forall_mem_singleton, hkey]
  constructor
  · intro h
    refine ⟨fun hnew => h [] c cs rfl hnew fun _ hd => absurd hd List.not_mem_nil, ?_⟩
    rintro done d rest rfl hnew hdone row hrow hmatch
    rw [hfree] at hnew
    rcases hadded row hrow with hold | hown
    · exact h (c :: done) d rest rfl hnew.1 (List.forall_mem_cons.mpr ⟨hnew.2, hdone⟩) row hold hmatch
    · exact hown
  · rintro ⟨hhead, hrest⟩ done d rest hsplit hnew hdone row hrow hmatch
    cases done with
    | nil =>
      cases hsplit
      exact hhead hnew row hrow hmatch
    | cons x done =>
      cases hsplit
      obtain ⟨hx, hdone⟩ := List.forall_mem_cons.mp hdone
      exact hrest done d rest rfl ((hfree d).mpr ⟨hnew, hx⟩) hdone row (hevidence row hrow) hmatch

theorem mem_insertMissing {rows : List Signal} {signal row : Signal} :
    row ∈ insertMissing key rows signal ↔
      row ∈ rows ∨ row = signal ∧ ∀ other ∈ rows, key other ≠ key signal := by
  unfold insertMissing
  by_cases hany : rows.any (key · = key signal) = true
  · rw [if_pos hany]
    obtain ⟨other, hother, heq⟩ := any_key_iff.mp hany
    refine ⟨.inl, fun h => h.resolve_right ?_⟩
    exact fun hnew => hnew.2 other hother heq
  · rw [if_neg hany, List.mem_append, List.mem_singleton]
    refine or_congr_right ⟨fun h => ⟨h, fun other hother heq => ?_⟩, And.left⟩
    exact hany (any_key_iff.mpr ⟨other, hother, heq⟩)

/-- The first of the signals is placed where the row that it finds is the account's own. -/
theorem placed_signal {c : BuyingSignal} {s s₁ : Store} {e : Evidence} (hrest : Rest env s s₁)
    (hfound : Found env accountId (fingerprint env (signalClaim env c)) s s₁ e)
    (hkey : key (env.newSignal accountId c e.evidenceId) = key (content env accountId c))
    (hsignals : s₁.signals = insertMissing key s.signals (env.newSignal accountId c e.evidenceId))
    (hown : (∀ row ∈ s.signals, key row ≠ key (content env accountId c)) →
      ∀ row ∈ s.evidence, Matches env (fingerprint env (signalClaim env c)) row →
        row.accountId = accountId) : Placed env s s₁ := by
  refine ⟨hrest.evidence, fun id r hr => .inl ?_, fun id r hr => .inl ?_, fun row hrow => ?_⟩
  · rwa [hrest.accounts] at hr
  · rwa [hrest.contacts] at hr
  · rw [hsignals] at hrow
    refine (mem_insertMissing.mp hrow).imp_right ?_
    rintro ⟨rfl, hnew⟩
    rw [hkey] at hnew
    have howner : e.accountId = accountId :=
      (hfound.added e hfound.mem).elim (fun hold => hown hnew e hold hfound.same) id
    rintro evidenceId hmem
    obtain rfl := List.mem_singleton.mp hmem
    refine ⟨e, List.mem_filter.mpr ⟨hfound.mem, ?_⟩, rfl⟩
    simp [hfound.same.1, hfound.same.2.1, howner, Env.newSignal]

/-- Where it is placed in the end, the row that it finds is the account's own. -/
theorem own_of_placed {c : BuyingSignal} {s s₁ s' : Store} {e : Evidence} (hrest : Rest env s s₁)
    (hrest' : Rest env s₁ s') (hs' : Table env s')
    (hfound : Found env accountId (fingerprint env (signalClaim env c)) s s₁ e)
    (hkey : key (env.newSignal accountId c e.evidenceId) = key (content env accountId c))
    (hsignals : s₁.signals = insertMissing key s.signals (env.newSignal accountId c e.evidenceId))
    (hplaced : Placed env s s')
    (hnew : ∀ row ∈ s.signals, key row ≠ key (content env accountId c)) :
    ∀ row ∈ s.evidence, Matches env (fingerprint env (signalClaim env c)) row →
      row.accountId = accountId := by
  intro row hrow hmatch
  have hinserted : env.newSignal accountId c e.evidenceId ∈ s'.signals := by
    refine hrest'.signals _ ?_
    rw [hsignals]
    exact mem_insertMissing.mpr (.inr ⟨rfl, hkey ▸ hnew⟩)
  rcases hplaced.signals _ hinserted with hold | hnames
  · exact absurd hkey (hnew _ hold)
  · obtain ⟨owned, howned, hsame⟩ := hnames e.evidenceId List.mem_cons_self
    obtain ⟨hmem, howner⟩ := List.mem_filter.mp howned
    have hmem' := hrest'.evidence e hfound.mem
    rw [hs'.ids owned hmem e hmem' hsame] at howner
    rw [hs'.fingerprints _ row (hrest'.evidence row (hrest.evidence row hrow)) e hmem' hmatch
      hfound.same]
    simp only [Bool.and_eq_true, decide_eq_true_eq] at howner
    exact howner.2

section
include hid

variable (pass accountId) in
theorem saveSignals_rest (cs : List BuyingSignal) :
    Moves (Rest env) (env.saveSignals pass accountId cs) := by
  induction cs with
  | nil => exact moves_pure Rest.refl _
  | cons c cs ih =>
    rw [SignalIdentity.saveSignals_cons]
    exact (detectSignal_rest hid pass accountId c).bind Rest.trans fun _ => ih

variable (pass accountId) in
/-- **What the signals name is evidence of their account iff the rows that they find are.** -/
theorem saveSignals_iff (htold : Told env) (cs : List BuyingSignal) {s : Store}
    (hs : Table env s) :
    match exec (env.saveSignals pass accountId cs) s with
    | (.ok _, s') => Placed env s s' ↔ OwnRows env accountId s cs
    | (.error e, s') =>
      duplicateEvidence e = false ∧ (OwnRows env accountId s cs → Placed env s s') := by
  induction cs generalizing s with
  | nil =>
    refine iff_of_true (.refl s) fun done c rest h => ?_
    cases done with
    | nil => cases h
    | cons d done => cases h
  | cons c cs ih =>
    rw [SignalIdentity.saveSignals_cons, exec_bind]
    have hfound := detectSignal_found pass accountId c hs
    have hrest := detectSignal_rest hid pass accountId c s
    cases hstep : exec (detectSignal env pass accountId c) s with
    | mk result s₁ =>
      rw [hstep] at hfound hrest
      cases result with
      | error e =>
        refine ⟨hfound, fun _ => .of_evidence hrest.accounts hrest.contacts ?_ hrest.evidence⟩
        exact SignalIdentity.detectSignal_error hstep
      | ok _ =>
        obtain ⟨e, hfound, hsignals⟩ := hfound
        have hkey := htold accountId c e.evidenceId
        have hcons := ownRows_cons_iff cs hrest.evidence hfound.added hkey hsignals
        have hfirst := placed_signal hrest hfound hkey hsignals
        have hloop := ih (hrest.table hs)
        have hrest' := saveSignals_rest hid pass accountId cs s₁
        dsimp only
        generalize exec (env.saveSignals pass accountId cs) s₁ = r at hloop hrest' ⊢
        obtain ⟨result, s'⟩ := r
        cases result with
        | error e' =>
          refine ⟨hloop.1, fun hown => ?_⟩
          exact (hfirst (hcons.mp hown).1).trans (hloop.2 (hcons.mp hown).2)
        | ok _ =>
          rw [hcons]
          refine ⟨fun hplaced => ⟨?_, hloop.mp ?_⟩, fun hown => (hfirst hown.1).trans (hloop.mpr hown.2)⟩
          · exact own_of_placed hrest hrest' (hrest'.table (hrest.table hs)) hfound hkey hsignals
              hplaced
          · refine ⟨hrest'.evidence, fun id r hr => .inl ?_, fun id r hr => .inl ?_, fun row hrow => ?_⟩
            · exact hrest'.accounts ▸ hr
            · exact hrest'.contacts ▸ hr
            · exact (hplaced.signals row hrow).imp_left (hrest.signals row)

end

/-! ## Calls one by one -/

variable (env) in
/-- Where the call returns it is placed iff it is clear; where it fails for a row that is there it
was not clear. -/
def Decided (s : Store) (c : Call) : Prop :=
  Table env (step env s c).1 ∧
    match exec (c.program env) s with
    | (.ok _, s') => Placed env s s' ↔ Clear env s c
    | (.error e, s') =>
      (duplicateEvidence e = true → ¬Clear env s c) ∧ (Clear env s c → Placed env s s')

theorem decided_of_inserts {c : Call} {claims : List Claim} {s : Store} (hs : Table env s)
    (hclear : Clear env s c ↔ New env s claims) (hkept : Kept env s (exec (c.program env) s).2)
    (hinserts : Inserts env claims (c.program env)) : Decided env s c := by
  refine ⟨hkept.table hs, ?_⟩
  have hends := hinserts s hs
  rw [hclear]
  generalize exec (c.program env) s = r at hkept hends ⊢
  obtain ⟨result, s'⟩ := r
  cases result with
  | error e => exact ⟨hends, fun _ => hkept.placed⟩
  | ok _ => exact iff_of_true hkept.placed hends.1

theorem exec_discard {A : Type} (m : Run A) (s : Store) :
    exec (do
      let _ ← m
      pure () : Run Unit) s = ((exec m s).1.map fun _ => (), (exec m s).2) := by
  rw [exec_bind]
  generalize exec m s = r
  obtain ⟨result, s'⟩ := r
  cases result <;> rfl

theorem owned_iff_of_decided {s : Store} {c : Call} (h : Decided env s c) :
    (Clear env s c → Owned env s c) ∧ (Unstopped env s c → (Owned env s c ↔ Clear env s c)) := by
  obtain ⟨-, h⟩ := h
  unfold Owned Unstopped step
  dsimp only
  generalize exec (c.program env) s = r at h ⊢
  obtain ⟨result, s'⟩ := r
  cases result with
  | error e =>
    have hclear : Clear env s c → duplicateEvidence e = false := fun hclear =>
      Bool.eq_false_iff.mpr fun he => h.1 he hclear
    refine ⟨fun hc => ⟨?_, h.2 hc⟩, fun hstop => ?_⟩
    · rintro _ ⟨⟩
      exact hclear hc
    · have hduplicate := hstop e rfl
      refine iff_of_false (fun howned => ?_) (h.1 hduplicate)
      rw [howned.1 e rfl] at hduplicate
      cases hduplicate
  | ok _ =>
    have hreturned : ∀ e, (Except.ok () : Except RunError Unit) = .error e →
        duplicateEvidence e = false := by
      rintro _ ⟨⟩
    exact ⟨fun hc => ⟨hreturned, h.mpr hc⟩,
      fun _ => ⟨fun hplaced => h.mp hplaced.2, fun hc => ⟨hreturned, h.mpr hc⟩⟩⟩

section
include hid

theorem decided (htold : Told env) {s : Store} (hs : Table env s) (c : Call) :
    Decided env s c := by
  cases c with
  | account pass candidate =>
    refine decided_of_inserts hs Iff.rfl ?_ (inserts_then (processAccount_inserts hid _ _)
      fun _ => inserts_pure _)
    rw [Call.program, exec_discard]
    exact (processAccount_reaches hid pass candidate s).kept
  | contacts pass account =>
    refine decided_of_inserts hs Iff.rfl ?_ (inserts_then (processContacts_inserts hid _ _ _)
      fun _ => inserts_pure _)
    rw [Call.program, exec_discard]
    exact (processContacts_reaches hid pass account _ s).kept
  | signals pass accountId =>
    unfold Decided step
    rw [Call.program, exec_discard]
    cases hd : pass.signals accountId with
    | none =>
      unfold Env.detectSignalsForAccount
      rw [hd]
      refine ⟨hs, iff_of_true (.refl s) fun detected h => ?_⟩
      rw [hd] at h
      cases h
    | some detected =>
      have hclear : Clear env s (.signals pass accountId) ↔ OwnRows env accountId s detected := by
        simp [Clear, hd]
      have hiff := saveSignals_iff hid pass accountId htold detected hs
      have hrest := saveSignals_rest hid pass accountId detected s
      rw [SignalIdentity.detectSignalsForAccount_eq hd, hclear]
      generalize exec (env.saveSignals pass accountId detected) s = r at hiff hrest ⊢
      obtain ⟨result, s'⟩ := r
      cases result with
      | error e =>
        refine ⟨hrest.table hs, fun he => ?_, hiff.2⟩
        rw [hiff.1] at he
        cases he
      | ok _ => exact ⟨hrest.table hs, hiff⟩

end

end

/-! ## Every run -/

theorem told_hashing (u : Casing) (env : Env) : Told (hashing u env) := fun _ _ _ => rfl

/-- **In every run whose calls are clear, each call keeps to the law and the store names evidence
of its accounts; a call that nothing else ends keeps to it iff it is clear.** -/
theorem owned_iff (u : Casing) (env : Env) (hid : Function.Injective env.generateEvidenceId) :
    (∀ (calls : List Call) (s : Store), Table (hashing u env) s →
      Meets (step (hashing u env)) (Clear (hashing u env)) s calls →
        Meets (step (hashing u env)) (Owned (hashing u env)) s calls ∧
          Placed (hashing u env) s (final (step (hashing u env)) s calls)) ∧
    ∀ (c : Call) (s : Store), Table (hashing u env) s → Unstopped (hashing u env) s c →
      (Owned (hashing u env) s c ↔ Clear (hashing u env) s c) := by
  have hids : Function.Injective (hashing u env).generateEvidenceId := hid
  have hdecided : ∀ {s : Store}, Table (hashing u env) s → ∀ c, Decided (hashing u env) s c :=
    fun hs c => decided hids (told_hashing u env) hs c
  refine ⟨fun calls => ?_, fun c s hs => (owned_iff_of_decided (hdecided hs c)).2⟩
  induction calls with
  | nil => exact fun s _ _ => ⟨trivial, .refl s⟩
  | cons c calls ih =>
    rintro s hs ⟨hclear, hrest⟩
    have howned := (owned_iff_of_decided (hdecided hs c)).1 hclear
    obtain ⟨hmeets, hplaced⟩ := ih (step (hashing u env) s c).1 (hdecided hs c).1 hrest
    exact ⟨⟨howned, hmeets⟩, howned.2.trans hplaced⟩

/-! ## Two accounts of one industry -/

def textOf : Json → String
  | .str text => text
  | _ => ""

/-- The value is part of the fingerprint. -/
def fingerprinting : Env :=
  { sampleEnv with computeEvidenceFingerprint := fun claimType value source =>
      claimType ++ ":" ++ textOf value ++ ":" ++ source }

def inIndustry (providerAccountId industry : String) : Call :=
  .account samplePass
    { providerAccountId, name := providerAccountId, industry := some industry }

theorem table_nil (env : Env) : Table env {} :=
  ⟨fun _ _ _ h => absurd h List.not_mem_nil, fun _ h => absurd h List.not_mem_nil,
    fun _ _ h => absurd h List.not_mem_nil⟩

theorem generateEvidenceId_injective : Function.Injective sampleEnv.generateEvidenceId := by
  intro m n h
  have hlength := congrArg (fun text : String => text.toList.length) h
  simpa [sampleEnv] using hlength

theorem owned_sample :
    Meets (step (hashing asciiCasing fingerprinting)) (Owned (hashing asciiCasing fingerprinting))
        {} [inIndustry "acme" "Software"] ∧
      Placed (hashing asciiCasing fingerprinting) {}
        (final (step (hashing asciiCasing fingerprinting)) {} [inIndustry "acme" "Software"]) := by
  refine (owned_iff asciiCasing fingerprinting generateEvidenceId_injective).1
    [inIndustry "acme" "Software"] {} (table_nil _) ⟨⟨?_, ?_⟩, trivial⟩
  · exact List.nodup_singleton _
  · exact fun _ _ _ h => absurd h List.not_mem_nil

/-- **The second account of an industry is refused for the claim of the first.** -/
theorem not_owned_sample :
    ¬∀ (calls : List Call) (s : Store), Table (hashing asciiCasing fingerprinting) s →
      Meets (step (hashing asciiCasing fingerprinting))
        (Owned (hashing asciiCasing fingerprinting)) s calls := by
  intro h
  obtain ⟨-, ⟨hsecond, -⟩, -⟩ := h [inIndustry "acme" "Software", inIndustry "beta" "Software"] {}
    (table_nil _)
  have hrefused : (step (hashing asciiCasing fingerprinting)
      (step (hashing asciiCasing fingerprinting) {} (inIndustry "acme" "Software")).1
      (inIndustry "beta" "Software")).2 = .error (.repository .evidence
        (.duplicateRecord "Duplicate research evidence e" "evidence_fingerprint")) := by
    rfl
  exact absurd (hsecond _ hrefused) (by decide)

end VegaRevenue.Intelligence.EvidenceOwnership
