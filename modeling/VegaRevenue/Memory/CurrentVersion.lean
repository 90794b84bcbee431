import VegaRevenue.Memory.WritePolicy

/-!
# Memories with one current version

A write of a history keeps one ACTIVE version of a memory, with the content that was accepted last,
a row for its decision, and an embedding of what it stored.

* `Durable` — what a call owes
* `Clean` — when a call gives it
* `durable_iff_clean` — whole histories
-/

namespace VegaRevenue.Memory

open Programs

/-! ## What a call owes -/

/-- A memory of the tenant has an entry. -/
def Store.stores (s : Store) (tenantId memoryId : String) : Bool :=
  s.entries.any fun e => e.tenantId = tenantId && e.memoryId = memoryId

namespace Call

variable (svc : Service) (h : History) (c : Call)

/-- The call passes the authorizer and the gates. -/
def Admitted : Prop := c.answers.authorized = true ∧ svc.rejection c.request.content = none

/-- The call reaches the table of entries with the name of a memory it has. -/
def Updates : Prop :=
  c.answers.fault .insertEntry ≠ .before ∧
    ∃ memoryId, c.request.memoryId = some memoryId ∧ h.store.stores c.ctx.tenantId memoryId = true

/-- The tables after the call. -/
def left : Store := (step svc h c).1.store

/-- The rows for the decision of the call. -/
def rows : List WriteRequestRow :=
  (c.left svc h).writeRequests.filter (·.writeRequestId = h.store.drawn)

end Call

/-- The call leaves one current version, a full audit and no entry without an embedding. -/
structure Durable (svc : Service) (h : History) (c : Call) : Prop where
  single : ∀ e ∈ (c.left svc h).entries, ∀ e' ∈ (c.left svc h).entries, e.status = .active →
    e'.status = .active → e.tenantId = e'.tenantId → e.memoryId = e'.memoryId → e = e'
  latest : ∀ e ∈ (c.left svc h).entries, e.status = .active →
    (step svc h c).1.latest e.tenantId e.memoryId = some e.content
  supersedes : c.Admitted svc → c.Updates h → ∀ e ∈ h.store.entries, e.tenantId = c.ctx.tenantId →
    c.request.memoryId = some e.memoryId → e.status = .active → e ∉ (c.left svc h).entries
  returned : ∀ r, (step svc h c).2 = .ok r →
    ∃ row, c.rows svc h = [row] ∧ row.decision = r.decision
  persisted : ∀ e ∈ (c.left svc h).entries, e ∉ h.store.entries →
    ∃ row, c.rows svc h = [row] ∧ row.decision = .accepted
  embedded : ∀ x, (step svc h c).2 = .error x → ∀ e ∈ (c.left svc h).entries,
    e ∉ h.store.entries → e.status = .active →
    ∃ row ∈ (c.left svc h).embeddings, row.tenantId = e.tenantId ∧ row.memoryId = e.memoryId ∧
      row.version = e.version

/-- The memory the call writes. -/
def Call.memoryId (h : History) (c : Call) : String :=
  c.request.memoryId.getD ("mem-" ++ toString (h.store.drawn + 1))

/-- What follows the entry goes well; a call without a vector returns. -/
structure Completes (h : History) (c : Call) : Prop where
  insertEntry : c.answers.fault .insertEntry = .none
  embed : c.answers.fault .embed = .none
  insertEmbedding : ∀ vector ∈ c.answers.embedding.vectors.head?,
    c.answers.fault .insertEmbedding = .none ∧ vector.length = c.answers.embedding.dimensions
  newKey : ∀ row ∈ h.store.writeRequests, row.tenantId = c.ctx.tenantId →
    row.idempotencyKey = c.request.idempotencyKey → c.request.idempotencyKey = none
  recordWriteRequest : c.answers.fault .recordWriteRequest = .none ∨
    c.answers.fault .recordWriteRequest = .after ∧ c.answers.embedding.vectors ≠ []

/-- When a call keeps the memory durable. -/
def Clean (svc : Service) (h : History) (c : Call) : Prop :=
  c.Admitted svc → c.answers.fault .insertEntry ≠ .before →
    if h.store.stores c.ctx.tenantId (c.memoryId h) = true then c.request.memoryId = none
    else Completes h c

/-! ## What holds between calls -/

structure Inv (h : History) : Prop where
  active : ∀ e ∈ h.store.entries, e.status = .active
  version : ∀ e ∈ h.store.entries, e.version = Service.version
  single : ∀ e ∈ h.store.entries, ∀ e' ∈ h.store.entries, e.tenantId = e'.tenantId →
    e.memoryId = e'.memoryId → e = e'
  latest : ∀ e ∈ h.store.entries, h.latest e.tenantId e.memoryId = some e.content
  embedded : ∀ row ∈ h.store.embeddings, h.store.stores row.tenantId row.memoryId = true
  drawn : ∀ row ∈ h.store.writeRequests, row.writeRequestId < h.store.drawn

section

variable {svc : Service} {h : History} {c : Call} {s : Store}

/-! ## The operations -/

theorem exec_draw (s : Store) : exec draw s = (.ok s.drawn, { s with drawn := s.drawn + 1 }) := rfl

theorem exec_insertEntry (ctx : WriteContext) (entry : NewEntry)
    (hentries : ∀ e ∈ s.entries, e.status = .active) :
    ∃ row : Entry, row.tenantId = ctx.tenantId ∧ row.memoryId = entry.memoryId ∧
      row.version = entry.version ∧ row.content = entry.content ∧ row.status = .active ∧
      exec (insertEntry ctx entry) s =
        if s.stores ctx.tenantId entry.memoryId = true then (.error .uniqueViolation, s)
        else (.ok (), { s with entries := s.entries ++ [row] }) := by
  refine ⟨{ entry with
    sensitivity := some (entry.sensitivity.getD "INTERNAL")
    provenance := some (entry.provenance.getD (.obj []))
    tenantId := ctx.tenantId }, rfl, rfl, rfl, rfl, rfl, ?_⟩
  have hany : (s.entries.any fun e => e.hasKey ctx.tenantId entry.memoryId entry.version ||
      (e.tenantId = ctx.tenantId && e.memoryId = entry.memoryId && e.status = .active)) =
      s.stores ctx.tenantId entry.memoryId := by
    unfold Store.stores
    rw [Bool.eq_iff_iff, List.any_eq_true, List.any_eq_true]
    refine exists_congr fun e => and_congr_right fun he => ?_
    simp only [Entry.hasKey, hentries e he, Bool.or_eq_true, Bool.and_eq_true, decide_eq_true_eq]
    constructor
    · rintro (⟨hkey, -⟩ | ⟨hkey, -⟩)
      · exact hkey
      · exact hkey
    · exact fun hkey => .inr ⟨hkey, trivial⟩
  unfold insertEntry
  rw [exec_bind, exec_get]
  dsimp only
  rw [hany]
  split
  · rfl
  · rfl

theorem exec_recordWriteRequest (row : WriteRequestRow)
    (hnew : ∀ r ∈ s.writeRequests, r.writeRequestId ≠ row.writeRequestId) :
    ((∀ r ∈ s.writeRequests, r.tenantId = row.tenantId → r.idempotencyKey = row.idempotencyKey →
        row.idempotencyKey = none) ∧
      exec (recordWriteRequest row) s =
        (.ok (), { s with writeRequests := s.writeRequests ++ [row] })) ∨
    (¬ (∀ r ∈ s.writeRequests, r.tenantId = row.tenantId → r.idempotencyKey = row.idempotencyKey →
        row.idempotencyKey = none) ∧
      exec (recordWriteRequest row) s = (.error .uniqueViolation, s)) := by
  unfold recordWriteRequest
  rw [exec_bind, exec_get]
  dsimp only
  split
  next hused =>
    obtain ⟨r, hr, hclash⟩ := List.any_eq_true.mp hused
    refine .inr ⟨fun hfree => ?_, rfl⟩
    simp only [Bool.or_eq_true, Bool.and_eq_true, decide_eq_true_eq] at hclash
    rcases hclash with hid | ⟨⟨hsome, htenant⟩, hkey⟩
    · exact hnew r hr hid
    · rw [hfree r hr htenant hkey] at hsome
      cases hsome
  next hfree =>
    refine .inl ⟨fun r hr htenant hkey => ?_, rfl⟩
    by_contra hnone
    refine hfree (List.any_eq_true.mpr ⟨r, hr, ?_⟩)
    simp [htenant, hkey, Option.isSome_iff_ne_none.mpr hnone]

theorem exec_insertEmbedding (row : EmbeddingRow)
    (hstored : s.entries.any (·.hasKey row.tenantId row.memoryId row.version) = true) :
    (row.embedding.length = row.embeddingDim ∧
      ∃ s', exec (insertEmbedding row) s = (.ok (), s') ∧ s'.entries = s.entries ∧
        s'.writeRequests = s.writeRequests ∧ (∀ r ∈ s'.embeddings, r ∈ s.embeddings ∨ r = row) ∧
        ∃ r ∈ s'.embeddings, r.tenantId = row.tenantId ∧ r.memoryId = row.memoryId ∧
          r.version = row.version) ∨
    (row.embedding.length ≠ row.embeddingDim ∧
      exec (insertEmbedding row) s = (.error .checkViolation, s)) := by
  unfold insertEmbedding
  rw [exec_bind, exec_get]
  dsimp only
  split
  next hdim => exact .inr ⟨hdim, rfl⟩
  next hdim =>
    refine .inl ⟨not_not.mp hdim, ?_⟩
    split
    next hthere =>
      obtain ⟨r, hr, hkey⟩ := List.any_eq_true.mp hthere
      simp only [Bool.and_eq_true, decide_eq_true_eq] at hkey
      exact ⟨s, rfl, rfl, rfl, fun _ => .inl, r, hr, hkey.1.1.1, hkey.1.1.2, hkey.1.2⟩
    · exact ⟨_, rfl, rfl, rfl, by simp, row, by simp, rfl, rfl, rfl⟩

/-- The embedding of an entry that is stored. -/
theorem exec_embedEntry (svc : Service) (ctx : WriteContext) (request : WriteRequest) (answers : Answers)
    {memoryId : String}
    (hstored : s.entries.any (·.hasKey ctx.tenantId memoryId Service.version) = true) :
    ∃ r s', exec (svc.embedEntry ctx request answers memoryId) s = (r, s') ∧
      s'.entries = s.entries ∧ s'.writeRequests = s.writeRequests ∧
      ((∃ x, r = .error x) ∧
          ¬ (answers.fault .embed = .none ∧ ∀ vector ∈ answers.embedding.vectors.head?,
            answers.fault .insertEmbedding = .none ∧ vector.length = answers.embedding.dimensions) ∨
        r = .ok () ∧
          (answers.fault .embed = .none ∧ ∀ vector ∈ answers.embedding.vectors.head?,
            answers.fault .insertEmbedding = .none ∧ vector.length = answers.embedding.dimensions) ∧
          (∀ row ∈ s'.embeddings, row ∈ s.embeddings ∨ row.tenantId = ctx.tenantId ∧
            row.memoryId = memoryId ∧ answers.embedding.vectors ≠ []) ∧
          (answers.embedding.vectors ≠ [] → ∃ row ∈ s'.embeddings, row.tenantId = ctx.tenantId ∧
            row.memoryId = memoryId ∧ row.version = Service.version)) := by
  unfold Service.embedEntry
  rw [exec_bind, exec_failing]
  cases hembed : answers.fault .embed with
  | before => exact ⟨_, s, rfl, rfl, rfl, .inl ⟨⟨_, rfl⟩, by simp⟩⟩
  | after => exact ⟨_, s, rfl, rfl, rfl, .inl ⟨⟨_, rfl⟩, by simp⟩⟩
  | none =>
    simp only [exec_pure]
    cases hvectors : answers.embedding.vectors with
    | nil => exact ⟨_, s, rfl, rfl, rfl, .inr ⟨rfl, by simp, fun _ => .inl, by simp⟩⟩
    | cons vector vectors =>
      simp only [List.head?_cons]
      rw [exec_failing]
      have hinsert := exec_insertEmbedding (s := s)
        (svc.embeddingRow ctx request memoryId answers.embedding vector) hstored
      rcases hinsert with ⟨hdim, s', hexec, hentries, hrequests, hadds, hrow⟩ | ⟨hdim, hexec⟩
      · cases hfault : answers.fault .insertEmbedding with
        | none =>
          refine ⟨_, s', hexec, hentries, hrequests, .inr ⟨rfl, ⟨trivial, fun v hv => ?_⟩, ?_, fun _ => hrow⟩⟩
          · obtain rfl := Option.some.inj hv
            exact ⟨rfl, hdim⟩
          · intro r hr
            rcases hadds r hr with hold | rfl
            · exact .inl hold
            · exact .inr ⟨rfl, rfl, by simp⟩
        | before => exact ⟨_, s, rfl, rfl, rfl, .inl ⟨⟨_, rfl⟩, by simp⟩⟩
        | after =>
          rw [hexec]
          exact ⟨_, s', rfl, hentries, hrequests, .inl ⟨⟨_, rfl⟩, by simp⟩⟩
      · have hnot : ¬ ∀ v ∈ some vector, answers.fault .insertEmbedding = .none ∧
            v.length = answers.embedding.dimensions := fun hall => hdim (hall vector rfl).2
        cases hfault : answers.fault .insertEmbedding with
        | none => exact ⟨_, s, hexec, rfl, rfl, .inl ⟨⟨_, rfl⟩, fun h => hnot (hfault ▸ h.2)⟩⟩
        | before => exact ⟨_, s, rfl, rfl, rfl, .inl ⟨⟨_, rfl⟩, by simp⟩⟩
        | after =>
          rw [hexec]
          exact ⟨_, s, rfl, rfl, rfl, .inl ⟨⟨_, rfl⟩, by simp⟩⟩

/-- The entry a call stores. -/
structure Writes (svc : Service) (h : History) (c : Call) (e : Entry) : Prop where
  tenantId : e.tenantId = c.ctx.tenantId
  memoryId : e.memoryId = c.memoryId h
  version : e.version = Service.version
  content : e.content = svc.scrub c.request.content
  active : e.status = .active
  reached : c.answers.fault .insertEntry ≠ .before
  new : h.store.stores c.ctx.tenantId (c.memoryId h) = false

def Call.acceptedRow (svc : Service) (h : History) (c : Call) : WriteRequestRow :=
  svc.auditRow c.ctx h.store.drawn c.request .accepted none (some (c.memoryId h))
    (some Service.version)

/-- A write that passes the gates: how it ends, and the tables it leaves. -/
inductive Persisted (svc : Service) (h : History) (c : Call) :
    Except WriteError WriteResult → Store → Prop where
  /-- Nothing is stored. -/
  | refused {x : WriteError} {s' : Store} (hentries : s'.entries = h.store.entries)
      (hembeddings : s'.embeddings = h.store.embeddings)
      (hrequests : s'.writeRequests = h.store.writeRequests)
      (hwhy : c.answers.fault .insertEntry = .before ∨
        h.store.stores c.ctx.tenantId (c.memoryId h) = true) : Persisted svc h c (.error x) s'
  /-- The entry is stored, the decision is not. -/
  | lost {x : WriteError} {s' : Store} {e : Entry} (hwrites : Writes svc h c e)
      (hentries : s'.entries = h.store.entries ++ [e])
      (hrequests : s'.writeRequests = h.store.writeRequests)
      (hincomplete : ¬ Completes h c) : Persisted svc h c (.error x) s'
  | recorded {r : Except WriteError WriteResult} {s' : Store} {e : Entry}
      (hwrites : Writes svc h c e) (hentries : s'.entries = h.store.entries ++ [e])
      (hrequests : s'.writeRequests = h.store.writeRequests ++ [c.acceptedRow svc h])
      (hresult : ∀ result, r = .ok result → result.decision = .accepted)
      (hcomplete : Completes h c ↔ (∃ result, r = .ok result) ∨ c.answers.embedding.vectors ≠ [])
      (hadds : ∀ row ∈ s'.embeddings, row ∈ h.store.embeddings ∨ row.tenantId = e.tenantId ∧
        row.memoryId = e.memoryId ∧ c.answers.embedding.vectors ≠ [])
      (hembedded : c.answers.embedding.vectors ≠ [] → ∃ row ∈ s'.embeddings,
        row.tenantId = e.tenantId ∧ row.memoryId = e.memoryId ∧ row.version = e.version) :
      Persisted svc h c r s'

theorem persisted (svc : Service) (c : Call) (hinv : Inv h) {s : Store}
    (hs : s.entries = h.store.entries) (hb : s.embeddings = h.store.embeddings)
    (hr : s.writeRequests = h.store.writeRequests) :
    Persisted svc h c
      (exec (svc.persist c.ctx c.request c.answers h.store.drawn (c.memoryId h)) s).1
      (exec (svc.persist c.ctx c.request c.answers h.store.drawn (c.memoryId h)) s).2 := by
  have hstores : s.stores c.ctx.tenantId (c.memoryId h) =
      h.store.stores c.ctx.tenantId (c.memoryId h) := by rw [Store.stores, Store.stores, hs]
  obtain ⟨e, htenant, hmemory, hversion, hcontent, hactive, hexec⟩ := exec_insertEntry (s := s) c.ctx
    (svc.newEntry c.ctx c.request (c.memoryId h)) (by rw [hs]; exact hinv.active)
  rw [show (svc.newEntry c.ctx c.request (c.memoryId h)).memoryId = c.memoryId h from rfl, hstores]
    at hexec
  unfold Service.persist
  rw [exec_bind, exec_failing, hexec]
  by_cases hthere : h.store.stores c.ctx.tenantId (c.memoryId h) = true
  · rw [if_pos hthere]
    cases c.answers.fault .insertEntry with
    | none => exact .refused hs hb hr (.inr hthere)
    | before => exact .refused hs hb hr (.inr hthere)
    | after => exact .refused hs hb hr (.inr hthere)
  · rw [if_neg hthere]
    have hwrites : c.answers.fault .insertEntry ≠ .before → Writes svc h c e := fun hreached =>
      ⟨htenant, hmemory, hversion, hcontent, hactive, hreached, Bool.eq_false_iff.mpr hthere⟩
    cases hinsert : c.answers.fault .insertEntry with
    | before => exact .refused hs hb hr (.inl hinsert)
    | after =>
      refine .lost (hwrites (by simp [hinsert])) (by rw [← hs]) hr fun hc => ?_
      rw [hc.insertEntry] at hinsert
      cases hinsert
    | none =>
      have hwrites := hwrites (by simp [hinsert])
      dsimp only
      let s₁ : Store := { s with entries := s.entries ++ [e] }
      have hkey : s₁.entries.any (·.hasKey c.ctx.tenantId (c.memoryId h) Service.version) = true := by
        refine List.any_eq_true.mpr ⟨e, by simp [s₁], ?_⟩
        simp [Entry.hasKey, hwrites.tenantId, hwrites.memoryId, hwrites.version]
      obtain ⟨r, s₂, hembed, hentries, hrequests, hcase⟩ := exec_embedEntry (s := s₁) svc
        c.ctx c.request c.answers hkey
      have hentries' : s₂.entries = h.store.entries ++ [e] := by rw [hentries, ← hs]
      have hrequests' : s₂.writeRequests = h.store.writeRequests := hrequests.trans hr
      rw [exec_bind, hembed]
      rcases hcase with ⟨⟨x, rfl⟩, hnot⟩ | ⟨rfl, hgood, hadds, hrow⟩
      · exact .lost hwrites hentries' hrequests' fun hc => hnot ⟨hc.embed, hc.insertEmbedding⟩
      · dsimp only
        rw [exec_bind, exec_failing]
        have hid : ∀ r ∈ s₂.writeRequests, r.writeRequestId ≠ (c.acceptedRow svc h).writeRequestId := by
          intro r hmem heq
          rw [hrequests'] at hmem
          have hlt := hinv.drawn r hmem
          rw [heq] at hlt
          exact Nat.lt_irrefl _ hlt
        rcases exec_recordWriteRequest (c.acceptedRow svc h) hid with ⟨hfree, hrecord⟩ | ⟨hused, hrecord⟩
        · rw [hrequests'] at hfree
          have hrows : s₂.writeRequests ++ [c.acceptedRow svc h] =
              h.store.writeRequests ++ [c.acceptedRow svc h] := by rw [hrequests']
          rw [← hwrites.tenantId, ← hwrites.memoryId, ← hwrites.version] at hrow
          rw [← hwrites.tenantId, ← hwrites.memoryId] at hadds
          rw [show s₁.embeddings = h.store.embeddings from hb] at hadds
          rw [show exec (recordWriteRequest (svc.auditRow c.ctx h.store.drawn c.request .accepted none
            (some (c.memoryId h)) (some Service.version))) s₂ = _ from hrecord]
          cases hfault : c.answers.fault .recordWriteRequest with
          | before =>
            refine .lost hwrites hentries' hrequests' fun hc => ?_
            rcases hc.recordWriteRequest with hnone | ⟨hafter, -⟩
            · rw [hfault] at hnone
              cases hnone
            · rw [hfault] at hafter
              cases hafter
          | none =>
            refine .recorded hwrites hentries' hrows (fun result hresult => ?_)
              (iff_of_true ⟨hinsert, hgood.1, hgood.2, hfree, .inl hfault⟩ (.inl ⟨_, rfl⟩)) hadds hrow
            rw [← Except.ok.inj hresult]
          | after =>
            refine .recorded hwrites hentries' hrows (fun result hresult => by cases hresult) ?_ hadds hrow
            constructor
            · intro hc
              rcases hc.recordWriteRequest with hnone | ⟨-, hvectors⟩
              · rw [hfault] at hnone
                cases hnone
              · exact .inr hvectors
            · rintro (⟨result, hresult⟩ | hvectors)
              · cases hresult
              · exact ⟨hinsert, hgood.1, hgood.2, hfree, .inr ⟨hfault, hvectors⟩⟩
        · rw [hrequests'] at hused
          have hincomplete : ¬ Completes h c := fun hc => hused hc.newKey
          rw [show exec (recordWriteRequest (svc.auditRow c.ctx h.store.drawn c.request .accepted none
            (some (c.memoryId h)) (some Service.version))) s₂ = _ from hrecord]
          cases c.answers.fault .recordWriteRequest with
          | none => exact .lost hwrites hentries' hrequests' hincomplete
          | before => exact .lost hwrites hentries' hrequests' hincomplete
          | after => exact .lost hwrites hentries' hrequests' hincomplete

/-- What a call that stops before the entries does. -/
structure Stopped (h : History) (r : Except WriteError WriteResult) (s' : Store) : Prop where
  entries : s'.entries = h.store.entries
  embeddings : s'.embeddings = h.store.embeddings
  requests : s'.writeRequests = h.store.writeRequests ∧ (∃ x, r = .error x) ∨
    ∃ row, s'.writeRequests = h.store.writeRequests ++ [row] ∧ row.writeRequestId = h.store.drawn ∧
      row.decision = .rejected ∧ ∀ result, r = .ok result → result.decision = .rejected

theorem stopped (hinv : Inv h) (hnot : ¬ c.Admitted svc) :
    Stopped h (exec (svc.write c.ctx c.request c.answers) h.store).1
      (exec (svc.write c.ctx c.request c.answers) h.store).2 := by
  unfold Service.write
  split
  next hauthorized =>
    rw [exec_bind, exec_draw]
    dsimp only
    split
    next reason hreason =>
      let s₁ : Store := { h.store with drawn := h.store.drawn + 1 }
      let row := svc.auditRow c.ctx h.store.drawn c.request .rejected (some reason) none none
      have hid : ∀ r ∈ s₁.writeRequests, r.writeRequestId ≠ row.writeRequestId := by
        intro r hmem heq
        have hlt := hinv.drawn r hmem
        rw [heq] at hlt
        exact Nat.lt_irrefl _ hlt
      unfold Service.reject
      rw [exec_bind, exec_failing]
      rcases exec_recordWriteRequest row hid with ⟨-, hrecord⟩ | ⟨-, hrecord⟩ <;> rw [hrecord]
      · cases c.answers.fault .recordWriteRequest with
        | none =>
          refine ⟨rfl, rfl, .inr ⟨row, rfl, rfl, rfl, fun result hresult => ?_⟩⟩
          rw [← Except.ok.inj hresult]
        | before => exact ⟨rfl, rfl, .inl ⟨rfl, _, rfl⟩⟩
        | after => exact ⟨rfl, rfl, .inr ⟨row, rfl, rfl, rfl, fun result hresult => by cases hresult⟩⟩
      · cases c.answers.fault .recordWriteRequest with
        | none => exact ⟨rfl, rfl, .inl ⟨rfl, _, rfl⟩⟩
        | before => exact ⟨rfl, rfl, .inl ⟨rfl, _, rfl⟩⟩
        | after => exact ⟨rfl, rfl, .inl ⟨rfl, _, rfl⟩⟩
    next hnone => exact (hnot ⟨hauthorized, hnone⟩).elim
  · exact ⟨rfl, rfl, .inl ⟨rfl, _, rfl⟩⟩

theorem persisted_write (hinv : Inv h) (hadmitted : c.Admitted svc) :
    Persisted svc h c (exec (svc.write c.ctx c.request c.answers) h.store).1
      (exec (svc.write c.ctx c.request c.answers) h.store).2 := by
  unfold Service.write
  rw [if_pos hadmitted.1, exec_bind, exec_draw]
  dsimp only
  rw [hadmitted.2]
  dsimp only
  rw [exec_bind]
  unfold Service.memoryIdOf
  cases hname : c.request.memoryId with
  | some memoryId =>
    have hpersisted := persisted svc c hinv
      (s := { h.store with drawn := h.store.drawn + 1 }) rfl rfl rfl
    rwa [show c.memoryId h = memoryId by simp [Call.memoryId, hname]] at hpersisted
  | none =>
    have hpersisted := persisted svc c hinv
      (s := { h.store with drawn := h.store.drawn + 1 + 1 }) rfl rfl rfl
    rwa [show c.memoryId h = "mem-" ++ toString (h.store.drawn + 1) by
      simp [Call.memoryId, hname]] at hpersisted

/-! ## The ids that are drawn -/

/-- Ids are drawn, none is given back. -/
def Draws (s s' : Store) : Prop := s.drawn ≤ s'.drawn

theorem draws_trans (s t u : Store) (hst : Draws s t) (htu : Draws t u) : Draws s u :=
  Nat.le_trans hst htu

theorem draws_refl (s : Store) : Draws s s := Nat.le_refl s.drawn

theorem draws_failing {A : Type} {m : Prog Store WriteError A} (fault : Fault) (hm : Moves Draws m) :
    Moves Draws (failing .unavailable fault m) := hm.failing draws_trans draws_refl _ fault

theorem draws_insertEntry (ctx : WriteContext) (entry : NewEntry) :
    Moves Draws (insertEntry ctx entry) := by
  refine moves_get_bind fun s => ?_
  split
  · exact draws_refl s
  · exact draws_refl s

theorem draws_insertEmbedding (row : EmbeddingRow) : Moves Draws (insertEmbedding row) := by
  refine moves_get_bind fun s => ?_
  repeat' split
  all_goals exact draws_refl s

theorem draws_recordWriteRequest (row : WriteRequestRow) : Moves Draws (recordWriteRequest row) := by
  refine moves_get_bind fun s => ?_
  split
  · exact draws_refl s
  · exact draws_refl s

theorem draws_draw : Moves Draws draw := fun s => Nat.le_succ s.drawn

theorem draws_persist (ctx : WriteContext) (request : WriteRequest) (answers : Answers)
    (writeRequestId : Nat) (memoryId : String) :
    Moves Draws (svc.persist ctx request answers writeRequestId memoryId) := by
  refine (draws_failing _ (draws_insertEntry ctx _)).bind draws_trans fun _ => ?_
  refine Moves.bind draws_trans ?_ fun _ => ?_
  · refine (draws_failing _ (moves_pure draws_refl _)).bind draws_trans fun result => ?_
    cases result.vectors.head? with
    | some vector => exact draws_failing _ (draws_insertEmbedding _)
    | none => exact moves_pure draws_refl _
  · exact (draws_failing _ (draws_recordWriteRequest _)).bind draws_trans fun _ =>
      moves_pure draws_refl _

/-- A call draws the id of its row first. -/
theorem drawn_write (svc : Service) (h : History) (c : Call) :
    h.store.drawn < (exec (svc.write c.ctx c.request c.answers) h.store).2.drawn ∨
      c.answers.authorized = false ∧
        (exec (svc.write c.ctx c.request c.answers) h.store).2 = h.store := by
  unfold Service.write
  cases c.answers.authorized with
  | false => exact .inr ⟨rfl, rfl⟩
  | true =>
    let s₁ : Store := { h.store with drawn := h.store.drawn + 1 }
    refine .inl ?_
    rw [if_pos rfl, exec_bind, exec_draw]
    refine Nat.lt_of_lt_of_le (Nat.lt_succ_self _) ?_
    dsimp only
    split
    next reason hreason =>
      have hreject : Moves Draws (svc.reject c.ctx c.request c.answers h.store.drawn reason) :=
        (draws_failing _ (draws_recordWriteRequest _)).bind draws_trans fun _ =>
          moves_pure draws_refl _
      exact hreject s₁
    next =>
      have hmemoryId : Moves Draws (Service.memoryIdOf c.request) := by
        unfold Service.memoryIdOf
        cases c.request.memoryId with
        | some memoryId => exact moves_pure draws_refl _
        | none => exact draws_draw.bind draws_trans fun _ => moves_pure draws_refl _
      exact (hmemoryId.bind draws_trans fun memoryId => draws_persist _ _ _ _ memoryId) s₁

/-! ## One call -/

theorem accepted_step (svc : Service) (h : History) (c : Call) :
    (step svc h c).1.accepted = h.accepted ++ acceptance svc c h.store (c.left svc h) := rfl

theorem acceptance_of_eq {s' : Store} (hrequests : s'.writeRequests = h.store.writeRequests) :
    acceptance svc c h.store s' = [] := by
  unfold acceptance
  rw [hrequests, List.drop_length]
  rfl

theorem acceptance_of_append {s' : Store} {row : WriteRequestRow}
    (hrequests : s'.writeRequests = h.store.writeRequests ++ [row]) :
    acceptance svc c h.store s' =
      (if row.decision = .accepted then
        row.memoryId.map fun memoryId => ⟨c.ctx.tenantId, memoryId, svc.scrub c.request.content⟩
      else none).toList := by
  unfold acceptance
  rw [hrequests, List.drop_left, List.filterMap_cons]
  split
  next hnone =>
    rw [hnone]
    rfl
  next hsome =>
    rw [hsome]
    rfl

/-- The rows of the call are those it has added. -/
theorem rows_of_append (hinv : Inv h) {new : List WriteRequestRow}
    (hrequests : (c.left svc h).writeRequests = h.store.writeRequests ++ new)
    (hid : ∀ row ∈ new, row.writeRequestId = h.store.drawn) : c.rows svc h = new := by
  unfold Call.rows
  rw [hrequests, List.filter_append, List.filter_eq_nil_iff.mpr, List.nil_append,
    List.filter_eq_self.mpr]
  · intro row hrow
    exact decide_eq_true (hid row hrow)
  · intro row hrow
    have hlt := hinv.drawn row hrow
    simp only [decide_eq_true_eq]
    omega

theorem not_mem_of_new {e : Entry} (hwrites : Writes svc h c e) : e ∉ h.store.entries := by
  intro hmem
  have hnew := hwrites.new
  rw [← hwrites.tenantId, ← hwrites.memoryId] at hnew
  have hthere : h.store.stores e.tenantId e.memoryId = true :=
    List.any_eq_true.mpr ⟨e, hmem, by simp⟩
  rw [hnew] at hthere
  cases hthere

/-- A call that leaves the entries alone owes the version it should have replaced. -/
theorem durable_unchanged (hinv : Inv h) (hentries : (c.left svc h).entries = h.store.entries)
    (haccepted : (step svc h c).1.accepted = h.accepted)
    (hreturned : ∀ r, (step svc h c).2 = .ok r →
      ∃ row, c.rows svc h = [row] ∧ row.decision = r.decision) :
    Durable svc h c ↔ ¬ (c.Admitted svc ∧ c.Updates h) := by
  constructor
  · rintro hdurable ⟨hadmitted, hupdates⟩
    obtain ⟨memoryId, hname, hstores⟩ := hupdates.2
    obtain ⟨e, he, hkey⟩ := List.any_eq_true.mp hstores
    simp only [Bool.and_eq_true, decide_eq_true_eq] at hkey
    have hnot := hdurable.supersedes hadmitted hupdates e he hkey.1 (by rw [hname, hkey.2])
      (hinv.active e he)
    rw [hentries] at hnot
    exact hnot he
  · intro hnot
    constructor
    · rw [hentries]
      exact fun e he e' he' _ _ => hinv.single e he e' he'
    · rw [hentries]
      intro e he _
      unfold History.latest
      rw [haccepted]
      exact hinv.latest e he
    · exact fun hadmitted hupdates => (hnot ⟨hadmitted, hupdates⟩).elim
    · exact hreturned
    · rw [hentries]
      exact fun e he hold => (hold he).elim
    · rw [hentries]
      exact fun x _ e he hold => (hold he).elim

/-- The entries of a call that is clean, or that stops before them. -/
theorem inv_unchanged (hinv : Inv h) (hentries : (c.left svc h).entries = h.store.entries)
    (hembeddings : (c.left svc h).embeddings = h.store.embeddings)
    (haccepted : (step svc h c).1.accepted = h.accepted)
    (hdrawn : ∀ row ∈ (c.left svc h).writeRequests, row.writeRequestId < (c.left svc h).drawn) :
    Inv (step svc h c).1 where
  active e he := hinv.active e (hentries ▸ he)
  version e he := hinv.version e (hentries ▸ he)
  single e he e' he' := hinv.single e (hentries ▸ he) e' (hentries ▸ he')
  latest e he := by
    unfold History.latest
    rw [haccepted]
    exact hinv.latest e (hentries ▸ he)
  embedded row hrow := by
    have hstores := hinv.embedded row (hembeddings ▸ hrow)
    rw [Store.stores] at hstores ⊢
    rw [show (step svc h c).1.store.entries = h.store.entries from hentries]
    exact hstores
  drawn := hdrawn

/-- The rows a call leaves were drawn. -/
theorem drawn_of_append (hinv : Inv h) {new : List WriteRequestRow}
    (hrequests : (c.left svc h).writeRequests = h.store.writeRequests ++ new)
    (hid : ∀ row ∈ new, row.writeRequestId = h.store.drawn)
    (hauthorized : new ≠ [] → c.answers.authorized = true) :
    ∀ row ∈ (c.left svc h).writeRequests, row.writeRequestId < (c.left svc h).drawn := by
  intro row hrow
  rw [hrequests] at hrow
  rcases drawn_write svc h c with hlt | ⟨hnot, hsame⟩
  · have hlt : h.store.drawn < (c.left svc h).drawn := hlt
    rcases List.mem_append.mp hrow with hold | hnew
    · have := hinv.drawn row hold
      omega
    · have := hid row hnew
      omega
  · rw [show c.left svc h = h.store from hsame]
    rcases List.mem_append.mp hrow with hold | hnew
    · exact hinv.drawn row hold
    · rw [hauthorized (List.ne_nil_of_mem hnew)] at hnot
      cases hnot

theorem clean_refused (hadmitted : c.Admitted svc) (hwhy : c.answers.fault .insertEntry = .before ∨
    h.store.stores c.ctx.tenantId (c.memoryId h) = true) :
    Clean svc h c ↔ ¬ (c.Admitted svc ∧ c.Updates h) := by
  unfold Clean Call.Updates
  by_cases hbefore : c.answers.fault .insertEntry = .before
  · simp [hbefore]
  · have hthere := hwhy.resolve_left hbefore
    simp only [hadmitted, hbefore, hthere, if_true, true_and, forall_true_left, ne_eq,
      not_false_eq_true]
    cases hname : c.request.memoryId with
    | none => simp
    | some memoryId =>
      have hmemory : c.memoryId h = memoryId := by simp [Call.memoryId, hname]
      rw [hmemory] at hthere
      simp [hthere]

theorem clean_reached (hadmitted : c.Admitted svc) {e : Entry} (hwrites : Writes svc h c e) :
    Clean svc h c ↔ Completes h c := by
  unfold Clean
  simp [hadmitted, hwrites.reached, hwrites.new]

/-- A call that stores an entry without a row for it. -/
theorem not_durable_lost {e : Entry} (hinv : Inv h) (hwrites : Writes svc h c e)
    (hentries : (c.left svc h).entries = h.store.entries ++ [e])
    (hrequests : (c.left svc h).writeRequests = h.store.writeRequests) : ¬ Durable svc h c := by
  intro hdurable
  obtain ⟨row, hrows, -⟩ := hdurable.persisted e (by rw [hentries]; simp) (not_mem_of_new hwrites)
  rw [rows_of_append hinv (by rw [hrequests, List.append_nil]) (by simp)] at hrows
  cases hrows

theorem latest_recorded {e : Entry} (hwrites : Writes svc h c e)
    (hrequests : (c.left svc h).writeRequests = h.store.writeRequests ++ [c.acceptedRow svc h])
    (tenantId memoryId : String) :
    (step svc h c).1.latest tenantId memoryId =
      if e.tenantId = tenantId ∧ e.memoryId = memoryId then some e.content
      else h.latest tenantId memoryId := by
  unfold History.latest
  rw [accepted_step, acceptance_of_append hrequests]
  show ((h.accepted ++ [Acceptance.mk c.ctx.tenantId (c.memoryId h)
    (svc.scrub c.request.content)]).reverse.find? _).map _ = _
  rw [List.reverse_append, List.reverse_singleton, List.singleton_append, List.find?_cons,
    ← hwrites.tenantId, ← hwrites.memoryId, ← hwrites.content]
  by_cases hkey : e.tenantId = tenantId ∧ e.memoryId = memoryId
  · simp [hkey]
  · rw [if_neg hkey]
    have hnot : (decide (e.tenantId = tenantId) && decide (e.memoryId = memoryId)) = false := by
      simpa using hkey
    rw [hnot]

/-- A call that stores an entry and a row for it owes the embedding only where it throws. -/
theorem durable_recorded {e : Entry} (hinv : Inv h) (hwrites : Writes svc h c e)
    (hentries : (c.left svc h).entries = h.store.entries ++ [e])
    (hrequests : (c.left svc h).writeRequests = h.store.writeRequests ++ [c.acceptedRow svc h])
    (hresult : ∀ result, (step svc h c).2 = .ok result → result.decision = .accepted)
    (hcomplete : Completes h c ↔
      (∃ result, (step svc h c).2 = .ok result) ∨ c.answers.embedding.vectors ≠ [])
    (hadds : ∀ row ∈ (c.left svc h).embeddings, row ∈ h.store.embeddings ∨
      row.tenantId = e.tenantId ∧ row.memoryId = e.memoryId ∧ c.answers.embedding.vectors ≠ [])
    (hembedded : c.answers.embedding.vectors ≠ [] → ∃ row ∈ (c.left svc h).embeddings,
      row.tenantId = e.tenantId ∧ row.memoryId = e.memoryId ∧ row.version = e.version) :
    Durable svc h c ↔ Completes h c := by
  have hrows : c.rows svc h = [c.acceptedRow svc h] :=
    rows_of_append hinv hrequests fun row hrow => by rw [List.mem_singleton.mp hrow]; rfl
  have hother : ∀ e' ∈ h.store.entries, ¬ (e.tenantId = e'.tenantId ∧ e.memoryId = e'.memoryId) := by
    rintro e' he' ⟨htenant, hmemory⟩
    have hnew := hwrites.new
    rw [← hwrites.tenantId, ← hwrites.memoryId, Store.stores, List.any_eq_false] at hnew
    exact hnew e' he' (by simp [htenant, hmemory])
  have hmem : ∀ e', e' ∈ (c.left svc h).entries ↔ e' ∈ h.store.entries ∨ e' = e := by
    simp [hentries]
  constructor
  · intro hdurable
    rw [hcomplete]
    by_contra hnot
    obtain ⟨hok, hvectors⟩ := not_or.mp hnot
    -- the call threw, and no embedding was made
    obtain ⟨x, hx⟩ : ∃ x, (step svc h c).2 = .error x := by
      cases hr : (step svc h c).2 with
      | ok result => exact (hok ⟨result, hr⟩).elim
      | error x => exact ⟨x, rfl⟩
    obtain ⟨row, hrow, htenant, hmemory, -⟩ := hdurable.embedded x hx e ((hmem e).mpr (.inr rfl))
      (not_mem_of_new hwrites) hwrites.active
    rcases hadds row hrow with hold | ⟨-, -, hsome⟩
    · have hthere := hinv.embedded row hold
      rw [htenant, hmemory, hwrites.tenantId, hwrites.memoryId, hwrites.new] at hthere
      cases hthere
    · exact hvectors hsome
  · intro hc
    constructor
    · intro e₁ he₁ e₂ he₂ _ _ htenant hmemory
      rcases (hmem e₁).mp he₁ with hold₁ | rfl
      · rcases (hmem e₂).mp he₂ with hold₂ | rfl
        · exact hinv.single e₁ hold₁ e₂ hold₂ htenant hmemory
        · exact (hother e₁ hold₁ ⟨htenant.symm, hmemory.symm⟩).elim
      · rcases (hmem e₂).mp he₂ with hold₂ | rfl
        · exact (hother e₂ hold₂ ⟨htenant, hmemory⟩).elim
        · rfl
    · intro e' he' _
      rw [latest_recorded hwrites hrequests]
      rcases (hmem e').mp he' with hold | rfl
      · rw [if_neg (hother e' hold)]
        exact hinv.latest e' hold
      · rw [if_pos ⟨rfl, rfl⟩]
    · rintro - ⟨-, memoryId, hname, hthere⟩
      have hnew := hwrites.new
      rw [show c.memoryId h = memoryId by simp [Call.memoryId, hname], hthere] at hnew
      cases hnew
    · exact fun r hr => ⟨_, hrows, (hresult r hr).symm⟩
    · exact fun _ _ _ => ⟨_, hrows, rfl⟩
    · intro x hx e' he' hnew' _
      obtain rfl := ((hmem e').mp he').resolve_left hnew'
      have hvectors := (hcomplete.mp hc).resolve_left fun ⟨result, hok⟩ => by
        rw [hx] at hok
        cases hok
      exact hembedded hvectors

theorem inv_recorded {e : Entry} (hinv : Inv h) (hwrites : Writes svc h c e)
    (hauthorized : c.answers.authorized = true) (hdurable : Durable svc h c)
    (hentries : (c.left svc h).entries = h.store.entries ++ [e])
    (hrequests : (c.left svc h).writeRequests = h.store.writeRequests ++ [c.acceptedRow svc h])
    (hadds : ∀ row ∈ (c.left svc h).embeddings, row ∈ h.store.embeddings ∨
      row.tenantId = e.tenantId ∧ row.memoryId = e.memoryId ∧ c.answers.embedding.vectors ≠ []) :
    Inv (step svc h c).1 := by
  have hmem : ∀ e', e' ∈ (c.left svc h).entries ↔ e' ∈ h.store.entries ∨ e' = e := by
    simp [hentries]
  have hactive : ∀ e' ∈ (c.left svc h).entries, e'.status = .active := by
    intro e' he'
    rcases (hmem e').mp he' with hold | rfl
    · exact hinv.active e' hold
    · exact hwrites.active
  constructor
  · exact hactive
  · intro e' he'
    rcases (hmem e').mp he' with hold | rfl
    · exact hinv.version e' hold
    · exact hwrites.version
  · exact fun e₁ he₁ e₂ he₂ => hdurable.single e₁ he₁ e₂ he₂ (hactive e₁ he₁) (hactive e₂ he₂)
  · exact fun e' he' => hdurable.latest e' he' (hactive e' he')
  · intro row hrow
    rcases hadds row hrow with hold | ⟨htenant, hmemory, -⟩
    · obtain ⟨e', he', hkey⟩ := List.any_eq_true.mp (hinv.embedded row hold)
      exact List.any_eq_true.mpr ⟨e', (hmem e').mpr (.inl he'), hkey⟩
    · exact List.any_eq_true.mpr ⟨e, (hmem e).mpr (.inr rfl), by simp [htenant, hmemory]⟩
  · refine drawn_of_append hinv hrequests (fun row hrow => ?_) fun _ => hauthorized
    rw [List.mem_singleton.mp hrow]
    rfl

theorem durable_step (hinv : Inv h) (svc : Service) (c : Call) :
    (Durable svc h c ↔ Clean svc h c) ∧ (Durable svc h c → Inv (step svc h c).1) := by
  by_cases hadmitted : c.Admitted svc
  · have hcases : Persisted svc h c (step svc h c).2 (c.left svc h) := persisted_write hinv hadmitted
    generalize hr : (step svc h c).2 = r, hs : c.left svc h = s' at hcases
    cases hcases with
    | refused hentries hembeddings hrequests hwhy =>
      rw [← hs] at hentries hembeddings hrequests
      have haccepted : (step svc h c).1.accepted = h.accepted := by
        rw [accepted_step, acceptance_of_eq hrequests, List.append_nil]
      have hdurable := durable_unchanged hinv hentries haccepted fun r' hr' => by
        rw [hr] at hr'
        cases hr'
      refine ⟨hdurable.trans (clean_refused hadmitted hwhy).symm, fun _ => ?_⟩
      refine inv_unchanged hinv hentries hembeddings haccepted ?_
      exact drawn_of_append hinv (by rw [hrequests, List.append_nil]) (by simp) (by simp)
    | lost hwrites hentries hrequests hincomplete =>
      rw [← hs] at hentries hrequests
      have hnot := not_durable_lost hinv hwrites hentries hrequests
      refine ⟨iff_of_false hnot ?_, fun hdurable => (hnot hdurable).elim⟩
      rwa [clean_reached hadmitted hwrites]
    | recorded hwrites hentries hrequests hresult hcomplete hadds hembedded =>
      rw [← hs] at hentries hrequests hadds hembedded
      rw [← hr] at hresult hcomplete
      have hdurable := durable_recorded hinv hwrites hentries hrequests hresult hcomplete hadds
        hembedded
      refine ⟨hdurable.trans (clean_reached hadmitted hwrites).symm, fun h => ?_⟩
      exact inv_recorded hinv hwrites hadmitted.1 h hentries hrequests hadds
  · have hstopped : Stopped h (step svc h c).2 (c.left svc h) := stopped hinv hadmitted
    obtain ⟨hentries, hembeddings, hrequests⟩ := hstopped
    have hclean : Clean svc h c := fun h => (hadmitted h).elim
    have hfree : ¬ (c.Admitted svc ∧ c.Updates h) := fun h => hadmitted h.1
    rcases hrequests with ⟨hsame, x, hx⟩ | ⟨row, happend, hid, hrejected, hresult⟩
    · have haccepted : (step svc h c).1.accepted = h.accepted := by
        rw [accepted_step, acceptance_of_eq hsame, List.append_nil]
      have hdurable := durable_unchanged hinv hentries haccepted fun r' hr' => by
        rw [hx] at hr'
        cases hr'
      refine ⟨iff_of_true (hdurable.mpr hfree) hclean, fun _ => ?_⟩
      refine inv_unchanged hinv hentries hembeddings haccepted ?_
      exact drawn_of_append hinv (by rw [hsame, List.append_nil]) (by simp) (by simp)
    · have haccepted : (step svc h c).1.accepted = h.accepted := by
        rw [accepted_step, acceptance_of_append happend, hrejected]
        exact List.append_nil _
      have hids : ∀ r ∈ [row], r.writeRequestId = h.store.drawn := fun r hr => by
        rw [List.mem_singleton.mp hr, hid]
      have hdurable := durable_unchanged hinv hentries haccepted fun r hr =>
        ⟨row, rows_of_append hinv happend hids, by rw [hrejected, hresult r hr]⟩
      refine ⟨iff_of_true (hdurable.mpr hfree) hclean, fun _ => ?_⟩
      refine inv_unchanged hinv hentries hembeddings haccepted ?_
      refine drawn_of_append hinv happend hids fun _ => ?_
      -- a call that is not authorized leaves no row
      by_contra hnot
      have hsame : c.left svc h = h.store := by
        show (exec (svc.write c.ctx c.request c.answers) h.store).2 = h.store
        unfold Service.write
        rw [if_neg hnot]
        rfl
      rw [hsame] at happend
      simp at happend

end

/-! ## Histories -/

theorem inv_empty : Inv {} := by
  constructor
  all_goals exact fun _ h => absurd h List.not_mem_nil

/-- **Every write of a history leaves the memory durable iff every write is clean.** -/
theorem durable_iff_clean (svc : Service) (calls : List Call) :
    Machine.Meets (step svc) (Durable svc) {} calls ↔ Machine.Meets (step svc) (Clean svc) {} calls :=
  Machine.meets_iff_of_invariant (fun _ c hinv => (durable_step hinv svc c).1)
    (fun _ c hinv hdurable => (durable_step hinv svc c).2 hdurable) calls inv_empty

/-! ## An update -/

def plainService : Service where
  scrub := id
  hash := id

/-- A write of the content to the memory `renewal`. -/
def renewal (content : String) : Call where
  ctx := ⟨"tenant", some "user", "correlation"⟩
  request := { type := "SEMANTIC", content, memoryId := some "renewal" }
  answers := { embedding := ⟨"profile", [[1, 0]], 2⟩ }

/-- The second write of a memory throws, and the memory keeps its first content. -/
theorem update_throws :
    ¬ Machine.Meets (step plainService) (Durable plainService) {}
      [renewal "Renews in March", renewal "Renews in May"] := by
  rintro ⟨hfirst, hsecond, -⟩
  have hinv := (durable_step inv_empty plainService _).2 hfirst
  have hclean := (durable_step hinv plainService _).1.mp hsecond
  have hname := hclean ⟨rfl, by decide +kernel⟩ (by decide)
  rw [if_pos (by decide +kernel)] at hname
  cases hname

end VegaRevenue.Memory
