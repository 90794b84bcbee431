import VegaRevenue.Domain.Account
import VegaRevenue.Domain.DomainSpelling
import VegaRevenue.Lib.Machine

/-!
# The normalized domain over the life of an account

An account is created or discovered, and then enriched with arbitrary fields, qualified,
disqualified or marked as a duplicate.

* `consistent_step` — which operations keep the normalized domain that of the domain
* `throughout_consistent_iff` — in which runs it always is
-/

namespace VegaRevenue

namespace Account

/-! ## Beginnings -/

/-- What an account is built from. -/
structure AccountProps where
  id : String
  tenantId : String
  workspaceId : String
  name : String
  domain : Option String := none
  normalizedDomain : Option String := none
  industry : Option String := none
  employeeCount : Option Rat := none
  annualRevenueUsd : Option Rat := none
  territories : Option (List String) := none
  techStack : Option (List String) := none
  status : Option Status := none
  duplicateOf : Option String := none
  evidenceReferences : Option (List String) := none
  accountVersion : Option Rat := none
  createdAt : Option Date := none
  updatedAt : Option Date := none

def validateAccountVersion (v : Rat) : Except String Unit :=
  if v.den = 1 ∧ 1 ≤ v then .ok () else .error "accountVersion must be a positive integer >= 1"

/-- `new Account(props)`. -/
def construct (u : Casing) (props : AccountProps) (now : Date) : Props where
  id := props.id
  tenantId := props.tenantId
  workspaceId := props.workspaceId
  name := props.name
  domain := props.domain
  normalizedDomain := props.normalizedDomain.or (normalizeDomain u props.domain)
  industry := props.industry
  employeeCount := props.employeeCount
  annualRevenueUsd := props.annualRevenueUsd
  territories := props.territories.getD []
  techStack := props.techStack.getD []
  status := props.status.getD .discovered
  duplicateOf := props.duplicateOf
  evidenceReferences := props.evidenceReferences.getD []
  accountVersion := (props.accountVersion.getD 1).num.toNat
  createdAt := props.createdAt.getD now
  updatedAt := props.updatedAt.getD now

/-- `create`, whose `source` is `"manual"`. -/
def createFrom (u : Casing) (props : AccountProps) (now : Date) : Except String Account := do
  validateAccountVersion (props.accountVersion.getD 1)
  return (Versioned.Aggregate.init (construct u props now)).applyEvent
    (.discovered props.id props.name "manual")

def discover (u : Casing) (props : AccountProps) (source : String) (now : Date) :
    Except String Account := do
  validateAccountVersion (props.accountVersion.getD 1)
  let props := { props with status := some .discovered }
  return (Versioned.Aggregate.init (construct u props now)).applyEvent
    (.discovered props.id props.name source)

/-- An account that was created or discovered without a normalized domain of its own. -/
structure Begun (u : Casing) where
  account : Account
  props : AccountProps
  now : Date
  unset : props.normalizedDomain = none
  begun : createFrom u props now = .ok account ∨
    ∃ source, discover u props source now = .ok account

/-! ## Operations -/

/-- The fields to assign. One that an account may lack can be assigned `undefined`. -/
structure Updates where
  name : Option String := none
  domain : Option (Option String) := none
  normalizedDomain : Option (Option String) := none
  industry : Option (Option String) := none
  employeeCount : Option (Option Rat) := none
  annualRevenueUsd : Option (Option Rat) := none
  territories : Option (List String) := none
  techStack : Option (List String) := none
  status : Option Status := none
  duplicateOf : Option (Option String) := none
  evidenceReferences : Option (List String) := none
  createdAt : Option Date := none
  updatedAt : Option Date := none

namespace Updates

/-- A new domain brings its normal form. -/
def renormalize (u : Casing) (updates : Updates) (domain : Option String) : Updates :=
  match updates.domain with
  | some (some new) =>
    if some new ≠ domain then
      { updates with normalizedDomain := some (normalizeDomain u (some new)) }
    else updates
  | _ => updates

/-- `Object.assign(this, updates)`. -/
def assign (updates : Updates) (state : Props) : Props :=
  { state with
    name := updates.name.getD state.name
    domain := updates.domain.getD state.domain
    normalizedDomain := updates.normalizedDomain.getD state.normalizedDomain
    industry := updates.industry.getD state.industry
    employeeCount := updates.employeeCount.getD state.employeeCount
    annualRevenueUsd := updates.annualRevenueUsd.getD state.annualRevenueUsd
    territories := updates.territories.getD state.territories
    techStack := updates.techStack.getD state.techStack
    status := updates.status.getD state.status
    duplicateOf := updates.duplicateOf.getD state.duplicateOf
    evidenceReferences := updates.evidenceReferences.getD state.evidenceReferences
    createdAt := updates.createdAt.getD state.createdAt
    updatedAt := updates.updatedAt.getD state.updatedAt }

end Updates

def enrichWith (u : Casing) (a : Account) (updates : Updates) (evidenceIds : List String)
    (now : Date) : Account :=
  let assigned := (updates.renormalize u a.state.domain).assign a.state
  (a.write { assigned with
    evidenceReferences := assigned.evidenceReferences ++ evidenceIds
    status := .enriched
    updatedAt := now
    accountVersion := assigned.accountVersion + 1 }).applyEvent (.enriched a.state.id evidenceIds)

def qualify (a : Account) (now : Date) : Account :=
  (a.write { a.state with
    status := .qualified
    updatedAt := now
    accountVersion := a.state.accountVersion + 1 }).applyEvent (.enriched a.state.id [])

def computeDedupIdentity (a : Account) : Option String :=
  if blank a.state.normalizedDomain then none
  else a.state.normalizedDomain.map fun d => s!"{a.state.tenantId}:{a.state.workspaceId}:{d}"

inductive Operation where
  | enrich (updates : Updates) (evidenceIds : List String) (now : Date)
  | markDuplicate (canonicalAccountId reason : String) (now : Date)
  | disqualify (reason : String) (now : Date)
  | qualify (now : Date)

/-- The operation does not set `normalizedDomain`. -/
def Operation.Silent : Operation → Prop
  | enrich updates _ _ => updates.normalizedDomain = none
  | _ => True

def step (u : Casing) : Machine.Step Account { op : Operation // op.Silent } Unit := fun a op =>
  match op.val with
  | .enrich updates evidenceIds now => (a.enrichWith u updates evidenceIds now, ())
  | .markDuplicate canonicalAccountId reason now =>
    (a.markDuplicate canonicalAccountId reason now, ())
  | .disqualify reason now => (a.disqualify reason now, ())
  | .qualify now => (a.qualify now, ())

/-! ## Consistency -/

/-- The normalized domain is that of the domain. -/
def Consistent (u : Casing) (a : Account) : Prop :=
  a.state.normalizedDomain = normalizeDomain u a.state.domain

/-- The operation does not take away the domain of an account that has a normalized one. -/
def Keeps (a : Account) (op : { op : Operation // op.Silent }) : Prop :=
  match op.val with
  | .enrich updates _ _ => updates.domain = some none → a.state.normalizedDomain = none
  | _ => True

variable {u : Casing}

theorem Begun.consistent (b : Begun u) : Consistent u b.account := by
  have hconstruct : ∀ props : AccountProps, props.normalizedDomain = none →
      (construct u props b.now).normalizedDomain = normalizeDomain u props.domain := by
    intro props hunset
    rw [construct, hunset, Option.none_or]
  rcases b.begun with hcreate | ⟨source, hdiscover⟩
  · obtain ⟨-, -, hcreate⟩ := of_bind_eq_ok hcreate
    have hstate := Except.ok.inj hcreate
    unfold Consistent
    rw [← hstate]
    exact hconstruct b.props b.unset
  · obtain ⟨-, -, hdiscover⟩ := of_bind_eq_ok hdiscover
    have hstate := Except.ok.inj hdiscover
    unfold Consistent
    rw [← hstate]
    exact hconstruct { b.props with status := some .discovered } b.unset

/-- Enriching a consistent account. -/
theorem consistent_enrichWith_iff {a : Account} {updates : Updates} {evidenceIds : List String}
    {now : Date} (hsilent : updates.normalizedDomain = none) (ha : Consistent u a) :
    Consistent u (a.enrichWith u updates evidenceIds now) ↔
      (updates.domain = some none → a.state.normalizedDomain = none) := by
  show ((updates.renormalize u a.state.domain).assign a.state).normalizedDomain =
    normalizeDomain u ((updates.renormalize u a.state.domain).assign a.state).domain ↔ _
  unfold Consistent at ha
  unfold Updates.renormalize
  split
  · rename_i new hnew
    by_cases hdomain : some new = a.state.domain
    · rw [← hdomain] at ha
      simp [Updates.assign, hnew, hsilent, ← hdomain, ha]
    · simp [Updates.assign, hnew, hdomain]
  · rename_i hother
    cases hnew : updates.domain with
    | none => simp [Updates.assign, hnew, hsilent, ha]
    | some new =>
      cases new with
      | none => simp [Updates.assign, hnew, hsilent, normalizeDomain]
      | some new => exact absurd hnew (hother new)

/-- **An operation leaves an account consistent iff it does not take its domain away.** -/
theorem consistent_step (a : Account) (op : { op : Operation // op.Silent })
    (ha : Consistent u a) : Consistent u (step u a op).1 ↔ Keeps a op := by
  obtain ⟨op, hsilent⟩ := op
  cases op with
  | enrich updates evidenceIds now => exact consistent_enrichWith_iff hsilent ha
  | markDuplicate canonicalAccountId reason now => exact iff_of_true ha trivial
  | disqualify reason now => exact iff_of_true ha trivial
  | qualify now => exact iff_of_true ha trivial

/-- **Every account that a run reaches is consistent iff no step takes a domain away.** -/
theorem throughout_consistent_iff (b : Begun u) (ops : List { op : Operation // op.Silent }) :
    Machine.Throughout (step u) (Consistent u) b.account ops ↔
      Machine.Meets (step u) Keeps b.account ops := by
  rw [Machine.throughout_iff_meets consistent_step ops]
  exact and_iff_right b.consistent

/-! ## The identity of an account -/

/-- **Which domains have a normal form that is normal, which spellings of a host its normal form,
and in which runs an account has that of its domain.** -/
theorem dedup_identity_iff (u : UrlCasing) :
    (∀ raw, IdempotentAt u.toCasing raw ↔
      ∃ host, Bare host ∧ Dressed host (authority (u.toLowerCase (trim raw)).toList)) ∧
    (∀ s : Spelling u,
      normalizeDomain u.toCasing (some s.written) =
        normalizeDomain u.toCasing (some (String.ofList s.host.text)) ↔ s.Found) ∧
    ∀ (b : Begun u.toCasing) (ops : List { op : Operation // op.Silent }),
      Machine.Throughout (step u.toCasing) (Consistent u.toCasing) b.account ops ↔
        Machine.Meets (step u.toCasing) Keeps b.account ops :=
  ⟨idempotentAt_iff, Spelling.normalizeDomain_written_iff, throughout_consistent_iff⟩

/-! ## Domains cut once -/

/-- The delimiters are no letters of ASCII. -/
theorem asciiLower_delimiter {d : Char} (h : d ∈ urlDelimiters) {c : Char} (hc : asciiLower c = d) :
    c = d := by
  unfold asciiLower at hc
  split at hc
  · rename_i hletter
    have hall : ∀ n ∈ List.range 26, Char.ofNat (0x41 + n + 0x20) ∉ urlDelimiters := by
      decide +kernel
    have hn := hall (c.toNat - 0x41) (List.mem_range.mpr (by omega))
    rw [Nat.add_sub_cancel' hletter.1, hc] at hn
    exact absurd h hn
  · split at hc
    · rw [← hc] at h
      exact absurd h (by decide)
    · exact hc

def asciiUrlCasing : UrlCasing where
  toCasing := asciiCasing
  lower_delimiter := List.all_iff_forall_prop.mp (by decide +kernel)
  eq_of_lower := by
    intro d hd c hc
    exact asciiLower_delimiter hd (List.mem_singleton.mp hc).symm
  lower_w := by decide +kernel

/-- A spelling in the letters of the host and of its parts. -/
def plainSpelling (host : Host) (parts : Parts) : Spelling asciiUrlCasing where
  host := host
  parts := parts
  letters := parts.front ++ parts.rest host.text
  letterCase := rfl
  before := []
  after := []
  space := fun _ hc => absurd hc List.not_mem_nil

/-- `www.www.a`, for the host `www.a`. -/
def secondLabel : Spelling asciiUrlCasing :=
  plainSpelling
    { text := "www.a".toList
      ne_nil := by decide +kernel
      char := List.all_iff_forall_prop.mp (by decide +kernel)
      dot := by decide +kernel }
    { label := true
      scheme_char := by simp
      port_char := by simp
      last := by simp [part] }

/-- `a.com/?u=http://b.com`. -/
def urlInQuery : Spelling asciiUrlCasing :=
  plainSpelling
    { text := "a.com".toList
      ne_nil := by decide +kernel
      char := List.all_iff_forall_prop.mp (by decide +kernel)
      dot := by decide +kernel }
    { path := some []
      query := some "u=http://b.com".toList
      scheme_char := by simp
      port_char := by simp
      last := fun c hc =>
        have hall : ∀ c ∈ part '/' (some []) ++ part '?' (some "u=http://b.com".toList) ++
            part '#' none, jsSpace c = false := List.all_iff_forall_prop.mp (by decide +kernel)
        hall c (List.mem_of_mem_getLast? hc) }

def sampleProps : AccountProps where
  id := "a"
  tenantId := "t"
  workspaceId := "w"
  name := "A"
  domain := some "a.com"

def sampleAccount : Begun asciiCasing where
  account := (Versioned.Aggregate.init (construct asciiCasing sampleProps 0)).applyEvent
    (.discovered "a" "A" "manual")
  props := sampleProps
  now := 0
  unset := rfl
  begun := .inl (by rfl)

/-- `enrich({ domain: undefined })`. -/
def undefinedDomain : { op : Operation // op.Silent } :=
  ⟨.enrich { domain := some none } [] 0, rfl⟩

/-- A second `www.` is left for the next time, in a result and on a host; a URL in a query is
taken for the host; and a domain that is taken away leaves its normal form behind. -/
theorem not_dedup_identity :
    ¬ IdempotentAt asciiCasing "www.www.a" ∧
      normalizeDomain asciiCasing (some secondLabel.written) ≠
        normalizeDomain asciiCasing (some (String.ofList secondLabel.host.text)) ∧
      normalizeDomain asciiCasing (some urlInQuery.written) ≠
        normalizeDomain asciiCasing (some (String.ofList urlInQuery.host.text)) ∧
      ¬ Machine.Throughout (step asciiCasing) (Consistent asciiCasing) sampleAccount.account
        [undefinedDomain] := by
  refine ⟨fun hidem => ?_, by decide +kernel, by decide +kernel, fun hconsistent => ?_⟩
  · have hnormal := hidem "www.a" (by decide +kernel)
    exact absurd hnormal (by decide +kernel)
  · have hlast : some "a.com" = none := hconsistent.final
    cases hlast

end Account

end VegaRevenue
