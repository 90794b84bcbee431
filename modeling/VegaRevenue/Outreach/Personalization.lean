import Mathlib.Data.List.Perm.Basic
import VegaRevenue.AiRuntime.StructuredOutputValidator

/-!
# The personalization of a message

`OutreachPersonalizationService` has a draft written over the evidence of a lead, drops the claims
that name no evidence and has the rest validated.

* `verifyClaims_eq` — which claims are kept
* `verifyClaims_accounts` — nothing but claims without evidence is dropped
* `personalize_grounded_iff` — when a draft is what it should be
-/

namespace VegaRevenue.Outreach.Personalization

open AiRuntime.StructuredOutputValidator

/-! ## What the service is given -/

structure ResearchEvidence where
  evidenceId : String
  tenantId : String
  claimType : String
  normalizedValue : Json
  confidence : Rat

structure Lead where
  tenantId : String
  overallScore : Rat

/-- A plan, with the objectives of its steps. -/
structure OutreachPlan where
  channel : String
  objectives : List String

structure PromptContext where
  systemPromptVersion : String
  userMessage : String
  toolsAvailable : List String

structure ModelUsage where
  model : String
  inputTokens : Rat
  outputTokens : Rat
  costUsd : Rat

structure ReasoningOutput where
  conclusion : String
  rationale : String
  confidence : Rat
  modelUsage : Option ModelUsage := none

structure Deps where
  platform : Platform
  policy : OutputValidatorPolicy
  reason : PromptContext → ReasoningOutput
  generateMessageId : String

/-- `body` is what the validator returns. -/
structure MessageDraft where
  subject : Option Json
  body : JsValue
  cta : Option Json
  tone : Json
  claims : List Json
  evidenceReferences : List (Option Json)
  unsupportedClaimsRemoved : List (Option Json)

structure PersonalizationResult where
  messageId : String
  draft : MessageDraft
  modelUsage : ModelUsage

inductive Thrown where
  | tenantMismatch
  | typeError
deriving DecidableEq

/-! ## The code -/

/-- `v ?? default`. -/
def orElse (v : Option Json) (default : Json) : Json :=
  match v with
  | none | some .null => default
  | some v => v

def evidenceSummary (e : ResearchEvidence) : JsValue :=
  .obj [("evidenceId", .str e.evidenceId), ("claimType", .str e.claimType),
    ("value", .ofJson e.normalizedValue), ("confidence", .num e.confidence)]

/-- The evidence that the prompt shows. -/
def shown (lead : Lead) (evidence : List ResearchEvidence) : List ResearchEvidence :=
  evidence.filter fun e => e.tenantId = lead.tenantId

def buildPromptContext (platform : Platform) (plan : OutreachPlan) (lead : Lead)
    (evidence : List ResearchEvidence) : PromptContext where
  systemPromptVersion := "1"
  userMessage := "\n".intercalate [
    "You are an outreach writer. Generate a personalized outreach message.",
    "Every factual claim MUST reference one of the provided evidence IDs.",
    "Do not invent facts. Do not include PII. Keep tone professional.",
    "Return JSON: \x7b subject?, body, cta?, tone, claims: [\x7b text, evidenceId, confidence \x7d] \x7d.",
    "",
    "Lead score: " ++ platform.text (.num lead.overallScore),
    "Channel: " ++ plan.channel,
    "Step objective: " ++ plan.objectives.head?.getD "first-touch",
    "Evidence: " ++ platform.stringify (.arr ((shown lead evidence).map evidenceSummary))]
  toolsAvailable := []

/-- A draft as it is parsed. -/
structure Parsed where
  subject : Option Json := none
  body : Option Json
  cta : Option Json := none
  tone : Json
  rawClaims : Json

def parseDraft (platform : Platform) (conclusion rationale : String) (confidence : Rat) : Parsed :=
  match platform.parse conclusion with
  -- reading a property of `null` throws, which is caught like a syntax error
  | none | some .null => {
      body := some (.str conclusion)
      tone := .str "professional"
      rawClaims := .arr [.obj [("text", .str rationale), ("evidenceId", .str ""),
        ("confidence", .num confidence)]] }
  | some parsed => {
      subject := parsed.member? "subject"
      body := parsed.member? "body"
      cta := parsed.member? "cta"
      tone := orElse (parsed.member? "tone") (.str "professional")
      rawClaims := orElse (parsed.member? "claims") (.arr []) }

/-- What a `for … of` runs over; it throws over anything else. -/
def iterate : Json → Option (List Json)
  | .arr elements => some elements
  | .str s => some (s.toList.map fun c => .str (String.singleton c))
  | _ => none

/-- `evidenceIds.has(claim.evidenceId)`. -/
def supported (evidence : List ResearchEvidence) (claim : Json) : Bool :=
  match claim.member? "evidenceId" with
  | some (.str id) => evidence.any fun e => e.evidenceId = id
  | _ => false

/-- The loop of `verifyClaims`; reading a property of `null` throws. -/
def verifyLoop (evidence : List ResearchEvidence) (kept : List Json) (removed : List (Option Json)) :
    List Json → Except Thrown (List Json × List (Option Json))
  | [] => .ok (kept, removed)
  | .null :: _ => .error .typeError
  | claim :: claims =>
    if supported evidence claim then verifyLoop evidence (kept ++ [claim]) removed claims
    else verifyLoop evidence kept (removed ++ [claim.member? "text"]) claims

structure Verified where
  subject : Option Json
  body : Json
  cta : Option Json
  tone : Json
  claims : List Json
  unsupportedClaimsRemoved : List (Option Json)

def verifyClaims (parsed : Parsed) (evidence : List ResearchEvidence) : Except Thrown Verified :=
  match iterate parsed.rawClaims with
  | none => .error .typeError
  | some rawClaims =>
    match verifyLoop evidence [] [] rawClaims with
    | .error thrown => .error thrown
    | .ok (kept, removed) => .ok {
        subject := parsed.subject
        body := orElse parsed.body (.str "")
        cta := parsed.cta
        tone := parsed.tone
        claims := kept
        unsupportedClaimsRemoved := removed }

/-- The output that is proposed to the validator. -/
def Verified.members (v : Verified) : List (String × JsValue) :=
  [("subject", .ofOption v.subject), ("body", .ofJson v.body), ("cta", .ofOption v.cta),
    ("tone", .ofJson v.tone), ("claims", .arr (v.claims.map .ofJson)),
    ("unsupportedClaimsRemoved", .arr (v.unsupportedClaimsRemoved.map .ofOption))]

def stubUsage : ModelUsage where
  model := "stub"
  inputTokens := 0
  outputTokens := 0
  costUsd := 0

/-- `personalize`; the inner error is the one it returns. -/
def personalize (deps : Deps) (tenantId : String) (plan : OutreachPlan) (lead : Lead)
    (evidence : List ResearchEvidence) : Except Thrown (Except String PersonalizationResult) :=
  if tenantId ≠ lead.tenantId then .error .tenantMismatch
  else
    let output := deps.reason (buildPromptContext deps.platform plan lead evidence)
    let parsed := parseDraft deps.platform output.conclusion output.rationale output.confidence
    match verifyClaims parsed evidence with
    | .error thrown => .error thrown
    | .ok verified =>
      let validation := validate deps.platform deps.policy verified.members
      if !validation.valid || validation.piiCheck = .failed ||
          0 < validation.policyViolations.length then
        let reasons := (validation.policyViolations ++ validation.schemaViolations ++
          [if validation.piiCheck = .failed then "PII check failed" else ""]).filter (· ≠ "")
        .ok (.error ("Personalization rejected: " ++ "; ".intercalate reasons))
      else
        .ok (.ok {
          messageId := deps.generateMessageId
          draft := {
            subject := verified.subject
            body := validation.safeOutput
            cta := verified.cta
            tone := verified.tone
            claims := verified.claims
            evidenceReferences := verified.claims.map (Json.member? "evidenceId")
            unsupportedClaimsRemoved := verified.unsupportedClaimsRemoved }
          modelUsage := output.modelUsage.getD stubUsage })

/-! ## The claims that are kept -/

variable {evidence : List ResearchEvidence}

variable (evidence) in
theorem verifyLoop_eq (claims : List Json) : ∀ kept removed,
    (Json.null ∉ claims → verifyLoop evidence kept removed claims = .ok
      (kept ++ claims.filter (supported evidence), removed ++
        (claims.filter fun c => !supported evidence c).map (Json.member? "text"))) ∧
    (Json.null ∈ claims → verifyLoop evidence kept removed claims = .error .typeError) := by
  induction claims with
  | nil => intro kept removed; simp [verifyLoop]
  | cons claim claims ih =>
    intro kept removed
    by_cases hnull : claim = .null
    · subst hnull
      simp [verifyLoop]
    · have hmem : Json.null ∈ claim :: claims ↔ Json.null ∈ claims := by
        simp [Ne.symm hnull]
      rw [hmem, verifyLoop]
      · by_cases hsupported : supported evidence claim = true
        · rw [if_pos hsupported]
          obtain ⟨hok, herror⟩ := ih (kept ++ [claim]) removed
          refine ⟨fun h => ?_, herror⟩
          rw [hok h]
          simp [hsupported]
        · rw [if_neg hsupported]
          obtain ⟨hok, herror⟩ := ih kept (removed ++ [claim.member? "text"])
          refine ⟨fun h => ?_, herror⟩
          rw [hok h]
          simp [hsupported]
      · exact hnull

theorem supported_iff {claim : Json} :
    supported evidence claim = true ↔
      ∃ e ∈ evidence, claim.member? "evidenceId" = some (.str e.evidenceId) := by
  unfold supported
  cases claim.member? "evidenceId" with
  | none => simp
  | some v =>
    cases v with
    | str id =>
      simp only [List.any_eq_true, decide_eq_true_eq, Option.some.injEq, Json.str.injEq]
      exact ⟨fun ⟨e, he, hid⟩ => ⟨e, he, hid.symm⟩, fun ⟨e, he, hid⟩ => ⟨e, he, hid.symm⟩⟩
    | null | bool _ | num _ | arr _ | obj _ => simp

/-- What the service makes of a draft whose claims it can read. -/
def proposed (evidence : List ResearchEvidence) (parsed : Parsed) : Verified :=
  let claims := (iterate parsed.rawClaims).getD []
  { subject := parsed.subject
    body := orElse parsed.body (.str "")
    cta := parsed.cta
    tone := parsed.tone
    claims := claims.filter (supported evidence)
    unsupportedClaimsRemoved :=
      (claims.filter fun c => !supported evidence c).map (Json.member? "text") }

/-- **Kept are the claims that name any evidence**; where claims cannot be read, it throws. -/
theorem verifyClaims_eq (parsed : Parsed) (evidence : List ResearchEvidence) :
    ((∃ claims, iterate parsed.rawClaims = some claims ∧ Json.null ∉ claims) ∧
      verifyClaims parsed evidence = .ok (proposed evidence parsed)) ∨
    (¬ (∃ claims, iterate parsed.rawClaims = some claims ∧ Json.null ∉ claims) ∧
      verifyClaims parsed evidence = .error .typeError) := by
  unfold verifyClaims proposed
  cases hiterate : iterate parsed.rawClaims with
  | none => simp
  | some claims =>
    obtain ⟨hok, herror⟩ := verifyLoop_eq evidence claims [] []
    by_cases hnull : Json.null ∈ claims
    · exact .inr ⟨by simp [hnull], by simp [herror hnull]⟩
    · exact .inl ⟨⟨claims, rfl, hnull⟩, by simp [hok hnull]⟩

/-- **Every claim is kept or its text is listed.** -/
theorem verifyClaims_accounts {parsed : Parsed} {v : Verified} {claims : List Json}
    (h : verifyClaims parsed evidence = .ok v) (hclaims : iterate parsed.rawClaims = some claims) :
    ∃ dropped, claims.Perm (v.claims ++ dropped) ∧
      v.unsupportedClaimsRemoved = dropped.map (Json.member? "text") := by
  obtain ⟨-, hok⟩ | ⟨-, herror⟩ := verifyClaims_eq parsed evidence
  · rw [h] at hok
    cases hok
    refine ⟨claims.filter fun c => !supported evidence c, ?_, by simp [proposed, hclaims]⟩
    simp only [proposed, hclaims, Option.getD_some]
    exact (List.filter_append_perm _ _).symm
  · rw [h] at herror
    cases herror

/-- Over evidence of the lead's tenant the kept claims name what the prompt shows. -/
theorem claims_shown {lead : Lead} {parsed : Parsed} {v : Verified}
    (htenant : ∀ e ∈ evidence, e.tenantId = lead.tenantId)
    (h : verifyClaims parsed evidence = .ok v) :
    ∀ c ∈ v.claims, ∃ e ∈ shown lead evidence,
      c.member? "evidenceId" = some (.str e.evidenceId) := by
  intro c hc
  obtain ⟨-, hok⟩ | ⟨-, herror⟩ := verifyClaims_eq parsed evidence
  · rw [h] at hok
    cases hok
    obtain ⟨e, he, hid⟩ := supported_iff.mp (List.mem_filter.mp hc).2
    exact ⟨e, List.mem_filter.mpr ⟨he, by simpa using htenant e he⟩, hid⟩
  · rw [h] at herror
    cases herror

/-! ## Drafts as they should be -/

/-- The body of a conclusion; one that is no JSON is a body. -/
def bodyText (platform : Platform) (conclusion : String) : Option String :=
  match platform.parse conclusion with
  | none => some conclusion
  | some v =>
    match v.member? "body" with
    | none | some .null => some ""
    | some (.str s) => some s
    | some _ => none

/-- The claims of a conclusion. -/
def claimsOf (platform : Platform) (conclusion : String) : List Json :=
  match (platform.parse conclusion).bind (Json.member? "claims") with
  | some (.arr claims) => claims
  | _ => []

/-- **A draft is text, and its claims are backed by what the model was shown.** -/
structure GroundedDraft (platform : Platform) (lead : Lead) (evidence : List ResearchEvidence)
    (conclusion : String) (draft : MessageDraft) : Prop where
  body : ∃ text, bodyText platform conclusion = some text ∧ draft.body = .str (filterText text)
  claims : ∀ c ∈ draft.claims, ∃ e ∈ shown lead evidence,
    c.member? "evidenceId" = some (.str e.evidenceId)
  references : ∀ r ∈ draft.evidenceReferences, ∃ e ∈ shown lead evidence,
    r = some (.str e.evidenceId)
  accounted : ∃ dropped, (claimsOf platform conclusion).Perm (draft.claims ++ dropped) ∧
    (dropped.map (Json.member? "text")).Sublist draft.unsupportedClaimsRemoved

/-- What a call may end with. -/
def Grounded (platform : Platform) (lead : Lead) (evidence : List ResearchEvidence)
    (conclusion : String) : Except Thrown (Except String PersonalizationResult) → Prop
  | .error thrown => thrown = .tenantMismatch
  | .ok (.error _) => True
  | .ok (.ok result) => GroundedDraft platform lead evidence conclusion result.draft

/-- The claims of a conclusion are a list without `null`, a text, or none at all. -/
def ClaimsReadable (platform : Platform) (conclusion : String) : Prop :=
  ∀ v, platform.parse conclusion = some v →
    match v.member? "claims" with
    | none | some .null | some (.str _) => True
    | some (.arr claims) => Json.null ∉ claims
    | some _ => False

theorem claimsReadable_iff (platform : Platform) (conclusion rationale : String)
    (confidence : Rat) :
    (∃ claims, iterate (parseDraft platform conclusion rationale confidence).rawClaims =
      some claims ∧ Json.null ∉ claims) ↔ ClaimsReadable platform conclusion := by
  unfold ClaimsReadable parseDraft
  cases platform.parse conclusion with
  | none => simp [iterate]
  | some v =>
    have hread : (∃ claims, iterate (orElse (v.member? "claims") (.arr [])) = some claims ∧
        Json.null ∉ claims) ↔ match v.member? "claims" with
          | none | some .null | some (.str _) => True
          | some (.arr claims) => Json.null ∉ claims
          | some _ => False := by
      cases v.member? "claims" with
      | none => simp [orElse, iterate]
      | some raw => cases raw <;> simp [orElse, iterate]
    simp only [Option.some.injEq, forall_eq']
    rw [← hread]
    cases v with
    | null => simp [orElse, iterate, Json.member?]
    | bool _ | num _ | str _ | arr _ | obj _ => exact Iff.rfl

/-- What the engine answers to the prompt. -/
def answer (deps : Deps) (plan : OutreachPlan) (lead : Lead) (evidence : List ResearchEvidence) :
    ReasoningOutput :=
  deps.reason (buildPromptContext deps.platform plan lead evidence)

/-- The output that a policy is asked about. -/
def proposedOutput (deps : Deps) (evidence : List ResearchEvidence) (output : ReasoningOutput) :
    List (String × JsValue) :=
  (proposed evidence
    (parseDraft deps.platform output.conclusion output.rationale output.confidence)).members

/-- **A draft is never what it should be**: the service keeps the promise only where the policy
refuses the output, or the tenants differ. -/
theorem personalize_grounded_iff (deps : Deps) (tenantId : String) (plan : OutreachPlan)
    (lead : Lead) (evidence : List ResearchEvidence) :
    Grounded deps.platform lead evidence (answer deps plan lead evidence).conclusion
        (personalize deps tenantId plan lead evidence) ↔
      tenantId ≠ lead.tenantId ∨
        ClaimsReadable deps.platform (answer deps plan lead evidence).conclusion ∧
          ¬ Accepted deps.platform deps.policy
            (proposedOutput deps evidence (answer deps plan lead evidence)) := by
  unfold personalize
  by_cases htenant : tenantId ≠ lead.tenantId
  · rw [if_pos htenant]
    exact iff_of_true rfl (.inl htenant)
  rw [if_neg htenant, or_iff_right htenant]
  dsimp only
  rw [← answer]
  generalize answer deps plan lead evidence = output
  rw [← claimsReadable_iff deps.platform output.conclusion output.rationale output.confidence,
    proposedOutput]
  generalize parseDraft deps.platform output.conclusion output.rationale output.confidence = parsed
  obtain ⟨hreadable, hok⟩ | ⟨hreadable, herror⟩ := verifyClaims_eq parsed evidence
  · rw [hok, and_iff_right hreadable, ← valid_iff]
    dsimp only
    by_cases hvalid : (validate deps.platform deps.policy
      (proposed evidence parsed).members).valid = true
    · rw [if_neg (by simp [hvalid, piiCheck_eq_passed hvalid, policyViolations_eq_nil hvalid])]
      refine iff_of_false (fun hdraft => ?_) (not_not_intro hvalid)
      -- The validator returns an object, whatever the body was.
      obtain ⟨text, -, hbody⟩ := hdraft.body
      cases hbody
    · rw [if_pos (by simp [hvalid])]
      exact iff_of_true trivial hvalid
  · rw [herror]
    exact iff_of_false (fun h => nomatch h) fun h => hreadable h.1

/-! ## Drafts as they are -/

/-- A conclusion with a body. -/
def hello : String := "\x7b\"body\":\"Hello\"\x7d"

/-- One with a `null` among its claims. -/
def nullClaim : String := "\x7b\"claims\":[null]\x7d"

/-- The built-in functions on the two conclusions and on what is made of them. -/
def examplePlatform : Platform where
  parse s :=
    if s = hello then some (.obj [("body", .str "Hello")])
    else if s = nullClaim then some (.obj [("claims", .arr [.null])])
    else none
  stringify
    | .arr _ => "[]"
    | _ =>
      "\x7b\"body\":\"Hello\",\"tone\":\"professional\",\"claims\":[]," ++
        "\"unsupportedClaimsRemoved\":[]\x7d"
  text _ := "50"

/-- A policy without rules, and a model with one conclusion. -/
def exampleDeps (conclusion : String) : Deps where
  platform := examplePlatform
  policy := ⟨[], [], [], [], none⟩
  reason _ := { conclusion, rationale := "r", confidence := 1 }
  generateMessageId := "msg-1"

def examplePlan : OutreachPlan where
  channel := "email"
  objectives := []

def exampleLead : Lead where
  tenantId := "t"
  overallScore := 50

def helloDraft : MessageDraft where
  subject := none
  body := .obj [("subject", .undefined), ("body", .str "Hello"), ("cta", .undefined),
    ("tone", .str "professional"), ("claims", .arr []), ("unsupportedClaimsRemoved", .arr [])]
  cta := none
  tone := .str "professional"
  claims := []
  evidenceReferences := []
  unsupportedClaimsRemoved := []

/-- Evidence of another tenant. -/
def foreignEvidence : ResearchEvidence where
  evidenceId := "ev-1"
  tenantId := "u"
  claimType := "funding"
  normalizedValue := .str "Series B"
  confidence := 1

def fundingClaim : Json := .obj [("text", .str "Series B"), ("evidenceId", .str "ev-1")]

/-- The body of a draft is an object, and a `null` among the claims makes the service throw. A claim
is kept for evidence of another tenant, which the prompt does not show. -/
theorem personalize_not_grounded :
    personalize (exampleDeps hello) "t" examplePlan exampleLead [] =
      .ok (.ok ⟨"msg-1", helloDraft, stubUsage⟩) ∧
    ¬ Grounded examplePlatform exampleLead [] hello
      (personalize (exampleDeps hello) "t" examplePlan exampleLead []) ∧
    personalize (exampleDeps nullClaim) "t" examplePlan exampleLead [] = .error .typeError ∧
    supported [foreignEvidence] fundingClaim = true ∧
      shown exampleLead [foreignEvidence] = [] := by
  have hdraft : personalize (exampleDeps hello) "t" examplePlan exampleLead [] =
      .ok (.ok ⟨"msg-1", helloDraft, stubUsage⟩) := by rfl
  refine ⟨hdraft, ?_, by rfl, by decide, by decide⟩
  rw [hdraft]
  intro hgrounded
  obtain ⟨text, -, hbody⟩ := hgrounded.body
  cases hbody

end VegaRevenue.Outreach.Personalization
