import VegaRevenue.Lib.Versioned
import VegaRevenue.Shared.Json
import VegaRevenue.Shared.Number
import VegaRevenue.Shared.Result

/-!
# The lead aggregate

A lead is evaluated once against the thresholds of its profile; what the evaluation saw is kept in
a snapshot. A reviewer and a conversation may decide on it afterwards.
-/

namespace VegaRevenue.Lead

inductive Status where
  | pending
  | evaluating
  | qualified
  | notQualified
  | needsReview
deriving DecidableEq

def Status.name : Status → String
  | pending => "PENDING"
  | evaluating => "EVALUATING"
  | qualified => "QUALIFIED"
  | notQualified => "NOT_QUALIFIED"
  | needsReview => "NEEDS_REVIEW"

/-- `LeadScores`. -/
structure Scores (number : Type) where
  icpMatch : number
  signalScore : number
  intentScore : number
  evidenceConfidence : number
  overall : number
deriving DecidableEq

inductive QualificationOutcome where
  | qualified
  | needsReview
  | notQualified
deriving DecidableEq

def QualificationOutcome.status : QualificationOutcome → Status
  | qualified => .qualified
  | needsReview => .needsReview
  | notQualified => .notQualified

structure HardFilterResult where
  filter : String
  passed : Bool
deriving DecidableEq

/-- `HARD_FILTER_CODES`. -/
def hardFilterCodes : List String :=
  ["INDUSTRY", "GEOGRAPHY", "COMPANY_SIZE", "TERRITORY", "EXCLUDED_INDUSTRY"]

structure QualificationSnapshot where
  snapshotSchemaVersion : String
  scoringPolicyVersion : String
  algorithmVersion : String
  evaluatedAt : Date
  icpProfileId : String
  icpProfileVersionId : String
  normalizedFeatures : Json
  hardFilterResults : List HardFilterResult
  scores : Scores Rat
  /-- `thresholdsUsed`. -/
  qualification : Rat
  review : Rat
  evidenceIds : List String
  signalIds : List String
  reasonCodes : List String
  finalOutcome : QualificationOutcome
  reasoningArtifactId : Option String

structure Props where
  id : String
  tenantId : String
  workspaceId : String
  missionId : Option String := none
  accountId : String
  contactId : String
  icpProfileId : String := ""
  icpProfileVersionId : String := ""
  /-- `scores.overall`. -/
  overall : Rat := 0
  /-- The other members of `scores`. -/
  icpMatch : Rat := 0
  signalScore : Rat := 0
  intentScore : Rat := 0
  evidenceConfidence : Rat := 0
  status : Status := .pending
  decisionReason : Option String := none
  reasonCodes : List String := []
  qualificationSnapshot : Option QualificationSnapshot := none
  evidenceReferences : List String := []
  createdAt : Date
  updatedAt : Date

/-- The payloads of the events. -/
inductive Event where
  | qualified (leadId accountId contactId : String) (score : Rat)
  | requiresReview (leadId accountId contactId reason : String)
  | disqualified (leadId accountId contactId reason : String)
deriving DecidableEq

/-- `'QUALIFIED' | 'NOT_QUALIFIED'`. -/
inductive ConversationOutcome where
  | qualified
  | notQualified
deriving DecidableEq

def ConversationOutcome.status : ConversationOutcome → Status
  | qualified => .qualified
  | notQualified => .notQualified

end Lead

abbrev Lead := Versioned.Aggregate Lead.Props Lead.Event

namespace Lead

/-! ## What an evaluation is given -/

/-- What a caller may hand in as a feature: JSON, and what `isJsonSafe` refuses. An array or an
object comes with the reference it is known by; a cycle is unfolded until its reference comes
back. -/
inductive JsValue where
  | null
  | bool (b : Bool)
  | num (n : JsNumber)
  | str (s : String)
  /-- A function, `undefined`, a symbol, a bigint, or a `Date`, `RegExp`, `Map` or `Set`. -/
  | other
  | arr (ref : Nat) (elements : List JsValue)
  | obj (ref : Nat) (members : List (String × JsValue))

/-! `isJsonSafe` with the references seen so far; `none` is its `false`. -/

mutual

def isJsonSafe : JsValue → List Nat → Option (List Nat)
  | .null, seen | .bool _, seen | .str _, seen => some seen
  | .num n, seen => if n.isFinite then some seen else none
  | .other, _ => none
  | .arr ref elements, seen =>
    if ref ∈ seen then none else elementsJsonSafe elements (ref :: seen)
  | .obj ref members, seen =>
    if ref ∈ seen then none else membersJsonSafe members (ref :: seen)

def elementsJsonSafe : List JsValue → List Nat → Option (List Nat)
  | [], seen => some seen
  | v :: vs, seen => (isJsonSafe v seen).bind (elementsJsonSafe vs)

def membersJsonSafe : List (String × JsValue) → List Nat → Option (List Nat)
  | [], seen => some seen
  | (_, v) :: ms, seen => (isJsonSafe v seen).bind (membersJsonSafe ms)

end

/-! `JSON.parse(JSON.stringify(v))`. -/

mutual

def deepClone : JsValue → Json
  | .null | .other => .null
  | .bool b => .bool b
  | .num (.finite q) => .num q
  | .num _ => .null
  | .str s => .str s
  | .arr _ elements => .arr (elementsClone elements)
  | .obj _ members => .obj (membersClone members)

def elementsClone : List JsValue → List Json
  | [] => []
  | v :: vs => deepClone v :: elementsClone vs

def membersClone : List (String × JsValue) → List (String × Json)
  | [] => []
  | (name, v) :: ms => (name, deepClone v) :: membersClone ms

end

structure EvaluationInput where
  scores : Scores JsNumber
  qualificationThreshold : JsNumber
  reviewThreshold : JsNumber
  hardFilterResults : List HardFilterResult
  evidenceIds : List String
  signalIds : List String
  normalizedFeatures : JsValue
  snapshotSchemaVersion : String
  scoringPolicyVersion : String
  algorithmVersion : String
  /-- `none` is what is not a valid `Date`. -/
  evaluatedAt : Option Date
  reasoningArtifactId : Option String := none

/-- The numbers and the date of an input that passes its checks. -/
structure Evaluation where
  scores : Scores Rat
  qualificationThreshold : Rat
  reviewThreshold : Rat
  evaluatedAt : Date

def component (key : String) : JsNumber → Except String Rat
  | .finite q => .ok q
  | _ => .error s!"Score component {key} must be finite"

def Scores.check (s : Scores JsNumber) : Except String (Scores Rat) :=
  if s.overall.lt (.finite 0) || (JsNumber.finite 1).lt s.overall then
    .error "Overall lead score must be between 0 and 1"
  else do
    let icpMatch ← component "icpMatch" s.icpMatch
    let signalScore ← component "signalScore" s.signalScore
    let intentScore ← component "intentScore" s.intentScore
    let evidenceConfidence ← component "evidenceConfidence" s.evidenceConfidence
    let overall ← component "overall" s.overall
    .ok ⟨icpMatch, signalScore, intentScore, evidenceConfidence, overall⟩

def checkThresholds (qualificationThreshold reviewThreshold : JsNumber) :
    Except String (Rat × Rat) :=
  match qualificationThreshold, reviewThreshold with
  | .finite qualification, .finite review =>
    if qualification < review then .error "qualificationThreshold must be >= reviewThreshold"
    else .ok (qualification, review)
  | _, _ => .error "Thresholds must be finite numbers"

/-- The checks that follow those of the numbers. -/
def EvaluationInput.checkRest (input : EvaluationInput) : Except String Date :=
  match input.evaluatedAt with
  | none => .error "evaluatedAt must be a valid Date"
  | some evaluatedAt =>
    if input.snapshotSchemaVersion = "" then .error "snapshotSchemaVersion must be non-empty"
    else if input.scoringPolicyVersion = "" then .error "scoringPolicyVersion must be non-empty"
    else if input.algorithmVersion = "" then .error "algorithmVersion must be non-empty"
    else if (isJsonSafe input.normalizedFeatures []).isNone then
      .error ("normalizedFeatures must be JSON-safe " ++
        "(no functions, cycles, undefined, NaN, Infinity)")
    else
      match input.hardFilterResults.find? fun hf => hf.filter ∉ hardFilterCodes with
      | some hf =>
        .error (s!"Invalid hard filter code: {hf.filter}. Must be one of: " ++
          ", ".intercalate hardFilterCodes)
      | none => .ok evaluatedAt

def EvaluationInput.check (input : EvaluationInput) : Except String Evaluation := do
  let scores ← input.scores.check
  let (qualification, review) ←
    checkThresholds input.qualificationThreshold input.reviewThreshold
  let evaluatedAt ← input.checkRest
  .ok ⟨scores, qualification, review, evaluatedAt⟩

/-! ## The operations -/

def create (props : Props) : Lead := .init { props with status := .pending }

def EvaluationInput.failedFilters (input : EvaluationInput) : List HardFilterResult :=
  input.hardFilterResults.filter fun hf => !hf.passed

/-- The outcome with its reason codes. -/
def EvaluationInput.decision (input : EvaluationInput) (e : Evaluation) :
    QualificationOutcome × List String :=
  if input.failedFilters ≠ [] then
    (.notQualified, input.failedFilters.map fun ff => "HARD_FILTER_FAIL:" ++ ff.filter)
  else if e.qualificationThreshold ≤ e.scores.overall then
    (.qualified, ["SCORE_ABOVE_QUALIFICATION_THRESHOLD"])
  else if e.reviewThreshold ≤ e.scores.overall then
    (.needsReview, ["SCORE_BETWEEN_REVIEW_AND_QUALIFICATION"])
  else (.notQualified, ["SCORE_BELOW_REVIEW_THRESHOLD"])

def EvaluationInput.snapshot (input : EvaluationInput) (e : Evaluation) (s : Props) :
    QualificationSnapshot :=
  let (finalOutcome, reasonCodes) := input.decision e
  { snapshotSchemaVersion := input.snapshotSchemaVersion
    scoringPolicyVersion := input.scoringPolicyVersion
    algorithmVersion := input.algorithmVersion
    evaluatedAt := e.evaluatedAt
    icpProfileId := s.icpProfileId
    icpProfileVersionId := s.icpProfileVersionId
    normalizedFeatures := deepClone input.normalizedFeatures
    hardFilterResults := input.hardFilterResults
    scores := e.scores
    qualification := e.qualificationThreshold
    review := e.reviewThreshold
    evidenceIds := input.evidenceIds
    signalIds := input.signalIds
    reasonCodes
    finalOutcome
    reasoningArtifactId := input.reasoningArtifactId.filter (· ≠ "") }

/-- What an evaluation that passes its checks does to the lead in `EVALUATING`. -/
def qualify (a : Lead) (input : EvaluationInput) (e : Evaluation) (now : Date) : Lead :=
  let (finalOutcome, reasonCodes) := input.decision e
  let reason := "; ".intercalate reasonCodes
  let b := a.write { a.state with
    qualificationSnapshot := some (input.snapshot e a.state)
    icpMatch := e.scores.icpMatch
    signalScore := e.scores.signalScore
    intentScore := e.scores.intentScore
    evidenceConfidence := e.scores.evidenceConfidence
    overall := e.scores.overall
    reasonCodes
    status := finalOutcome.status
    decisionReason := some reason
    evidenceReferences := a.state.evidenceReferences ++ input.evidenceIds
    updatedAt := now }
  b.applyEvent <| match finalOutcome with
    | .qualified => .qualified a.state.id a.state.accountId a.state.contactId e.scores.overall
    | .needsReview => .requiresReview a.state.id a.state.accountId a.state.contactId reason
    | .notQualified => .disqualified a.state.id a.state.accountId a.state.contactId reason

def evaluate (a : Lead) (input : EvaluationInput) (now : Date) : Lead × OpResult :=
  if a.state.qualificationSnapshot.isSome then
    (a, .fail "Evaluation is single-shot: qualificationSnapshot already exists")
  else if a.state.status ≠ .pending then
    (a, .fail s!"Cannot evaluate Lead in status {a.state.status.name}; must be PENDING")
  else
    match input.check with
    | .error message => (a, .fail message)
    | .ok e =>
      let b := a.write { a.state with status := .evaluating }
      (qualify b input e now, .ok)

def approve (a : Lead) (now : Date) : Lead :=
  if a.state.status ≠ .needsReview then a
  else
    (a.write { a.state with status := .qualified, updatedAt := now }).applyEvent
      (.qualified a.state.id a.state.accountId a.state.contactId a.state.overall)

def reject (a : Lead) (reason : String) (now : Date) : Lead :=
  if a.state.status ≠ .needsReview then a
  else
    (a.write { a.state with
      status := .notQualified
      decisionReason := some reason
      updatedAt := now }).applyEvent
        (.disqualified a.state.id a.state.accountId a.state.contactId reason)

def recordConversationOutcome (a : Lead) (outcome : ConversationOutcome) (reason : String)
    (now : Date) : Lead × OpResult :=
  if a.state.status = .notQualified ∧ outcome = .qualified then
    (a, .fail "Cannot re-qualify a permanently disqualified lead")
  else
    let b := a.write { a.state with
      status := outcome.status
      decisionReason := some reason
      updatedAt := now }
    let event := match outcome with
      | .qualified => .qualified a.state.id a.state.accountId a.state.contactId a.state.overall
      | .notQualified => .disqualified a.state.id a.state.accountId a.state.contactId reason
    (b.applyEvent event, .ok)

end VegaRevenue.Lead
