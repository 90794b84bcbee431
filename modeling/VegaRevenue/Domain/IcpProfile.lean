import Mathlib.Algebra.Order.Ring.Rat
import VegaRevenue.Lib.Versioned
import VegaRevenue.Shared.Result
import VegaRevenue.Shared.Text

/-!
# The ideal customer profile

What a workspace looks for: the filters an account has to pass, the criteria that speak for it, and
how its scores are weighed.
-/

namespace VegaRevenue.IcpProfile

/-- `ICPHardFilter`. -/
structure HardFilter where
  industries : Option (List String) := none
  minEmployees : Option Rat := none
  maxEmployees : Option Rat := none
  territories : Option (List String) := none
  excludedIndustries : Option (List String) := none

structure SoftCriterion where
  criterion : String
  weight : Rat

/-- `ICPScoringWeights`. -/
structure ScoringWeights where
  icpMatch : Rat
  signal : Rat
  intent : Rat
  evidenceConfidence : Rat

inductive Status where
  | active
  | archived
deriving DecidableEq

structure Props where
  id : Option String := none
  versionId : String
  version : Rat
  tenantId : String
  workspaceId : String
  name : String
  hardFilters : HardFilter := {}
  softCriteria : List SoftCriterion := []
  scoringWeights : ScoringWeights
  qualificationThreshold : Rat
  reviewThreshold : Rat
  status : Option Status := none
  createdAt : Option Date := none

/-- What the constructor makes of the properties. -/
structure State where
  id : String
  versionId : String
  versionNumber : Rat
  tenantId : String
  workspaceId : String
  name : String
  hardFilters : HardFilter
  softCriteria : List SoftCriterion
  scoringWeights : ScoringWeights
  qualificationThreshold : Rat
  reviewThreshold : Rat
  status : Status
  createdAt : Date

/-- The payload of `ICPProfileCreated`. -/
inductive Event where
  | created (profileId versionId : String) (version : Rat) (name : String)
deriving DecidableEq

end IcpProfile

abbrev IcpProfile := Versioned.Aggregate IcpProfile.State IcpProfile.Event

namespace IcpProfile

def validateVersion (version : Rat) : Option String :=
  if version.den ≠ 1 ∨ version < 1 then some "version must be a positive integer >= 1" else none

/-- `Object.values(scoringWeights).reduce((sum, w) => sum + w, 0)`. -/
def ScoringWeights.total (w : ScoringWeights) : Rat :=
  w.icpMatch + w.signal + w.intent + w.evidenceConfidence

def validateProps (props : Props) : Option String :=
  if trim props.name = "" then some "ICP profile name is required"
  else if props.qualificationThreshold < 0 ∨ 1 < props.qualificationThreshold then
    some "qualificationThreshold must be between 0 and 1"
  else if props.reviewThreshold < 0 ∨ 1 < props.reviewThreshold ∨
      props.qualificationThreshold < props.reviewThreshold then
    some "reviewThreshold must be between 0 and 1 and not exceed qualificationThreshold"
  else if 1 / 1000 < |props.scoringWeights.total - 1| then some "scoringWeights must sum to 1"
  else validateVersion props.version

def State.of (props : Props) (now : Date) : State where
  id := props.id.getD "icp-unknown"
  versionId := props.versionId
  versionNumber := props.version
  tenantId := props.tenantId
  workspaceId := props.workspaceId
  name := props.name
  hardFilters := props.hardFilters
  softCriteria := props.softCriteria
  scoringWeights := props.scoringWeights
  qualificationThreshold := props.qualificationThreshold
  reviewThreshold := props.reviewThreshold
  status := props.status.getD .active
  createdAt := props.createdAt.getD now

def create (props : Props) (now : Date) : Except String IcpProfile :=
  match validateProps props with
  | some message => .error message
  | none =>
    let profile := State.of props now
    .ok ((Versioned.Aggregate.init profile).applyEvent
      (.created profile.id profile.versionId profile.versionNumber profile.name))

/-- **The thresholds of a profile are ordered, between zero and one.** -/
theorem create_thresholds {props : Props} {now : Date} {profile : IcpProfile}
    (h : create props now = .ok profile) :
    0 ≤ profile.state.reviewThreshold ∧
      profile.state.reviewThreshold ≤ profile.state.qualificationThreshold ∧
      profile.state.qualificationThreshold ≤ 1 := by
  unfold create at h
  split at h
  · cases h
  next hvalid =>
    cases h
    unfold validateProps at hvalid
    split at hvalid
    · cases hvalid
    split at hvalid
    · cases hvalid
    next hqualification =>
      split at hvalid
      · cases hvalid
      next hreview =>
        rw [not_or, not_lt, not_lt] at hqualification
        rw [not_or, not_or, not_lt, not_lt, not_lt] at hreview
        exact ⟨hreview.1, hreview.2.2, hqualification.2⟩

end VegaRevenue.IcpProfile
