import Mathlib.Logic.Relation
import VegaRevenue.Domain.MessageExecution

/-!
# The histories of a message execution

What the operations do to the status, the attempts and the acceptance of one execution, whatever
else they write and whether or not their transition is refused.

* `Path` — the published table, with the two edges of the operator
* `Path.eq_of_final` — a final status is never left
* `Goes` — what an operation owes the history, one lemma for each
-/

namespace VegaRevenue.MessageExecution

/-! ## Paths -/

/-- The verdicts of the operator. -/
def Status.verdicts : Status → List Status
  | deliveryUnknown | requiresReconciliation => [.delivered, .failed]
  | _ => []

/-- The table, and the verdicts of the operator. -/
def Edge (s s' : Status) : Prop := s' ∈ s.transitions ++ s.verdicts

instance (s s' : Status) : Decidable (Edge s s') :=
  inferInstanceAs (Decidable (_ ∈ _))

def Path : Status → Status → Prop := Relation.ReflTransGen Edge

/-- The statuses in which an execution ends. -/
def Status.isFinal : Status → Bool
  | failedPreSubmission | deliveryFailed | bounced | cancelled | failed | replied => true
  | _ => false

theorem not_edge_of_final {s s' : Status} (h : s.isFinal = true) : ¬ Edge s s' := by
  cases s <;> first | exact List.not_mem_nil | cases h

/-- **A final status is never left.** -/
theorem Path.eq_of_final {s s' : Status} (h : Path s s') (hs : s.isFinal = true) : s' = s := by
  rcases Relation.ReflTransGen.cases_head h with heq | ⟨t, hedge, -⟩
  · exact heq.symm
  · exact absurd hedge (not_edge_of_final hs)

theorem Edge.path {s s' : Status} (h : Edge s s') : Path s s' := .single h

theorem edge_of_canTransition {s s' : Status} (h : canTransition s s' = true) : Edge s s' :=
  List.mem_append_left _ (of_decide_eq_true h)

/-! ## Acceptance -/

/-- The statuses of a message that the provider took. -/
def Status.isAccepted : Status → Bool
  | providerAccepted | deliveryPending | delivered | opened | replied | deliveryFailed
  | deliveryUnknown | requiresReconciliation | failed => true
  | _ => false

/-- An execution with a recorded acceptance is past the submission. -/
def Accepted (s : Props) : Prop := s.providerAcceptedAt ≠ none → s.status.isAccepted = true

theorem Edge.accepted {s s' : Status} (h : Edge s s') (hs : s.isAccepted = true) :
    s'.isAccepted = true := by
  revert h hs
  cases s <;> cases s' <;> decide

theorem Path.accepted {s s' : Status} (h : Path s s') (hs : s.isAccepted = true) :
    s'.isAccepted = true := by
  induction h with
  | refl => exact hs
  | tail _ hedge ih => exact hedge.accepted ih

theorem Accepted.not_failedPreSubmission {s : Props} (h : Accepted s)
    (hat : s.providerAcceptedAt ≠ none) : s.status ≠ .failedPreSubmission := by
  intro hs
  have haccepted := h hat
  rw [hs] at haccepted
  cases haccepted

/-! ## What an operation owes the history -/

/-- `b` is `a` after operations that keep to the paths, count `n` attempts and record no acceptance
before the submission. -/
structure Goes (n : Nat) (a b : MessageExecution) : Prop where
  keeps : Keeps a b
  path : Path a.state.status b.state.status
  attempts : b.state.attempts = a.state.attempts + n
  accepted : Accepted a.state → Accepted b.state

theorem Goes.refl (a : MessageExecution) : Goes 0 a a := ⟨.refl a, .refl, rfl, id⟩

theorem Goes.trans {n : Nat} {a b c : MessageExecution} (h : Goes 0 a b) (h' : Goes n b c) :
    Goes n a c :=
  ⟨h.keeps.trans h'.keeps, h.path.trans h'.path, by rw [h'.attempts, h.attempts]; rfl,
    h'.accepted ∘ h.accepted⟩

/-- A write that leaves the history alone. -/
theorem Goes.write (a : MessageExecution) {s : Props} (hs : s.status = a.state.status)
    (hi : s.identity = a.state.identity) (hattempts : s.attempts = a.state.attempts)
    (hat : s.providerAcceptedAt = a.state.providerAcceptedAt) : Goes 0 a (a.write s) where
  keeps := .write a hs hi
  path := by
    rw [Versioned.Aggregate.write_state, hs]
    exact .refl
  attempts := hattempts
  accepted := by
    intro h hsome
    rw [Versioned.Aggregate.write_state] at hsome ⊢
    rw [hs]
    rw [hat] at hsome
    exact h hsome

theorem transition_goes (a : MessageExecution) (target : Status) (reason : Option String)
    (now : Date) : Goes 0 a (transition a target reason now).1 := by
  have hkeeps := transition_keeps a target reason now
  rcases transition_eq a target reason now with ⟨hcan, -, -, -, hstate⟩ | ⟨-, -, heq⟩
  · have hpath : Path a.state.status target := (edge_of_canTransition hcan).path
    refine ⟨hkeeps, ?_, ?_, ?_⟩
    · rw [hstate]
      exact hpath
    · rw [hstate]
      rfl
    · intro h hsome
      rw [hstate] at hsome ⊢
      exact hpath.accepted (h hsome)
  · rw [heq]
    exact .refl a

/-- A write that leaves the history alone, then a transition. -/
theorem write_transition_goes (a : MessageExecution) {s : Props}
    (hs : s.status = a.state.status) (hi : s.identity = a.state.identity)
    (hattempts : s.attempts = a.state.attempts)
    (hat : s.providerAcceptedAt = a.state.providerAcceptedAt) (target : Status)
    (reason : Option String) (now : Date) : Goes 0 a (transition (a.write s) target reason now).1 :=
  (Goes.write a hs hi hattempts hat).trans (transition_goes _ target reason now)

/-! ## The operations -/

section

variable (a : MessageExecution) (reason : String) (now : Date)

/-- A new execution has the acceptance it was given. -/
theorem create_accepted {props : Props} {a : MessageExecution} (h : create props = .ok a)
    (hat : props.providerAcceptedAt = none) : Accepted a.state := by
  unfold create at h
  split at h
  · cases h
  · split at h
    · cases h
    · cases h
      exact fun hsome => absurd hat hsome

theorem startDrafting_goes : Goes 0 a (startDrafting a now).1 := transition_goes a _ _ now

theorem setDraft_goes (messageId : String) (draft : MessageDraft) :
    Goes 0 a (setDraft a messageId draft now).1 := by
  unfold setDraft
  split
  · exact .refl a
  · exact write_transition_goes a (by rfl) (by rfl) (by rfl) (by rfl) _ _ now

theorem reject_goes : Goes 0 a (reject a reason now).1 := by
  unfold reject
  split
  · exact .refl a
  · exact write_transition_goes a (by rfl) (by rfl) (by rfl) (by rfl) _ _ now

theorem approve_goes (approvalId : String) : Goes 0 a (approve a approvalId now).1 := by
  unfold approve
  split
  · exact .refl a
  · exact write_transition_goes a (by rfl) (by rfl) (by rfl) (by rfl) _ _ now

theorem markSending_goes : Goes 0 a (markSending a now).1 := transition_goes a _ _ now

/-- An attempt is counted, and the version stays. -/
theorem markProviderAttempt_goes {a : MessageExecution} (h : a.state.status = .sending)
    (providerId : String) : Goes 1 a (markProviderAttempt a providerId now).1 := by
  have hkeeps := markProviderAttempt_keeps a providerId now
  unfold markProviderAttempt at hkeeps ⊢
  rw [if_neg (not_not_intro h)] at hkeeps ⊢
  exact ⟨hkeeps, .refl, rfl, id⟩

/-- The acceptance is recorded before the transition is checked: from another status than SENDING
it would be recorded and the transition refused. -/
theorem markProviderAccepted_goes {a : MessageExecution} (h : a.state.status = .sending)
    (providerMessageId internetMessageId providerErrorCode : Option String) :
    Goes 0 a (markProviderAccepted a providerMessageId internetMessageId providerErrorCode now).1 := by
  have hkeeps := markProviderAccepted_keeps a providerMessageId internetMessageId
    providerErrorCode now
  let b := a.write (a.state.withAcceptance providerMessageId internetMessageId providerErrorCode now)
  have hb : canTransition b.state.status .providerAccepted = true := by
    show canTransition a.state.status .providerAccepted = true
    rw [h]
    rfl
  have hpath : Path a.state.status .providerAccepted := (edge_of_canTransition hb).path
  rcases transition_eq b .providerAccepted
    (some ("Provider accepted: " ++ providerMessageId.getD "no message id")) now with
    ⟨-, -, -, -, hstate⟩ | ⟨hno, -, -⟩
  · refine ⟨hkeeps, ?_, ?_, ?_⟩ <;> unfold markProviderAccepted <;> rw [hstate]
    · exact hpath
    · rfl
    · exact fun _ _ => rfl
  · rw [hb] at hno
    cases hno

theorem markDeliveryPending_goes : Goes 0 a (markDeliveryPending a now).1 :=
  transition_goes a _ _ now

theorem markDelivered_goes (internetMessageId : Option String) :
    Goes 0 a (markDelivered a internetMessageId now).1 :=
  write_transition_goes a (by rfl) (by rfl) (by rfl) (by rfl) _ _ now

theorem markOpened_goes : Goes 0 a (markOpened a now).1 := transition_goes a _ _ now

theorem markReplied_goes : Goes 0 a (markReplied a now).1 := transition_goes a _ _ now

theorem markFailed_goes (classification : RetryClassification) (providerErrorCode : Option String) :
    Goes 0 a (markFailed a classification reason providerErrorCode now).1 := by
  have hwritten := Goes.write a (s := a.state.withFailure classification reason providerErrorCode now)
    (by rfl) (by rfl) (by rfl) (by rfl)
  unfold markFailed
  dsimp only
  split
  · split
    · exact hwritten.trans (.write _ (by rfl) (by rfl) (by rfl) (by rfl))
    · exact hwritten.trans (transition_goes _ _ _ now)
  · split
    · exact hwritten.trans (transition_goes _ _ _ now)
    · split
      · exact hwritten.trans
          (write_transition_goes _ (by rfl) (by rfl) (by rfl) (by rfl) _ _ now)
      · exact hwritten.trans (transition_goes _ _ _ now)

theorem markDeliveryUnknown_goes : Goes 0 a (markDeliveryUnknown a reason now).1 :=
  write_transition_goes a (by rfl) (by rfl) (by rfl) (by rfl) _ _ now

theorem markRequiresReconciliation_goes : Goes 0 a (markRequiresReconciliation a reason now).1 :=
  write_transition_goes a (by rfl) (by rfl) (by rfl) (by rfl) _ _ now

/-- The verdicts do not consult the table; they are edges where the status is to be reconciled. -/
theorem markReconciledDelivered_goes (internetMessageId : Option String)
    (h : Status.delivered ∈ a.state.status.verdicts) :
    Goes 0 a (markReconciledDelivered a internetMessageId now).1 := by
  have hkeeps := markReconciledDelivered_keeps a internetMessageId now
  have hpath : Path a.state.status .delivered := Edge.path (List.mem_append_right _ h)
  unfold markReconciledDelivered at hkeeps ⊢
  dsimp only at hkeeps ⊢
  split at hkeeps
  next hblank =>
    rw [if_pos hblank]
    exact ⟨hkeeps, hpath, rfl, fun _ _ => rfl⟩
  next hblank =>
    rw [if_neg hblank]
    exact ⟨hkeeps, hpath, rfl, fun _ _ => rfl⟩

theorem markReconciledFailed_goes (h : Status.failed ∈ a.state.status.verdicts) :
    Goes 0 a (markReconciledFailed a reason now).1 :=
  ⟨markReconciledFailed_keeps a reason now, Edge.path (List.mem_append_right _ h), rfl,
    fun _ _ => rfl⟩

end

end VegaRevenue.MessageExecution
