import Mathlib.Data.List.Nodup
import VegaRevenue.Lib.Machine

/-!
# Events that wait to be published

The calls of a source raise events, each under the id of its call, and the events wait until they
are cleared. Where every call has an id of its own, the waiting events have different ids iff no
call raised two.

* `distinct_iff_once` — the equivalence, throughout a history
-/

namespace Outbox

variable {S C E I : Type*}

structure Source (S C E I : Type*) where
  next : S → C → S
  raised : S → C → List E
  clears : C → Bool
  callId : C → I
  eventId : E → I
  eventId_raised : ∀ s c, ∀ e ∈ raised s c, eventId e = callId c

/-- A source and its waiting events, in the order raised. -/
structure Pending (S E : Type*) where
  state : S
  events : List E

namespace Source

variable (m : Source S C E I)

def call : Machine.Step (Pending S E) C Unit := fun p c =>
  ({ state := m.next p.state c
     events := if m.clears c then [] else p.events ++ m.raised p.state c }, ())

def Distinct (p : Pending S E) : Prop := (p.events.map m.eventId).Nodup

/-- The call raises one event at most, or it clears them. -/
def Once (p : Pending S E) (c : C) : Prop := m.clears c = true ∨ (m.raised p.state c).length ≤ 1

/-- The ids of the calls are different, and none is the id of a waiting event. -/
def Fresh (p : Pending S E) (calls : List C) : Prop :=
  (calls.map m.callId).Nodup ∧ ∀ c ∈ calls, m.callId c ∉ p.events.map m.eventId

variable {m} {p : Pending S E}

theorem map_raised (s : S) (c : C) :
    (m.raised s c).map m.eventId = List.replicate (m.raised s c).length (m.callId c) := by
  rw [List.eq_replicate_iff, List.length_map]
  refine ⟨rfl, fun i hi => ?_⟩
  obtain ⟨e, he, rfl⟩ := List.mem_map.mp hi
  exact m.eventId_raised s c e he

theorem nodup_map_raised_iff (s : S) (c : C) :
    ((m.raised s c).map m.eventId).Nodup ↔ (m.raised s c).length ≤ 1 := by
  rw [map_raised]
  exact List.nodup_replicate

/-- A call with an id of its own keeps the ids different iff it raises no second event. -/
theorem distinct_call_iff {c : C} (hp : m.Distinct p)
    (hfresh : m.callId c ∉ p.events.map m.eventId) :
    m.Distinct (m.call p c).1 ↔ m.Once p c := by
  unfold Distinct Once call
  dsimp only
  cases hclears : m.clears c with
  | true => simp
  | false =>
    rw [if_neg Bool.false_ne_true, List.map_append, List.nodup_append', nodup_map_raised_iff]
    constructor
    · exact fun h => .inr h.2.1
    · rintro (h | h)
      · cases h
      · refine ⟨hp, h, fun i hi hraised => hfresh ?_⟩
        obtain ⟨e, he, rfl⟩ := List.mem_map.mp hraised
        rw [← m.eventId_raised _ _ e he]
        exact hi

theorem Fresh.call {c : C} {calls : List C} (h : m.Fresh p (c :: calls)) :
    m.Fresh (m.call p c).1 calls := by
  obtain ⟨hnodup, hnew⟩ := h
  rw [List.map_cons, List.nodup_cons] at hnodup
  refine ⟨hnodup.2, fun d hd hmem => ?_⟩
  unfold Source.call at hmem
  dsimp only at hmem
  split at hmem
  · exact absurd hmem List.not_mem_nil
  · rw [List.map_append, List.mem_append] at hmem
    rcases hmem with hold | hraised
    · exact hnew d (List.mem_cons_of_mem c hd) hold
    · obtain ⟨e, he, heq⟩ := List.mem_map.mp hraised
      rw [m.eventId_raised _ _ e he] at heq
      exact hnodup.1 (heq ▸ List.mem_map_of_mem hd)

/-- **The waiting events have different ids throughout a history iff none of its calls raises a
second event.** -/
theorem distinct_iff_once (calls : List C) (hp : m.Distinct p) (hfresh : m.Fresh p calls) :
    Machine.Throughout m.call m.Distinct p calls ↔ Machine.Meets m.call m.Once p calls := by
  induction calls generalizing p with
  | nil => exact iff_true_right trivial |>.mpr hp
  | cons c calls ih =>
    have hnew := hfresh.2 c List.mem_cons_self
    rw [Machine.Throughout, Machine.Meets, and_iff_right hp, ← distinct_call_iff hp hnew]
    constructor
    · intro h
      exact ⟨h.start, (ih h.start hfresh.call).mp h⟩
    · rintro ⟨hcall, hrest⟩
      exact (ih hcall hfresh.call).mpr hrest

end Source

end Outbox
