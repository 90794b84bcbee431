import Mathlib.Data.List.Perm.Basic

/-!
# A slot for one message

A variable that a handler writes and a loop reads and clears. A message that is written over or
cleared before it was read is lost. The slot carries the history of its messages with it: those
that came, those that were read, and those that were lost, each with a note of when.

* `Slot.accounted` — every message that came was read, was lost or still waits to be read
* `Slot.InOrder` — the messages are read in the order they came, none twice and none left out
-/

/-- The variable, and the history of its messages, latest first; `N` is what is noted of a loss. -/
structure Slot (N M : Type*) where
  current : Option M
  /-- The message in the slot waits to be read. -/
  unread : Bool
  received : List M
  read : List M
  lost : List (N × M)
  accounted : received.Perm
    ((if unread then current.toList else []) ++ read ++ lost.map Prod.snd)
  origin : ∀ m ∈ current, m ∈ received

namespace Slot

variable {N M : Type*}

/-- The message that waits to be read. -/
def waiting (s : Slot N M) : List M := if s.unread then s.current.toList else []

def empty : Slot N M where
  current := none
  unread := false
  received := []
  read := []
  lost := []
  accounted := .nil
  origin := nofun

/-- A message comes. -/
def put (s : Slot N M) (note : N) (m : M) : Slot N M where
  current := some m
  unread := true
  received := m :: s.received
  read := s.read
  lost := s.waiting.map (note, ·) ++ s.lost
  accounted := by
    have h := s.accounted
    simp only [if_true, Option.toList_some, List.cons_append, List.nil_append,
      List.map_append, List.map_map, Function.comp_def, List.map_id', List.perm_cons]
    refine h.trans ?_
    rw [List.append_assoc]
    exact List.perm_append_comm_assoc _ _ _
  origin := by
    intro m' hm
    rw [Option.some.inj hm]
    exact List.mem_cons_self

/-- The loop reads the slot, which stays as it is. -/
def take (s : Slot N M) : Slot N M where
  current := s.current
  unread := false
  received := s.received
  read := s.waiting ++ s.read
  lost := s.lost
  accounted := by
    have h := s.accounted
    simpa [waiting] using h
  origin := s.origin

/-- The loop clears the slot. -/
def clear (s : Slot N M) (note : N) : Slot N M where
  current := none
  unread := false
  received := s.received
  read := s.read
  lost := s.waiting.map (note, ·) ++ s.lost
  accounted := by
    have h := s.accounted
    simp only [Bool.false_eq_true, if_false, List.nil_append, List.map_append, List.map_map,
      Function.comp_def, List.map_id']
    refine h.trans ?_
    rw [List.append_assoc]
    exact List.perm_append_comm_assoc _ _ _
  origin := nofun

variable (s : Slot N M) (note : N) (m : M)

@[simp] theorem current_put : (s.put note m).current = some m := rfl
@[simp] theorem current_take : s.take.current = s.current := rfl
@[simp] theorem current_clear : (s.clear note).current = none := rfl
@[simp] theorem lost_put : (s.put note m).lost = s.waiting.map (note, ·) ++ s.lost := rfl
@[simp] theorem lost_take : s.take.lost = s.lost := rfl
@[simp] theorem lost_clear : (s.clear note).lost = s.waiting.map (note, ·) ++ s.lost := rfl
@[simp] theorem read_put : (s.put note m).read = s.read := rfl
@[simp] theorem read_take : s.take.read = s.waiting ++ s.read := rfl
@[simp] theorem read_clear : (s.clear note).read = s.read := rfl
@[simp] theorem received_put : (s.put note m).received = m :: s.received := rfl
@[simp] theorem received_take : s.take.received = s.received := rfl
@[simp] theorem received_clear : (s.clear note).received = s.received := rfl
@[simp] theorem waiting_put : (s.put note m).waiting = [m] := rfl
@[simp] theorem waiting_take : s.take.waiting = [] := rfl
@[simp] theorem waiting_clear : (s.clear note).waiting = [] := rfl

/-! ## The order of the messages -/

/-- All messages but the one that waits were read, each once and in the order they came. -/
def InOrder (s : Slot N M) : Prop := s.received = s.waiting ++ s.read

variable {s}

theorem inOrder_empty : (empty : Slot N M).InOrder := rfl

theorem InOrder.take (h : s.InOrder) : s.take.InOrder := h

/-- The next message keeps the order iff none waits. -/
theorem inOrder_put (h : s.InOrder) : (s.put note m).InOrder ↔ s.waiting = [] := by
  have hreceived : s.received = s.waiting ++ s.read := h
  rw [InOrder, received_put, waiting_put, read_put, hreceived, List.singleton_append,
    List.cons.injEq, List.append_left_eq_self]
  exact and_iff_right rfl

/-- What is cleared keeps the order iff no message waits. -/
theorem inOrder_clear (h : s.InOrder) : (s.clear note).InOrder ↔ s.waiting = [] := by
  have hreceived : s.received = s.waiting ++ s.read := h
  rw [InOrder, received_clear, waiting_clear, read_clear, hreceived, List.nil_append,
    List.append_left_eq_self]

end Slot
