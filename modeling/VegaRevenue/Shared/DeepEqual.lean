import Mathlib.Data.List.Perm.Subperm
import VegaRevenue.Shared.Json

/-!
# Deep equality as the tool schemas test it

Reading a property walks the prototype chain, so that an object has the names of `Object.prototype`
beside its own. `deepEqual` compares the number of keys and then reads, in the second value, the
keys of the first.

* `deepEqual_eq`, `same_iff` — both by the differences between the values
* `deepEqual_iff_same_iff` — when `deepEqual` says what it should
-/

namespace VegaRevenue

namespace StrictToolSchemaValidator

/-! ## Properties -/

/-- What reading a property gives. -/
inductive Read where
  | undefined
  /-- A function that the object inherits. -/
  | function
  /-- `Object.prototype`, which is what `__proto__` reads. -/
  | objectPrototype
  | json (v : Json)

/-- The names of `Object.prototype`. -/
def inheritedNames : List String :=
  ["constructor", "__defineGetter__", "__defineSetter__", "hasOwnProperty", "__lookupGetter__",
    "__lookupSetter__", "isPrototypeOf", "propertyIsEnumerable", "toString", "valueOf", "__proto__",
    "toLocaleString"]

/-- What an object without the name as its own key reads. -/
def inherited (name : String) : Read :=
  if name = "__proto__" then .objectPrototype
  else if inheritedNames.contains name then .function
  else .undefined

/-- `obj[name]`. -/
def get (members : List (String × Json)) (name : String) : Read :=
  match (Json.obj members).member? name with
  | some v => .json v
  | none => inherited name

/-! ## The code -/

mutual

/-- `deepEqual`. -/
def deepEqual : Json → Read → Bool
  | .null, .json .null => true
  | .bool b, .json (.bool b') => b = b'
  | .num q, .json (.num q') => q = q'
  | .str s, .json (.str s') => s = s'
  | .arr xs, .json (.arr ys) => xs.length = ys.length && elementsEqual xs ys
  | .obj ms, .json (.obj ns) => ms.length = ns.length && membersEqual ms ns
  -- `Object.prototype` has no enumerable keys
  | .obj ms, .objectPrototype => ms.isEmpty
  | _, _ => false

def elementsEqual : List Json → List Json → Bool
  | [], _ => true
  | x :: xs, y :: ys => deepEqual x (.json y) && elementsEqual xs ys
  | x :: xs, [] => deepEqual x .undefined && elementsEqual xs []

def membersEqual : List (String × Json) → List (String × Json) → Bool
  | [], _ => true
  | (name, v) :: ms, ns => deepEqual v (get ns name) && membersEqual ms ns

end

/-! ## Its purpose -/

/-- The names are the own keys of the object. -/
def keys (members : List (String × Json)) : List String := members.map Prod.fst

mutual

/-- Two values have the same keys with deep-equal values. -/
def same : Json → Json → Bool
  | .null, .null => true
  | .bool b, .bool b' => b = b'
  | .num q, .num q' => q = q'
  | .str s, .str s' => s = s'
  | .arr xs, .arr ys => sameElements xs ys
  | .obj ms, .obj ns => keys ns ⊆ keys ms && sameMembers ms ns
  | _, _ => false

def sameElements : List Json → List Json → Bool
  | [], [] => true
  | x :: xs, y :: ys => same x y && sameElements xs ys
  | _, _ => false

/-- Each member is one of the other object, with a deep-equal value. -/
def sameMembers : List (String × Json) → List (String × Json) → Bool
  | [], _ => true
  | (name, v) :: ms, ns => ((Json.obj ns).member? name).any (same v) && sameMembers ms ns

end

mutual

/-- The keys of every object are distinct, as those of a parsed value are. -/
def Distinct : Json → Prop
  | .arr xs => ElementsDistinct xs
  | .obj ms => (keys ms).Nodup ∧ MembersDistinct ms
  | _ => True

def ElementsDistinct : List Json → Prop
  | [] => True
  | x :: xs => Distinct x ∧ ElementsDistinct xs

def MembersDistinct : List (String × Json) → Prop
  | [] => True
  | (_, v) :: ms => Distinct v ∧ MembersDistinct ms

end

/-! ## Differences -/

/-- A place where two values differ. -/
inductive Difference where
  /-- Other scalars, other kinds, other numbers of keys or elements, or a key the second lacks. -/
  | plain
  /-- The first holds an empty object under its own key `__proto__`, which the second lacks. -/
  | emptyProto
deriving DecidableEq

def different (b : Bool) : List Difference := if b then [] else [.plain]

/-- What a member counts for whose key the second object lacks. -/
def lacking (name : String) : Json → List Difference
  | .obj [] => if name = "__proto__" then [.emptyProto] else [.plain]
  | _ => [.plain]

mutual

/-- Where two values differ, in the second by the keys of the first. -/
def differences : Json → Json → List Difference
  | .null, .null => []
  | .bool b, .bool b' => different (b = b')
  | .num q, .num q' => different (q = q')
  | .str s, .str s' => different (s = s')
  | .arr xs, .arr ys => elementDifferences xs ys
  | .obj ms, .obj ns => different (ms.length = ns.length) ++ memberDifferences ms ns
  | _, _ => [.plain]

def elementDifferences : List Json → List Json → List Difference
  | [], [] => []
  | x :: xs, y :: ys => differences x y ++ elementDifferences xs ys
  | _, _ => [.plain]

def memberDifferences : List (String × Json) → List (String × Json) → List Difference
  | [], _ => []
  | (name, v) :: ms, ns =>
    (match (Json.obj ns).member? name with
      | some w => differences v w
      | none => lacking name v) ++ memberDifferences ms ns

end

/-! ## `deepEqual` by the differences -/

theorem all_different (b : Bool) : (different b).all (· = .emptyProto) = b := by
  cases b <;> rfl

theorem deepEqual_inherited (name : String) (v : Json) :
    deepEqual v (inherited name) = (lacking name v).all (· = .emptyProto) := by
  unfold inherited
  by_cases hproto : name = "__proto__"
  · rw [if_pos hproto]
    cases v with
    | obj ms => cases ms <;> simp [deepEqual, lacking, hproto]
    | null | bool _ | num _ | str _ | arr _ => rfl
  · have hfalse : deepEqual v (if inheritedNames.contains name then .function else .undefined) =
        false := by
      split <;> cases v <;> rfl
    rw [if_neg hproto, hfalse]
    cases v with
    | obj ms => cases ms <;> simp [lacking, hproto]
    | null | bool _ | num _ | str _ | arr _ => rfl

mutual

theorem deepEqual_eq (a b : Json) :
    deepEqual a (.json b) = (differences a b).all (· = .emptyProto) := by
  cases a with
  | null => cases b <;> rfl
  | bool _ => cases b <;> first | rfl | simp only [deepEqual, differences, all_different]
  | num _ => cases b <;> first | rfl | simp only [deepEqual, differences, all_different]
  | str _ => cases b <;> first | rfl | simp only [deepEqual, differences, all_different]
  | arr xs =>
    cases b with
    | arr ys =>
      rw [deepEqual, differences]
      exact elementsEqual_eq xs ys
    | null | bool _ | num _ | str _ | obj _ => rfl
  | obj ms =>
    cases b with
    | obj ns =>
      rw [deepEqual, differences, List.all_append, all_different, membersEqual_eq ms ns]
    | null | bool _ | num _ | str _ | arr _ => rfl

theorem elementsEqual_eq (xs ys : List Json) :
    (xs.length = ys.length && elementsEqual xs ys) =
      (elementDifferences xs ys).all (· = .emptyProto) := by
  cases xs with
  | nil => cases ys <;> simp [elementsEqual, elementDifferences]
  | cons x xs =>
    cases ys with
    | nil => simp [elementDifferences]
    | cons y ys =>
      rw [elementDifferences, List.all_append, ← deepEqual_eq x y, ← elementsEqual_eq xs ys,
        elementsEqual]
      simp only [List.length_cons, Nat.add_right_cancel_iff]
      rw [Bool.and_left_comm]

theorem membersEqual_eq (ms ns : List (String × Json)) :
    membersEqual ms ns = (memberDifferences ms ns).all (· = .emptyProto) := by
  cases ms with
  | nil => rfl
  | cons m ms =>
    obtain ⟨name, v⟩ := m
    rw [membersEqual, memberDifferences, List.all_append, membersEqual_eq ms ns, get]
    cases (Json.obj ns).member? name with
    | none =>
      dsimp only
      rw [deepEqual_inherited]
    | some w =>
      dsimp only
      rw [deepEqual_eq v w]

end

/-! ## `same` by the differences -/

theorem different_eq_nil {b : Bool} : different b = [] ↔ b = true := by
  cases b <;> simp [different]

theorem lacking_ne_nil (name : String) (v : Json) : lacking name v ≠ [] := by
  unfold lacking
  split
  · split <;> exact List.cons_ne_nil _ _
  · exact List.cons_ne_nil _ _

theorem mem_keys_of_member? {ms : List (String × Json)} {name : String} {v : Json}
    (h : (Json.obj ms).member? name = some v) : name ∈ keys ms := by
  obtain ⟨m, hm, -⟩ := Option.map_eq_some_iff.mp h
  have hname : m.1 = name := by simpa using List.find?_some hm
  exact hname ▸ List.mem_map_of_mem (List.mem_of_find?_eq_some hm)

theorem distinct_of_member? {ms : List (String × Json)} {name : String} {v : Json}
    (hms : MembersDistinct ms) (h : (Json.obj ms).member? name = some v) : Distinct v := by
  induction ms with
  | nil => cases h
  | cons m ms ih =>
    obtain ⟨name', v'⟩ := m
    rw [Json.member?, List.find?_cons] at h
    by_cases hname : name' = name
    · simp only [hname, decide_true, Option.map_some, Option.some.injEq] at h
      exact h ▸ hms.1
    · simp only [hname, decide_false] at h
      exact ih hms.2 h

/-- Where every member is one of the other object, the keys are the same iff there are as many. -/
theorem keys_subset_iff {ms ns : List (String × Json)} (hms : (keys ms).Nodup)
    (hns : (keys ns).Nodup) (h : keys ms ⊆ keys ns) :
    keys ns ⊆ keys ms ↔ ms.length = ns.length := by
  have hperm := List.subperm_of_subset hms h
  have hlength : (keys ms).length = ms.length ∧ (keys ns).length = ns.length :=
    ⟨List.length_map _, List.length_map _⟩
  constructor
  · intro hback
    have hle := hperm.length_le
    have hge := (List.subperm_of_subset hns hback).length_le
    omega
  · intro heq
    exact (hperm.perm_of_length_le (by omega)).symm.subset

theorem keys_subset_of_sameMembers {ms ns : List (String × Json)}
    (h : sameMembers ms ns = true) : keys ms ⊆ keys ns := by
  induction ms with
  | nil => exact fun _ hm => absurd hm List.not_mem_nil
  | cons m ms ih =>
    rw [sameMembers, Bool.and_eq_true, Option.any_eq_true] at h
    obtain ⟨⟨w, hw, -⟩, hrest⟩ := h
    exact List.cons_subset.mpr ⟨mem_keys_of_member? hw, ih hrest⟩

mutual

theorem same_iff {a b : Json} (ha : Distinct a) (hb : Distinct b) :
    same a b = true ↔ differences a b = [] := by
  cases a with
  | null => cases b <;> simp [same, differences]
  | bool _ => cases b <;> simp [same, differences, different_eq_nil]
  | num _ => cases b <;> simp [same, differences, different_eq_nil]
  | str _ => cases b <;> simp [same, differences, different_eq_nil]
  | arr xs =>
    cases b with
    | arr ys => exact sameElements_iff ha hb
    | null | bool _ | num _ | str _ | obj _ => simp [same, differences]
  | obj ms =>
    cases b with
    | obj ns =>
      rw [same, Bool.and_eq_true, differences, List.append_eq_nil_iff, different_eq_nil, decide_eq_true_eq,
        decide_eq_true_eq,
        ← sameMembers_iff ha.2 hb.2]
      exact and_congr_left fun hsame => keys_subset_iff ha.1 hb.1 (keys_subset_of_sameMembers hsame)
    | null | bool _ | num _ | str _ | arr _ => simp [same, differences]

theorem sameElements_iff {xs ys : List Json} (hxs : ElementsDistinct xs)
    (hys : ElementsDistinct ys) : sameElements xs ys = true ↔ elementDifferences xs ys = [] := by
  cases xs with
  | nil => cases ys <;> simp [sameElements, elementDifferences]
  | cons x xs =>
    cases ys with
    | nil => simp [sameElements, elementDifferences]
    | cons y ys =>
      rw [sameElements, Bool.and_eq_true, elementDifferences, List.append_eq_nil_iff, same_iff hxs.1 hys.1,
        sameElements_iff hxs.2 hys.2]

theorem sameMembers_iff {ms ns : List (String × Json)} (hms : MembersDistinct ms)
    (hns : MembersDistinct ns) : sameMembers ms ns = true ↔ memberDifferences ms ns = [] := by
  cases ms with
  | nil => simp [sameMembers, memberDifferences]
  | cons m ms =>
    obtain ⟨name, v⟩ := m
    rw [sameMembers, Bool.and_eq_true, memberDifferences, List.append_eq_nil_iff, sameMembers_iff hms.2 hns]
    refine and_congr_left fun _ => ?_
    cases hmember : (Json.obj ns).member? name with
    | none => simp [lacking_ne_nil]
    | some w =>
      have hw := same_iff hms.1 (distinct_of_member? hns hmember)
      simp [hw]

end

/-- **When `deepEqual` says what it should**: values that differ where `__proto__` holds an empty
object differ elsewhere too. -/
theorem deepEqual_iff_same_iff {a b : Json} (ha : Distinct a) (hb : Distinct b) :
    (deepEqual a (.json b) = true ↔ same a b = true) ↔
      (.emptyProto ∈ differences a b → .plain ∈ differences a b) := by
  rw [deepEqual_eq, same_iff ha hb, List.all_eq_true]
  have hplain : (∀ d ∈ differences a b, decide (d = .emptyProto) = true) ↔
      .plain ∉ differences a b := by
    constructor
    · intro h hmem
      exact absurd (of_decide_eq_true (h _ hmem)) (by decide)
    · intro h d hd
      cases d with
      | plain => exact absurd hd h
      | emptyProto => rfl
  have hnil : differences a b = [] ↔
      .plain ∉ differences a b ∧ .emptyProto ∉ differences a b := by
    constructor
    · intro h
      simp [h]
    · rintro ⟨hp, he⟩
      refine List.eq_nil_iff_forall_not_mem.mpr fun d hd => ?_
      cases d with
      | plain => exact hp hd
      | emptyProto => exact he hd
  rw [hplain, hnil]
  tauto

end StrictToolSchemaValidator

end VegaRevenue
