import VegaRevenue.Lib.IsoDate
import VegaRevenue.Shared.Json
import VegaRevenue.Shared.Result

/-!
# Records as JSON

What `JSON.stringify` writes of a record and what a reader makes of it by name. A codec carries the
fact that it reads back what it writes.

* `read_bind`, `readOptional_bind` — a reader goes on from a member that was written with what was
  written
-/

namespace VegaRevenue

/-- A way of writing values as JSON. -/
structure Codec (α : Type) where
  encode : α → Json
  decode : Json → Option α
  decode_encode : ∀ a, decode (encode a) = some a

namespace Codec

def string : Codec String where
  encode := .str
  decode
    | .str s => some s
    | _ => none
  decode_encode := fun _ => rfl

def bool : Codec Bool where
  encode := .bool
  decode
    | .bool b => some b
    | _ => none
  decode_encode := fun _ => rfl

def rat : Codec Rat where
  encode := .num
  decode
    | .num q => some q
    | _ => none
  decode_encode := fun _ => rfl

def int : Codec Int where
  encode n := .num n
  decode
    | .num q => some q.num
    | _ => none
  decode_encode := fun _ => rfl

def nat : Codec Nat where
  encode n := .num n
  decode
    | .num q => some q.num.toNat
    | _ => none
  decode_encode := fun _ => rfl

/-- `toISOString`, and `new Date` of its text. -/
def date : Codec Date where
  encode d := .str (IsoDate.format d)
  decode
    | .str s => IsoDate.parse s
    | _ => none
  decode_encode := fun d => IsoDate.parse_format d

/-- The values of an enumeration, written as their names. -/
def names {α : Type} (all : List α) (name : α → String)
    (h : ∀ a, all.find? (fun b => name b = name a) = some a) : Codec α where
  encode a := .str (name a)
  decode
    | .str s => all.find? fun b => name b = s
    | _ => none
  decode_encode := fun a => h a

section

variable {α : Type} (c : Codec α)

/-- Reads every element. -/
def decodeAll : List Json → Option (List α)
  | [] => some []
  | v :: vs => do
    let a ← c.decode v
    let as ← decodeAll vs
    pure (a :: as)

theorem decodeAll_encode (as : List α) : c.decodeAll (as.map c.encode) = some as := by
  induction as with
  | nil => rfl
  | cons a as ih =>
    rw [List.map_cons, decodeAll, c.decode_encode, ih]
    rfl

def list : Codec (List α) where
  encode as := .arr (as.map c.encode)
  decode
    | .arr vs => c.decodeAll vs
    | _ => none
  decode_encode := fun as => c.decodeAll_encode as

end

end Codec

/-! ## Members -/

namespace Json

/-- The members of a record, in which an undefined one is left out. -/
def members (fields : List (String × Option Json)) : List (String × Json) :=
  fields.filterMap fun (name, value) => value.map fun v => (name, v)

def object (fields : List (String × Option Json)) : Json := .obj (members fields)

theorem member?_object {fields : List (String × Option Json)}
    (hn : (fields.map Prod.fst).Nodup) {name : String} {value : Option Json}
    (h : fields.lookup name = some value) : (object fields).member? name = value := by
  show ((members fields).find? fun m => m.1 = name).map Prod.snd = value
  induction fields with
  | nil => cases h
  | cons field fields ih =>
    obtain ⟨name', value'⟩ := field
    rw [List.map_cons, List.nodup_cons] at hn
    rw [List.lookup_cons] at h
    by_cases heq : name = name'
    · subst heq
      rw [beq_self_eq_true] at h
      cases h
      cases value with
      | some v => simp [members]
      | none =>
        -- no later member has the name
        have hnone : (members fields).find? (fun m => m.1 = name) = none := by
          rw [List.find?_eq_none]
          intro m hm hname
          obtain ⟨field, hfield, hsome⟩ := List.mem_filterMap.mp hm
          obtain ⟨v, -, rfl⟩ := Option.map_eq_some_iff.mp hsome
          rw [decide_eq_true_eq] at hname
          exact hn.1 (List.mem_map.mpr ⟨field, hfield, hname⟩)
        show ((members fields).find? _).map Prod.snd = none
        rw [hnone]
        rfl
    · rw [beq_eq_false_iff_ne.mpr heq] at h
      rw [← ih hn.2 h]
      cases value' with
      | none => rfl
      | some v =>
        show (((name', v) :: members fields).find? _).map Prod.snd = _
        rw [List.find?_cons_of_neg (by simpa using Ne.symm heq)]

variable {α : Type}

/-- A member that is always written. -/
def read (c : Codec α) (name : String) (v : Json) : Option α := (v.member? name).bind c.decode

/-- A member that may be undefined. -/
def readOptional (c : Codec α) (name : String) (v : Json) : Option (Option α) :=
  match v.member? name with
  | none => some none
  | some m => (c.decode m).map some

variable {β : Type} {fields : List (String × Option Json)} {c : Codec α} {name : String}

theorem read_bind (hn : (fields.map Prod.fst).Nodup) {a : α}
    (h : fields.lookup name = some (some (c.encode a))) {f : α → Option β} {b : β}
    (hf : f a = some b) : (read c name (object fields) >>= f) = some b := by
  have hread : read c name (object fields) = some a := by
    unfold read
    rw [member?_object hn h, Option.bind_some, c.decode_encode]
  rw [hread]
  exact hf

theorem readOptional_bind (hn : (fields.map Prod.fst).Nodup) {a : Option α}
    (h : fields.lookup name = some (a.map c.encode)) {f : Option α → Option β} {b : β}
    (hf : f a = some b) : (readOptional c name (object fields) >>= f) = some b := by
  have hread : readOptional c name (object fields) = some a := by
    unfold readOptional
    rw [member?_object hn h]
    cases a with
    | none => rfl
    | some a => exact congrArg (Option.map some) (c.decode_encode a)
  rw [hread]
  exact hf

end Json

end VegaRevenue
