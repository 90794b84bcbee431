import Mathlib.Data.Rat.Defs

/-!
# JSON values and the SQL casts that read them

`Json` is the value of a `jsonb` column; an object is the list of its members, in the order the
column keeps them. `textBoolean` is the `text → boolean` cast of Postgres and
`memberBoolean name v` is the SQL expression `(v->>'name')::boolean`.
-/

namespace VegaRevenue

/-- A JSON value. -/
inductive Json where
  | null
  | bool (b : Bool)
  | num (q : Rat)
  | str (s : String)
  | arr (elements : List Json)
  | obj (members : List (String × Json))

namespace Json

/-- `v[name]`: the member of an object, `undefined` for every other value. -/
def member? (name : String) : Json → Option Json
  | obj members => (members.find? fun m => m.1 = name).map Prod.snd
  | _ => none

/-- `v === b` for a boolean literal `b`. -/
def isBool (b : Bool) : Json → Bool
  | bool b' => b' == b
  | _ => false

/-- `v[name] === b`. -/
def memberIsBool (name : String) (b : Bool) (v : Json) : Bool :=
  (v.member? name).any (isBool b)

end Json

/-! ## What Postgres can store -/

/-- A `text` value holds every character but NUL. -/
def textStorable (s : String) : Bool := !s.toList.contains '\x00'

mutual

/-- A `jsonb` value holds no string with a NUL in it. -/
def Json.storable : Json → Bool
  | .str s => textStorable s
  | .arr elements => elementsStorable elements
  | .obj members => membersStorable members
  | _ => true

def elementsStorable : List Json → Bool
  | [] => true
  | v :: vs => v.storable && elementsStorable vs

def membersStorable : List (String × Json) → Bool
  | [] => true
  | (name, v) :: ms => textStorable name && v.storable && membersStorable ms

end

/-! ## The cast to boolean -/

/-- What a cast to `boolean` gives: NULL, a truth value, or an error. -/
inductive SqlBoolean where
  | null
  | value (b : Bool)
  | invalid
deriving DecidableEq

def sqlSpace (c : Char) : Bool :=
  c = ' ' || c = '\t' || c = '\n' || c = '\x0b' || c = '\x0c' || c = '\r'

/-- The word a cast reads: surrounding blanks dropped, letters in lower case. -/
def castWord (s : String) : List Char :=
  (((s.toList.dropWhile sqlSpace).reverse.dropWhile sqlSpace).reverse).map Char.toLower

/-- `text → boolean`: every unambiguous prefix of `true`, `false`, `yes`, `no`, `on`, `off`, and
the digits `1` and `0`. -/
def textBoolean (s : String) : SqlBoolean :=
  let word := castWord s
  if word = [] ∨ word = ['o'] then .invalid
  else if word.isPrefixOf "true".toList ∨ word.isPrefixOf "yes".toList
      ∨ word = "on".toList ∨ word = ['1'] then .value true
  else if word.isPrefixOf "false".toList ∨ word.isPrefixOf "no".toList
      ∨ word.isPrefixOf "off".toList ∨ word = ['0'] then .value false
  else .invalid

/-- The cast of the text `->>` gives for a member. The text of a number other than `0` and `1`,
of an array and of an object is no spelling of a boolean. -/
def Json.toSqlBoolean : Json → SqlBoolean
  | .null => .null
  | .bool b => .value b
  | .num q => if q = 0 then .value false else if q = 1 then .value true else .invalid
  | .str s => textBoolean s
  | .arr _ => .invalid
  | .obj _ => .invalid

/-- `(v->>'name')::boolean`. -/
def Json.memberBoolean (name : String) (v : Json) : SqlBoolean :=
  match v.member? name with
  | none => .null
  | some m => m.toSqlBoolean

/-- A JSON `false` is read as false. -/
theorem Json.memberBoolean_of_memberIsBool {name : String} {b : Bool} {v : Json}
    (h : v.memberIsBool name b = true) : v.memberBoolean name = .value b := by
  unfold memberIsBool at h
  unfold memberBoolean
  cases hm : v.member? name with
  | none => simp [hm] at h
  | some m =>
    rw [hm, Option.any_some] at h
    cases m with
    | bool b' =>
      have hb : b' = b := by simpa [isBool] using h
      simp [toSqlBoolean, hb]
    | _ => simp [isBool] at h

-- the cast is looser than `=== false`
example : textBoolean "  No" = .value false := by decide
example : textBoolean "maybe" = .invalid := by decide

end VegaRevenue
