import Mathlib.Data.List.Infix
import VegaRevenue.Shared.DeepEqual

/-!
# `StructuredOutputValidator`

The validator holds an output against a schema and against the rules of a policy, and returns a copy
of it with one phrase filtered out of its texts.

* `validateSchema_eq_nil` — a schema finds nothing iff the value conforms to it
* `valid_iff` — which outputs are valid
-/

namespace VegaRevenue.AiRuntime.StructuredOutputValidator

open VegaRevenue.StrictToolSchemaValidator (inheritedNames)

/-! ## Values -/

/-- A value that a program makes of JSON values. -/
inductive JsValue where
  | undefined
  /-- A function that an object inherits. -/
  | function
  /-- `Object.prototype`, which is what `__proto__` reads. -/
  | objectPrototype
  | null
  | bool (b : Bool)
  | num (q : Rat)
  | str (s : String)
  | arr (elements : List JsValue)
  | obj (members : List (String × JsValue))

namespace JsValue

mutual

def ofJson : Json → JsValue
  | .null => .null
  | .bool b => .bool b
  | .num q => .num q
  | .str s => .str s
  | .arr elements => .arr (ofElements elements)
  | .obj members => .obj (ofMembers members)

def ofElements : List Json → List JsValue
  | [] => []
  | v :: vs => ofJson v :: ofElements vs

def ofMembers : List (String × Json) → List (String × JsValue)
  | [] => []
  | (name, v) :: ms => (name, ofJson v) :: ofMembers ms

end

/-- A member that may be `undefined`. -/
def ofOption : Option Json → JsValue
  | some v => ofJson v
  | none => .undefined

/-- `v === undefined || v === null`. -/
def absent : JsValue → Bool
  | undefined | null => true
  | _ => false

end JsValue

/-- What `in` and reading a property find in an object. -/
structure Properties where
  has : String → Bool
  get : String → JsValue

def properties (members : List (String × JsValue)) : Properties where
  has name := members.any (fun m => m.1 = name) || inheritedNames.contains name
  get name :=
    match members.find? fun m => m.1 = name with
    | some m => m.2
    | none =>
      if name = "__proto__" then .objectPrototype
      else if inheritedNames.contains name then .function
      else .undefined

/-- Those of `Object.prototype`. -/
def prototypeProperties : Properties where
  has name := inheritedNames.contains name
  get name :=
    if name = "__proto__" then .null
    else if inheritedNames.contains name then .function
    else .undefined

/-- The properties of what is an object and no array. -/
def JsValue.asObject : JsValue → Option Properties
  | .obj members => some (properties members)
  | .objectPrototype => some prototypeProperties
  | _ => none

/-- What the built-in functions of the language say of values. -/
structure Platform where
  /-- `JSON.parse`, none where it throws. -/
  parse : String → Option Json
  /-- `JSON.stringify`. -/
  stringify : JsValue → String
  /-- `String(v)`. -/
  text : JsValue → String

/-! ## Policies -/

inductive SchemaType where
  | object
  | array
  | string
  | number
  | boolean
deriving DecidableEq

/-- `SchemaDefinition`. -/
inductive Schema where
  | node (type : SchemaType) (required : Option (List String))
      (properties : Option (List (String × Schema))) (items : Option Schema)
      (allowedValues : Option (List JsValue))

/-- `OutputValidatorPolicy`; a pattern is what its `test` says of a text. -/
structure OutputValidatorPolicy where
  requiredFields : List String
  forbiddenValues : List String
  allowedActions : List String
  piiPatterns : List (String → Bool)
  schema : Option Schema := none

inductive PiiCheck where
  | passed
  | failed
deriving DecidableEq

structure OutputValidationResult where
  valid : Bool
  piiCheck : PiiCheck
  schemaViolations : List String
  policyViolations : List String
  safeOutput : JsValue

/-! ## The code -/

/-- `path || 'root'`. -/
def orRoot (path : String) : String := if path = "" then "root" else path

/-- `allowedValues.includes(s)`. -/
def includesText (allowedValues : List JsValue) (s : String) : Bool :=
  allowedValues.any fun v =>
    match v with
    | .str s' => s' = s
    | _ => false

/-- `allowedValues.join(', ')`. -/
def joined (platform : Platform) (allowedValues : List JsValue) : String :=
  ", ".intercalate (allowedValues.map fun v => if v.absent then "" else platform.text v)

def missingFields (obj : Properties) (path : String) (required : List String) : List String :=
  (required.filter fun field => (obj.get field).absent).map fun field =>
    s!"{orRoot path} is missing required field: {field}"

mutual

/-- The violations that `validateSchema` adds. -/
def validateSchema (platform : Platform) : Schema → JsValue → (path : String) → List String
  | .node .object required properties _ _, value, path =>
    match value.asObject with
    | none => [s!"{orRoot path} must be an object"]
    | some obj =>
      missingFields obj path (required.getD []) ++
        match properties with
        | none => []
        | some properties => validateProperties platform properties obj path
  | .node .array _ _ items _, value, path =>
    match value with
    | .arr elements =>
      match items with
      | none => []
      | some items =>
        elements.zipIdx.flatMap fun (v, i) => validateSchema platform items v s!"{path}[{i}]"
    | _ => [s!"{orRoot path} must be an array"]
  | .node .string _ _ _ allowedValues, value, path =>
    match value with
    | .str s =>
      match allowedValues with
      | none => []
      | some allowedValues =>
        if includesText allowedValues s then []
        else [s!"{orRoot path} must be one of " ++ joined platform allowedValues]
    | _ => [s!"{orRoot path} must be a string"]
  | .node .number _ _ _ _, value, path =>
    match value with
    | .num _ => []
    | _ => [s!"{orRoot path} must be a number"]
  | .node .boolean _ _ _ _, value, path =>
    match value with
    | .bool _ => []
    | _ => [s!"{orRoot path} must be a boolean"]

def validateProperties (platform : Platform) :
    List (String × Schema) → Properties → (path : String) → List String
  | [], _, _ => []
  | (key, schema) :: rest, obj, path =>
    (if obj.has key then
      validateSchema platform schema (obj.get key) (if path = "" then key else s!"{path}.{key}")
    else []) ++ validateProperties platform rest obj path

end

/-- `text.includes(part)`. -/
def includes (text part : String) : Bool := part.toList <:+: text.toList

def phrase : List Char := "ignore previous instructions".toList

/-- The phrase stands at the front, in any letter case. -/
def startsWithPhrase (cs : List Char) : Bool :=
  (cs.take phrase.length).map Char.toLower = phrase

/-- `value.replace(/ignore previous instructions/gi, '[FILTERED]')`, with the number of characters
that are part of an occurrence already replaced. -/
def filterPhrase : (skip : Nat) → List Char → List Char
  | _, [] => []
  | skip + 1, _ :: cs => filterPhrase skip cs
  | 0, c :: cs =>
    if startsWithPhrase (c :: cs) then
      "[FILTERED]".toList ++ filterPhrase (phrase.length - 1) cs
    else c :: filterPhrase 0 cs

def filterText (s : String) : String := String.ofList (filterPhrase 0 s.toList)

def sanitizeMember : JsValue → JsValue
  | .str s => .str (filterText s)
  | v => v

def sanitize (output : List (String × JsValue)) : List (String × JsValue) :=
  output.map fun m => (m.1, sanitizeMember m.2)

/-- `validate` of an output that is an object and no array. -/
def validate (platform : Platform) (policy : OutputValidatorPolicy)
    (output : List (String × JsValue)) : OutputValidationResult :=
  let record := properties output
  let schemaViolations :=
    (match policy.schema with
      | some schema => validateSchema platform schema (.obj output) ""
      | none => []) ++
    (policy.requiredFields.filter fun field => (record.get field).absent).map fun field =>
      s!"Missing required field: {field}"
  let text := platform.stringify (.obj output)
  let forbidden := (policy.forbiddenValues.filter (includes text)).map fun value =>
    s!"Forbidden value detected: {value}"
  let action :=
    match record.get "action" with
    | .undefined => []
    | action =>
      if policy.allowedActions.contains (platform.text action) then []
      else ["Unsupported action: " ++ platform.text action]
  let pii := policy.piiPatterns.any fun pattern => pattern text
  let policyViolations := forbidden ++ action ++ if pii then ["PII detected in output"] else []
  { valid := schemaViolations.length = 0 && policyViolations.length = 0
    piiCheck := if pii then .failed else .passed
    schemaViolations
    policyViolations
    safeOutput := .obj (sanitize output) }

/-! ## Conformance -/

mutual

/-- The value conforms to the schema. -/
def Conforms : Schema → JsValue → Prop
  | .node .object required properties _ _, value =>
    match value.asObject with
    | none => False
    | some obj =>
      (∀ field ∈ required.getD [], (obj.get field).absent = false) ∧
        match properties with
        | none => True
        | some properties => PropertiesConform properties obj
  | .node .array _ _ items _, value =>
    match value with
    | .arr elements =>
      match items with
      | none => True
      | some items => ∀ v ∈ elements, Conforms items v
    | _ => False
  | .node .string _ _ _ allowedValues, value =>
    match value with
    | .str s => ∀ allowed ∈ allowedValues, includesText allowed s = true
    | _ => False
  | .node .number _ _ _ _, value =>
    match value with
    | .num _ => True
    | _ => False
  | .node .boolean _ _ _ _, value =>
    match value with
    | .bool _ => True
    | _ => False

/-- Each declared property that is present conforms. -/
def PropertiesConform : List (String × Schema) → Properties → Prop
  | [], _ => True
  | (key, schema) :: rest, obj =>
    (obj.has key = true → Conforms schema (obj.get key)) ∧ PropertiesConform rest obj

end

theorem missingFields_eq_nil {obj : Properties} {path : String} {required : List String} :
    missingFields obj path required = [] ↔
      ∀ field ∈ required, (obj.get field).absent = false := by
  simp [missingFields, List.filter_eq_nil_iff]

mutual

/-- **A schema finds nothing iff the value conforms to it.** -/
theorem validateSchema_eq_nil (platform : Platform) (schema : Schema) (value : JsValue)
    (path : String) : validateSchema platform schema value path = [] ↔ Conforms schema value := by
  obtain ⟨type, required, properties, items, allowedValues⟩ := schema
  cases type with
  | object =>
    unfold validateSchema Conforms
    cases value.asObject with
    | none => simp
    | some obj =>
      simp only [List.append_eq_nil_iff, missingFields_eq_nil]
      refine and_congr_right fun _ => ?_
      cases properties with
      | none => simp
      | some properties => exact validateProperties_eq_nil platform properties obj path
  | array =>
    unfold validateSchema Conforms
    cases value with
    | arr elements =>
      cases items with
      | none => simp
      | some items =>
        have ih (v : JsValue) (path : String) := validateSchema_eq_nil platform items v path
        simp only [List.flatMap_eq_nil_iff, ih, Prod.forall]
        constructor
        · intro h v hv
          obtain ⟨i, hi⟩ := List.mem_iff_getElem?.mp hv
          exact h v i (List.mk_mem_zipIdx_iff_getElem?.mpr hi)
        · exact fun h v i hv => h v (List.fst_mem_of_mem_zipIdx hv)
    | undefined | function | objectPrototype | null | bool _ | num _ | str _ | obj _ => simp
  | string =>
    unfold validateSchema Conforms
    cases value with
    | str s =>
      cases allowedValues with
      | none => simp
      | some allowedValues => by_cases h : includesText allowedValues s = true <;> simp [h]
    | undefined | function | objectPrototype | null | bool _ | num _ | arr _ | obj _ => simp
  | number =>
    unfold validateSchema Conforms
    cases value <;> simp
  | boolean =>
    unfold validateSchema Conforms
    cases value <;> simp

theorem validateProperties_eq_nil (platform : Platform) (props : List (String × Schema))
    (obj : Properties) (path : String) :
    validateProperties platform props obj path = [] ↔ PropertiesConform props obj := by
  cases props with
  | nil => simp [validateProperties, PropertiesConform]
  | cons property rest =>
    obtain ⟨key, schema⟩ := property
    rw [validateProperties, PropertiesConform, List.append_eq_nil_iff,
      validateProperties_eq_nil platform rest obj path]
    refine and_congr_left fun _ => ?_
    by_cases hhas : obj.has key = true
    · rw [if_pos hhas, validateSchema_eq_nil platform schema]
      simp [hhas]
    · simp [hhas]

end

/-! ## Valid outputs -/

/-- **What a policy asks of an output.** -/
structure Accepted (platform : Platform) (policy : OutputValidatorPolicy)
    (output : List (String × JsValue)) : Prop where
  schema : ∀ schema ∈ policy.schema, Conforms schema (.obj output)
  required : ∀ field ∈ policy.requiredFields, ((properties output).get field).absent = false
  forbidden : ∀ value ∈ policy.forbiddenValues,
    ¬ value.toList <:+: (platform.stringify (.obj output)).toList
  action : (properties output).get "action" = .undefined ∨
    platform.text ((properties output).get "action") ∈ policy.allowedActions
  pii : ∀ pattern ∈ policy.piiPatterns, pattern (platform.stringify (.obj output)) = false

variable {platform : Platform} {policy : OutputValidatorPolicy} {output : List (String × JsValue)}

/-- **An output is valid iff it is accepted.** -/
theorem valid_iff :
    (validate platform policy output).valid = true ↔ Accepted platform policy output := by
  have hschema : (match policy.schema with
      | some schema => validateSchema platform schema (.obj output) ""
      | none => []) = [] ↔ ∀ schema ∈ policy.schema, Conforms schema (.obj output) := by
    cases policy.schema with
    | none => simp
    | some schema => simp [validateSchema_eq_nil]
  have haction : (match (properties output).get "action" with
      | .undefined => []
      | action =>
        if policy.allowedActions.contains (platform.text action) then []
        else ["Unsupported action: " ++ platform.text action]) = ([] : List String) ↔
      (properties output).get "action" = .undefined ∨
        platform.text ((properties output).get "action") ∈ policy.allowedActions := by
    cases (properties output).get "action" <;> simp
  unfold validate
  simp only [Bool.and_eq_true, decide_eq_true_eq, List.length_eq_zero_iff,
    List.append_eq_nil_iff, List.map_eq_nil_iff, List.filter_eq_nil_iff, hschema, haction,
    Bool.not_eq_true, includes]
  constructor
  · rintro ⟨⟨hconforms, hrequired⟩, ⟨hforbidden, hallowed⟩, hpii⟩
    exact ⟨hconforms, hrequired, hforbidden, hallowed, by simpa using hpii⟩
  · intro h
    exact ⟨⟨h.schema, h.required⟩, ⟨h.forbidden, h.action⟩, by simpa using h.pii⟩

/-- A failed check for personal data is a violation of the policy. -/
theorem piiCheck_eq_passed (h : (validate platform policy output).valid = true) :
    (validate platform policy output).piiCheck = .passed := by
  have hpii := (valid_iff.mp h).pii
  unfold validate
  simpa using hpii

theorem policyViolations_eq_nil (h : (validate platform policy output).valid = true) :
    (validate platform policy output).policyViolations = [] := by
  unfold validate at h ⊢
  simp only [Bool.and_eq_true, decide_eq_true_eq, List.length_eq_zero_iff] at h
  exact h.2

end VegaRevenue.AiRuntime.StructuredOutputValidator
