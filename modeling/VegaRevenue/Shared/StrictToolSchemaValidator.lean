import VegaRevenue.Shared.DeepEqual

/-!
# `StrictToolSchemaValidator`

The validator walks schema and value together and collects violations in one list, which also
decides whether allowed values are looked at.

* `validateNode_eq_nil` — a node adds nothing to an empty list iff it breaks no rule that is checked
* `conforms_iff_breaches` — conformance by the rules
* `valid_iff_conforms_iff` — when the validator says what it should
-/

namespace VegaRevenue.StrictToolSchemaValidator

inductive SchemaType where
  | object
  | array
  | string
  | number
  | boolean
  | unknown
deriving DecidableEq

/-- `ToolSchemaDefinition`. -/
inductive Schema where
  | node (type : SchemaType) (required : Option (List String))
      (properties : Option (List (String × Schema))) (items : Option Schema)
      (allowedValues : Option (List Json))

structure ToolSchemaValidationResult where
  valid : Bool
  violations : List String

/-! ## The code -/

/-- `name in obj`, by what `obj[name]` reads. -/
def Read.present : Read → Bool
  | .undefined => false
  | _ => true

/-- `Object.prototype[name]`. -/
def prototypeGet (name : String) : Read :=
  if name = "__proto__" then .json .null
  else if inheritedNames.contains name then .function
  else .undefined

/-- The properties of what is an object and no array. -/
def Read.asObject : Read → Option (String → Read)
  | .json (.obj members) => some (get members)
  | .objectPrototype => some prototypeGet
  | _ => none

/-- What the switch finds in a scalar node. -/
def scalarViolation : SchemaType → Read → Option String
  | .string, .json (.str _) | .number, .json (.num _) | .boolean, .json (.bool _) => none
  | .string, _ => some "expected string"
  | .number, _ => some "expected number"
  | .boolean, _ => some "expected boolean"
  | _, _ => some "unknown schema type"

def validateScalar (type : SchemaType) (value : Read) (path : String) (violations : List String) :
    List String :=
  match scalarViolation type value with
  | none => violations
  | some text => violations ++ [s!"{path}: {text}"]

/-- What follows the switch; it is skipped once anything is found, in any node. -/
def validateAllowed (allowedValues : Option (List Json)) (value : Read) (path : String)
    (violations : List String) : List String :=
  match allowedValues with
  | none => violations
  | some allowedValues =>
    if violations = [] ∧ ¬ allowedValues.any (deepEqual · value) then
      violations ++ [s!"{path}: value not in allowedValues"]
    else violations

/-- The required keys that are not found. -/
def validateRequired (obj : String → Read) (path : String) (required violations : List String) :
    List String :=
  required.foldl (fun found req =>
    if (obj req).present then found else found ++ [s!"{path}.{req}: required field missing"])
    violations

mutual

/-- `validateNode`. -/
def validateNode : Schema → Read → (path : String) → (violations : List String) → List String
  | .node .object required properties _ _, value, path, violations =>
    -- the allowed values of an object are not looked at: the switch returns
    match value.asObject with
    | none => violations ++ [s!"{path}: expected object"]
    | some obj =>
      let found := validateRequired obj path (required.getD []) violations
      match properties with
      | none => found
      | some properties => validateProperties properties obj path found
  | .node .array _ _ items _, value, path, violations =>
    match value with
    | .json (.arr elements) =>
      match items with
      | none => violations
      | some items =>
        elements.zipIdx.foldl (fun found (item, i) =>
          validateNode items (.json item) s!"{path}[{i}]" found) violations
    | _ => violations ++ [s!"{path}: expected array"]
  | .node type _ _ _ allowedValues, value, path, violations =>
    validateAllowed allowedValues value path (validateScalar type value path violations)

def validateProperties : List (String × Schema) → (obj : String → Read) → (path : String) →
    (violations : List String) → List String
  | [], _, _, violations => violations
  | (key, schema) :: properties, obj, path, violations =>
    validateProperties properties obj path
      (if (obj key).present then validateNode schema (obj key) s!"{path}.{key}" violations
      else violations)

end

-- The equations of the mutual functions are made here, for all the proofs that unfold them.
section
attribute [local simp] validateNode validateProperties
end

/-- `validate`. -/
def validate (value : Json) (schema : Schema) : ToolSchemaValidationResult :=
  let violations := validateNode schema (.json value) "$" []
  ⟨violations.isEmpty, violations⟩

/-! ## Conformance -/

/-- The type that a value has. -/
def typeOf : Json → Option SchemaType
  | .null => none
  | .bool _ => some .boolean
  | .num _ => some .number
  | .str _ => some .string
  | .arr _ => some .array
  | .obj _ => some .object

/-- The value is deep-equal to an allowed one, if any are given. -/
def allowed (allowedValues : Option (List Json)) (value : Json) : Bool :=
  allowedValues.all fun values => values.any (same · value)

mutual

/-- The value conforms to the schema. -/
def conforms : Schema → Json → Bool
  | .node type required properties items allowedValues, value =>
    typeOf value = some type && allowed allowedValues value &&
      match value with
      | .obj members =>
        ((required.getD []).all fun req => req ∈ keys members) &&
          match properties with
          | none => true
          | some properties => propertiesConform properties members
      | .arr elements =>
        match items with
        | none => true
        | some items => elements.all (conforms items)
      | _ => true

/-- Each declared property that is present conforms. -/
def propertiesConform : List (String × Schema) → List (String × Json) → Bool
  | [], _ => true
  | (key, schema) :: properties, members =>
    ((Json.obj members).member? key).all (conforms schema) && propertiesConform properties members

end

section
attribute [local simp] conforms propertiesConform
end

/-! ## Breaches -/

/-- What a node can break, as its own key told from an inherited one. -/
inductive Breach where
  | type
  | notAllowed
  /-- An object or an array that is none of the allowed values. -/
  | notAllowedContainer
  | missing
  /-- A required key that the object only inherits. -/
  | inheritedRequired
  /-- A declared property that the object only inherits. -/
  | inheritedProperty
deriving DecidableEq

namespace Breach

/-- The validator does not see it. -/
def unchecked (b : Breach) : Bool := b = notAllowedContainer || b = inheritedRequired

/-- Validator and schema agree on it. -/
def plain (b : Breach) : Bool := b = type || b = notAllowed || b = missing

end Breach

/-- `Object.prototype` passes where an object is wanted that requires nothing it lacks and declares
nothing it has. -/
def takesPrototype : Schema → Bool
  | .node type required properties _ _ =>
    type = .object && ((required.getD []).all fun req => req ∈ inheritedNames) &&
      (properties.getD []).all fun p => p.1 ∉ inheritedNames

def allowedBreaches (allowedValues : Option (List Json)) (value : Json) : List Breach :=
  if allowed allowedValues value then []
  else match value with
    | .arr _ | .obj _ => [.notAllowedContainer]
    | _ => [.notAllowed]

def requiredBreaches (members : List (String × Json)) (required : List String) : List Breach :=
  required.flatMap fun req =>
    if req ∈ keys members then []
    else if req ∈ inheritedNames then [.inheritedRequired]
    else [.missing]

/-- A declared property that is no own key: inherited, it is validated all the same. -/
def inheritedBreaches (key : String) (schema : Schema) : List Breach :=
  if key ∈ inheritedNames ∧ ¬ (key = "__proto__" ∧ takesPrototype schema) then
    [.inheritedProperty]
  else []

mutual

/-- What the value breaks, in every node that is reached. -/
def breaches : Schema → Json → List Breach
  | .node type required properties items allowedValues, value =>
    if typeOf value = some type then
      allowedBreaches allowedValues value ++
        match value with
        | .obj members =>
          requiredBreaches members (required.getD []) ++
            match properties with
            | none => []
            | some properties => propertyBreaches properties members
        | .arr elements =>
          match items with
          | none => []
          | some items => elements.flatMap (breaches items)
        | _ => []
    else [.type]

def propertyBreaches : List (String × Schema) → List (String × Json) → List Breach
  | [], _ => []
  | (key, schema) :: properties, members =>
    (match (Json.obj members).member? key with
      | some v => breaches schema v
      | none => inheritedBreaches key schema) ++ propertyBreaches properties members

end

section
attribute [local simp] breaches propertyBreaches
end

/-! ## Conformance by the breaches -/

theorem allowedBreaches_all (p : Breach → Bool) (allowedValues : Option (List Json))
    (value : Json) :
    (allowedBreaches allowedValues value).all p =
      (allowed allowedValues value || p (match value with
        | .arr _ | .obj _ => .notAllowedContainer
        | _ => .notAllowed)) := by
  unfold allowedBreaches
  by_cases hallowed : allowed allowedValues value = true
  · simp [hallowed]
  · rw [if_neg hallowed, Bool.eq_false_iff.mpr hallowed]
    cases value <;> simp

theorem requiredBreaches_all (p : Breach → Bool) (members : List (String × Json))
    (required : List String) :
    (requiredBreaches members required).all p = required.all fun req =>
      req ∈ keys members || p (if req ∈ inheritedNames then .inheritedRequired else .missing) := by
  unfold requiredBreaches
  rw [List.all_flatMap]
  refine List.all_congr rfl fun req => ?_
  by_cases hown : req ∈ keys members
  · simp [hown]
  · by_cases hname : req ∈ inheritedNames <;> simp [hown, hname]

theorem inheritedBreaches_all (p : Breach → Bool) (key : String) (schema : Schema) :
    (inheritedBreaches key schema).all p =
      (key ∉ inheritedNames || (key = "__proto__" && takesPrototype schema) ||
        p .inheritedProperty) := by
  unfold inheritedBreaches
  by_cases hname : key ∈ inheritedNames
  · by_cases hproto : key = "__proto__" ∧ takesPrototype schema = true
    · simp [hproto]
    · have hfalse : (decide (key = "__proto__") && takesPrototype schema) = false := by
        rw [Bool.eq_false_iff, ne_eq, Bool.and_eq_true, decide_eq_true_eq]
        exact hproto
      rw [if_pos ⟨hname, hproto⟩, hfalse]
      simp [hname]
  · rw [if_neg fun h => hname h.1]
    simp [hname]

mutual

/-- **A value conforms iff it breaks no rule**, declared properties it only inherits aside. -/
theorem conforms_eq (schema : Schema) (value : Json) :
    conforms schema value = (breaches schema value).all (· = .inheritedProperty) := by
  obtain ⟨type, required, properties, items, allowedValues⟩ := schema
  unfold conforms breaches
  by_cases htype : typeOf value = some type
  · rw [if_pos htype, List.all_append, allowedBreaches_all]
    cases value with
    | obj members =>
      have hrequired (req : String) : (if req ∈ inheritedNames then
          Breach.inheritedRequired else .missing) ≠ .inheritedProperty := by
        split <;> decide
      simp only [htype, List.all_append, requiredBreaches_all, hrequired]
      cases properties with
      | none => simp
      | some properties =>
        have ih := propertiesConform_eq properties members
        simp [ih]
    | arr elements =>
      cases items with
      | none => simp [htype]
      | some items =>
        have ih : conforms items = fun v => (breaches items v).all (· = .inheritedProperty) :=
          funext (conforms_eq items)
        simp [htype, List.all_flatMap, ih]
    | null | bool _ | num _ | str _ => simp [htype]
  · rw [if_neg htype]
    simp [htype]

theorem propertiesConform_eq (properties : List (String × Schema))
    (members : List (String × Json)) :
    propertiesConform properties members =
      (propertyBreaches properties members).all (· = .inheritedProperty) := by
  cases properties with
  | nil => rfl
  | cons property properties =>
    obtain ⟨key, schema⟩ := property
    rw [propertiesConform, propertyBreaches, List.all_append,
      propertiesConform_eq properties members]
    cases (Json.obj members).member? key with
    | none => simp [inheritedBreaches_all]
    | some v => rw [Option.all_some, conforms_eq schema v]

end

/-! ## The validator by the breaches -/

/-- A fold that finds nothing iff it begins with nothing and finds nothing at any element. -/
theorem foldl_eq_nil_iff {α β : Type} {f : List β → α → List β} {p : α → Bool}
    (h : ∀ found a, f found a = [] ↔ found = [] ∧ p a = true) (as : List α) :
    ∀ found, as.foldl f found = [] ↔ found = [] ∧ as.all p = true := by
  induction as with
  | nil => simp
  | cons a as ih =>
    intro found
    rw [List.foldl_cons, ih, h, List.all_cons, Bool.and_eq_true, and_assoc]

theorem validateRequired_eq_nil (obj : String → Read) (path : String)
    (required violations : List String) :
    validateRequired obj path required violations = [] ↔
      violations = [] ∧ (required.all fun req => (obj req).present) = true := by
  refine foldl_eq_nil_iff (fun found req => ?_) required violations
  cases (obj req).present <;> simp

theorem inherited_present (name : String) :
    (inherited name).present = decide (name ∈ inheritedNames) := by
  unfold inherited
  by_cases hproto : name = "__proto__"
  · subst hproto
    decide
  · by_cases hname : name ∈ inheritedNames <;> simp [hproto, hname, Read.present]

theorem member?_isSome (members : List (String × Json)) (name : String) :
    ((Json.obj members).member? name).isSome = decide (name ∈ keys members) := by
  rw [Json.member?, Option.isSome_map, Bool.eq_iff_iff, List.find?_isSome, decide_eq_true_eq]
  simp [keys]

theorem get_present (members : List (String × Json)) (name : String) :
    (get members name).present =
      (decide (name ∈ keys members) || decide (name ∈ inheritedNames)) := by
  rw [← member?_isSome, ← inherited_present]
  unfold get
  cases (Json.obj members).member? name <;> rfl

theorem prototypeGet_present (name : String) :
    (prototypeGet name).present = decide (name ∈ inheritedNames) := by
  unfold prototypeGet
  by_cases hproto : name = "__proto__"
  · subst hproto
    decide
  · by_cases hname : name ∈ inheritedNames <;> simp [hproto, hname, Read.present]

/-- No schema takes a function. -/
theorem validateNode_function (schema : Schema) (path : String) (violations : List String) :
    validateNode schema .function path violations ≠ [] := by
  obtain ⟨type, required, properties, items, allowedValues⟩ := schema
  cases type with
  | object | array => simp [validateNode, Read.asObject]
  | string | number | boolean | unknown =>
    cases allowedValues <;> simp [validateNode, validateAllowed, validateScalar, scalarViolation]

theorem validateNode_null (schema : Schema) (path : String) (violations : List String) :
    validateNode schema (.json .null) path violations ≠ [] := by
  obtain ⟨type, required, properties, items, allowedValues⟩ := schema
  cases type with
  | object | array => simp [validateNode, Read.asObject]
  | string | number | boolean | unknown =>
    cases allowedValues <;> simp [validateNode, validateAllowed, validateScalar, scalarViolation]

/-- What `Object.prototype` has as a property is a function or null, which no schema takes. -/
theorem validateProperties_prototype (properties : List (String × Schema)) (path : String) :
    ∀ violations, validateProperties properties prototypeGet path violations = [] ↔
      violations = [] ∧ (properties.all fun p => p.1 ∉ inheritedNames) = true := by
  induction properties with
  | nil => simp [validateProperties]
  | cons property properties ih =>
    obtain ⟨key, schema⟩ := property
    intro violations
    rw [validateProperties, ih, prototypeGet_present]
    by_cases hkey : key ∈ inheritedNames
    · have hread : validateNode schema (prototypeGet key) s!"{path}.{key}" violations ≠ [] := by
        unfold prototypeGet
        by_cases hproto : key = "__proto__"
        · rw [if_pos hproto]
          exact validateNode_null schema _ violations
        · rw [if_neg hproto, if_pos (by simpa using hkey)]
          exact validateNode_function schema _ violations
      simp [hkey, hread]
    · simp [hkey]

theorem validateNode_prototype (schema : Schema) (path : String) (violations : List String) :
    validateNode schema .objectPrototype path violations = [] ↔
      violations = [] ∧ takesPrototype schema = true := by
  obtain ⟨type, required, properties, items, allowedValues⟩ := schema
  cases type with
  | object =>
    have hrequired := validateRequired_eq_nil prototypeGet path (required.getD []) violations
    cases properties with
    | none => simp [validateNode, Read.asObject, hrequired, takesPrototype, prototypeGet_present]
    | some properties =>
      simp [validateNode, Read.asObject, hrequired, takesPrototype, prototypeGet_present,
        validateProperties_prototype, and_assoc]
  | array => simp [validateNode, takesPrototype]
  | string | number | boolean | unknown =>
    cases allowedValues <;> simp [validateNode, validateAllowed, validateScalar, scalarViolation, takesPrototype]

/-- An inherited property is refused unless it is `Object.prototype` and its schema takes that. -/
theorem validate_inherited (key : String) (schema : Schema) (path : String)
    (violations : List String) :
    (if (inherited key).present then validateNode schema (inherited key) path violations
      else violations) = [] ↔
      violations = [] ∧ (inheritedBreaches key schema).all Breach.unchecked = true := by
  rw [inherited_present, inheritedBreaches_all]
  by_cases hproto : key = "__proto__"
  · subst hproto
    have hname : "__proto__" ∈ inheritedNames := by decide
    have hread : inherited "__proto__" = .objectPrototype := rfl
    simp [hname, hread, validateNode_prototype, Breach.unchecked]
  · by_cases hname : key ∈ inheritedNames
    · have hread : inherited key = .function := by
        unfold inherited
        rw [if_neg hproto, if_pos (by simpa using hname)]
      simp [hname, hproto, hread, validateNode_function, Breach.unchecked]
    · simp [hname]

/-- A scalar is found among the allowed values as it should be. -/
theorem deepEqual_scalar (v : Json) {value : Json} (hobj : typeOf value ≠ some .object)
    (harr : typeOf value ≠ some .array) : deepEqual v (.json value) = same v value := by
  cases value with
  | obj => exact absurd rfl hobj
  | arr => exact absurd rfl harr
  | null | bool _ | num _ | str _ => cases v <;> rfl

/-- The types that the switch does not return from. -/
def SchemaType.scalar (type : SchemaType) : Prop := type ≠ .object ∧ type ≠ .array

theorem scalarViolation_eq_none {type : SchemaType} (h : type.scalar) (value : Json) :
    scalarViolation type (.json value) = none ↔ typeOf value = some type := by
  cases type with
  | object => exact absurd rfl h.1
  | array => exact absurd rfl h.2
  | string | number | boolean | unknown => cases value <;> simp [scalarViolation, typeOf]

theorem validateScalar_eq_nil (type : SchemaType) (value : Read) (path : String)
    (violations : List String) : validateScalar type value path violations = [] ↔
      violations = [] ∧ scalarViolation type value = none := by
  unfold validateScalar
  cases scalarViolation type value <;> simp

theorem validateAllowed_eq_nil (allowedValues : Option (List Json)) (value : Read) (path : String)
    (violations : List String) : validateAllowed allowedValues value path violations = [] ↔
      violations = [] ∧ (allowedValues.all fun values => values.any (deepEqual · value)) = true := by
  unfold validateAllowed
  cases allowedValues with
  | none => simp
  | some values =>
    by_cases hviolations : violations = []
    · by_cases hany : (values.any fun v => deepEqual v value) = true <;> simp [hviolations, hany]
    · simp [hviolations]

/-- What a node of a scalar type finds. -/
theorem validateScalarNode_eq_nil {type : SchemaType} (h : type.scalar)
    (allowedValues : Option (List Json)) (value : Json) (path : String) (violations : List String) :
    validateAllowed allowedValues (.json value) path
        (validateScalar type (.json value) path violations) = [] ↔
      violations = [] ∧ typeOf value = some type ∧
        (allowedBreaches allowedValues value).all Breach.unchecked = true := by
  rw [validateAllowed_eq_nil, validateScalar_eq_nil, scalarViolation_eq_none h, and_assoc]
  refine and_congr_right fun _ => and_congr_right fun htype => ?_
  have hobj : typeOf value ≠ some .object := by
    rw [htype]
    exact fun heq => h.1 (Option.some.inj heq)
  have harr : typeOf value ≠ some .array := by
    rw [htype]
    exact fun heq => h.2 (Option.some.inj heq)
  have hequal : (fun v => deepEqual v (.json value)) = fun v => same v value :=
    funext fun v => deepEqual_scalar v hobj harr
  rw [allowedBreaches_all, hequal]
  cases value with
  | obj => exact absurd rfl hobj
  | arr => exact absurd rfl harr
  | null | bool _ | num _ | str _ => simp [allowed, Breach.unchecked]

theorem validateNode_scalar {type : SchemaType} (h : type.scalar) (required : Option (List String))
    (properties : Option (List (String × Schema))) (items : Option Schema)
    (allowedValues : Option (List Json)) (value : Read) (path : String)
    (violations : List String) :
    validateNode (.node type required properties items allowedValues) value path violations =
      validateAllowed allowedValues value path (validateScalar type value path violations) := by
  cases type with
  | object => exact absurd rfl h.1
  | array => exact absurd rfl h.2
  | string | number | boolean | unknown => rfl

/-- The rule on required keys, with inherited ones let through. -/
theorem requiredBreaches_unchecked (members : List (String × Json)) (required : List String) :
    (requiredBreaches members required).all Breach.unchecked =
      required.all fun req => (get members req).present := by
  rw [requiredBreaches_all]
  refine List.all_congr rfl fun req => ?_
  rw [get_present]
  by_cases hname : req ∈ inheritedNames <;> simp [hname, Breach.unchecked]

theorem breaches_of_typeOf_ne {type : SchemaType} {value : Json} (h : typeOf value ≠ some type)
    (required : Option (List String)) (properties : Option (List (String × Schema)))
    (items : Option Schema) (allowedValues : Option (List Json)) :
    breaches (.node type required properties items allowedValues) value = [.type] := by
  unfold breaches
  rw [if_neg h]

theorem breaches_scalar {type : SchemaType} (h : type.scalar) (required : Option (List String))
    (properties : Option (List (String × Schema))) (items : Option Schema)
    (allowedValues : Option (List Json)) (value : Json) :
    (breaches (.node type required properties items allowedValues) value).all Breach.unchecked =
      (typeOf value = some type && (allowedBreaches allowedValues value).all Breach.unchecked) := by
  by_cases htype : typeOf value = some type
  · unfold breaches
    cases value with
    | obj => exact absurd (Option.some.inj htype).symm h.1
    | arr => exact absurd (Option.some.inj htype).symm h.2
    | null | bool _ | num _ | str _ => simp [htype]
  · rw [breaches_of_typeOf_ne htype]
    simp [htype, Breach.unchecked]

mutual

/-- **A node finds nothing iff it breaks no rule that is checked.** -/
theorem validateNode_eq_nil (schema : Schema) (value : Json) (path : String)
    (violations : List String) :
    validateNode schema (.json value) path violations = [] ↔
      violations = [] ∧ (breaches schema value).all Breach.unchecked = true := by
  obtain ⟨type, required, properties, items, allowedValues⟩ := schema
  cases type with
  | object =>
    cases value with
    | obj members =>
      have hrequired := validateRequired_eq_nil (get members) path (required.getD []) violations
      have hallowed : (allowedBreaches allowedValues (.obj members)).all Breach.unchecked = true := by
        simp [allowedBreaches_all, Breach.unchecked]
      cases properties with
      | none =>
        simp [validateNode, Read.asObject, breaches, typeOf, hrequired, hallowed,
          requiredBreaches_unchecked]
      | some properties =>
        have ih := validateProperties_eq_nil properties members path
        simp [validateNode, Read.asObject, breaches, typeOf, hrequired, hallowed,
          requiredBreaches_unchecked, ih, and_assoc]
    | null | bool _ | num _ | str _ | arr _ =>
      rw [breaches_of_typeOf_ne (by simp [typeOf])]
      simp [validateNode, Read.asObject, Breach.unchecked]
  | array =>
    cases value with
    | arr elements =>
      have hallowed : (allowedBreaches allowedValues (.arr elements)).all Breach.unchecked =
          true := by
        simp [allowedBreaches_all, Breach.unchecked]
      cases items with
      | none => simp [validateNode, breaches, typeOf, hallowed]
      | some items =>
        have hfold := foldl_eq_nil_iff (f := fun found (p : Json × Nat) =>
            validateNode items (.json p.1) s!"{path}[{p.2}]" found)
          (fun found p => validateNode_eq_nil items p.1 _ found) elements.zipIdx violations
        have hzip : (elements.zipIdx.all fun p => (breaches items p.1).all Breach.unchecked) =
            elements.all fun v => (breaches items v).all Breach.unchecked := by
          conv_rhs => rw [← List.zipIdx_map_fst 0 elements, List.all_map]
          rfl
        rw [hzip] at hfold
        refine hfold.trans ?_
        simp [breaches, typeOf, hallowed, List.all_flatMap]
    | null | bool _ | num _ | str _ | obj _ =>
      rw [breaches_of_typeOf_ne (by simp [typeOf])]
      simp [validateNode, Breach.unchecked]
  | string | number | boolean | unknown =>
    rw [validateNode_scalar (by simp [SchemaType.scalar]),
      validateScalarNode_eq_nil (by simp [SchemaType.scalar]),
      breaches_scalar (by simp [SchemaType.scalar]), Bool.and_eq_true, decide_eq_true_eq]

theorem validateProperties_eq_nil (properties : List (String × Schema))
    (members : List (String × Json)) (path : String) (violations : List String) :
    validateProperties properties (get members) path violations = [] ↔
      violations = [] ∧ (propertyBreaches properties members).all Breach.unchecked = true := by
  cases properties with
  | nil => simp [validateProperties, propertyBreaches]
  | cons property properties =>
    obtain ⟨key, schema⟩ := property
    rw [validateProperties, validateProperties_eq_nil properties members, propertyBreaches,
      List.all_append, Bool.and_eq_true, ← and_assoc]
    refine and_congr_left fun _ => ?_
    unfold get
    cases (Json.obj members).member? key with
    | none => exact validate_inherited key schema _ violations
    | some v => exact validateNode_eq_nil schema v _ violations

end

/-! ## Exactness -/

theorem valid_eq (value : Json) (schema : Schema) :
    (validate value schema).valid = (breaches schema value).all Breach.unchecked := by
  have hnil := validateNode_eq_nil schema value "$" []
  rw [Bool.eq_iff_iff, validate, List.isEmpty_iff, hnil]
  simp

/-- The breaches that show, those that do not, and those that are none. -/
def Balanced (found : List Breach) : Prop :=
  (∃ b ∈ found, b.plain = true) ∨ ((∃ b ∈ found, b.unchecked = true) ↔ .inheritedProperty ∈ found)

instance (found : List Breach) : Decidable (Balanced found) := inferInstanceAs (Decidable (_ ∨ _))

theorem balanced_iff (found : List Breach) :
    (found.all Breach.unchecked = true ↔ found.all (· = .inheritedProperty) = true) ↔
      Balanced found := by
  have hunchecked : found.all Breach.unchecked = true ↔
      ¬ (∃ b ∈ found, b.plain = true) ∧ .inheritedProperty ∉ found := by
    rw [List.all_eq_true]
    constructor
    · intro h
      refine ⟨?_, fun hmem => absurd (h _ hmem) (by decide)⟩
      rintro ⟨b, hb, hplain⟩
      have hboth := h b hb
      cases b <;> first | exact absurd hplain (by decide) | exact absurd hboth (by decide)
    · rintro ⟨hplain, hproperty⟩ b hb
      cases b with
      | type | notAllowed | missing => exact absurd ⟨_, hb, rfl⟩ hplain
      | notAllowedContainer | inheritedRequired => rfl
      | inheritedProperty => exact absurd hb hproperty
  have hproperty : found.all (· = .inheritedProperty) = true ↔
      ¬ (∃ b ∈ found, b.plain = true) ∧ ¬ ∃ b ∈ found, b.unchecked = true := by
    rw [List.all_eq_true]
    constructor
    · intro h
      constructor
      all_goals
        rintro ⟨b, hb, hkind⟩
        rw [of_decide_eq_true (h b hb)] at hkind
        exact absurd hkind (by decide)
    · rintro ⟨hplain, hunchecked⟩ b hb
      cases b with
      | type | notAllowed | missing => exact absurd ⟨_, hb, rfl⟩ hplain
      | notAllowedContainer | inheritedRequired => exact absurd ⟨_, hb, rfl⟩ hunchecked
      | inheritedProperty => rfl
  rw [hunchecked, hproperty, Balanced]
  by_cases hplain : ∃ b ∈ found, b.plain = true
  · simp only [hplain, not_true_eq_false, false_and, true_or]
  · simp only [hplain, not_false_eq_true, true_and, false_or]
    exact not_iff_not.trans iff_comm

/-- **When the validator enforces the schema, and `deepEqual` tells values apart.** Validation:
some rule is broken in plain sight, or what goes unchecked (the allowed values of objects and
arrays, required keys that are inherited) is broken iff an inherited property is refused. -/
theorem valid_iff_conforms_iff (schema : Schema) (value : Json) {a b : Json} (ha : Distinct a)
    (hb : Distinct b) :
    (((validate value schema).valid = true ↔ conforms schema value = true) ↔
        Balanced (breaches schema value)) ∧
      ((deepEqual a (.json b) = true ↔ same a b = true) ↔
        (.emptyProto ∈ differences a b → .plain ∈ differences a b)) := by
  rw [valid_eq, conforms_eq, balanced_iff]
  exact ⟨Iff.rfl, deepEqual_iff_same_iff ha hb⟩

/-- Allowed values of an object go unchecked; a required key is found in the prototype; a declared
`toString` that is absent is refused; and an empty `__proto__` equals any other member. -/
theorem not_exact :
    (let schema : Schema :=
      .node .object none none none (some [.obj [("mode", .str "safe")]])
    (validate (.obj [("mode", .str "raw")]) schema).valid = true ∧
      conforms schema (.obj [("mode", .str "raw")]) = false) ∧
    (let schema : Schema := .node .object (some ["constructor"]) none none none
    (validate (.obj []) schema).valid = true ∧ conforms schema (.obj []) = false) ∧
    (let schema : Schema :=
      .node .object none (some [("toString", .node .string none none none none)]) none none
    (validate (.obj []) schema).valid = false ∧ conforms schema (.obj []) = true) ∧
    (deepEqual (.obj [("__proto__", .obj [])]) (.json (.obj [("x", .num 1)])) = true ∧
      same (.obj [("__proto__", .obj [])]) (.obj [("x", .num 1)]) = false) := by
  decide +kernel

/-- A schema with nested objects, arrays and allowed values, enforced. -/
theorem enforced :
    let schema : Schema := .node .object (some ["to"])
      (some [("to", .node .array none none (some (.node .string none none none
        (some [.str "a", .str "b"]))) none)]) none none
    let value : Json := .obj [("to", .arr [.str "a", .str "c"]), ("n", .num 1)]
    ((validate value schema).valid = true ↔ conforms schema value = true) ∧
      (deepEqual value (.json value) = true ↔ same value value = true) := by
  intro schema value
  have hdistinct : Distinct value := by
    simp [value, Distinct, MembersDistinct, ElementsDistinct, keys]
  have hexact := valid_iff_conforms_iff schema value hdistinct hdistinct
  exact ⟨hexact.1.mpr (by decide +kernel), hexact.2.mpr (by decide +kernel)⟩

end VegaRevenue.StrictToolSchemaValidator
