import TrainingJob.Json.Fields
import TrainingJob.Schema.Basic
import TrainingJob.Error

/-!
# Validation

A field map is checked against a schema, and the first fault is reported. In
each object a name that the schema does not declare comes before every other
fault, the first such name in document order. The declared entries follow in
declaration order, whatever the order of the document. A required field that is
missing or `null` is mistyped: nothing was found where its type was expected.

A check answers with a `Fault`, whose location is relative to the value checked.
Each level puts its own step in front (`Fault.below`), and only
`Schema.validate` and `Schema.validateField` name the record, so that a fault
deep in a nested shape is still reported for the outermost record.

A map passes exactly when all its names are declared and each entry is content
with what the map holds for it (`Schema.fault?_eq_none_iff`).
-/

set_option autoImplicit false

namespace TrainingJob

open Json

/-- What is wrong with a value, and where inside it. -/
inductive Fault where
  | unknown (location : Location)
  | mistyped (location : Location) (expected found : String)
deriving DecidableEq, Repr

namespace Fault

/-- The same fault, seen from the value that has the faulty one at `step`. -/
def below (step : Step) : Fault → Fault
  | unknown location => unknown (step :: location)
  | mistyped location expected found => mistyped (step :: location) expected found

/-- The value itself is of another kind than its type asks for. -/
def mismatch (type : FieldType) (value : Value) : Fault :=
  mistyped [] type.describe value.kind.name

/-- A required value is missing. -/
def absence (type : FieldType) : Fault := mistyped [] type.describe "nothing"

/-- A fault found in a record of the given name. -/
def toError (record : String) : Fault → Error
  | unknown location => .unknownField record location
  | mistyped location expected found => .mistyped record location expected found

/-- The first fault among items, the first of which stands at `position`. -/
def ofItems (fault? : Value → Option Fault) (position : Nat) : List Value → Option Fault
  | [] => none
  | item :: rest =>
    match fault? item with
    | some fault => some (fault.below (.index position))
    | none => ofItems fault? (position + 1) rest

end Fault

/-- The first name of a map that no entry declares. -/
def Schema.undeclared? (schema : Schema) (fields : Fields) : Option String :=
  fields.names.find? fun name => !schema.declares name

mutual

/-- The first fault of a value against a type. -/
def FieldType.fault? : FieldType → Value → Option Fault
  | .string, value =>
    match value with
    | .string _ => none
    | _ => some (.mismatch .string value)
  | .integer, value =>
    match value with
    | .integer n => if FitsWord n then none else some (.mismatch .integer value)
    | _ => some (.mismatch .integer value)
  | .boolean, value =>
    match value with
    | .boolean _ => none
    | _ => some (.mismatch .boolean value)
  | .list item, value =>
    match value with
    | .list items => Fault.ofItems item.fault? 0 items
    | _ => some (.mismatch (.list item) value)
  | .shape schema, value =>
    match value with
    | .object members => schema.fault? members
    | _ => some (.mismatch (.shape schema) value)
  | .oneOf members, value =>
    if FieldType.someAccepts members value then none else some (.mismatch (.oneOf members) value)

/-- Some member of a choice has no fault to find in a value. -/
def FieldType.someAccepts : List FieldType → Value → Bool
  | [], _ => false
  | member :: rest, value => (member.fault? value).isNone || FieldType.someAccepts rest value

/-- The first fault of a field map. -/
def Schema.fault? : Schema → Fields → Option Fault
  | ⟨name, declared⟩, fields =>
    match Schema.undeclared? ⟨name, declared⟩ fields with
    | some unknown => some (.unknown [.field unknown])
    | none => Field.firstFault? declared fields

/-- The first fault among the declared entries. -/
def Field.firstFault? : List Field → Fields → Option Fault
  | [], _ => none
  | field :: rest, fields =>
    match field.fault? (fields.get? field.name) with
    | some fault => some fault
    | none => Field.firstFault? rest fields

/-- The fault of one entry, given the value that the map holds for it. -/
def Field.fault? : Field → Option Value → Option Fault
  | ⟨name, type, isRequired⟩, value? =>
    match value? with
    | none | some .null =>
      if isRequired then some ((Fault.absence type).below (.field name)) else none
    | some value => (type.fault? value).map (Fault.below (.field name))

end

/-- Items have no fault when each of them has none. -/
theorem Fault.ofItems_eq_none_iff {fault? : Value → Option Fault} {position : Nat} {items : List Value} :
    Fault.ofItems fault? position items = none ↔ ∀ item ∈ items, fault? item = none := by
  induction items generalizing position with
  | nil => simp [Fault.ofItems]
  | cons item rest ih =>
    rw [Fault.ofItems]
    cases h : fault? item with
    | none => simp [h, ih]
    | some fault => simp [h]

theorem FieldType.someAccepts_iff {members : List FieldType} {value : Value} :
    FieldType.someAccepts members value = true ↔ ∃ member ∈ members, member.fault? value = none := by
  induction members with
  | nil => simp [FieldType.someAccepts]
  | cons member rest ih => simp [FieldType.someAccepts, ih]

theorem Schema.undeclared?_eq_none_iff {schema : Schema} {fields : Fields} :
    schema.undeclared? fields = none ↔ ∀ name ∈ fields.names, schema.declares name = true := by
  simp [Schema.undeclared?]

/-- An undeclared name is one of the map, and no entry has it. -/
theorem Schema.of_undeclared?_eq_some {schema : Schema} {fields : Fields} {name : String}
    (h : schema.undeclared? fields = some name) : name ∈ fields.names ∧ schema.declares name = false := by
  refine ⟨List.mem_of_find?_eq_some h, ?_⟩
  simpa using List.find?_some h

theorem Field.firstFault?_eq_none_iff {declared : List Field} {fields : Fields} :
    Field.firstFault? declared fields = none ↔
      ∀ field ∈ declared, field.fault? (fields.get? field.name) = none := by
  induction declared with
  | nil => simp [Field.firstFault?]
  | cons field rest ih =>
    rw [Field.firstFault?]
    cases h : field.fault? (fields.get? field.name) with
    | none => simp [h, ih]
    | some fault => simp [h]

/-- An undeclared name comes before every other fault. -/
theorem Schema.fault?_of_undeclared {schema : Schema} {fields : Fields} {name : String}
    (unknown : schema.undeclared? fields = some name) : schema.fault? fields = some (.unknown [.field name]) := by
  obtain ⟨record, entries⟩ := schema
  rw [Schema.fault?, unknown]

/-- With all its names declared, a map is as faulty as its entries. -/
theorem Schema.fault?_of_declared {schema : Schema} {fields : Fields} (declared : schema.undeclared? fields = none) :
    schema.fault? fields = Field.firstFault? schema.fields fields := by
  obtain ⟨name, entries⟩ := schema
  rw [Schema.fault?, declared]

/-- A map has no fault when all its names are declared and every entry is content. -/
theorem Schema.fault?_eq_none_iff {schema : Schema} {fields : Fields} :
    schema.fault? fields = none ↔
      (∀ name ∈ fields.names, schema.declares name = true) ∧
        ∀ field ∈ schema.fields, field.fault? (fields.get? field.name) = none := by
  obtain ⟨name, declared⟩ := schema
  rw [Schema.fault?, ← Schema.undeclared?_eq_none_iff, ← Field.firstFault?_eq_none_iff]
  cases Schema.undeclared? ⟨name, declared⟩ fields <;> simp

namespace Schema

/-- The verdict that a fault, or its lack, means for a record of this schema. -/
def verdict (schema : Schema) : Option Fault → Except Error Unit
  | none => .ok ()
  | some fault => .error (fault.toError schema.name)

/-- Checks a whole field map. -/
def validate (schema : Schema) (fields : Fields) : Except Error Unit :=
  schema.verdict (schema.fault? fields)

/-- Checks one value for the field of that name. -/
def validateField (schema : Schema) (name : String) (value : Value) : Except Error Unit :=
  schema.verdict <|
    match schema.field? name with
    | none => some (.unknown [.field name])
    | some field => field.fault? (some value)

theorem verdict_eq_ok_iff {schema : Schema} {fault? : Option Fault} :
    schema.verdict fault? = .ok () ↔ fault? = none := by
  cases fault? <;> simp [verdict]

theorem verdict_eq_error_iff {schema : Schema} {fault? : Option Fault} {error : Error} :
    schema.verdict fault? = .error error ↔ ∃ fault, fault? = some fault ∧ fault.toError schema.name = error := by
  cases fault? <;> simp [verdict]

theorem validate_eq_ok_iff {schema : Schema} {fields : Fields} :
    schema.validate fields = .ok () ↔ schema.fault? fields = none :=
  verdict_eq_ok_iff

theorem validate_eq_error_iff {schema : Schema} {fields : Fields} {error : Error} :
    schema.validate fields = .error error ↔
      ∃ fault, schema.fault? fields = some fault ∧ fault.toError schema.name = error :=
  verdict_eq_error_iff

end Schema

end TrainingJob
