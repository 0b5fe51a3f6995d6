/-!
# Schemas

A schema declares the fields of a record: for each a name, the type of its
values, and whether a record must have it. Types nest: a list of a type, an
object that follows another schema, or a choice between types. Nothing forbids
an entry that repeats an earlier name, so a name is looked up by its first entry
(`Schema.field?`).

Equality of types is decidable, through the comparison `FieldType.same`.
-/

set_option autoImplicit false

namespace TrainingJob

mutual

/-- The type of a field's values. `shape` holds objects that follow a schema,
`oneOf` any value of some member. -/
inductive FieldType where
  | string
  | integer
  | boolean
  | list (item : FieldType)
  | shape (schema : Schema)
  | oneOf (members : List FieldType)

/-- A declared field. Absence is a fault exactly when the field is required. -/
structure Field where
  name : String
  type : FieldType
  isRequired : Bool

/-- The declared fields of a record, in declaration order. -/
structure Schema where
  name : String
  fields : List Field

end

/-- A field that a record must have. -/
def Field.required (name : String) (type : FieldType) : Field := ⟨name, type, true⟩

/-- A field that a record may lack. -/
def Field.optional (name : String) (type : FieldType) : Field := ⟨name, type, false⟩

/-- Integer fields hold the numbers of a signed 64-bit word. -/
abbrev FitsWord (n : Int) : Prop := -0x8000000000000000 ≤ n ∧ n < 0x8000000000000000

mutual

/-- The description of a type in an error message. A nested schema is known by its name. -/
def FieldType.describe : FieldType → String
  | .string => "string"
  | .integer => "integer"
  | .boolean => "boolean"
  | .list item => "list of " ++ item.describe
  | .shape schema => schema.name
  | .oneOf members => " | ".intercalate (FieldType.describeEach members)

def FieldType.describeEach : List FieldType → List String
  | [] => []
  | member :: rest => member.describe :: FieldType.describeEach rest

end

mutual

/-- Comparison of types, down to the declarations of nested schemas. -/
def FieldType.same : FieldType → FieldType → Bool
  | .string, .string => true
  | .integer, .integer => true
  | .boolean, .boolean => true
  | .list item, .list other => item.same other
  | .shape ⟨name, declared⟩, .shape ⟨other, others⟩ => name == other && Field.sameEach declared others
  | .oneOf members, .oneOf others => FieldType.sameEach members others
  | _, _ => false

def FieldType.sameEach : List FieldType → List FieldType → Bool
  | [], [] => true
  | member :: rest, other :: others => member.same other && FieldType.sameEach rest others
  | _, _ => false

def Field.sameEach : List Field → List Field → Bool
  | [], [] => true
  | ⟨name, type, isRequired⟩ :: rest, ⟨other, otherType, otherRequired⟩ :: others =>
    name == other && type.same otherType && isRequired == otherRequired && Field.sameEach rest others
  | _, _ => false

end

mutual

theorem FieldType.same_iff : ∀ type other : FieldType, type.same other = true ↔ type = other
  | .string, other => by cases other <;> simp [FieldType.same]
  | .integer, other => by cases other <;> simp [FieldType.same]
  | .boolean, other => by cases other <;> simp [FieldType.same]
  | .list item, other => by cases other <;> simp [FieldType.same, FieldType.same_iff item]
  | .shape ⟨name, declared⟩, other => by
    cases other with
    | shape schema =>
      obtain ⟨otherName, others⟩ := schema
      simp [FieldType.same, Field.sameEach_iff declared]
    | _ => simp [FieldType.same]
  | .oneOf members, other => by cases other <;> simp [FieldType.same, FieldType.sameEach_iff members]

theorem FieldType.sameEach_iff : ∀ members others : List FieldType,
    FieldType.sameEach members others = true ↔ members = others
  | [], others => by cases others <;> simp [FieldType.sameEach]
  | member :: rest, others => by
    cases others <;> simp [FieldType.sameEach, FieldType.same_iff member, FieldType.sameEach_iff rest]

theorem Field.sameEach_iff : ∀ declared others : List Field, Field.sameEach declared others = true ↔ declared = others
  | [], others => by cases others <;> simp [Field.sameEach]
  | ⟨name, type, isRequired⟩ :: rest, others => by
    cases others with
    | nil => simp [Field.sameEach]
    | cons other others =>
      obtain ⟨otherName, otherType, otherRequired⟩ := other
      simp [Field.sameEach, FieldType.same_iff type, Field.sameEach_iff rest, and_assoc]

end

instance instDecidableEqFieldType : DecidableEq FieldType :=
  fun type other => decidable_of_iff _ (FieldType.same_iff type other)

namespace Schema

/-- The first entry of that name. -/
def field? (schema : Schema) (name : String) : Option Field :=
  schema.fields.find? fun field => field.name == name

/-- Some entry has that name. -/
def declares (schema : Schema) (name : String) : Bool :=
  schema.fields.any fun field => field.name == name

/-- The names of all entries, in declaration order. -/
def fieldNames (schema : Schema) : List String := schema.fields.map Field.name

theorem declares_iff {schema : Schema} {name : String} :
    schema.declares name = true ↔ name ∈ schema.fieldNames := by
  simp [declares, fieldNames]

theorem declares_iff_exists {schema : Schema} {name : String} :
    schema.declares name = true ↔ ∃ field ∈ schema.fields, field.name = name :=
  declares_iff.trans List.mem_map

theorem declares_eq_isSome (schema : Schema) (name : String) :
    schema.declares name = (schema.field? name).isSome := by
  rw [Bool.eq_iff_iff]
  simp [declares, field?, List.find?_isSome]

theorem name_of_field? {schema : Schema} {name : String} {field : Field}
    (h : schema.field? name = some field) : field.name = name := by
  simpa using List.find?_some h

end Schema

end TrainingJob
