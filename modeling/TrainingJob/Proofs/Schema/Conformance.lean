import TrainingJob.Proofs.Schema.Acceptance

/-!
# Conformance

What it means for a value to be of a type, said without a check: as derivations.
A list is of a list type when each of its items is of the item type, an object
follows a schema when every name in it is declared and every declared entry is
content, and a choice admits what some member admits. Absence is content for the
entries that are not required, whether the name is missing or holds `null`; a
`null` among items or members of a choice is a value like any other.

`Schema.validate_eq_ok_iff_admits` ties the check to this reading: validation
succeeds on exactly the field maps that conform.
-/

set_option autoImplicit false

namespace TrainingJob

open Json

mutual

/-- The values of a type. -/
inductive FieldType.Admits : FieldType → Value → Prop where
  | string (s : String) : FieldType.Admits .string (.string s)
  | integer {n : Int} (lower : -0x8000000000000000 ≤ n) (upper : n ≤ 0x7fffffffffffffff) :
      FieldType.Admits .integer (.integer n)
  | boolean (b : Bool) : FieldType.Admits .boolean (.boolean b)
  | list {item : FieldType} {items : List Value} (each : ∀ value ∈ items, FieldType.Admits item value) :
      FieldType.Admits (.list item) (.list items)
  | shape {schema : Schema} {members : Fields} (follows : Schema.Admits schema members) :
      FieldType.Admits (.shape schema) (.object members)
  | oneOf {members : List FieldType} {member : FieldType} {value : Value}
      (mem : member ∈ members) (admits : FieldType.Admits member value) :
      FieldType.Admits (.oneOf members) value

/-- What a declared entry is content with: what a map holds under its name, if anything. -/
inductive Field.Admits : Field → Option Value → Prop where
  | missing {field : Field} (optional : field.isRequired = false) : Field.Admits field none
  | null {field : Field} (optional : field.isRequired = false) : Field.Admits field (some .null)
  | present {field : Field} {value : Value} (present : value ≠ .null)
      (admits : FieldType.Admits field.type value) : Field.Admits field (some value)

/-- The field maps that follow a schema. Repeated entries of one name all count. -/
inductive Schema.Admits : Schema → Fields → Prop where
  | intro {schema : Schema} {fields : Fields}
      (declared : ∀ name ∈ fields.names, ∃ field ∈ schema.fields, field.name = name)
      (entries : ∀ field ∈ schema.fields, Field.Admits field (fields.get? field.name)) :
      Schema.Admits schema fields

end

/-- An entry is checked by conformance as soon as its type is. -/
theorem Field.fault?_eq_none_iff_admits {field : Field}
    (agrees : ∀ value, field.type.fault? value = none ↔ field.type.Admits value) (value? : Option Value) :
    field.fault? value? = none ↔ field.Admits value? := by
  constructor
  · intro content
    cases value? with
    | none => exact .missing (Field.fault?_of_missing.1 content)
    | some value =>
      by_cases present : value = .null
      · subst present
        exact .null (Field.fault?_of_null.1 content)
      · exact .present present ((agrees value).1 ((Field.fault?_of_present present).1 content))
  · rintro (optional | optional | ⟨present, admits⟩)
    · exact Field.fault?_of_missing.2 optional
    · exact Field.fault?_of_null.2 optional
    · exact (Field.fault?_of_present present).2 ((agrees _).2 admits)

/-- A schema is checked by conformance as soon as the types of its fields are. -/
theorem Schema.fault?_eq_none_iff_admits {schema : Schema}
    (agrees : ∀ field ∈ schema.fields, ∀ value, field.type.fault? value = none ↔ field.type.Admits value)
    (fields : Fields) : schema.fault? fields = none ↔ schema.Admits fields := by
  rw [Schema.fault?_eq_none_iff]
  constructor
  · rintro ⟨declared, entries⟩
    refine .intro (fun name mem => ?_) (fun field mem => ?_)
    · simpa [Schema.declares] using declared name mem
    · exact (Field.fault?_eq_none_iff_admits (agrees field mem) _).1 (entries field mem)
  · rintro ⟨declared, entries⟩
    refine ⟨fun name mem => ?_, fun field mem => ?_⟩
    · simpa [Schema.declares] using declared name mem
    · exact (Field.fault?_eq_none_iff_admits (agrees field mem) _).2 (entries field mem)

/-- The check of a value finds no fault exactly when the value is of the type. -/
theorem FieldType.fault?_eq_none_iff_admits (type : FieldType) :
    ∀ value, type.fault? value = none ↔ type.Admits value := by
  induction type with
  | string =>
    intro value
    rw [fault?_string_eq_none_iff]
    constructor
    · rintro ⟨s, rfl⟩
      exact .string s
    · intro admits
      cases admits with
      | string s => exact ⟨s, rfl⟩
  | integer =>
    intro value
    rw [fault?_integer_eq_none_iff]
    constructor
    · rintro ⟨n, ⟨lower, upper⟩, rfl⟩
      exact .integer lower (by omega)
    · intro admits
      cases admits with
      | integer lower upper => exact ⟨_, ⟨lower, by omega⟩, rfl⟩
  | boolean =>
    intro value
    rw [fault?_boolean_eq_none_iff]
    constructor
    · rintro ⟨b, rfl⟩
      exact .boolean b
    · intro admits
      cases admits with
      | boolean b => exact ⟨b, rfl⟩
  | list item ih =>
    intro value
    rw [fault?_list_eq_none_iff]
    constructor
    · rintro ⟨items, rfl, each⟩
      exact .list fun element mem => (ih element).1 (each element mem)
    · intro admits
      cases admits with
      | list each => exact ⟨_, rfl, fun element mem => (ih element).2 (each element mem)⟩
  | shape schema ih =>
    intro value
    rw [fault?_shape_eq_none_iff]
    constructor
    · rintro ⟨members, rfl, follows⟩
      exact .shape ((Schema.fault?_eq_none_iff_admits ih members).1 follows)
    · intro admits
      cases admits with
      | shape follows => exact ⟨_, rfl, (Schema.fault?_eq_none_iff_admits ih _).2 follows⟩
  | oneOf members ih =>
    intro value
    rw [fault?_oneOf_eq_none_iff]
    constructor
    · rintro ⟨member, mem, accepts⟩
      exact .oneOf mem ((ih member mem value).1 accepts)
    · intro admits
      cases admits with
      | oneOf mem admits => exact ⟨_, mem, (ih _ mem value).2 admits⟩

/-- **Validation is conformance.** A schema accepts exactly the field maps that
follow it, at every depth and for every declaration. -/
theorem Schema.validate_eq_ok_iff_admits (schema : Schema) (fields : Fields) :
    schema.validate fields = .ok () ↔ schema.Admits fields := by
  rw [Schema.validate_eq_ok_iff]
  exact Schema.fault?_eq_none_iff_admits (fun field _ => field.type.fault?_eq_none_iff_admits) fields

end TrainingJob
