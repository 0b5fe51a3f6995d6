import TrainingJob.Schema.Validation

/-!
# What a type accepts

A value is accepted when the check finds no fault in it. One lemma for each sort
of type says which values that are, and one for each way a field can be held
(`Field.fault?_of_missing`, `Field.fault?_of_null`, `Field.fault?_of_present`), so
that later proofs never open the check itself.

Types, fields and schemas contain each other. `FieldType.induction` walks them
in one go: a shape is reached through the types of its fields, a choice through
its members.
-/

set_option autoImplicit false

namespace TrainingJob

open Json

/-- Induction over types, through the fields of shapes and the members of choices. -/
@[elab_as_elim, induction_eliminator]
theorem FieldType.induction {motive : FieldType → Prop}
    (string : motive .string) (integer : motive .integer) (boolean : motive .boolean)
    (list : ∀ item, motive item → motive (.list item))
    (shape : ∀ schema : Schema, (∀ field ∈ schema.fields, motive field.type) → motive (.shape schema))
    (oneOf : ∀ members, (∀ member ∈ members, motive member) → motive (.oneOf members))
    (type : FieldType) : motive type := by
  refine @FieldType.rec motive (fun field => motive field.type)
    (fun schema => ∀ field ∈ schema.fields, motive field.type) (fun members => ∀ member ∈ members, motive member)
    (fun declared => ∀ field ∈ declared, motive field.type)
    string integer boolean list shape oneOf ?_ ?_ ?_ ?_ ?_ ?_ type
  · intro name type isRequired ih
    exact ih
  · intro name declared ih
    exact ih
  · simp
  · intro member rest ih ihRest
    exact List.forall_mem_cons.2 ⟨ih, ihRest⟩
  · simp
  · intro field rest ih ihRest
    exact List.forall_mem_cons.2 ⟨ih, ihRest⟩

namespace FieldType

variable {value : Value}

theorem fault?_string_eq_none_iff : string.fault? value = none ↔ ∃ s, value = .string s := by
  cases value <;> simp [fault?]

theorem fault?_integer_eq_none_iff :
    integer.fault? value = none ↔ ∃ n, FitsWord n ∧ value = .integer n := by
  cases value <;> simp [fault?, FitsWord]

theorem fault?_boolean_eq_none_iff : boolean.fault? value = none ↔ ∃ b, value = .boolean b := by
  cases value <;> simp [fault?]

theorem fault?_list_eq_none_iff {item : FieldType} :
    (list item).fault? value = none ↔
      ∃ items, value = .list items ∧ ∀ element ∈ items, item.fault? element = none := by
  cases value <;> simp [fault?, Fault.ofItems_eq_none_iff]

theorem fault?_shape_eq_none_iff {schema : Schema} :
    (shape schema).fault? value = none ↔
      ∃ members, value = .object members ∧ schema.fault? members = none := by
  cases value <;> simp [fault?]

theorem fault?_oneOf_eq_none_iff {members : List FieldType} :
    (oneOf members).fault? value = none ↔ ∃ member ∈ members, member.fault? value = none := by
  rw [← someAccepts_iff]
  simp [fault?]

/-- Absence is a matter of fields: no type takes `null` for a value. -/
theorem fault?_null_ne_none (type : FieldType) : type.fault? .null ≠ none := by
  induction type with
  | string => simp [fault?_string_eq_none_iff]
  | integer => simp [fault?_integer_eq_none_iff]
  | boolean => simp [fault?_boolean_eq_none_iff]
  | list item _ => simp [fault?_list_eq_none_iff]
  | shape schema _ => simp [fault?_shape_eq_none_iff]
  | oneOf members ih =>
    rw [ne_eq, fault?_oneOf_eq_none_iff]
    rintro ⟨member, mem, accepts⟩
    exact ih member mem accepts

theorem ne_null_of_fault? {type : FieldType} (accepts : type.fault? value = none) : value ≠ .null := by
  rintro rfl
  exact type.fault?_null_ne_none accepts

end FieldType

namespace Field

variable {field : Field}

theorem fault?_of_missing : field.fault? none = none ↔ field.isRequired = false := by
  obtain ⟨name, type, isRequired⟩ := field
  cases isRequired <;> simp [fault?]

theorem fault?_of_null : field.fault? (some .null) = none ↔ field.isRequired = false := by
  obtain ⟨name, type, isRequired⟩ := field
  cases isRequired <;> simp [fault?]

/-- Missing or `null`, an absent value is a fault exactly for a required field. -/
theorem fault?_of_absent {value? : Option Value} (absent : value?.getD .null = .null) :
    field.fault? value? =
      if field.isRequired then some ((Fault.absence field.type).below (.field field.name)) else none := by
  obtain ⟨name, type, isRequired⟩ := field
  cases value? with
  | none => rfl
  | some value =>
    cases absent
    rfl

theorem fault?_some {value : Value} (present : value ≠ .null) :
    field.fault? (some value) = (field.type.fault? value).map (Fault.below (.field field.name)) := by
  obtain ⟨name, type, isRequired⟩ := field
  cases value with
  | null => exact absurd rfl present
  | _ => rfl

/-- A present value is judged by its type alone. -/
theorem fault?_of_present {value : Value} (present : value ≠ .null) :
    field.fault? (some value) = none ↔ field.type.fault? value = none := by
  rw [fault?_some present, Option.map_eq_none_iff]

/-- A required field is judged by its type even if the value is `null`, which no type accepts. -/
theorem fault?_of_required (required : field.isRequired = true) {value : Value} :
    field.fault? (some value) = none ↔ field.type.fault? value = none := by
  by_cases present : value = .null
  · rw [present, fault?_of_null, required]
    exact ⟨nofun, fun accepts => absurd accepts field.type.fault?_null_ne_none⟩
  · exact fault?_of_present present

end Field

/-- A map that one schema accepts is refused by any schema that requires a name
which the first does not declare. -/
theorem Schema.fault?_ne_none_of_requires {schema other : Schema} {field : Field} {members : Fields}
    (accepts : schema.fault? members = none) (undeclared : schema.declares field.name = false)
    (mem : field ∈ other.fields) (required : field.isRequired = true) : other.fault? members ≠ none := by
  intro accepted
  have missing : members.get? field.name = none := by
    rw [Fields.get?_eq_none_iff]
    intro held
    simp [(Schema.fault?_eq_none_iff.1 accepts).1 field.name held] at undeclared
  have content := (Schema.fault?_eq_none_iff.1 accepted).2 field mem
  rw [missing, Field.fault?_of_missing, required] at content
  cases content

/-- No value is of both types. -/
def FieldType.Excludes (type other : FieldType) : Prop :=
  ∀ value, type.fault? value = none → other.fault? value ≠ none

namespace FieldType.Excludes

theorem symm {type other : FieldType} (excludes : type.Excludes other) : other.Excludes type :=
  fun value accepts otherAccepts => excludes value otherAccepts accepts

instance : Std.Symm Excludes := ⟨fun _ _ => symm⟩

theorem string_shape (schema : Schema) : string.Excludes (.shape schema) := by
  intro value isText isObject
  obtain ⟨text, rfl⟩ := fault?_string_eq_none_iff.1 isText
  obtain ⟨members, same, -⟩ := fault?_shape_eq_none_iff.1 isObject
  cases same

theorem shape_of_requires {schema other : Schema} {field : Field} (undeclared : schema.declares field.name = false)
    (mem : field ∈ other.fields) (required : field.isRequired = true) : (shape schema).Excludes (.shape other) := by
  intro value isObject
  obtain ⟨members, rfl, accepts⟩ := fault?_shape_eq_none_iff.1 isObject
  exact Schema.fault?_ne_none_of_requires accepts undeclared mem required

end FieldType.Excludes

end TrainingJob
