import TrainingJob.Proofs.Schema.Acceptance

/-!
# Where faults stand

A fault of a list is that of one of its items (`Fault.exists_of_ofItems`), a fault
of an entry its absence or that of its value (`Field.of_fault?`). So every fault of
a field map stands below one of its fields: an undeclared name stands at that name,
anything else below a declared one (`Schema.location_of_fault?`). That keeps apart
the errors that concern a record as a whole.
-/

set_option autoImplicit false

namespace TrainingJob

open Json

namespace Fault

/-- Where a fault stands, seen from the value checked. -/
def location : Fault → Location
  | unknown location => location
  | mistyped location _ _ => location

@[simp] theorem location_below (step : Step) (fault : Fault) :
    (fault.below step).location = step :: fault.location := by
  cases fault <;> rfl

/-- An error has its path from the fault that it reports. -/
@[simp] theorem path_toError (record : String) (fault : Fault) : (fault.toError record).path = some fault.location := by
  cases fault <;> rfl

end Fault

/-- A fault among items is that of one of them. -/
theorem Fault.exists_of_ofItems {fault? : Value → Option Fault} {position : Nat} {items : List Value} {fault : Fault}
    (found : Fault.ofItems fault? position items = some fault) :
    ∃ index item inner, items[index]? = some item ∧ fault? item = some inner ∧
      fault = inner.below (.index (position + index)) := by
  induction items generalizing position with
  | nil => cases found
  | cons item rest ih =>
    rw [Fault.ofItems] at found
    cases first : fault? item with
    | some inner =>
      rw [first] at found
      cases found
      exact ⟨0, item, inner, rfl, first, rfl⟩
    | none =>
      rw [first] at found
      obtain ⟨index, other, inner, held, content, rfl⟩ := ih found
      refine ⟨index + 1, other, inner, held, content, ?_⟩
      rw [Nat.add_assoc, Nat.add_comm 1 index]

/-- A fault of an entry is its absence, or that of its value, which then is present. -/
theorem Field.of_fault? {field : Field} {value? : Option Value} {fault : Fault}
    (found : field.fault? value? = some fault) :
    (field.isRequired = true ∧ value?.getD .null = .null ∧
      fault = (Fault.absence field.type).below (.field field.name)) ∨
    ∃ value inner, value? = some value ∧ value ≠ .null ∧ field.type.fault? value = some inner ∧
      fault = inner.below (.field field.name) := by
  by_cases absent : value?.getD .null = .null
  · rw [Field.fault?_of_absent absent] at found
    split at found
    case isTrue required =>
      cases found
      exact .inl ⟨required, absent, rfl⟩
    case isFalse => cases found
  · cases value? with
    | none => exact absurd rfl absent
    | some value =>
      have present : value ≠ .null := absent
      rw [Field.fault?_some present, Option.map_eq_some_iff] at found
      obtain ⟨inner, content, rfl⟩ := found
      exact .inr ⟨value, inner, rfl, present, content, rfl⟩

theorem Field.location_of_fault? {field : Field} {value? : Option Value} {fault : Fault}
    (found : field.fault? value? = some fault) : ∃ rest, fault.location = .field field.name :: rest := by
  rcases of_fault? found with ⟨-, -, rfl⟩ | ⟨value, inner, -, -, -, rfl⟩
  · exact ⟨_, Fault.location_below _ _⟩
  · exact ⟨_, Fault.location_below _ _⟩

theorem Field.exists_of_firstFault? {declared : List Field} {fields : Fields} {fault : Fault}
    (found : Field.firstFault? declared fields = some fault) :
    ∃ field ∈ declared, field.fault? (fields.get? field.name) = some fault := by
  induction declared with
  | nil => cases found
  | cons field rest ih =>
    rw [Field.firstFault?] at found
    cases first : field.fault? (fields.get? field.name) with
    | some earlier =>
      rw [first] at found
      cases found
      exact ⟨field, .head _, first⟩
    | none =>
      rw [first] at found
      obtain ⟨other, mem, content⟩ := ih found
      exact ⟨other, .tail _ mem, content⟩

namespace Schema

/-- A fault is an undeclared name, or stands below a declared field. -/
theorem location_of_fault? {schema : Schema} {fields : Fields} {fault : Fault}
    (found : schema.fault? fields = some fault) :
    (∃ name, schema.undeclared? fields = some name ∧ fault = .unknown [.field name]) ∨
      ∃ name ∈ schema.fieldNames, ∃ rest, fault.location = .field name :: rest := by
  cases undeclared : schema.undeclared? fields with
  | some name =>
    rw [fault?_of_undeclared undeclared] at found
    cases found
    exact .inl ⟨name, rfl, rfl⟩
  | none =>
    rw [fault?_of_declared undeclared] at found
    obtain ⟨field, mem, content⟩ := Field.exists_of_firstFault? found
    exact .inr ⟨field.name, List.mem_map_of_mem mem, Field.location_of_fault? content⟩

/-- What a check reports is of its two kinds of errors. -/
theorem isValidation_of_validate {schema : Schema} {fields : Fields} {error : Error}
    (rejected : schema.validate fields = .error error) : error.isValidation = true := by
  obtain ⟨fault, -, rfl⟩ := validate_eq_error_iff.1 rejected
  cases fault <;> rfl

/-- A value of a wrong type is reported below the name of a declared field. -/
theorem location_of_mistyped {schema : Schema} {fields : Fields} {record expected found : String}
    {location : Location} (rejected : schema.validate fields = .error (.mistyped record location expected found)) :
    ∃ name ∈ schema.fieldNames, ∃ rest, location = .field name :: rest := by
  obtain ⟨fault, content, reported⟩ := validate_eq_error_iff.1 rejected
  cases fault with
  | unknown place => cases reported
  | mistyped place expected found =>
    cases reported
    rcases location_of_fault? content with ⟨name, -, other⟩ | below
    · cases other
    · exact below

end Schema

/-- Types whose values have no parts to be checked on their own. -/
def FieldType.isAtomic : FieldType → Bool
  | .list _ => false
  | .shape _ => false
  | _ => true

/-- Against an atomic type a value passes or is mistyped as a whole. -/
theorem FieldType.fault?_of_isAtomic {type : FieldType} (atomic : type.isAtomic = true) (value : Value) :
    type.fault? value = none ∨ type.fault? value = some (.mismatch type value) := by
  cases type with
  | list item => cases atomic
  | shape schema => cases atomic
  | integer =>
    cases value with
    | integer n =>
      rw [fault?]
      split
      · exact .inl rfl
      · exact .inr rfl
    | _ => exact .inr rfl
  | oneOf members =>
    rw [fault?]
    split
    · exact .inl rfl
    · exact .inr rfl
  | _ => cases value <;> simp [fault?]

/-- An undeclared name stands inside the value that is checked, never at the value itself. -/
theorem FieldType.location_ne_nil_of_unknown {type : FieldType} {value : Value} {location : Location}
    (found : type.fault? value = some (.unknown location)) : location ≠ [] := by
  by_cases atomic : type.isAtomic = true
  · rcases fault?_of_isAtomic atomic value with accepts | whole
    · rw [accepts] at found
      cases found
    · rw [whole] at found
      cases found
  cases type with
  | list item =>
    cases value with
    | list items =>
      obtain ⟨index, item, inner, -, -, below⟩ := Fault.exists_of_ofItems found
      cases inner <;> cases below
      exact List.cons_ne_nil _ _
    | _ => cases found
  | shape schema =>
    cases value with
    | object members =>
      have located : schema.fault? members = some (.unknown location) := found
      rcases Schema.location_of_fault? located with ⟨name, -, same⟩ | ⟨name, -, rest, rfl⟩
      · cases same
        exact List.cons_ne_nil _ _
      · exact List.cons_ne_nil _ _
    | _ => cases found
  | _ => exact absurd rfl atomic

/-- An undeclared name of a nested object stands below the field that holds the object. -/
theorem Field.location_of_unknown {field : Field} {value? : Option Value} {location : Location}
    (found : field.fault? value? = some (.unknown location)) :
    ∃ rest, rest ≠ [] ∧ location = .field field.name :: rest := by
  rcases of_fault? found with ⟨-, -, absent⟩ | ⟨value, inner, -, -, content, below⟩
  · cases absent
  · cases inner with
    | unknown place =>
      cases below
      exact ⟨place, FieldType.location_ne_nil_of_unknown content, rfl⟩
    | mistyped place expected found => cases below

end TrainingJob
