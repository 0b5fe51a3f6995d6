import TrainingJob.Proofs.Json.Alike
import TrainingJob.Proofs.Schema.NormalForm

/-!
# What normal forms keep

Putting an accepted value into normal form removes the absences that its objects
spell out, and nothing else: the result spells out none
(`FieldType.not_spellsAbsence_tidy`), and where there was none to begin with it is
alike to the value (`FieldType.alike_tidy`). So a field reads back as it was
assigned, with objects taken for maps, exactly when its value spells out no
absence (`Field.alike_settle_iff`).
-/

set_option autoImplicit false

namespace TrainingJob

open Json

namespace FieldType

/-- A normal form is a value of the same kind. -/
theorem kind_tidy (type : FieldType) (value : Value) : (type.tidy value).kind = value.kind := by
  induction type with
  | list item _ => cases value <;> rfl
  | shape schema _ =>
    obtain ⟨name, declared⟩ := schema
    cases value <;> rfl
  | oneOf members ih =>
    rw [tidy_oneOf]
    induction members with
    | nil => rfl
    | cons first rest ihRest =>
      rw [tidyAmong]
      split
      · exact ih first (.head _)
      · exact ihRest fun member mem => ih member (.tail _ mem)
  | _ => rfl

theorem tidy_ne_null {type : FieldType} {value : Value} (present : value ≠ .null) : type.tidy value ≠ .null := by
  intro null
  have kinds := type.kind_tidy value
  rw [null] at kinds
  cases value <;> simp_all [Value.kind]

end FieldType

namespace Schema

variable {schema : Schema} {members : Fields} {name : String} {value : Value}

/-- What a nested object in normal form holds under a name comes from what was held there. -/
theorem of_get?_normalForm (held : Fields.get? (schema.normalForm [] members).present name = some value) :
    ∃ field ∈ schema.fields, field.name = name ∧ ∃ given, given ≠ .null ∧
      members.get? name = some given ∧ value = field.type.tidy given := by
  obtain ⟨entry, present⟩ := List.mem_filter.1 (Fields.mem_of_get? held)
  obtain ⟨field, mem, same⟩ := List.mem_map.1 entry
  obtain ⟨rfl, rfl⟩ := Prod.mk.inj same
  refine ⟨field, mem, rfl, ?_⟩
  cases given : members.get? field.name with
  | none => simp [given, Value.isNull] at present
  | some given' =>
    by_cases null : given' = .null
    · simp [given, null, Value.isNull] at present
    · refine ⟨given', null, rfl, ?_⟩
      rw [Field.settle_of_present null]

/-- A declared name stays if it does not stand for absence. -/
theorem mem_names_normalForm (declared : schema.declares name = true) (held : members.get? name = some value)
    (present : value ≠ .null) : name ∈ Fields.names (schema.normalForm [] members).present := by
  obtain ⟨field, mem, rfl⟩ := declares_iff_exists.1 declared
  have settled : field.settle .null (members.get? field.name) = field.type.tidy value := by
    rw [held, Field.settle_of_present present]
  refine List.mem_map.2 ⟨(field.name, field.type.tidy value), List.mem_filter.2 ⟨?_, ?_⟩, rfl⟩
  · refine List.mem_map.2 ⟨field, mem, ?_⟩
    rw [← settled]
    rfl
  · rw [Bool.not_eq_true', Value.isNull_eq_false_iff]
    exact FieldType.tidy_ne_null present

end Schema

namespace FieldType

/-- Normal forms spell out no absence. -/
theorem not_spellsAbsence_tidy (type : FieldType) :
    ∀ value, type.fault? value = none → ¬ (type.tidy value).SpellsAbsence := by
  induction type with
  | string =>
    intro value accepts spells
    obtain ⟨s, rfl⟩ := fault?_string_eq_none_iff.1 accepts
    cases spells
  | integer =>
    intro value accepts spells
    obtain ⟨n, -, rfl⟩ := fault?_integer_eq_none_iff.1 accepts
    cases spells
  | boolean =>
    intro value accepts spells
    obtain ⟨b, rfl⟩ := fault?_boolean_eq_none_iff.1 accepts
    cases spells
  | list item ih =>
    intro value accepts spells
    obtain ⟨items, rfl, each⟩ := fault?_list_eq_none_iff.1 accepts
    cases spells with
    | item mem inside =>
      obtain ⟨given, there, rfl⟩ := List.mem_map.1 mem
      exact ih given (each given there) inside
  | shape schema ih =>
    intro value accepts spells
    obtain ⟨members, rfl, follows⟩ := fault?_shape_eq_none_iff.1 accepts
    have content := (Schema.fault?_eq_none_iff.1 follows).2
    rw [tidy_shape] at spells
    -- the normal form leaves absent members out, and tidying makes no member absent
    cases spells with
    | here held =>
      obtain ⟨field, -, -, given, present, -, null⟩ := Schema.of_get?_normalForm held
      exact tidy_ne_null present null.symm
    | member held inside =>
      obtain ⟨field, mem, rfl, given, present, there, rfl⟩ := Schema.of_get?_normalForm held
      have accepted := content field mem
      rw [there, Field.fault?_of_present present] at accepted
      exact ih field mem given accepted inside
  | oneOf members ih =>
    intro value accepts
    obtain ⟨member, mem, fits, same⟩ := exists_tidyAmong (fault?_oneOf_eq_none_iff.1 accepts)
    rw [tidy_oneOf, same value fun _ _ => Iff.rfl]
    exact ih member mem value fits

/-- A value that spells out no absence is alike to its normal form. -/
theorem alike_tidy (type : FieldType) :
    ∀ value, type.fault? value = none → ¬ value.SpellsAbsence → (type.tidy value).Alike value := by
  induction type with
  | string =>
    intro value accepts _
    obtain ⟨s, rfl⟩ := fault?_string_eq_none_iff.1 accepts
    exact .string s
  | integer =>
    intro value accepts _
    obtain ⟨n, -, rfl⟩ := fault?_integer_eq_none_iff.1 accepts
    exact .integer n
  | boolean =>
    intro value accepts _
    obtain ⟨b, rfl⟩ := fault?_boolean_eq_none_iff.1 accepts
    exact .boolean b
  | list item ih =>
    intro value accepts silent
    obtain ⟨items, rfl, each⟩ := fault?_list_eq_none_iff.1 accepts
    refine .list (by simp) fun i tidied given held there => ?_
    rw [List.getElem?_map, there] at held
    cases held
    have mem := List.mem_of_getElem? there
    exact ih given (each given mem) fun spells => silent (.item mem spells)
  | shape schema ih =>
    intro value accepts silent
    obtain ⟨members, rfl, follows⟩ := fault?_shape_eq_none_iff.1 accepts
    obtain ⟨declared, content⟩ := Schema.fault?_eq_none_iff.1 follows
    rw [tidy_shape]
    refine .object (fun name => ⟨fun held => ?_, fun held => ?_⟩) fun name tidied given held there => ?_
    · obtain ⟨tidied, held⟩ := Option.isSome_iff_exists.1 (Fields.get?_isSome_iff.2 held)
      obtain ⟨field, -, -, given, -, there, -⟩ := Schema.of_get?_normalForm held
      rw [← Fields.get?_isSome_iff, there]
      rfl
    · obtain ⟨given, there⟩ := Option.isSome_iff_exists.1 (Fields.get?_isSome_iff.2 held)
      refine Schema.mem_names_normalForm (declared name held) there ?_
      rintro rfl
      exact silent (.here there)
    · obtain ⟨field, mem, rfl, same, present, there', rfl⟩ := Schema.of_get?_normalForm held
      rw [there] at there'
      cases there'
      have accepted := content field mem
      rw [there, Field.fault?_of_present present] at accepted
      exact ih field mem given accepted fun spells => silent (.member there spells)
  | oneOf members ih =>
    intro value accepts
    obtain ⟨member, mem, fits, same⟩ := exists_tidyAmong (fault?_oneOf_eq_none_iff.1 accepts)
    rw [tidy_oneOf, same value fun _ _ => Iff.rfl]
    exact ih member mem value fits

end FieldType

/-- What a field settles to is alike to what it was given, unless that spells out an absence. -/
theorem Field.alike_settle_iff {field : Field} {value : Value} (content : field.fault? (some value) = none) :
    (field.settle .null (some value)).Alike value ↔ ¬ value.SpellsAbsence := by
  by_cases present : value = .null
  · subst present
    rw [settle_null]
    exact ⟨fun _ => nofun, fun _ => .null⟩
  · rw [settle_of_present present]
    have accepted := (fault?_of_present present).1 content
    refine ⟨fun alike spells => ?_, fun silent => field.type.alike_tidy value accepted silent⟩
    exact field.type.not_spellsAbsence_tidy value accepted (alike.symm.spellsAbsence spells)

end TrainingJob
