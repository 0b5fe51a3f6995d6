import TrainingJob.Proofs.Schema.Places

/-!
# Integers inside values

A value that a type accepts has integers only where the type has integer fields, and a
signed 64-bit word holds each of them (`FieldType.reaches_of_accepts`). An integer field may
be inside a choice, where no location leads (`FieldType.at?`), so the way to it is a
relation of its own (`FieldType.Reaches`). In the catalogue no choice has one inside, and
locations lead to all of them (`FieldType.at?_of_reaches_integer`).
-/

set_option autoImplicit false

namespace TrainingJob

open Json

/-- The way to a part of the values of a type, through choices as well. -/
inductive FieldType.Reaches : FieldType → Location → FieldType → Prop where
  | here {type : FieldType} : Reaches type [] type
  | part {type part declared : FieldType} {step : Step} {rest : Location} (expects : type.part? step = some part)
      (onwards : Reaches part rest declared) : Reaches type (step :: rest) declared
  | member {members : List FieldType} {member declared : FieldType} {place : Location} (mem : member ∈ members)
      (onwards : Reaches member place declared) : Reaches (.oneOf members) place declared

/-- **Integers are in integer fields**, and a signed 64-bit word holds them, wherever an
accepted value has one. -/
theorem FieldType.reaches_of_accepts {type : FieldType} :
    ∀ {value : Value}, type.fault? value = none → ∀ {place : Location} {n : Int},
      value.at? place = some (.integer n) → type.Reaches place .integer ∧ FitsWord n := by
  induction type with
  | string =>
    intro value accepts place n held
    obtain ⟨s, rfl⟩ := fault?_string_eq_none_iff.1 accepts
    cases place <;> cases held
  | boolean =>
    intro value accepts place n held
    obtain ⟨b, rfl⟩ := fault?_boolean_eq_none_iff.1 accepts
    cases place <;> cases held
  | integer =>
    intro value accepts place n held
    obtain ⟨m, fits, rfl⟩ := fault?_integer_eq_none_iff.1 accepts
    cases place <;> cases held
    exact ⟨.here, fits⟩
  | list item ih =>
    intro value accepts place n held
    obtain ⟨items, rfl, each⟩ := fault?_list_eq_none_iff.1 accepts
    cases place with
    | nil => cases held
    | cons step rest =>
      obtain ⟨part, here, onwards⟩ := Option.bind_eq_some_iff.1 held
      cases step with
      | field name => cases here
      | index position =>
        obtain ⟨reaches, fits⟩ := ih (each part (List.mem_of_getElem? here)) onwards
        exact ⟨.part rfl reaches, fits⟩
  | shape schema ih =>
    intro value accepts place n held
    obtain ⟨members, rfl, accepted⟩ := fault?_shape_eq_none_iff.1 accepts
    obtain ⟨declared, content⟩ := Schema.fault?_eq_none_iff.1 accepted
    cases place with
    | nil => cases held
    | cons step rest =>
      obtain ⟨part, here, onwards⟩ := Option.bind_eq_some_iff.1 held
      cases step with
      | index position => cases here
      | field name =>
        have read : Fields.get? members name = some part := here
        obtain ⟨field, found⟩ := Schema.exists_field?_of_declares (declared name (Fields.mem_names_of_get? read))
        have mem := Schema.mem_of_field? found
        have fault := content field mem
        have present : part ≠ .null := by
          rintro rfl
          cases rest <;> cases onwards
        rw [Schema.name_of_field? found, read, Field.fault?_of_present present] at fault
        obtain ⟨reaches, fits⟩ := ih field mem fault onwards
        refine ⟨.part ?_ reaches, fits⟩
        rw [part?, found, Option.map_some]
  | oneOf members ih =>
    intro value accepts place n held
    obtain ⟨member, mem, accepted⟩ := fault?_oneOf_eq_none_iff.1 accepts
    obtain ⟨reaches, fits⟩ := ih member mem accepted held
    exact ⟨.member mem reaches, fits⟩

namespace FieldType

/-- No integer and no choice. -/
def isOtherThanInteger : FieldType → Bool
  | .integer | .oneOf _ => false
  | _ => true

/-- No choice that has an integer field inside. -/
def showsIntegers : FieldType → Bool
  | .oneOf members => members.all (throughout isOtherThanInteger)
  | _ => true

theorem not_reaches_integer {type declared : FieldType} {place : Location}
    (without : type.throughout isOtherThanInteger = true) (reaches : type.Reaches place declared) :
    declared ≠ .integer := by
  induction reaches with
  | here =>
    rintro rfl
    cases without
  | part expects _ ih => exact ih (throughout_of_part? without expects)
  | member mem _ _ => cases without

/-- Where no choice has an integer field inside, locations lead to all of them. -/
theorem at?_of_reaches_integer {type declared : FieldType} {place : Location}
    (shows : type.throughout showsIntegers = true) (reaches : type.Reaches place declared)
    (integral : declared = .integer) : type.at? place = some .integer := by
  induction reaches with
  | here =>
    rw [integral]
    rfl
  | part expects _ ih =>
    rw [at?, expects]
    exact ih (throughout_of_part? shows expects) integral
  | @member members member declared place mem onwards _ =>
    have without := List.all_eq_true.1 (check_of_throughout shows) member mem
    exact absurd integral (not_reaches_integer without onwards)

end FieldType

end TrainingJob
