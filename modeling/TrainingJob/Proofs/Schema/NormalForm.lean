import TrainingJob.Proofs.Schema.Acceptance

/-!
# Normal forms

A value that a type accepts may still be spelled in several ways: the members of
an object may stand in any order, and an absent one may be left out or be
`null`. `FieldType.tidy` picks one spelling. Every nested object lists its
present members only, in the order of their declarations.

`Schema.normalForm` is the same for a record. It has an entry for every declared
field: a tidy value where the map holds one, absence where the map holds `null`,
and where the map does not have the name at all the preset of that field, if
there is one.
-/

set_option autoImplicit false

namespace TrainingJob

open Json

mutual

/-- The value with the nested objects of its type in normal form. -/
def FieldType.tidy : FieldType → Value → Value
  | .string, value => value
  | .integer, value => value
  | .boolean, value => value
  | .list item, value =>
    match value with
    | .list items => .list (items.map item.tidy)
    | _ => value
  | .shape ⟨_, declared⟩, value =>
    match value with
    | .object members => .object (Fields.present (Field.tidyEach declared members))
    | _ => value
  | .oneOf members, value => FieldType.tidyAmong members value

/-- Among the members of a choice the first that accepts the value is the one that counts. -/
def FieldType.tidyAmong : List FieldType → Value → Value
  | [], value => value
  | member :: rest, value =>
    if (member.fault? value).isNone then member.tidy value else FieldType.tidyAmong rest value

/-- An entry for every declared field, in order. -/
def Field.tidyEach : List Field → Fields → Fields
  | [], _ => []
  | ⟨name, type, _⟩ :: rest, members =>
    (name,
      match members.get? name with
      | none => .null
      | some .null => .null
      | some value => type.tidy value) :: Field.tidyEach rest members

end

/-- What a record shows for a field, given what it was built from. -/
def Field.settle (field : Field) (preset : Value) : Option Value → Value
  | none => preset
  | some .null => .null
  | some value => field.type.tidy value

/-- The entries of all declared fields, in order. Omitted fields take their presets. -/
def Schema.normalForm (schema : Schema) (presets fields : Fields) : Fields :=
  schema.fields.map fun field =>
    (field.name, field.settle ((presets.get? field.name).getD .null) (fields.get? field.name))

namespace Field

variable {field : Field} {preset : Value}

@[simp] theorem settle_none : field.settle preset none = preset := rfl

@[simp] theorem settle_null : field.settle preset (some .null) = .null := rfl

theorem settle_of_present {value : Value} (present : value ≠ .null) :
    field.settle preset (some value) = field.type.tidy value := by
  cases value with
  | null => exact absurd rfl present
  | _ => rfl

/-- What a field settles to is a matter of its type. -/
theorem settle_congr {twin : Field} (typed : field.type = twin.type) (value? : Option Value) :
    field.settle preset value? = twin.settle preset value? := by
  cases value? with
  | none => rfl
  | some value => cases value <;> simp [settle, typed]

theorem tidyEach_eq_map (declared : List Field) (members : Fields) :
    tidyEach declared members =
      declared.map fun field => (field.name, field.settle .null (members.get? field.name)) := by
  induction declared with
  | nil => rfl
  | cons field rest ih =>
    obtain ⟨name, type, isRequired⟩ := field
    rw [tidyEach, ih, List.map_cons]
    congr 2

end Field

/-- A map with one entry for each declared field holds that entry under the field's name. -/
theorem Field.get?_map {declared : List Field} (distinct : (declared.map Field.name).Nodup) (entry : Field → Value)
    {field : Field} (mem : field ∈ declared) :
    Fields.get? (declared.map fun field => (field.name, entry field)) field.name = some (entry field) := by
  refine (Fields.mem_iff_get? ?_).1 (List.mem_map.2 ⟨field, mem, rfl⟩)
  rw [Fields.names, List.map_map]
  exact distinct

namespace FieldType

@[simp] theorem tidy_list (item : FieldType) (items : List Value) :
    (list item).tidy (.list items) = .list (items.map item.tidy) := rfl

/-- A nested object is in the normal form of its schema, with absent members left out. -/
theorem tidy_shape (schema : Schema) (members : Fields) :
    (shape schema).tidy (.object members) = .object (schema.normalForm [] members).present := by
  obtain ⟨name, declared⟩ := schema
  have entries := Field.tidyEach_eq_map declared members
  show Value.object (Fields.present (Field.tidyEach declared members)) = _
  rw [entries]
  rfl

theorem tidyAmong_cons_of_accepts {member : FieldType} {rest : List FieldType} {value : Value}
    (accepts : member.fault? value = none) : tidyAmong (member :: rest) value = member.tidy value := by
  rw [tidyAmong, accepts]
  rfl

theorem tidyAmong_cons_of_rejects {member : FieldType} {rest : List FieldType} {value : Value}
    (rejects : member.fault? value ≠ none) : tidyAmong (member :: rest) value = tidyAmong rest value := by
  rw [tidyAmong, if_neg (by simpa using rejects)]

theorem tidy_oneOf (members : List FieldType) (value : Value) :
    (oneOf members).tidy value = tidyAmong members value := rfl

/-- The member of a choice that a value is tidied by is also that of every value which
the members accept and reject likewise. -/
theorem exists_tidyAmong {members : List FieldType} {value : Value}
    (accepts : ∃ member ∈ members, member.fault? value = none) :
    ∃ chosen ∈ members, chosen.fault? value = none ∧ ∀ other : Value,
      (∀ member ∈ members, member.fault? value = none ↔ member.fault? other = none) →
      tidyAmong members other = chosen.tidy other := by
  induction members with
  | nil => simp at accepts
  | cons first rest ih =>
    by_cases fits : first.fault? value = none
    · refine ⟨first, .head _, fits, fun other judged => ?_⟩
      exact tidyAmong_cons_of_accepts ((judged first (.head _)).1 fits)
    · obtain ⟨member, mem, here⟩ := accepts
      have later : member ∈ rest := by
        cases mem with
        | head => exact absurd here fits
        | tail _ later => exact later
      obtain ⟨chosen, mem, here, same⟩ := ih ⟨member, later, here⟩
      refine ⟨chosen, .tail _ mem, here, fun other judged => ?_⟩
      have rejects : first.fault? other ≠ none := fun otherFits => fits ((judged first (.head _)).2 otherFits)
      rw [tidyAmong_cons_of_rejects rejects]
      exact same other fun member mem => judged member (.tail _ mem)

/-- Types of values in which no objects occur. -/
def isFlat : FieldType → Bool
  | .list item => item.isFlat
  | .shape _ => false
  | .oneOf _ => false
  | _ => true

/-- Without objects there is only one spelling. -/
theorem tidy_of_isFlat {type : FieldType} (flat : type.isFlat = true) (value : Value) : type.tidy value = value := by
  induction type generalizing value with
  | list item ih =>
    cases value with
    | list items => rw [tidy_list, List.map_congr_left fun element _ => ih flat element, List.map_id']
    | _ => rfl
  | shape schema _ => cases flat
  | oneOf members _ => cases flat
  | _ => rfl

end FieldType

theorem Field.settle_of_isFlat {field : Field} (flat : field.type.isFlat = true) (value? : Option Value) :
    field.settle .null value? = value?.getD .null := by
  cases value? with
  | none => rfl
  | some value =>
    by_cases absent : value = .null
    · rw [absent, settle_null, Option.getD_some]
    · rw [settle_of_present absent, FieldType.tidy_of_isFlat flat, Option.getD_some]

end TrainingJob
