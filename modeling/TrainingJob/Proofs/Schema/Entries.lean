import Mathlib.Data.List.Nodup
import TrainingJob.Proofs.Schema.Acceptance

/-!
# One entry and the whole map

A value can be checked for one field alone or as part of a map. Where the names
of a schema are distinct the two checks agree: once a map is accepted, putting a
value under a declared name makes the map exactly as faulty as that value
(`Schema.fault?_insert`), and the check of a map is that of its entries in turn
(`Schema.verdict_firstFault?`). An entry is accepted on its own when the name is declared
and the field is content (`Schema.validateField_eq_ok_iff`), and a map is accepted when each
of its entries is and no required field is missing
(`Schema.fault?_eq_none_iff_entries`).
-/

set_option autoImplicit false

namespace TrainingJob

open Json

/-- Where every other entry is content, the first fault is that of the one left. -/
theorem Field.firstFault?_of_others {declared : List Field} {fields : Fields} {field : Field} (mem : field ∈ declared)
    (others : ∀ other ∈ declared, other ≠ field → other.fault? (fields.get? other.name) = none) :
    Field.firstFault? declared fields = field.fault? (fields.get? field.name) := by
  cases content : field.fault? (fields.get? field.name) with
  | none =>
    refine Field.firstFault?_eq_none_iff.2 fun other otherMem => ?_
    by_cases same : other = field
    · rw [same, content]
    · exact others other otherMem same
  | some fault =>
    induction declared with
    | nil => cases mem
    | cons first rest ih =>
      rw [Field.firstFault?]
      by_cases same : first = field
      · rw [same, content]
      · have later : field ∈ rest := by
          cases mem with
          | head => exact absurd rfl same
          | tail _ later => exact later
        rw [others first (.head _) same]
        exact ih later fun other otherMem => others other (.tail _ otherMem)

/-- Where each entry is content unless it lacks what it must have, the first fault is
that of the first entry that lacks it. -/
theorem Field.firstFault?_eq_find? {declared : List Field} {fields : Fields} {lacks : Field → Bool}
    {fault : Field → Fault}
    (each : ∀ field ∈ declared, field.fault? (fields.get? field.name) =
      if lacks field then some (fault field) else none) :
    Field.firstFault? declared fields = (declared.find? lacks).map fault := by
  induction declared with
  | nil => rfl
  | cons field rest ih =>
    have others := ih fun other mem => each other (.tail _ mem)
    rw [Field.firstFault?, each field (.head _)]
    cases lack : lacks field with
    | true => simp [lack]
    | false => simp [lack, others]

/-- A value that is missing is checked like `null`. -/
theorem Field.fault?_getD (field : Field) (value? : Option Value) :
    field.fault? (some (value?.getD .null)) = field.fault? value? := by
  cases value? with
  | none => rw [fault?_of_absent rfl, fault?_of_absent rfl]
  | some value => rfl

namespace Schema

variable {schema : Schema} {fields : Fields} {name : String} {value : Value} {field : Field}

theorem mem_of_field? (found : schema.field? name = some field) : field ∈ schema.fields :=
  List.mem_of_find?_eq_some found

theorem mem_fieldNames (mem : field ∈ schema.fields) : field.name ∈ schema.fieldNames :=
  List.mem_map_of_mem mem

theorem declares_of_mem (mem : field ∈ schema.fields) : schema.declares field.name = true :=
  declares_iff.2 (mem_fieldNames mem)

/-- Distinct names leave one field to each name. -/
theorem eq_of_name_eq (distinct : schema.fieldNames.Nodup) {other : Field} (mem : field ∈ schema.fields)
    (otherMem : other ∈ schema.fields) (same : other.name = field.name) : other = field :=
  List.inj_on_of_nodup_map distinct otherMem mem same

theorem field?_of_mem (distinct : schema.fieldNames.Nodup) (mem : field ∈ schema.fields) :
    schema.field? field.name = some field := by
  have declared : (schema.field? field.name).isSome := by
    rw [← declares_eq_isSome]
    exact declares_of_mem mem
  obtain ⟨other, found⟩ := Option.isSome_iff_exists.1 declared
  rw [found, eq_of_name_eq distinct mem (mem_of_field? found) (name_of_field? found)]

theorem exists_field?_of_declares (declared : schema.declares name = true) :
    ∃ field, schema.field? name = some field := by
  rw [declares_eq_isSome] at declared
  exact Option.isSome_iff_exists.1 declared

theorem validateField_of_field? (found : schema.field? name = some field) :
    schema.validateField name value = schema.verdict (field.fault? (some value)) := by
  rw [validateField, found]

theorem validateField_of_undeclared (undeclared : schema.declares name = false) :
    schema.validateField name value = .error (.unknownField schema.name [.field name]) := by
  have unfound : schema.field? name = none := by
    rw [← Option.not_isSome_iff_eq_none, ← declares_eq_isSome, undeclared]
    exact Bool.false_ne_true
  rw [validateField, unfound]
  rfl

theorem validateField_eq_ok_iff :
    schema.validateField name value = .ok () ↔
      ∃ field, schema.field? name = some field ∧ field.fault? (some value) = none := by
  rw [validateField, verdict_eq_ok_iff]
  cases schema.field? name <;> simp

/-- What is wrong with a value for a declared name is wrong with it for that field. -/
theorem exists_fault?_of_rejected {error : Error} (declared : schema.declares name = true)
    (rejected : schema.validateField name value = .error error) :
    ∃ field : Field, field.name = name ∧ ∃ fault, field.fault? (some value) = some fault ∧
      fault.toError schema.name = error := by
  obtain ⟨field, found⟩ := exists_field?_of_declares declared
  rw [validateField_of_field? found, verdict_eq_error_iff] at rejected
  exact ⟨field, name_of_field? found, rejected⟩

/-- In an accepted map a declared name is as faulty as the value that is put under it. -/
theorem fault?_insert (distinct : schema.fieldNames.Nodup) (accepts : schema.fault? fields = none)
    (found : schema.field? name = some field) :
    schema.fault? (fields.insert name value) = field.fault? (some value) := by
  obtain ⟨declared, entries⟩ := fault?_eq_none_iff.1 accepts
  have mem := mem_of_field? found
  have named := name_of_field? found
  have noUnknown : schema.undeclared? (fields.insert name value) = none := by
    refine undeclared?_eq_none_iff.2 fun other held => ?_
    rcases Fields.mem_names_insert.1 held with rfl | held
    · rw [← named]
      exact declares_of_mem mem
    · exact declared other held
  have others : ∀ other ∈ schema.fields, other ≠ field →
      other.fault? ((fields.insert name value).get? other.name) = none := by
    intro other otherMem different
    have apart : name ≠ other.name := by
      rintro rfl
      exact different (eq_of_name_eq distinct mem otherMem named.symm)
    rw [Fields.get?_insert_of_ne fields value apart]
    exact entries other otherMem
  have only := Field.firstFault?_of_others mem others
  rw [named, Fields.get?_insert_self] at only
  obtain ⟨record, list⟩ := schema
  rw [Schema.fault?, noUnknown]
  exact only

/-- A map is accepted entry by entry, if it has the required names. -/
theorem fault?_eq_none_iff_entries (distinct : schema.fieldNames.Nodup) (keys : fields.names.Nodup) :
    schema.fault? fields = none ↔
      (∀ entry ∈ fields, schema.validateField entry.1 entry.2 = .ok ()) ∧
        ∀ field ∈ schema.fields, field.isRequired = true → field.name ∈ fields.names := by
  rw [fault?_eq_none_iff]
  constructor
  · rintro ⟨declared, content⟩
    refine ⟨fun entry mem => ?_, fun field mem required => ?_⟩
    · obtain ⟨k, v⟩ := entry
      have held : k ∈ fields.names := List.mem_map.2 ⟨_, mem, rfl⟩
      obtain ⟨field, found⟩ := exists_field?_of_declares (declared k held)
      have entryContent := content field (mem_of_field? found)
      rw [name_of_field? found, (Fields.mem_iff_get? keys).1 mem] at entryContent
      exact validateField_eq_ok_iff.2 ⟨field, found, entryContent⟩
    · rw [← Fields.get?_isSome_iff]
      have entryContent := content field mem
      cases held : fields.get? field.name with
      | some v => rfl
      | none =>
        rw [held, Field.fault?_of_missing, required] at entryContent
        cases entryContent
  · rintro ⟨each, complete⟩
    refine ⟨fun k held => ?_, fun field mem => ?_⟩
    · obtain ⟨⟨k, v⟩, mem, rfl⟩ := List.mem_map.1 held
      obtain ⟨field, found, -⟩ := validateField_eq_ok_iff.1 (each _ mem)
      rw [declares_eq_isSome, found]
      rfl
    · cases held : fields.get? field.name with
      | some v =>
        obtain ⟨other, found, content⟩ := validateField_eq_ok_iff.1 (each _ (Fields.mem_of_get? held))
        rw [field?_of_mem distinct mem] at found
        cases found
        exact content
      | none =>
        refine Field.fault?_of_missing.2 (Bool.eq_false_iff.2 fun required => ?_)
        exact Fields.get?_eq_none_iff.1 held (complete field mem required)

/-- An accepted map with a value put under any name is judged like that value alone. -/
theorem validate_insert (distinct : schema.fieldNames.Nodup) (accepts : schema.fault? fields = none) (name : String)
    (value : Value) : schema.validate (fields.insert name value) = schema.validateField name value := by
  cases declared : schema.declares name with
  | true =>
    obtain ⟨field, found⟩ := exists_field?_of_declares declared
    rw [validate, fault?_insert distinct accepts found, validateField_of_field? found]
  | false =>
    have all := (fault?_eq_none_iff.1 accepts).1
    have fresh : name ∉ fields.names := by
      intro held
      rw [all name held] at declared
      cases declared
    -- the new name stands at the end, behind declared ones
    have unknown : schema.undeclared? (fields.insert name value) = some name := by
      have before : fields.names.find? (fun key => !schema.declares key) = none := undeclared?_eq_none_iff.2 all
      rw [undeclared?, Fields.names_insert_of_not_mem value fresh, List.find?_append, before]
      simp [declared]
    rw [validate, fault?_of_undeclared unknown, validateField_of_undeclared declared]
    rfl

/-- Entries are checked in order, each as its field alone would be, as long as the
schema finds each of them under its name. -/
theorem verdict_firstFault? {declared : List Field} (own : ∀ field ∈ declared, schema.field? field.name = some field)
    (fields : Fields) :
    schema.verdict (Field.firstFault? declared fields) =
      forM (declared.map Field.name) fun name => schema.validateField name ((fields.get? name).getD .null) := by
  induction declared with
  | nil => rfl
  | cons field rest ih =>
    obtain ⟨found, others⟩ := List.forall_mem_cons.1 own
    have first : schema.validateField field.name ((fields.get? field.name).getD .null) =
        schema.verdict (field.fault? (fields.get? field.name)) := by
      rw [validateField_of_field? found, Field.fault?_getD]
    rw [List.map_cons, List.forM_cons, first, Field.firstFault?, ← ih others]
    cases field.fault? (fields.get? field.name) <;> rfl

end Schema

end TrainingJob
