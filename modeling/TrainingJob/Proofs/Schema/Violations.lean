import TrainingJob.Proofs.Schema.Places

/-!
# All violations

A check stops at the first fault. Here is the whole list that it never makes: of
each object first the names that its schema does not declare, in document order,
then the violations of each declared field, in declaration order, with those of
a list item by item and those of a nested object in full. A choice has a single
violation of its own, when each of its members has some (`Schema.violations`).

What a check reports is the first of that list (`Schema.validate_eq_head?_violations`),
which is shown for all types at once (`FieldType.startsWithFault`). So no value is
reported that is mistyped anywhere inside an object with an undeclared name
(`FieldType.declares_above`), and with no such name about, the order of the document
does not count.
-/

set_option autoImplicit false

namespace TrainingJob

open Json

/-- The same error, for a record that holds the one it was found in. -/
def Error.forRecord (record : String) : Error → Error
  | .unknownField _ place => .unknownField record place
  | .mistyped _ place expected found => .mistyped record place expected found
  | other => other

/-- A value that is of another kind than the type asks for, at a place of a record. -/
def FieldType.mismatchAt (type : FieldType) (record : String) (place : Location) (value : Value) : Error :=
  .mistyped record place type.describe value.kind.name

mutual

/-- All violations of a value against a type, at a place of a record. -/
def FieldType.violations : FieldType → String → Location → Value → List Error
  | .string, record, place, value =>
    match value with
    | .string _ => []
    | _ => [FieldType.string.mismatchAt record place value]
  | .integer, record, place, value =>
    match value with
    | .integer n => if FitsWord n then [] else [FieldType.integer.mismatchAt record place value]
    | _ => [FieldType.integer.mismatchAt record place value]
  | .boolean, record, place, value =>
    match value with
    | .boolean _ => []
    | _ => [FieldType.boolean.mismatchAt record place value]
  | .list item, record, place, value =>
    match value with
    | .list items => items.zipIdx.flatMap fun entry => item.violations record (place ++ [.index entry.2]) entry.1
    | _ => [(FieldType.list item).mismatchAt record place value]
  | .shape schema, record, place, value =>
    match value with
    | .object members => (schema.violations place members).map (Error.forRecord record)
    | _ => [(FieldType.shape schema).mismatchAt record place value]
  | .oneOf members, record, place, value =>
    if FieldType.eachViolated members record place value then
      [(FieldType.oneOf members).mismatchAt record place value]
    else []

/-- Every member of a choice finds some violation in a value. -/
def FieldType.eachViolated : List FieldType → String → Location → Value → Bool
  | [], _, _, _ => true
  | member :: rest, record, place, value =>
    !(member.violations record place value).isEmpty && FieldType.eachViolated rest record place value

/-- All violations of a field map that stands at a place. -/
def Schema.violations : Schema → Location → Fields → List Error
  | ⟨name, declared⟩, place, fields =>
    ((fields.names.filter fun key => !Schema.declares ⟨name, declared⟩ key).map fun key =>
      Error.unknownField name (place ++ [.field key])) ++ Field.violationsOfEach declared name place fields

/-- The violations of all declared entries, in declaration order. -/
def Field.violationsOfEach : List Field → String → Location → Fields → List Error
  | [], _, _, _ => []
  | field :: rest, record, place, fields =>
    field.violations record place (fields.get? field.name) ++ Field.violationsOfEach rest record place fields

/-- The violations of one entry, given the value that the map holds for it. -/
def Field.violations : Field → String → Location → Option Value → List Error
  | ⟨name, type, isRequired⟩, record, place, value? =>
    match value? with
    | none | some .null =>
      if isRequired then [.mistyped record (place ++ [.field name]) type.describe "nothing"] else []
    | some value => type.violations record (place ++ [.field name]) value

end

/-- The error that a fault amounts to, found in what stands at a place of a record. -/
def Fault.report (record : String) (place : Location) : Fault → Error
  | .unknown location => .unknownField record (place ++ location)
  | .mistyped location expected found => .mistyped record (place ++ location) expected found

namespace Fault

theorem report_below (record : String) (place : Location) (step : Step) (fault : Fault) :
    (fault.below step).report record place = fault.report record (place ++ [step]) := by
  cases fault <;> simp [below, report]

theorem report_nil (record : String) (fault : Fault) : fault.report record [] = fault.toError record := by
  cases fault <;> rfl

theorem report_mismatch (record : String) (place : Location) (type : FieldType) (value : Value) :
    (mismatch type value).report record place = type.mismatchAt record place value := by
  rw [mismatch, report, List.append_nil, FieldType.mismatchAt]

theorem forRecord_report (outer record : String) (place : Location) (fault : Fault) :
    (fault.report record place).forRecord outer = fault.report outer place := by
  cases fault <;> rfl

end Fault

/-- The violations of a type start with the fault that the check finds. -/
def FieldType.StartsWithFault (type : FieldType) : Prop :=
  ∀ record place value,
    (type.violations record place value).head? = (type.fault? value).map (Fault.report record place)

theorem FieldType.violations_eq_nil_iff {type : FieldType} (starts : type.StartsWithFault) {record : String}
    {place : Location} {value : Value} : type.violations record place value = [] ↔ type.fault? value = none := by
  rw [← List.head?_eq_none_iff, starts, Option.map_eq_none_iff]

theorem FieldType.eachViolated_eq {members : List FieldType} (each : ∀ member ∈ members, member.StartsWithFault)
    (record : String) (place : Location) (value : Value) :
    FieldType.eachViolated members record place value = !FieldType.someAccepts members value := by
  induction members with
  | nil => rfl
  | cons member rest ih =>
    obtain ⟨first, others⟩ := List.forall_mem_cons.1 each
    have here : (member.violations record place value).isEmpty = (member.fault? value).isNone := by
      rw [Bool.eq_iff_iff, List.isEmpty_iff, Option.isNone_iff_eq_none, violations_eq_nil_iff first]
    rw [eachViolated, someAccepts, ih others, here, Bool.not_or]

/-- The violations of items, the first of which stands at `position`, start with their first fault. -/
theorem FieldType.head?_violations_items {item : FieldType} (starts : item.StartsWithFault) (record : String)
    (place : Location) (items : List Value) (position : Nat) :
    ((items.zipIdx position).flatMap fun entry => item.violations record (place ++ [.index entry.2]) entry.1).head? =
      (Fault.ofItems item.fault? position items).map (Fault.report record place) := by
  induction items generalizing position with
  | nil => rfl
  | cons element rest ih =>
    rw [List.zipIdx_cons, List.flatMap_cons, List.head?_append, starts, ih, Fault.ofItems]
    cases item.fault? element with
    | none => rfl
    | some fault => simp [Fault.report_below]

theorem Field.head?_violations {field : Field} (starts : field.type.StartsWithFault) (record : String)
    (place : Location) (value? : Option Value) :
    (field.violations record place value?).head? = (field.fault? value?).map (Fault.report record place) := by
  obtain ⟨name, type, isRequired⟩ := field
  have absent : (if isRequired then [Error.mistyped record (place ++ [.field name]) type.describe "nothing"]
        else []).head? =
      (if isRequired then some ((Fault.absence type).below (.field name)) else none).map
        (Fault.report record place) := by
    cases isRequired <;> rfl
  by_cases present : value?.getD .null = .null
  · rw [fault?_of_absent present, ← absent]
    cases value? with
    | none => rfl
    | some value =>
      cases present
      rfl
  · cases value? with
    | none => exact absurd rfl present
    | some value =>
      have held : Field.violations ⟨name, type, isRequired⟩ record place (some value) =
          type.violations record (place ++ [.field name]) value := by
        cases value with
        | null => exact absurd rfl present
        | _ => rfl
      have whole : Field.fault? ⟨name, type, isRequired⟩ (some value) =
          (type.fault? value).map (Fault.below (.field name)) := fault?_some present
      rw [held, starts, whole, Option.map_map]
      congr 1
      funext fault
      exact (Fault.report_below record place (.field name) fault).symm

theorem Field.head?_violationsOfEach {declared : List Field} (each : ∀ field ∈ declared, field.type.StartsWithFault)
    (record : String) (place : Location) (fields : Fields) :
    (violationsOfEach declared record place fields).head? =
      (firstFault? declared fields).map (Fault.report record place) := by
  induction declared with
  | nil => rfl
  | cons field rest ih =>
    obtain ⟨first, others⟩ := List.forall_mem_cons.1 each
    rw [violationsOfEach, List.head?_append, head?_violations first, ih others, firstFault?]
    cases field.fault? (fields.get? field.name) <;> rfl

theorem Schema.head?_violations {schema : Schema} (each : ∀ field ∈ schema.fields, field.type.StartsWithFault)
    (place : Location) (fields : Fields) :
    (schema.violations place fields).head? = (schema.fault? fields).map (Fault.report schema.name place) := by
  obtain ⟨name, declared⟩ := schema
  rw [violations, List.head?_append, List.head?_map, List.head?_filter, Field.head?_violationsOfEach each]
  show Option.or (Option.map _ (undeclared? ⟨name, declared⟩ fields)) _ = _
  cases unknown : undeclared? ⟨name, declared⟩ fields with
  | some key =>
    rw [fault?_of_undeclared unknown]
    rfl
  | none =>
    rw [fault?_of_declared unknown]
    rfl

/-- **The violations of a value start with the fault that the check finds.** -/
theorem FieldType.startsWithFault (type : FieldType) : type.StartsWithFault := by
  induction type with
  | string =>
    intro record place value
    cases value <;> simp [violations, fault?, Fault.report_mismatch]
  | integer =>
    intro record place value
    cases value with
    | integer n =>
      rw [violations, fault?]
      split
      · rfl
      · rw [List.head?_cons, Option.map_some, Fault.report_mismatch]
    | _ => simp [violations, fault?, Fault.report_mismatch]
  | boolean =>
    intro record place value
    cases value <;> simp [violations, fault?, Fault.report_mismatch]
  | list item ih =>
    intro record place value
    cases value with
    | list items => exact head?_violations_items ih record place items 0
    | _ => simp [violations, fault?, Fault.report_mismatch]
  | shape schema ih =>
    intro record place value
    cases value with
    | object members =>
      show ((schema.violations place members).map (Error.forRecord record)).head? = (schema.fault? members).map _
      rw [List.head?_map, Schema.head?_violations ih, Option.map_map]
      congr 1
      funext fault
      exact Fault.forRecord_report record schema.name place fault
    | _ => simp [violations, fault?, Fault.report_mismatch]
  | oneOf members ih =>
    intro record place value
    rw [violations, fault?, eachViolated_eq ih]
    cases someAccepts members value with
    | true => rfl
    | false => simp [Fault.report_mismatch]

theorem Field.violationsOfEach_eq_flatMap (declared : List Field) (record : String) (place : Location) (fields : Fields) :
    violationsOfEach declared record place fields =
      declared.flatMap fun field => field.violations record place (fields.get? field.name) := by
  induction declared with
  | nil => rfl
  | cons field rest ih => rw [violationsOfEach, ih, List.flatMap_cons]

/-- With all its names declared, a map has the violations of its entries. -/
theorem Schema.violations_of_declared {schema : Schema} {fields : Fields}
    (declared : ∀ key ∈ fields.names, schema.declares key = true) (place : Location) :
    schema.violations place fields =
      schema.fields.flatMap fun field => field.violations schema.name place (fields.get? field.name) := by
  obtain ⟨name, entries⟩ := schema
  have nothing : (fields.names.filter fun key => !declares ⟨name, entries⟩ key) = [] := by
    rw [List.filter_eq_nil_iff]
    intro key mem
    simp [declared key mem]
  rw [violations, nothing, List.map_nil, List.nil_append, Field.violationsOfEach_eq_flatMap]

/-- The verdict of a check, from all violations of the map. -/
theorem Schema.validate_eq_head?_violations (schema : Schema) (fields : Fields) :
    schema.validate fields = (schema.violations [] fields).head?.elim (.ok ()) .error := by
  rw [head?_violations (fun field _ => field.type.startsWithFault), validate]
  cases schema.fault? fields with
  | none => rfl
  | some fault =>
    rw [Option.map_some, Fault.report_nil]
    rfl

/-- If a map is faulty below a name, and the first entry of that name is at fault, the fault is that entry's. -/
theorem Field.fault?_of_firstFault? {declared : List Field} {fields : Fields} {name : String} {field : Field}
    {fault : Fault} {rest : Location} (found : declared.find? (fun field => field.name == name) = some field)
    (first : firstFault? declared fields = some fault) (stands : fault.location = .field name :: rest)
    (faulty : field.fault? (fields.get? field.name) ≠ none) : field.fault? (fields.get? field.name) = some fault := by
  induction declared with
  | nil => cases found
  | cons entry others ih =>
    rw [firstFault?] at first
    rw [List.find?_cons] at found
    cases content : entry.fault? (fields.get? entry.name) with
    | some earlier =>
      rw [content] at first
      cases first
      obtain ⟨rest', below⟩ := location_of_fault? content
      have named : entry.name = name := by
        rw [below] at stands
        cases stands
        rfl
      rw [named, beq_self_eq_true] at found
      cases found
      exact content
    | none =>
      rw [content] at first
      cases named : entry.name == name with
      | true =>
        rw [named] at found
        cases found
        exact absurd content faulty
      | false =>
        rw [named] at found
        exact ih found first

/-- What is wrong with a part is wrong with the whole, and is what a check of the whole
reports if that stands below the step to the part. -/
theorem FieldType.fault?_of_part {type inner : FieldType} {value part : Value} {step : Step} {fault : Fault}
    (typed : type.part? step = some inner) (held : value.part? step = some part) (present : part ≠ .null)
    (content : inner.fault? part = some fault) :
    ∃ whole, type.fault? value = some whole ∧ ∀ rest, whole.location = step :: rest → whole = fault.below step := by
  cases type with
  | list item =>
    cases step with
    | field name => cases typed
    | index position =>
      cases typed
      cases value with
      | list items =>
        have there : items[position]? = some part := held
        have faulty : Fault.ofItems inner.fault? 0 items ≠ none := by
          intro none
          rw [Fault.ofItems_eq_none_iff.1 none part (List.mem_of_getElem? there)] at content
          cases content
        obtain ⟨whole, found⟩ := Option.ne_none_iff_exists'.1 faulty
        refine ⟨whole, found, fun rest stands => ?_⟩
        obtain ⟨index, other, below, otherThere, rejected, rfl⟩ := Fault.exists_of_ofItems found
        rw [Fault.location_below, Nat.zero_add] at stands
        cases stands
        rw [there] at otherThere
        cases otherThere
        rw [content] at rejected
        cases rejected
        rw [Nat.zero_add]
      | _ => cases held
  | shape schema =>
    cases step with
    | index position => cases typed
    | field name =>
      obtain ⟨field, found, rfl⟩ := Option.map_eq_some_iff.1 typed
      cases value with
      | object members =>
        have named := Schema.name_of_field? found
        have there : Fields.get? members field.name = some part := named ▸ held
        have rejected : field.fault? (Fields.get? members field.name) = some (fault.below (.field name)) := by
          rw [there, Field.fault?_some present, content, named, Option.map_some]
        have faulty : schema.fault? members ≠ none := by
          intro none
          rw [(Schema.fault?_eq_none_iff.1 none).2 field (Schema.mem_of_field? found)] at rejected
          cases rejected
        obtain ⟨whole, reported⟩ := Option.ne_none_iff_exists'.1 faulty
        refine ⟨whole, reported, fun rest stands => ?_⟩
        cases unknown : schema.undeclared? members with
        | some key =>
          rw [Schema.fault?_of_undeclared unknown] at reported
          cases reported
          cases stands
          -- the name of the step is declared
          have undeclared := (Schema.of_undeclared?_eq_some unknown).2
          rw [Schema.declares_eq_isSome, found] at undeclared
          cases undeclared
        | none =>
          rw [Schema.fault?_of_declared unknown] at reported
          have same := Field.fault?_of_firstFault? found reported stands (by rw [rejected]; exact nofun)
          rw [rejected] at same
          exact (Option.some.inj same).symm
      | _ => cases held
  | _ => cases step <;> cases typed

/-- Where a check finds nothing, or a value that is mistyped further down, every name
of the object above it is declared. -/
theorem FieldType.declares_above {type : FieldType} {value : Value} {parent : Location} {inner : Schema}
    {members : Fields}
    (beyond : ∀ fault, type.fault? value = some fault →
      ∃ rest expected found, rest ≠ [] ∧ fault = .mistyped (parent ++ rest) expected found)
    (expects : type.at? parent = some (.shape inner)) (holds : value.at? parent = some (.object members)) :
    ∀ key ∈ members.names, inner.declares key = true := by
  induction parent generalizing type value with
  | nil =>
    cases expects
    cases holds
    refine Schema.undeclared?_eq_none_iff.1 (Option.eq_none_iff_forall_ne_some.2 fun key unknown => ?_)
    obtain ⟨rest, expected, found, -, other⟩ := beyond _ (Schema.fault?_of_undeclared unknown)
    cases other
  | cons step parent ih =>
    obtain ⟨declared, typed, expects⟩ := Option.bind_eq_some_iff.1 expects
    obtain ⟨part, held, holds⟩ := Option.bind_eq_some_iff.1 holds
    have present : part ≠ .null := by
      rintro rfl
      cases parent <;> cases holds
    refine ih (fun fault content => ?_) expects holds
    obtain ⟨whole, reported, below⟩ := fault?_of_part typed held present content
    obtain ⟨rest, expected, found, nonempty, rfl⟩ := beyond whole reported
    have same := below (parent ++ rest) rfl
    cases fault with
    | unknown place => cases same
    | mistyped place expected found =>
      cases same
      exact ⟨rest, expected, found, nonempty, rfl⟩

end TrainingJob
