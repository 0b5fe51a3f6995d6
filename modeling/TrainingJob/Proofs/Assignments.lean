import TrainingJob.Proofs.Record.Assignment
import TrainingJob.Proofs.Schema.ReadBack
import TrainingJob.Proofs.Verdict

/-!
# Assigning to the records of the catalogue

For every sort of record an assignment is decided by the check of its field and
value, and it is made entirely or not at all (`RecordSort.assignment_verdict`). A
run of assignments leaves in each field the last value that was accepted for it
(`RecordSort.last_accepted_counts`).

An undeclared name is reported at that name. Undeclared names inside a value are
reported too, further down, so a declared field may also be refused for a name
that is not declared (`RecordSort.set_unknown_inside_declared`).
-/

set_option autoImplicit false

namespace TrainingJob

open Json

/-- A value for a field is refused at that field or below it. -/
theorem Schema.path_of_validateField {schema : Schema} {name : String} {value : Value} {error : Error}
    (rejected : schema.validateField name value = .error error) : ∃ rest, error.path = some (.field name :: rest) := by
  cases declared : schema.declares name with
  | false =>
    rw [validateField_of_undeclared declared] at rejected
    cases rejected
    exact ⟨[], rfl⟩
  | true =>
    obtain ⟨field, rfl, fault, content, rfl⟩ := exists_fault?_of_rejected declared rejected
    obtain ⟨rest, stands⟩ := Field.location_of_fault? content
    exact ⟨rest, by rw [Fault.path_toError, stands]⟩

/-- A name is reported as undeclared at its own place only if it is not declared. -/
theorem Schema.validateField_unknown_iff {schema : Schema} (words : schema.NamesAreWords) {name : String}
    {value : Value} :
    (∃ location, schema.validateField name value = .error (.unknownField schema.name location) ∧
      location.render = name) ↔ schema.declares name = false := by
  constructor
  · rintro ⟨location, rejected, placed⟩
    refine Bool.eq_false_iff.2 fun declared => ?_
    obtain ⟨field, rfl, fault, content, reported⟩ := exists_fault?_of_rejected declared rejected
    cases fault with
    | mistyped place expected found => cases reported
    | unknown place =>
      cases reported
      obtain ⟨rest, below, rfl⟩ := Field.location_of_unknown content
      -- a place further down is longer in writing than the name it starts with
      have nonempty := ne_empty_of_isWord (words field.name (declares_iff.1 declared))
      exact Location.render_ne_of_cons_field nonempty below placed
  · intro undeclared
    exact ⟨[.field name], validateField_of_undeclared undeclared, Location.render_field name⟩

namespace RecordSort

/-- **An assignment is decided by its field and value**, for every sort of record
and whatever the record. It ends as the check of the value does, and what that
check accepts no later check refuses. In place, a refused assignment leaves the
record as it was. -/
theorem assignment_verdict (sort : RecordSort) (record : sort.Carrier) (name : String) (value : Value) :
    (Record.set record name value).map (fun _ => ()) = (Record.schema sort.Carrier).validateField name value ∧
    (∀ error, (Record.schema sort.Carrier).validateField name value = .error error →
      (Record.assign name value).run.run record = (.error error, record) ∧
        ∃ rest, error.path = some (.field name :: rest)) ∧
    ((∃ location, (Record.schema sort.Carrier).validateField name value =
        .error (.unknownField (Record.schema sort.Carrier).name location) ∧ location.render = name) ↔
      (Record.schema sort.Carrier).declares name = false) ∧
    ((Record.schema sort.Carrier).validateField name value = .ok () →
      (Record.schema sort.Carrier).validate ((Record.dump record).insert name value) = .ok () ∧
      ∃ next : sort.Carrier, Record.ofFields ((Record.dump record).insert name value) = .ok next ∧
        (Record.assign name value).run.run record = (.ok (), next)) := by
  refine ⟨Record.outcome_set record name value, fun error rejected => ?_,
    Schema.validateField_unknown_iff sort.namesAreWords, fun accepted => ?_⟩
  · rw [Record.run_assign, Record.set, rejected]
    exact ⟨rfl, Schema.path_of_validateField rejected⟩
  · obtain ⟨next, done⟩ := Record.exists_set record accepted
    refine ⟨Record.validate_insert_dump record accepted, next, (Record.ofFields_of_set done).2, ?_⟩
    rw [Record.run_assign, done]

theorem assignment_verdict_compute :
    (Record.assign "volume_size_in_gb" (.string "30")).run.run ({} : Settings.Compute) =
        (.error (.mistyped "Compute" [.field "volume_size_in_gb"] "integer" "string"), {}) ∧
      ∃ next : Settings.Compute,
        (Record.assign "volume_size_in_gb" .null).run.run ({} : Settings.Compute) = (.ok (), next) := by
  obtain ⟨rejected, -⟩ := (assignment_verdict .compute {} "volume_size_in_gb" (.string "30")).2.1 _ rfl
  obtain ⟨-, next, -, done⟩ := (assignment_verdict .compute {} "volume_size_in_gb" .null).2.2.2 rfl
  exact ⟨rejected, next, done⟩

/-- A declared field is refused for a name that its value holds and nothing declares. -/
theorem set_unknown_inside_declared :
    (Record.schema Settings.Compute).declares "instance_groups" = true ∧
      Record.set ({} : Settings.Compute) "instance_groups" (.list [.object [("gpu", .integer 1)]]) =
        .error (.unknownField "Compute" [.field "instance_groups", .index 0, .field "gpu"]) := by
  exact ⟨by decide, rfl⟩

/-- **Runs of assignments are maps in which the last accepted value counts**, for
every sort of record. A field ends with the last value that was accepted for it,
in normal form, and as it was if there is none. A cleared field stays absent
while other fields are assigned, preset or not, and assignments of two fields can
change places. -/
theorem last_accepted_counts (sort : RecordSort) (record : sort.Carrier) (steps : List (String × Value)) :
    (∀ field ∈ (Record.schema sort.Carrier).fields,
      Record.get ((Record.assignEach steps).run record).2 field.name =
        match Fields.get? (Record.accepted steps ((Record.assignEach steps).run record).1).reverse field.name with
        | some value => .ok (field.settle .null (some value))
        | none => Record.get record field.name) ∧
    (∀ field ∈ (Record.schema sort.Carrier).fields, field.isRequired = false →
      ∀ later : List (String × Value), (∀ step ∈ later, step.1 ≠ field.name) →
        Record.get ((Record.assignEach (steps ++ (field.name, .null) :: later)).run record).2 field.name = .ok .null) ∧
    ∀ first second : String × Value, first.1 ≠ second.1 →
      (Record.assignEach [second, first]).run record =
        (((Record.assignEach [first, second]).run record).1.reverse,
          ((Record.assignEach [first, second]).run record).2) := by
  refine ⟨fun field mem => ?_, fun field mem clearable later unnamed => ?_, fun first second apart => ?_⟩
  · rw [Record.get_of_mem mem, Record.get_of_mem mem, Record.shown_assignEach record steps mem]
    cases Fields.get? (Record.accepted steps ((Record.assignEach steps).run record).1).reverse field.name <;> rfl
  · rw [Record.get_of_mem mem, Record.shown_assignEach_of_cleared record steps later mem clearable unnamed]
  · exact Record.run_assignEach_comm record apart

theorem last_accepted_counts_compute :
    let steps := [("volume_size_in_gb", .null), ("instance_count", .string "2"), ("instance_type", .string "ml.m5"),
      ("volume_size_in_gb", .integer 50), ("volume_size_in_gb", .boolean true)]
    Record.get ((Record.assignEach steps).run ({} : Settings.Compute)).2 "volume_size_in_gb" = .ok (.integer 50) ∧
      Record.get ((Record.assignEach (steps ++ ("volume_size_in_gb", .null) :: [("instance_count", .integer 2)])).run
        ({} : Settings.Compute)).2 "volume_size_in_gb" = .ok .null ∧
      (Record.assignEach [("instance_count", .integer 2), ("instance_type", .integer 1)]).run ({} : Settings.Compute) =
        ([.ok (), .error (.mistyped "Compute" [.field "instance_type"] "string" "integer")], {instanceCount := some 2}) := by
  intro steps
  have counts := last_accepted_counts .compute {} steps
  have mem : Field.optional "volume_size_in_gb" .integer ∈ (Record.schema Settings.Compute).fields :=
    .tail _ (.tail _ (.head _))
  refine ⟨?_, ?_, ?_⟩
  · refine (counts.1 _ mem).trans ?_
    rfl
  · refine counts.2.1 _ mem rfl [("instance_count", .integer 2)] ?_
    decide
  · refine (counts.2.2 ("instance_type", .integer 1) ("instance_count", .integer 2) (by decide)).trans ?_
    rfl

/-- **A value reads back in normal form**, for every sort of record. With objects
taken for maps that is the value itself exactly when none of its objects spells
out an absence. -/
theorem reads_back_iff (sort : RecordSort) (record : sort.Carrier) (name : String) (value : Value)
    (accepted : (Record.schema sort.Carrier).validateField name value = .ok ()) :
    ∃ next : sort.Carrier, Record.set record name value = .ok next ∧
      ∃ field ∈ (Record.schema sort.Carrier).fields, field.name = name ∧
        Record.get next name = .ok (field.settle .null (some value)) ∧
        ((field.settle .null (some value)).Alike value ↔ ¬ value.SpellsAbsence) := by
  obtain ⟨next, done⟩ := Record.exists_set record accepted
  obtain ⟨field, found, content⟩ := Schema.validateField_eq_ok_iff.1 accepted
  have mem := Schema.mem_of_field? found
  have named := Schema.name_of_field? found
  refine ⟨next, done, field, mem, named, ?_, Field.alike_settle_iff content⟩
  rw [← named, Record.get_of_mem mem, Record.shown_of_set done mem, if_pos named]

theorem reads_back_reordered :
    ∃ (next : Settings.InputData) (back : Value),
      Record.set (⟨"train", .uri "s3://bucket/train"⟩ : Settings.InputData) "data_source"
          (.object [("s3_uri", .string "s3://bucket/x"), ("s3_data_type", .string "S3Prefix")]) = .ok next ∧
        Record.get next "data_source" = .ok back ∧
        back.Alike (.object [("s3_uri", .string "s3://bucket/x"), ("s3_data_type", .string "S3Prefix")]) := by
  obtain ⟨next, done, field, -, -, back, alike⟩ :=
    reads_back_iff .inputData ⟨"train", .uri "s3://bucket/train"⟩ "data_source"
      (.object [("s3_uri", .string "s3://bucket/x"), ("s3_data_type", .string "S3Prefix")]) rfl
  refine ⟨next, _, done, back, alike.2 fun spells => ?_⟩
  cases spells with
  | here held => simpa using Fields.mem_of_get? held
  | member held inside =>
    have mem := Fields.mem_of_get? held
    rcases List.mem_cons.1 mem with same | mem
    · cases same
      cases inside
    · cases List.mem_singleton.1 mem
      cases inside

/-- A member that is spelled out as absent is gone when the value is read back. -/
theorem not_alike_after_set :
    (Record.schema Settings.InputData).validateField "data_source"
        (.object [("s3_data_type", .string "S3Prefix"), ("s3_uri", .string "s3://bucket/x"), ("attribute_names", .null)]) =
      .ok () ∧
    (∃ next : Settings.InputData,
      Record.set (⟨"train", .uri "s3://bucket/train"⟩ : Settings.InputData) "data_source"
          (.object [("s3_data_type", .string "S3Prefix"), ("s3_uri", .string "s3://bucket/x"),
            ("attribute_names", .null)]) = .ok next ∧
        Record.get next "data_source" =
          .ok (.object [("s3_data_type", .string "S3Prefix"), ("s3_uri", .string "s3://bucket/x")])) ∧
    ¬ (Value.object [("s3_data_type", .string "S3Prefix"), ("s3_uri", .string "s3://bucket/x")]).Alike
      (.object [("s3_data_type", .string "S3Prefix"), ("s3_uri", .string "s3://bucket/x"), ("attribute_names", .null)]) := by
  refine ⟨rfl, ⟨_, rfl, rfl⟩, fun alike => ?_⟩
  exact absurd ((alike.mem_names_iff "attribute_names").2 (by decide)) (by decide)

end RecordSort

end TrainingJob
