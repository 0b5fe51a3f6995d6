import TrainingJob.Catalogue
import TrainingJob.Proofs.Schema.Entries
import TrainingJob.Proofs.Schema.Violations

/-!
# Which fault is reported

Of all that is wrong with a map a check reports one fault, and always the same: the
first of the list that it would make if it went on (`Schema.reports_first_violation`).
Undeclared names of an object come before anything in it that is mistyped, and mistyped
fields follow their declarations, however the document orders them.

Seen from outside, a map is checked like its entries one after the other
(`Schema.validate_entry_by_entry`), each as an assignment to that field would be.
-/

set_option autoImplicit false

namespace TrainingJob

open Json

/-- **A check reports the first of all violations**, for every schema and every field map,
and passes when there are none. An object with an undeclared name is reported before
anything in it that is mistyped, and mistyped fields are reported in the order of their
declarations. -/
theorem Schema.reports_first_violation (schema : Schema) (fields : Fields) :
    (schema.validate fields =
      match schema.violations [] fields with
      | [] => .ok ()
      | first :: _ => .error first) ∧
    (∀ record place expected found, schema.validate fields = .error (.mistyped record place expected found) →
      ∀ (parent rest : Location) (inner : Schema) (members : Fields), place = parent ++ rest → rest ≠ [] →
        (FieldType.shape schema).at? parent = some (.shape inner) →
        (Value.object fields).at? parent = some (.object members) →
        ∀ key ∈ members.names, inner.declares key = true) ∧
    ((∀ key ∈ fields.names, schema.declares key = true) →
      ∀ before field after first others, schema.fields = before ++ field :: after →
        (∀ earlier ∈ before, Field.violations earlier schema.name [] (fields.get? earlier.name) = []) →
        Field.violations field schema.name [] (fields.get? field.name) = first :: others →
        schema.validate fields = .error first) := by
  refine ⟨?_, ?_, ?_⟩
  · rw [validate_eq_head?_violations]
    cases schema.violations [] fields <;> rfl
  · intro record place expected found rejected parent rest inner members split below expects holds
    obtain ⟨fault, content, reported⟩ := validate_eq_error_iff.1 rejected
    refine FieldType.declares_above (fun other same => ?_) expects holds
    have only : fault = other := Option.some.inj (content.symm.trans same)
    cases fault with
    | unknown place => cases reported
    | mistyped place expected found =>
      cases reported
      exact ⟨rest, expected, found, below, by rw [← only, split]⟩
  · intro declared before field after first others split clean violated
    have none : before.flatMap (fun field => field.violations schema.name [] (fields.get? field.name)) = [] :=
      List.flatMap_eq_nil_iff.2 clean
    rw [validate_eq_head?_violations, violations_of_declared declared, split, List.flatMap_append, none,
      List.flatMap_cons, violated]
    rfl

theorem Schema.reports_first_violation_resourceConfig :
    let volume := ("volume_size_in_gb", Value.string "30")
    let group := Value.object [("instance_count", .string "2"), ("gpu", .integer 1)]
    let named := Value.object [("instance_count", .string "2"), ("instance_group_name", .string "gpu"),
      ("instance_type", .string "ml.m5")]
    let mistyped := fun place expected found => Error.mistyped "ResourceConfig" place expected found
    (Submission.ResourceConfig.schema.violations [] [("instance_groups", .list [group]), volume] =
        [mistyped [.field "volume_size_in_gb"] "integer" "string",
          .unknownField "ResourceConfig" [.field "instance_groups", .index 0, .field "gpu"],
          mistyped [.field "instance_groups", .index 0, .field "instance_type"] "string" "nothing",
          mistyped [.field "instance_groups", .index 0, .field "instance_count"] "integer" "string",
          mistyped [.field "instance_groups", .index 0, .field "instance_group_name"] "string" "nothing"] ∧
      Submission.ResourceConfig.schema.validate [("instance_groups", .list [group]), volume] =
        .error (mistyped [.field "volume_size_in_gb"] "integer" "string")) ∧
    (Submission.ResourceConfig.schema.validate
        [("instance_groups", .list [named]), ("volume_size_in_gb", .integer 30)] =
        .error (mistyped [.field "instance_groups", .index 0, .field "instance_count"] "integer" "string") ∧
      Submission.InstanceGroup.schema.declares "instance_group_name" = true) ∧
    Submission.ResourceConfig.schema.validate [("instance_groups", .list [named]), volume] =
      .error (mistyped [.field "volume_size_in_gb"] "integer" "string") := by
  intro volume group named mistyped
  refine ⟨⟨rfl, ?_⟩, ⟨rfl, ?_⟩, ?_⟩
  · exact (reports_first_violation Submission.ResourceConfig.schema [("instance_groups", .list [group]), volume]).1
  · have above := (reports_first_violation Submission.ResourceConfig.schema
      [("instance_groups", .list [named]), ("volume_size_in_gb", .integer 30)]).2.1
    exact above "ResourceConfig" _ "integer" "string" rfl [.field "instance_groups", .index 0]
      [.field "instance_count"] Submission.InstanceGroup.schema _ rfl (List.cons_ne_nil _ _) rfl rfl
      "instance_group_name" (by decide)
  · have inOrder := (reports_first_violation Submission.ResourceConfig.schema
      [("instance_groups", .list [named]), volume]).2.2
    exact inOrder (by decide) [.optional "instance_type" .string, .optional "instance_count" .integer]
      (.required "volume_size_in_gb" .integer) _ _ [] rfl (by decide) rfl

/-- **A map is checked entry by entry.** Where the names of a schema are distinct, a map is
refused for its first undeclared name as that name alone would be, and otherwise for the
first declared field, in declaration order, whose value alone would be refused. An
accepted map with a value put under any name has the verdict of that value. -/
theorem Schema.validate_entry_by_entry {schema : Schema} (distinct : schema.fieldNames.Nodup) (fields : Fields) :
    (∀ key, fields.names.find? (fun key => !schema.declares key) = some key →
      ∃ error, schema.validateField key ((fields.get? key).getD .null) = .error error ∧
        schema.validate fields = .error error) ∧
    ((∀ key ∈ fields.names, schema.declares key = true) →
      schema.validate fields =
        forM schema.fieldNames fun name => schema.validateField name ((fields.get? name).getD .null)) ∧
    (schema.validate fields = .ok () → ∀ name value,
      schema.validate (fields.insert name value) = schema.validateField name value) := by
  refine ⟨fun key unknown => ?_, fun declared => ?_, fun accepted name value => ?_⟩
  · have undeclared := (of_undeclared?_eq_some unknown).2
    refine ⟨_, validateField_of_undeclared undeclared, ?_⟩
    rw [validate, fault?_of_undeclared unknown]
    rfl
  · rw [validate, fault?_of_declared (undeclared?_eq_none_iff.2 declared)]
    exact verdict_firstFault? (fun field mem => field?_of_mem distinct mem) fields
  · exact validate_insert distinct (validate_eq_ok_iff.1 accepted) name value

theorem Schema.validate_entry_by_entry_tag :
    Submission.Tag.schema.validate [("key", .integer 1), ("color", .string "red"), ("team", .null)] =
        .error (.unknownField "Tag" [.field "color"]) ∧
      Submission.Tag.schema.validate [("value", .integer 1), ("key", .null)] =
        .error (.mistyped "Tag" [.field "key"] "string" "nothing") ∧
      Submission.Tag.schema.validate
          (Fields.insert [("value", .string "ml"), ("key", .string "team")] "value" (.boolean true)) =
        Submission.Tag.schema.validateField "value" (.boolean true) := by
  have distinct : Submission.Tag.schema.fieldNames.Nodup := by decide
  refine ⟨?_, ?_, ?_⟩
  · obtain ⟨error, alone, whole⟩ := (validate_entry_by_entry distinct
      [("key", .integer 1), ("color", .string "red"), ("team", .null)]).1 "color" rfl
    rw [whole, ← alone]
    rfl
  · exact (validate_entry_by_entry distinct [("value", .integer 1), ("key", .null)]).2.1 (by decide)
  · exact (validate_entry_by_entry distinct [("value", .string "ml"), ("key", .string "team")]).2.2 rfl "value"
      (.boolean true)

end TrainingJob
