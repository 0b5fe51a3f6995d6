import TrainingJob.Proofs.Catalogue

/-!
# One name, one type

A field name means the same in every record that declares it: all its
declarations are of one type. The exception is `data_source`, which a setting
types as a choice of locations and a channel as a shape, and no value is of both
these types. So where two records declare a name and one value suits them both,
they type it alike (`RecordSort.type_eq_of_accepts`).
-/

set_option autoImplicit false

namespace TrainingJob

open Json

/-- No value is both a location of input data and a data source of a channel. -/
theorem not_location_and_source {value : Value} (location : Settings.DataLocation.codec.type.fault? value = none) :
    (FieldType.shape Submission.DataSource.schema).fault? value ≠ none := by
  obtain ⟨kind, mem, fits⟩ := FieldType.fault?_oneOf_eq_none_iff.1 location
  rcases List.mem_cons.1 mem with rfl | mem
  · exact FieldType.Excludes.string_shape Submission.DataSource.schema value fits
  rcases List.mem_cons.1 mem with rfl | mem
  · have required : Field.required "s3_data_type" .string ∈ Submission.S3DataSource.schema.fields := .head _
    exact (FieldType.Excludes.shape_of_requires (by decide) required rfl).symm value fits
  · cases List.mem_singleton.1 mem
    have required : Field.required "file_system_id" .string ∈ Submission.FileSystemDataSource.schema.fields := .head _
    exact (FieldType.Excludes.shape_of_requires (by decide) required rfl).symm value fits

namespace RecordSort

theorem type_eq_of_name_eq (sort other : RecordSort) {field twin : Field}
    (mem : field ∈ (Record.schema sort.Carrier).fields) (twinMem : twin ∈ (Record.schema other.Carrier).fields)
    (same : twin.name = field.name) (unambiguous : field.name ≠ "data_source") : twin.type = field.type := by
  have table : ∀ sort ∈ all, ∀ other ∈ all, ∀ field ∈ (Record.schema sort.Carrier).fields,
      ∀ twin ∈ (Record.schema other.Carrier).fields,
        twin.name = field.name → field.name ≠ "data_source" → twin.type = field.type := by decide +kernel
  exact table sort sort.mem_all other other.mem_all field mem twin twinMem same unambiguous

theorem type_dataSource (sort : RecordSort) {field : Field} (mem : field ∈ (Record.schema sort.Carrier).fields)
    (named : field.name = "data_source") :
    field.type = Settings.DataLocation.codec.type ∨ field.type = .shape Submission.DataSource.schema := by
  have table : ∀ sort ∈ all, ∀ field ∈ (Record.schema sort.Carrier).fields, field.name = "data_source" →
      field.type = Settings.DataLocation.codec.type ∨ field.type = .shape Submission.DataSource.schema := by
    decide +kernel
  exact table sort sort.mem_all field mem named

/-- Fields of one name that accept one value are of one type. -/
theorem type_eq_of_accepts (sort other : RecordSort) {field twin : Field}
    (mem : field ∈ (Record.schema sort.Carrier).fields) (twinMem : twin ∈ (Record.schema other.Carrier).fields)
    (same : twin.name = field.name) {value : Value} (accepts : field.type.fault? value = none)
    (twinAccepts : twin.type.fault? value = none) : twin.type = field.type := by
  by_cases named : field.name = "data_source"
  -- only the two mixed pairs need the value
  · rcases sort.type_dataSource mem named with location | source <;>
      rcases other.type_dataSource twinMem (same.trans named) with twinLocation | twinSource
    · rw [twinLocation, location]
    · rw [location] at accepts
      rw [twinSource] at twinAccepts
      exact absurd twinAccepts (not_location_and_source accepts)
    · rw [twinLocation] at twinAccepts
      rw [source] at accepts
      exact absurd accepts (not_location_and_source twinAccepts)
    · rw [twinSource, source]
  · exact sort.type_eq_of_name_eq other mem twinMem same named

end RecordSort

end TrainingJob
