import TrainingJob.Conversion
import TrainingJob.Proofs.Catalogue
import TrainingJob.Proofs.Record.Relaxation

/-!
# Settings and their shapes

All five conversions go from a record to a shape that it relaxes
(`Conversion.relaxes`). So a conversion can fail only for want of a field that the
shape requires (`Conversion.convert_outcome`), it keeps step with assignments
(`Conversion.convert_keeps_step`), and no document of a shape is lost by writing it as
settings (`Conversion.convert_of_shape`). The one thing that settings add to such a
document is where their preset stands in for an omitted local path.
-/

set_option autoImplicit false

namespace TrainingJob

open Json

namespace Conversion

/-- Settings have the fields of their shape, with the same types, and require none. -/
theorem relaxes (conversion : Conversion) :
    Record.Relaxes conversion.source.Carrier conversion.target.Carrier := by
  constructor
  · cases conversion <;> decide
  · cases conversion <;> decide +kernel
  · cases conversion <;> rfl
  · cases conversion <;> decide

section Outcome

variable {conversion : Conversion} {record : conversion.source.Carrier} {field : Field}

theorem get_eq_null_iff (mem : field ∈ conversion.shape.fields) :
    Record.get record field.name = .ok .null ↔ Record.shown record field.name = .null :=
  Record.get_eq_null_iff (conversion.relaxes.declares_source mem)

theorem has_iff (mem : field ∈ conversion.shape.fields) :
    Record.Has record field.name ↔ Record.shown record field.name ≠ .null :=
  Record.has_iff (conversion.relaxes.declares_source mem)

/-- There is no result when every field of the shape is absent. -/
theorem convert_eq_none_iff :
    conversion.convert record = .ok none ↔
      ∀ field ∈ conversion.shape.fields, Record.get record field.name = .ok .null := by
  rw [convert_eq_project, Record.project_eq_none_iff, Record.shared_eq_nil_iff]
  exact forall₂_congr fun field mem => (get_eq_null_iff mem).symm

theorem convert_ne_none_iff :
    conversion.convert record ≠ .ok none ↔ ∃ field ∈ conversion.shape.fields, Record.Has record field.name := by
  rw [ne_eq, convert_eq_none_iff, not_forall₂]
  refine exists_congr fun field => ?_
  constructor
  · rintro ⟨mem, present⟩
    exact ⟨mem, (has_iff mem).2 fun absent => present ((get_eq_null_iff mem).2 absent)⟩
  · rintro ⟨mem, present⟩
    exact ⟨mem, fun absent => (has_iff mem).1 present ((get_eq_null_iff mem).1 absent)⟩

/-- There is a result when nothing is absent that the shape requires. -/
theorem exists_result_iff :
    (∃ result, conversion.convert record = .ok (some result)) ↔
      ∀ field ∈ conversion.shape.fields, field.isRequired = true → Record.Has record field.name := by
  simp only [convert_eq_project]
  rw [conversion.relaxes.exists_project_iff]
  exact forall₂_congr fun field mem => imp_congr_right fun _ => (has_iff mem).symm

/-- A failure is for want of the first required field that is absent. -/
theorem of_convert_eq_error {error : Error} (failed : conversion.convert record = .error error) :
    ∃ before field after, conversion.shape.fields = before ++ field :: after ∧ field.isRequired = true ∧
      Record.get record field.name = .ok .null ∧
      (∀ earlier ∈ before, earlier.isRequired = true → Record.Has record earlier.name) ∧
      error = .unprojectable conversion.settings.name conversion.shape.name
        (.mistyped conversion.shape.name [.field field.name] field.type.describe "nothing") := by
  rw [convert_eq_project] at failed
  obtain ⟨-, before, field, after, split, required, absent, earlier, reported⟩ :=
    conversion.relaxes.project_eq_error_iff.1 failed
  have mem {other : Field} (here : other ∈ before ++ field :: after) : other ∈ conversion.shape.fields := by
    unfold shape
    rw [split]
    exact here
  refine ⟨before, field, after, split, required, ?_, ?_, reported⟩
  · exact (get_eq_null_iff (mem (by simp))).2 absent
  · intro other here needed
    exact (has_iff (mem (List.mem_append_left _ here))).2 (earlier other here needed)

theorem exists_error_iff :
    (∃ error, conversion.convert record = .error error) ↔
      (∃ field ∈ conversion.shape.fields, Record.Has record field.name) ∧
        ∃ field ∈ conversion.shape.fields, field.isRequired = true ∧ Record.get record field.name = .ok .null := by
  constructor
  · rintro ⟨error, failed⟩
    obtain ⟨before, field, after, split, required, absent, -⟩ := of_convert_eq_error failed
    refine ⟨convert_ne_none_iff.1 (by rw [failed]; exact nofun), field, ?_, required, absent⟩
    rw [split]
    simp
  · rintro ⟨some, field, mem, required, absent⟩
    cases converted : conversion.convert record with
    | error error => exact ⟨error, rfl⟩
    | ok result =>
      cases result with
      | none => exact absurd converted (convert_ne_none_iff.2 some)
      | some result =>
        have present := exists_result_iff.1 ⟨result, converted⟩ field mem required
        exact absurd ((get_eq_null_iff mem).1 absent) ((has_iff mem).1 present)

end Outcome

/-- **A conversion fails only for want of a required field.** There is no result when
every field of the shape is absent. Otherwise it is the first required field that is
absent which is reported, and if there is none the shape reads as the settings do. What
the settings hold suits the shape, and any value counts that is not an absence. -/
theorem convert_outcome (conversion : Conversion) (record : conversion.source.Carrier) :
    (conversion.convert record = .ok none ↔
      ∀ field ∈ conversion.shape.fields, Record.get record field.name = .ok .null) ∧
    ((∃ error, conversion.convert record = .error error) ↔
      (∃ field ∈ conversion.shape.fields, Record.Has record field.name) ∧
        ∃ field ∈ conversion.shape.fields, field.isRequired = true ∧ Record.get record field.name = .ok .null) ∧
    (∀ error, conversion.convert record = .error error →
      ∃ before field after, conversion.shape.fields = before ++ field :: after ∧ field.isRequired = true ∧
        Record.get record field.name = .ok .null ∧
        (∀ earlier ∈ before, earlier.isRequired = true → Record.Has record earlier.name) ∧
        error = .unprojectable conversion.settings.name conversion.shape.name
          (.mistyped conversion.shape.name [.field field.name] field.type.describe "nothing")) ∧
    ((∃ result, conversion.convert record = .ok (some result)) ↔
      ∀ field ∈ conversion.shape.fields, field.isRequired = true → Record.Has record field.name) ∧
    (∀ result, conversion.convert record = .ok (some result) →
      ∀ field ∈ conversion.shape.fields, Record.get result field.name = Record.get record field.name) ∧
    (∀ field ∈ conversion.shape.fields, ∀ value, Record.get record field.name = .ok value → value ≠ .null →
      conversion.shape.validateField field.name value = .ok ()) ∧
    ∀ field ∈ conversion.shape.fields, ∀ value next, value ≠ .null →
      Record.set record field.name value = .ok next → Record.Has next field.name := by
  refine ⟨convert_eq_none_iff, exists_error_iff, fun _ => of_convert_eq_error, exists_result_iff, ?_, ?_, ?_⟩
  · intro result converted field mem
    rw [convert_eq_project] at converted
    rw [Record.get_of_mem mem, Record.get_of_declares (conversion.relaxes.declares_source mem),
      conversion.relaxes.project_eq_some_iff.1 converted field mem]
  · intro field mem value read present
    rw [Record.get_of_declares (conversion.relaxes.declares_source mem)] at read
    cases read
    rw [Schema.validateField_of_field? (Schema.field?_of_mem Record.nodup_fieldNames mem), Schema.verdict_eq_ok_iff,
      Field.fault?_of_present present]
    exact conversion.relaxes.fits mem present
  · intro field mem value next present done
    obtain ⟨own, ownMem, named, -⟩ := conversion.relaxes.covers field mem
    rw [has_iff mem, ← named, Record.shown_of_set done ownMem, if_pos named, Field.settle_of_present present]
    exact FieldType.tidy_ne_null present

theorem convert_outcome_of_empty_values :
    (∃ result, Settings.Compute.toShape
        { instanceType := some "", instanceCount := some 0, volumeSizeInGb := some (-1), instanceGroups := some [] } =
          .ok (some result) ∧
      Record.get result "instance_type" = .ok (.string "") ∧ Record.get result "instance_count" = .ok (.integer 0) ∧
      Record.get result "volume_size_in_gb" = .ok (.integer (-1)) ∧
      Record.get result "instance_groups" = .ok (.list [])) ∧
    (∃ error, Settings.Networking.toShape { securityGroupIds := some [] } = .error error ∧
      ∃ before field after, Submission.VpcConfig.schema.fields = before ++ field :: after ∧
        error = .unprojectable "Networking" "VpcConfig"
          (.mistyped "VpcConfig" [.field field.name] field.type.describe "nothing")) ∧
    Submission.VpcConfig.schema.validateField "subnets" (.list []) = .ok () := by
  refine ⟨?_, ?_, ?_⟩
  · have compute := convert_outcome .compute
      { instanceType := some "", instanceCount := some 0, volumeSizeInGb := some (-1), instanceGroups := some [] }
    have shows := compute.2.2.2.2.1 _ rfl
    refine ⟨_, rfl, ?_, ?_, ?_, ?_⟩
    · exact shows (.optional "instance_type" .string) (.head _)
    · exact shows (.optional "instance_count" .integer) (.tail _ (.head _))
    · exact shows (.required "volume_size_in_gb" .integer) (.tail _ (.tail _ (.head _)))
    · exact shows (.optional "instance_groups" (.list (.shape Submission.InstanceGroup.schema)))
        (.tail _ (.tail _ (.tail _ (.tail _ (.tail _ (.head _))))))
  · have networking := convert_outcome .networking { securityGroupIds := some [] }
    obtain ⟨before, field, after, split, -, -, -, reported⟩ := networking.2.2.1 _ rfl
    exact ⟨_, rfl, before, field, after, split, reported⟩
  · have networking := convert_outcome .networking { subnets := some [] }
    exact networking.2.2.2.2.2.1 (.required "subnets" (.list .string)) (.tail _ (.head _)) (.list []) rfl nofun

/-- **Conversions keep step with assignments.** An assignment to a field that the shape
does not declare leaves the conversion as it was. Any other is matched by the same
assignment to the shape, and where the shape refuses it there is no shape any more. So a
run of assignments can be made before the conversion, or those of it that concern the
shape after it. -/
theorem convert_keeps_step (conversion : Conversion) (record : conversion.source.Carrier) :
    (∀ field ∈ conversion.settings.fields, ∀ value next, Record.set record field.name value = .ok next →
      (conversion.shape.declares field.name = false → conversion.convert next = conversion.convert record) ∧
      (conversion.shape.declares field.name = true → ∀ result, conversion.convert record = .ok (some result) →
        (∀ matched, Record.set result field.name value = .ok matched → conversion.convert next = .ok (some matched)) ∧
        ∀ error, Record.set result field.name value = .error error →
          ∀ other, conversion.convert next ≠ .ok (some other))) ∧
    ∀ result, conversion.convert record = .ok (some result) → ∀ steps : List (String × Value),
      (∀ outcome ∈ ((Record.assignEach (Record.addressed conversion.target.Carrier steps)).run result).1,
        outcome = .ok ()) →
      conversion.convert ((Record.assignEach steps).run record).2 =
        .ok (some ((Record.assignEach (Record.addressed conversion.target.Carrier steps)).run result).2) := by
  simp only [convert_eq_project]
  constructor
  · intro field _ value next done
    constructor
    · intro undeclared
      exact Record.project_of_set_undeclared done undeclared
    · intro declared result projected
      constructor
      · intro matched follows
        exact conversion.relaxes.project_of_set projected done follows
      · intro error refused
        exact conversion.relaxes.not_project_of_set declared done refused
  · intro result projected steps taken
    exact conversion.relaxes.project_assignEach projected steps taken

theorem convert_keeps_step_compute :
    (∃ next,
      Record.set ({ instanceCount := some 2 } : Settings.Compute) "enable_managed_spot_training" (.boolean true) =
        .ok next ∧ next.toShape = Settings.Compute.toShape { instanceCount := some 2 }) ∧
    (∃ next, Record.set ({ instanceCount := some 2 } : Settings.Compute) "instance_count" .null = .ok next ∧
      next.toShape = .ok (some (.ofVolume 30))) ∧
    (∃ next, Record.set ({ instanceCount := some 2 } : Settings.Compute) "volume_size_in_gb" .null = .ok next ∧
      ∀ other, next.toShape ≠ .ok (some other)) ∧
    Settings.Compute.toShape ((Record.assignEach [("instance_count", .null),
      ("enable_managed_spot_training", .boolean true), ("volume_size_in_gb", .integer 50)]).run
        { instanceCount := some 2 }).2 = .ok (some (.ofVolume 50)) := by
  have step := convert_keeps_step .compute { instanceCount := some 2 }
  have converted : convert .compute { instanceCount := some 2 } =
      .ok (some { instanceCount := some 2, volumeSizeInGb := 30 }) := rfl
  have spot : Field.optional "enable_managed_spot_training" .boolean ∈ Settings.Compute.schema.fields :=
    List.mem_of_getLast? rfl
  have count : Field.optional "instance_count" .integer ∈ Settings.Compute.schema.fields := .tail _ (.head _)
  have volume : Field.optional "volume_size_in_gb" .integer ∈ Settings.Compute.schema.fields :=
    .tail _ (.tail _ (.head _))
  refine ⟨⟨_, rfl, ?_⟩, ⟨_, rfl, ?_⟩, ⟨_, rfl, ?_⟩, ?_⟩
  · exact (step.1 _ spot (.boolean true) _ rfl).1 rfl
  · exact ((step.1 _ count .null _ rfl).2 rfl _ converted).1 _ rfl
  · exact ((step.1 _ volume .null _ rfl).2 rfl _ converted).2 _ rfl
  · refine (step.2 _ converted _ ?_).trans rfl
    intro outcome mem
    rcases List.mem_cons.1 mem with rfl | mem
    · rfl
    · cases List.mem_singleton.1 mem
      rfl

/-- The shape with the local path that its settings have by default. -/
def withPresetPath : (conversion : Conversion) → conversion.target.Carrier → conversion.target.Carrier
  | .tensorBoard, shape => { shape with localPath := some Settings.TensorBoardOutputConfig.presetLocalPath }
  | .checkpoint, shape => { shape with localPath := some Settings.CheckpointConfig.presetLocalPath }
  | .compute, shape => shape
  | .networking, shape => shape
  | .outputData, shape => shape

theorem shown_withPresetPath (conversion : Conversion) (shape : conversion.target.Carrier) {field : Field}
    (mem : field ∈ conversion.shape.fields) :
    Record.shown (conversion.withPresetPath shape) field.name =
      if field.name = "local_path" then Record.preset conversion.source.Carrier field.name
      else Record.shown shape field.name := by
  cases conversion with
  | tensorBoard =>
    rcases List.mem_cons.1 mem with rfl | mem
    · rfl
    · cases List.mem_singleton.1 mem
      rfl
  | checkpoint =>
    rcases List.mem_cons.1 mem with rfl | mem
    · rfl
    · cases List.mem_singleton.1 mem
      rfl
  | _ =>
    have other : field.name ≠ "local_path" := by
      revert field
      decide
    rw [if_neg other]
    rfl

/-- Apart from local paths, no preset of the settings stands for what a shape may lack. -/
theorem preset_eq_null (conversion : Conversion) {field : Field} (mem : field ∈ conversion.shape.fields)
    (optional : field.isRequired = false) (other : field.name ≠ "local_path") :
    Record.preset conversion.source.Carrier field.name = .null := by
  revert field
  cases conversion <;> decide +kernel

/-- **No document of a shape is lost.** What builds a shape builds its settings too, and
they convert back to that shape, with their default local path where the document has none. -/
theorem convert_of_shape (conversion : Conversion) (fields : Fields) (shape : conversion.target.Carrier)
    (built : Record.ofFields fields = .ok shape) :
    ∃ record : conversion.source.Carrier, Record.ofFields fields = .ok record ∧
      conversion.convert record =
        .ok (some (if "local_path" ∈ fields.names then shape else conversion.withPresetPath shape)) := by
  obtain ⟨record, rebuilt, converts⟩ := conversion.relaxes.exists_built built
  refine ⟨record, rebuilt, ?_⟩
  rw [convert_eq_project, converts]
  intro field mem
  have omits (held : field.name ∉ fields.names) (other : field.name ≠ "local_path") :
      Record.shown shape field.name = Record.preset conversion.source.Carrier field.name := by
    obtain ⟨absent, optional⟩ := Record.of_omitted conversion.relaxes.leftOut built mem held
    rw [absent, conversion.preset_eq_null mem optional other]
  by_cases path : "local_path" ∈ fields.names
  · rw [if_pos path]
    by_cases held : field.name ∈ fields.names
    · rw [if_pos held]
    · rw [if_neg held]
      exact omits held fun named => held (named ▸ path)
  · rw [if_neg path, conversion.shown_withPresetPath shape mem]
    by_cases named : field.name = "local_path"
    · rw [if_pos named, if_neg (named ▸ path)]
    · rw [if_neg named]
      by_cases held : field.name ∈ fields.names
      · rw [if_pos held]
      · rw [if_neg held]
        exact omits held named

theorem convert_of_shape_checkpoint :
    (∃ record : Settings.CheckpointConfig,
      Record.ofFields [("s3_uri", .string "s3://results")] = .ok record ∧
        record.toShape = .ok (some ⟨"s3://results", some "/opt/ml/checkpoints"⟩)) ∧
    ∃ record : Settings.CheckpointConfig,
      Record.ofFields [("s3_uri", .string "s3://results"), ("local_path", .null)] = .ok record ∧
        record.toShape = .ok (some ⟨"s3://results", none⟩) :=
  ⟨convert_of_shape .checkpoint [("s3_uri", .string "s3://results")] ⟨"s3://results", none⟩ rfl,
    convert_of_shape .checkpoint [("s3_uri", .string "s3://results"), ("local_path", .null)]
      ⟨"s3://results", none⟩ rfl⟩

end Conversion

end TrainingJob
