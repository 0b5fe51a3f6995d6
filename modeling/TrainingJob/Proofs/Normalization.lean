import TrainingJob.Proofs.Projections

/-!
# Absences taken out of a map

To a schema a name that is missing and a name that stands for `null` are one, so
taking the absences out of a map changes no verdict (`Schema.validate_present`). A
record can tell the two apart, but only by a preset: what was `null` in the map is
absent in the record, and what is missing takes its preset
(`Record.shown_of_ofFields_present`).

Renewing a record does this to its own dump. That brings back the presets of what
was cleared, and leaves any other record alone (`Record.renew_eq_self_iff`).
-/

set_option autoImplicit false

namespace TrainingJob

open Json

/-- Entries that find the same fault in two maps have the same first fault. -/
theorem Field.firstFault?_congr {declared : List Field} {fields others : Fields}
    (same : ∀ field ∈ declared,
      field.fault? (fields.get? field.name) = field.fault? (others.get? field.name)) :
    firstFault? declared fields = firstFault? declared others := by
  induction declared with
  | nil => rfl
  | cons field rest ih =>
    obtain ⟨first, later⟩ := List.forall_mem_cons.1 same
    rw [firstFault?, firstFault?, first, ih later]

/-- Without its absences a map of declared names is as faulty as it was. -/
theorem Schema.fault?_present {schema : Schema} {fields : Fields} (distinct : fields.names.Nodup)
    (declared : ∀ name ∈ fields.names, schema.declares name = true) :
    schema.fault? fields.present = schema.fault? fields := by
  have kept : ∀ name ∈ fields.present.names, schema.declares name = true :=
    fun name mem => declared name ((Fields.names_present_sublist fields).subset mem)
  rw [fault?_of_declared (undeclared?_eq_none_iff.2 kept), fault?_of_declared (undeclared?_eq_none_iff.2 declared)]
  apply Field.firstFault?_congr
  intro field _
  rw [← field.fault?_getD (fields.present.get? field.name), Fields.getD_get?_present distinct, field.fault?_getD]

theorem Schema.validate_present {schema : Schema} {fields : Fields} (distinct : fields.names.Nodup)
    (declared : ∀ name ∈ fields.names, schema.declares name = true) :
    schema.validate fields.present = schema.validate fields := by
  rw [validate, validate, fault?_present distinct declared]

namespace Json.Fields

/-- The present entries are those that are not `null`. -/
theorem mem_present {fields : Fields} {entry : String × Value} :
    entry ∈ fields.present ↔ entry ∈ fields ∧ entry.2 ≠ .null := by
  rw [present, List.mem_filter, Bool.not_eq_true', Value.isNull_eq_false_iff]

theorem present_present (fields : Fields) : fields.present.present = fields.present :=
  present_eq_self_iff.2 (isNormal_present fields)

end Json.Fields

namespace Record

variable {R : Type} [Record R]

/-- A name has a preset when it is one of those that the layout lists. -/
theorem preset_ne_null_iff {name : String} :
    preset R name ≠ .null ↔ name ∈ (layout : Layout (Row R)).presets.names := by
  rw [preset]
  constructor
  · intro present
    exact Fields.mem_names_of_get? (Fields.get?_of_getD present)
  · intro listed
    obtain ⟨value, held⟩ := Option.isSome_iff_exists.1 (Fields.get?_isSome_iff.2 listed)
    rw [held]
    exact (Fields.mem_present.1 (Fields.mem_of_get? held)).2

/-- What has a preset is declared. -/
theorem exists_field_of_preset {name : String} (listed : name ∈ (layout : Layout (Row R)).presets.names) :
    ∃ field ∈ (schema R).fields, field.name = name := by
  have declared : name ∈ (layout : Layout (Row R)).fields.map Field.name := by
    rw [← Layout.names_omitted]
    exact (Fields.names_present_sublist _).subset listed
  rw [fields_layout] at declared
  exact List.mem_map.1 declared

variable [Lawful R]

/-- What a map builds a record from, it still does without its absences. -/
theorem exists_ofFields_present {fields : Fields} (distinct : fields.names.Nodup) {record : R}
    (built : ofFields fields = .ok record) : ∃ renewed : R, ofFields fields.present = .ok renewed := by
  have accepted := accepts_of_decode? (ofFields_eq_ok_iff.1 built)
  have declared := (Schema.fault?_eq_none_iff.1 accepted).1
  have again : (schema R).fault? fields.present = none := by rw [Schema.fault?_present distinct declared, accepted]
  obtain ⟨renewed, read⟩ := Option.isSome_iff_exists.1 ((isSome_decode?_iff (R := R) fields.present).2 again)
  exact ⟨renewed, ofFields_eq_ok_iff.2 read⟩

/-- Without the absences of the map, what was `null` in it takes its preset and nothing else changes. -/
theorem shown_of_ofFields_present {fields : Fields} (distinct : fields.names.Nodup) {record renewed : R}
    (built : ofFields fields = .ok record) (again : ofFields fields.present = .ok renewed) {field : Field}
    (mem : field ∈ (schema R).fields) :
    shown renewed field.name =
      if fields.get? field.name = some .null then preset R field.name else shown record field.name := by
  rw [shown_of_ofFields built mem, shown_of_ofFields again mem, Fields.get?_present distinct]
  cases fields.get? field.name with
  | none => rfl
  | some value =>
    by_cases null : value = .null
    · rw [null, if_pos rfl]
      rfl
    · rw [Option.filter_some, Value.isNull_eq_false_iff.2 null, if_neg (fun same => null (Option.some.inj same))]
      rfl

/-- A field that the map held as `null` stays absent unless it has a preset. -/
theorem get_of_ofFields_present {fields : Fields} (distinct : fields.names.Nodup) {record renewed : R}
    (built : ofFields fields = .ok record) (again : ofFields fields.present = .ok renewed) {field : Field}
    (mem : field ∈ (schema R).fields) :
    get renewed field.name =
      if field.name ∈ (layout : Layout (Row R)).presets.names ∧ fields.get? field.name = some .null then
        .ok (preset R field.name)
      else get record field.name := by
  rw [get_of_mem mem, get_of_mem mem, shown_of_ofFields_present distinct built again mem]
  by_cases null : fields.get? field.name = some .null
  · by_cases listed : field.name ∈ (layout : Layout (Row R)).presets.names
    · rw [if_pos null, if_pos ⟨listed, null⟩]
    · have unset : preset R field.name = .null := by
        by_contra present
        exact listed (preset_ne_null_iff.1 present)
      rw [if_pos null, if_neg (fun both => listed both.1), shown_of_ofFields built mem, null, Field.settle_null, unset]
  · rw [if_neg null, if_neg (fun both => null both.2)]

/-- A map in which nothing with a preset is `null` builds the same record without its absences. -/
theorem ofFields_present {fields : Fields} (distinct : fields.names.Nodup) {record : R}
    (built : ofFields fields = .ok record)
    (unset : ∀ name ∈ (layout : Layout (Row R)).presets.names, fields.get? name ≠ some .null) :
    ofFields fields.present = .ok record := by
  obtain ⟨renewed, again⟩ := exists_ofFields_present distinct built
  have same : renewed = record := by
    refine ext_shown fun field mem => ?_
    rw [shown_of_ofFields_present distinct built again mem]
    by_cases null : fields.get? field.name = some .null
    · rw [if_pos null, shown_of_ofFields built mem, null, Field.settle_null]
      by_contra present
      exact unset field.name (preset_ne_null_iff.1 present) null
    · rw [if_neg null]
  rw [again, same]

/-- A renewed record has the presets where the record showed nothing. -/
theorem shown_of_renew {record renewed : R} (again : renew record = .ok renewed) {field : Field}
    (mem : field ∈ (schema R).fields) :
    shown renewed field.name =
      if shown record field.name = .null then preset R field.name else shown record field.name := by
  rw [shown_of_ofFields_present (nodup_names_dump record) (ofFields_dump record) again mem]
  cases held : (dump record).get? field.name with
  | some value => simp [shown, held]
  | none =>
    -- only a record that leaves absences out lacks a name, and it has no presets
    have settled := shown_eq_settle record mem
    rw [held, Field.settle_none] at settled
    rw [if_neg (by simp), settled]
    split <;> simp_all

theorem exists_renew (record : R) : ∃ renewed, renew record = .ok renewed :=
  exists_ofFields_present (nodup_names_dump record) (ofFields_dump record)

/-- Renewing changes a record exactly when something with a preset is absent from it. -/
theorem renew_eq_self_iff (record : R) :
    renew record = .ok record ↔
      ∀ name ∈ (layout : Layout (Row R)).presets.names, shown record name ≠ .null := by
  constructor
  · intro again name listed absent
    obtain ⟨field, mem, rfl⟩ := exists_field_of_preset listed
    have preset := shown_of_renew again mem
    rw [if_pos absent, absent] at preset
    exact preset_ne_null_iff.2 listed preset.symm
  · intro present
    refine ofFields_present (nodup_names_dump record) (ofFields_dump record) fun name listed held => ?_
    apply present name listed
    rw [shown, held]
    rfl

/-- A renewed record shows its presets, so renewing it again changes nothing. -/
theorem renew_of_renew {record renewed : R} (again : renew record = .ok renewed) : renew renewed = .ok renewed := by
  refine (renew_eq_self_iff renewed).2 fun name listed => ?_
  obtain ⟨field, mem, rfl⟩ := exists_field_of_preset listed
  rw [shown_of_renew again mem]
  split
  case isTrue => exact preset_ne_null_iff.2 listed
  case isFalse present => exact present

end Record

/-- **Taking the absences out of a map changes no verdict, and a record only through
presets.** A schema that declares all names of a map judges it alike without them. Of
every sort, what was built from a map is built again, with the preset of each field
that the map held as `null` and nothing else changed, so that a shape does not change
at all. Renewing a record always succeeds, comes to rest after one step, and changes
the record exactly when something with a preset is absent from it. -/
theorem absences_do_not_count :
    (∀ (schema : Schema) (fields : Fields), fields.names.Nodup →
      (∀ name ∈ fields.names, schema.declares name = true) → schema.validate fields.present = schema.validate fields) ∧
    (∀ (sort : RecordSort) (fields : Fields) (record : sort.Carrier), fields.names.Nodup →
      Record.ofFields fields = .ok record →
      (∃ renewed : sort.Carrier, Record.ofFields fields.present = .ok renewed ∧
        ∀ field ∈ (Record.schema sort.Carrier).fields, Record.get renewed field.name =
          if field.name ∈ sort.presets.names ∧ fields.get? field.name = some .null then
            .ok ((sort.presets.get? field.name).getD .null)
          else Record.get record field.name) ∧
      ((∀ name ∈ sort.presets.names, fields.get? name ≠ some .null) → Record.ofFields fields.present = .ok record) ∧
      (sort.family = .submission → Record.ofFields fields.present = .ok record)) ∧
    (∀ (sort : RecordSort) (record : sort.Carrier),
      (∃ renewed : sort.Carrier, Record.renew record = .ok renewed ∧ Record.renew renewed = .ok renewed) ∧
      (Record.renew record = .ok record ↔ ∀ name ∈ sort.presets.names, Record.get record name ≠ .ok .null)) ∧
    ∀ fields : Fields, fields.present.Sublist fields ∧
      (∀ entry, entry ∈ fields.present ↔ entry ∈ fields ∧ entry.2 ≠ .null) ∧
      fields.present.present = fields.present ∧ (fields.present = fields ↔ fields.isNormal = true) := by
  refine ⟨fun schema fields distinct declared => Schema.validate_present distinct declared,
    fun sort fields record distinct built => ?_, fun sort record => ?_, fun fields => ?_⟩
  · have unchanged : (∀ name ∈ sort.presets.names, fields.get? name ≠ some .null) →
        Record.ofFields fields.present = .ok record := by
      rw [← sort.presets_layout]
      exact Record.ofFields_present distinct built
    obtain ⟨renewed, again⟩ := Record.exists_ofFields_present distinct built
    refine ⟨⟨renewed, again, fun field mem => ?_⟩, unchanged, fun shape => unchanged ?_⟩
    · rw [← RecordSort.preset_carrier, ← sort.presets_layout]
      exact Record.get_of_ofFields_present distinct built again mem
    · rw [RecordSort.presets_of_submission shape]
      exact nofun
  · obtain ⟨renewed, again⟩ := Record.exists_renew record
    refine ⟨⟨renewed, again, Record.renew_of_renew again⟩, ?_⟩
    rw [Record.renew_eq_self_iff, sort.presets_layout]
    refine forall₂_congr fun name listed => ?_
    rw [← sort.presets_layout] at listed
    obtain ⟨field, mem, rfl⟩ := Record.exists_field_of_preset listed
    rw [Record.get_of_mem mem, ne_eq, ne_eq, Except.ok.injEq]
  · exact ⟨List.filter_sublist, fun entry => Fields.mem_present, fields.present_present, Fields.present_eq_self_iff⟩

theorem absences_do_not_count_cleared :
    let cleared := [("volume_size_in_gb", Value.null), ("instance_type", .string "ml.m5"), ("instance_count", .null)]
    Submission.Tag.schema.validate (Fields.present [("value", .integer 1), ("key", .null)]) =
        .error (.mistyped "Tag" [.field "key"] "string" "nothing") ∧
      Record.ofFields cleared = .ok ({ instanceType := some "ml.m5", volumeSizeInGb := none } : Settings.Compute) ∧
      (∃ renewed : Settings.Compute, Record.ofFields (Fields.present cleared) = .ok renewed ∧
        Record.get renewed "volume_size_in_gb" = .ok (.integer 30) ∧
        Record.get renewed "instance_count" = .ok .null) ∧
      Record.ofFields (Fields.present [("local_path", .null), ("s3_uri", .string "s3://results")]) =
        .ok (⟨"s3://results", none⟩ : Submission.CheckpointConfig) := by
  intro cleared
  have built : Record.ofFields cleared =
      .ok ({ instanceType := some "ml.m5", volumeSizeInGb := none } : Settings.Compute) := rfl
  obtain ⟨verdicts, records, -⟩ := absences_do_not_count
  refine ⟨?_, built, ?_, ?_⟩
  · exact (verdicts Submission.Tag.schema [("value", .integer 1), ("key", .null)] (by decide) (by decide)).trans rfl
  · obtain ⟨renewed, again, shows⟩ := (records .compute cleared _ (by decide) built).1
    refine ⟨renewed, again, ?_, ?_⟩
    · exact (shows (.optional "volume_size_in_gb" .integer) (.tail _ (.tail _ (.head _)))).trans rfl
    · exact (shows (.optional "instance_count" .integer) (.tail _ (.head _))).trans rfl
  · exact (records .checkpointShape [("local_path", .null), ("s3_uri", .string "s3://results")]
      ⟨"s3://results", none⟩ (by decide) rfl).2.2 rfl

end TrainingJob
