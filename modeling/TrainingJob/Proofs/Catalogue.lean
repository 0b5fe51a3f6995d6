import TrainingJob.Catalogue
import TrainingJob.Proofs.Record.Lawful

/-!
# Every record is lawful

All sorts of the catalogue are lawful records, and all shapes among them may be
nested. The one codec made by hand is that of a data location: its three kinds
exclude each other, since each shape requires a name that the other does not
declare, so the first kind that fits is the only one.

What differs from sort to sort is a table here: the presets
(`RecordSort.presets`) and the way of showing absence (`RecordSort.absence`).
-/

set_option autoImplicit false

namespace TrainingJob

open Json

section Shapes

open Submission Record

instance : LawfulShape InstanceGroup where
instance : LawfulShape ResourceConfig where
instance : LawfulShape VpcConfig where
instance : LawfulShape OutputDataConfig where
instance : LawfulShape TensorBoardOutputConfig where
instance : LawfulShape CheckpointConfig where
instance : LawfulShape S3DataSource where
instance : LawfulShape FileSystemDataSource where
instance : LawfulShape DataSource where
instance : LawfulShape ShuffleConfig where
instance : LawfulShape Channel where
instance : LawfulShape StoppingCondition where
instance : LawfulShape RetryStrategy where
instance : LawfulShape TrainingRepositoryAuthConfig where
instance : LawfulShape TrainingImageConfig where
instance : LawfulShape Tag where
instance : LawfulShape MetricDefinition where
instance : LawfulShape InfraCheckConfig where
instance : LawfulShape RemoteDebugConfig where
instance : LawfulShape SessionChainingConfig where

end Shapes

namespace Settings

open Submission Record

namespace DataLocation

/-- What is shown for a file system cannot be read as a source in an object store. -/
theorem decode?_s3DataSource_dump (source : FileSystemDataSource) :
    (decode? (dump source) : Option S3DataSource) = none := by
  have required : Field.required "s3_data_type" .string ∈ S3DataSource.schema.fields := by
    simp [S3DataSource.schema]
  have rejects : S3DataSource.schema.fault? (dump source) ≠ none :=
    Schema.fault?_ne_none_of_requires (fault?_dump source) (by decide) required rfl
  rw [← Option.not_isSome_iff_eq_none, isSome_decode?_iff]
  exact rejects

/-- The kinds are tried in turn. -/
theorem decode_eq_or (value : Value) :
    codec.decode value =
      ((Codec.string.decode value).map uri).or
        ((((Codec.shape S3DataSource).decode value).map s3).or
          (((Codec.shape FileSystemDataSource).decode value).map fileSystem)) := by
  simp only [codec, Option.orElse_eq_orElse, Option.orElse_eq_or]

/-- A location is read as one of its kinds, when the kinds before it do not fit. -/
theorem of_decode {value : Value} {location : DataLocation} (read : codec.decode value = some location) :
    (∃ text, location = uri text ∧ Codec.string.decode value = some text) ∨
    (∃ source, location = s3 source ∧ Codec.string.decode value = none ∧
      (Codec.shape S3DataSource).decode value = some source) ∨
    (∃ source, location = fileSystem source ∧ Codec.string.decode value = none ∧
      (Codec.shape S3DataSource).decode value = none ∧
      (Codec.shape FileSystemDataSource).decode value = some source) := by
  rw [decode_eq_or, Option.or_eq_some_iff, Option.or_eq_some_iff] at read
  simp only [Option.map_eq_some_iff, Option.map_eq_none_iff] at read
  rcases read with ⟨text, isText, rfl⟩ | ⟨noText, ⟨source, object, rfl⟩ | ⟨noObject, source, file, rfl⟩⟩
  · exact .inl ⟨text, rfl, isText⟩
  · exact .inr (.inl ⟨source, rfl, noText, object⟩)
  · exact .inr (.inr ⟨source, rfl, noText, noObject, file⟩)

instance lawful_codec : codec.Lawful where
  isSome_decode_iff value := by
    have text := Codec.lawful_string.isSome_decode_iff value
    have object := (Codec.lawful_shape (R := S3DataSource)).isSome_decode_iff value
    have file := (Codec.lawful_shape (R := FileSystemDataSource)).isSome_decode_iff value
    rw [decode_eq_or, codec, FieldType.fault?_oneOf_eq_none_iff]
    simp only [Option.isSome_or, Option.isSome_map, Bool.or_eq_true, List.mem_cons, List.not_mem_nil, or_false,
      exists_eq_or_imp, exists_eq_left]
    rw [text, object, file]
    rfl
  decode_encode location := by
    rw [decode_eq_or]
    cases location with
    | uri text => rfl
    | s3 source =>
      have read : (Codec.shape S3DataSource).decode (codec.encode (s3 source)) = some source :=
        Codec.Lawful.decode_encode source
      rw [read]
      rfl
    | fileSystem source =>
      have unread : (Codec.shape S3DataSource).decode (codec.encode (fileSystem source)) = none :=
        decode?_s3DataSource_dump source
      have read : (Codec.shape FileSystemDataSource).decode (codec.encode (fileSystem source)) = some source :=
        Codec.Lawful.decode_encode source
      rw [unread, read]
      rfl
  encode_of_decode := by
    intro value location read
    show codec.encode location =
      (FieldType.oneOf
        [Codec.string.type, (Codec.shape S3DataSource).type, (Codec.shape FileSystemDataSource).type]).tidy value
    rw [FieldType.tidy_oneOf]
    rcases of_decode read with ⟨text, rfl, isText⟩ | ⟨source, rfl, noText, object⟩ |
      ⟨source, rfl, noText, noObject, file⟩
    · have accepts := Codec.Lawful.accepts_of_decode isText
      rw [FieldType.tidyAmong_cons_of_accepts accepts]
      exact Codec.Lawful.encode_of_decode isText
    · have rejectsText := Codec.Lawful.rejects_of_decode noText
      have accepts := Codec.Lawful.accepts_of_decode object
      rw [FieldType.tidyAmong_cons_of_rejects rejectsText, FieldType.tidyAmong_cons_of_accepts accepts]
      exact Codec.Lawful.encode_of_decode object
    · have rejectsText := Codec.Lawful.rejects_of_decode noText
      have rejectsObject := Codec.Lawful.rejects_of_decode noObject
      have accepts := Codec.Lawful.accepts_of_decode file
      rw [FieldType.tidyAmong_cons_of_rejects rejectsText, FieldType.tidyAmong_cons_of_rejects rejectsObject,
        FieldType.tidyAmong_cons_of_accepts accepts]
      exact Codec.Lawful.encode_of_decode file
  spellable location := by
    cases location with
    | uri text => exact .string text
    | s3 source =>
      have fits : (codec.encode (s3 source)).Spellable (Codec.shape S3DataSource).type.depth :=
        Codec.Lawful.spellable source
      exact fits.mono (FieldType.depth_le_deepest (.tail _ (.head _)))
    | fileSystem source =>
      have fits : (codec.encode (fileSystem source)).Spellable (Codec.shape FileSystemDataSource).type.depth :=
        Codec.Lawful.spellable source
      exact fits.mono (FieldType.depth_le_deepest (.tail _ (.tail _ (.head _))))

end DataLocation

instance : Lawful SourceCode where
instance : Lawful Compute where
instance : Lawful Networking where
instance : Lawful InputData where
instance : Lawful OutputDataConfig where
instance : Lawful TensorBoardOutputConfig where
instance : Lawful CheckpointConfig where

end Settings

namespace RecordSort

instance (sort : RecordSort) : Record.Lawful sort.Carrier := by
  cases sort <;> (dsimp only [Carrier]; infer_instance)

/-- The fields that have a value when they are omitted, with that value. -/
def presets : RecordSort → Fields
  | .sourceCode => [("ignore_patterns", .list [.string ".env", .string ".git", .string "__pycache__",
      .string ".DS_Store", .string ".cache", .string ".ipynb_checkpoints"])]
  | .compute => [("volume_size_in_gb", .integer 30)]
  | .tensorBoard => [("local_path", .string "/opt/ml/output/tensorboard")]
  | .checkpoint => [("local_path", .string "/opt/ml/checkpoints")]
  | _ => []

theorem presets_layout (sort : RecordSort) : (Record.layout (R := sort.Carrier)).presets = sort.presets := by
  cases sort <;> rfl

/-- Settings show an absent part as `null`, shapes leave it out. -/
def absence (sort : RecordSort) : Absence :=
  match sort.family with
  | .settings => .asNull
  | .submission => .leftOut

theorem absence_carrier (sort : RecordSort) : Record.absence sort.Carrier = sort.absence := by
  cases sort <;> rfl

theorem depth_le_maxDepth (sort : RecordSort) :
    (FieldType.shape (Record.schema sort.Carrier)).depth ≤ Reader.maxDepth := by
  cases sort <;> decide

end RecordSort

end TrainingJob
