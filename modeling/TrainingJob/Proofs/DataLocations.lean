import Mathlib.Data.List.Pairwise
import TrainingJob.Proofs.Documents
import TrainingJob.Proofs.Record.Assignment

/-!
# Where the data of an input lie

No tag says which kind of location a value is, and none is needed: the kinds exclude
each other (`DataLocation.apart_kinds`), so that of every value that is accepted one
kind is the only one, and what is read is a location of that kind with the contents
of the value (`DataLocation.decode_eq_some_iff`). It makes no difference which way an
input was built (`InputData.dataSource_unambiguous`).
-/

set_option autoImplicit false

namespace TrainingJob

open Json

namespace Record

variable {R : Type} [Record R]

/-- Under every declared name a record reads as an object does, where missing and `null` are one. -/
def Holds (record : R) (members : Fields) : Prop :=
  ∀ field ∈ (schema R).fields, get record field.name = .ok ((members.get? field.name).getD .null)

variable [Lawful R]

/-- A record without nested objects and presets holds what it was built from. -/
theorem holds_of_ofFields (leftOut : absence R = .leftOut)
    (flat : ∀ field ∈ (schema R).fields, field.type.isFlat = true) {members : Fields} {record : R}
    (built : ofFields members = .ok record) : Holds record members := by
  intro field mem
  rw [get_of_mem mem, shown_of_ofFields built mem, preset_of_leftOut leftOut,
    Field.settle_of_isFlat (flat field mem)]

/-- An object says all about the record that holds it. -/
theorem Holds.unique {record other : R} {members : Fields} (holds : Holds record members)
    (otherHolds : Holds other members) : record = other := by
  refine ext_shown fun field mem => ?_
  have same : get record field.name = get other field.name := by rw [holds field mem, otherHolds field mem]
  rw [get_of_mem mem, get_of_mem mem] at same
  exact Except.ok.inj same

end Record

namespace Settings

open Submission

namespace DataLocation

/-- The kinds that a location may be of. -/
def kinds : List FieldType := [.string, .shape S3DataSource.schema, .shape FileSystemDataSource.schema]

def kind : DataLocation → FieldType
  | uri _ => .string
  | s3 _ => .shape S3DataSource.schema
  | fileSystem _ => .shape FileSystemDataSource.schema

/-- A location has the contents of a value: the text, or the members of the object. -/
inductive Holds : DataLocation → Value → Prop where
  | uri (text : String) : Holds (uri text) (.string text)
  | s3 {source : S3DataSource} {members : Fields} (holds : Record.Holds source members) :
      Holds (s3 source) (.object members)
  | fileSystem {source : FileSystemDataSource} {members : Fields} (holds : Record.Holds source members) :
      Holds (fileSystem source) (.object members)

/-- A value is of the kind of a location and of no other kind, and the location has its contents. -/
structure DenotedBy (location : DataLocation) (value : Value) : Prop where
  accepts : location.kind.fault? value = none
  only : ∀ kind ∈ kinds, kind.fault? value = none → kind = location.kind
  holds : location.Holds value

theorem kind_mem_kinds (location : DataLocation) : location.kind ∈ kinds := by
  cases location <;> simp [kind, kinds]

/-- The kinds exclude each other. The two shapes each require what the other does not declare. -/
theorem apart_kinds : kinds.Pairwise FieldType.Excludes := by
  have required : Field.required "s3_data_type" .string ∈ S3DataSource.schema.fields := .head _
  have shapes : (FieldType.shape S3DataSource.schema).Excludes (.shape FileSystemDataSource.schema) :=
    (FieldType.Excludes.shape_of_requires (by decide) required rfl).symm
  simp [kinds, shapes, FieldType.Excludes.string_shape]

theorem kind_eq_of_accepts {kind other : FieldType} (mem : kind ∈ kinds) (otherMem : other ∈ kinds) {value : Value}
    (accepts : kind.fault? value = none) (otherAccepts : other.fault? value = none) : kind = other := by
  by_contra distinct
  exact apart_kinds.forall mem otherMem distinct value accepts otherAccepts

theorem denotedBy_of_decode {value : Value} {location : DataLocation} (read : codec.decode value = some location) :
    location.DenotedBy value := by
  obtain ⟨accepts, holds⟩ : location.kind.fault? value = none ∧ location.Holds value := by
    rcases of_decode read with ⟨text, rfl, isText⟩ | ⟨source, rfl, -, isObject⟩ | ⟨source, rfl, -, -, isObject⟩
    · have accepts := Codec.Lawful.accepts_of_decode isText
      obtain ⟨same, rfl⟩ := FieldType.fault?_string_eq_none_iff.1 accepts
      cases isText
      exact ⟨accepts, .uri text⟩
    · have accepts := Codec.Lawful.accepts_of_decode isObject
      obtain ⟨members, rfl, built⟩ := Codec.ofFields_of_decode_shape isObject
      exact ⟨accepts, .s3 (Record.holds_of_ofFields rfl (by decide) built)⟩
    · have accepts := Codec.Lawful.accepts_of_decode isObject
      obtain ⟨members, rfl, built⟩ := Codec.ofFields_of_decode_shape isObject
      exact ⟨accepts, .fileSystem (Record.holds_of_ofFields rfl (by decide) built)⟩
  exact ⟨accepts, fun kind mem fits => kind_eq_of_accepts mem location.kind_mem_kinds fits accepts, holds⟩

/-- A value denotes one location at most. -/
theorem DenotedBy.unique {location other : DataLocation} {value : Value} (denoted : location.DenotedBy value)
    (otherDenoted : other.DenotedBy value) : location = other := by
  have sameKind : other.kind = location.kind := denoted.only _ other.kind_mem_kinds otherDenoted.accepts
  have distinct : FieldType.shape S3DataSource.schema ≠ .shape FileSystemDataSource.schema := by decide
  cases denoted.holds with
  | uri text =>
    cases otherDenoted.holds
    rfl
  | s3 holds =>
    cases otherDenoted.holds with
    | s3 otherHolds => rw [holds.unique otherHolds]
    | fileSystem _ => exact absurd sameKind.symm distinct
  | fileSystem holds =>
    cases otherDenoted.holds with
    | s3 _ => exact absurd sameKind distinct
    | fileSystem otherHolds => rw [holds.unique otherHolds]

theorem DenotedBy.accepted {location : DataLocation} {value : Value} (denoted : location.DenotedBy value) :
    (FieldType.oneOf kinds).fault? value = none :=
  FieldType.fault?_oneOf_eq_none_iff.2 ⟨location.kind, location.kind_mem_kinds, denoted.accepts⟩

theorem exists_decode {value : Value} (accepted : (FieldType.oneOf kinds).fault? value = none) :
    ∃ location, codec.decode value = some location :=
  Option.isSome_iff_exists.1 ((lawful_codec.isSome_decode_iff value).2 accepted)

/-- **What is read from a value is the one location that it denotes.** -/
theorem decode_eq_some_iff {value : Value} {location : DataLocation} :
    codec.decode value = some location ↔ location.DenotedBy value := by
  refine ⟨denotedBy_of_decode, fun denoted => ?_⟩
  obtain ⟨other, read⟩ := exists_decode denoted.accepted
  rw [read, denoted.unique (denotedBy_of_decode read)]

end DataLocation

namespace InputData

open DataLocation

theorem dataSource_mem_schema : Field.required "data_source" (.oneOf kinds) ∈ (Record.schema InputData).fields :=
  .tail _ (.head _)

/-- An input shows its location as the location is shown. -/
theorem shown_dataSource (input : InputData) : Record.shown input "data_source" = codec.encode input.dataSource := rfl

theorem shown_channelName (input : InputData) : Record.shown input "channel_name" = .string input.channelName := rfl

/-- A location is known by the normal form that an input shows for it. -/
theorem dataSource_eq_of_shown {input : InputData} {value : Value} {location : DataLocation} {preset : Value}
    (denoted : location.DenotedBy value)
    (shown : Record.shown input "data_source" =
      (Field.required "data_source" (.oneOf kinds)).settle preset (some value)) : input.dataSource = location := by
  have same : codec.encode input.dataSource = codec.encode location := by
    rw [← shown_dataSource, shown, Codec.Lawful.encode_of_decode (decode_eq_some_iff.2 denoted),
      Field.settle_of_present (FieldType.ne_null_of_fault? denoted.accepts)]
    rfl
  exact Codec.Lawful.encode_injective same

theorem validateField_dataSource {value : Value} :
    (Record.schema InputData).validateField "data_source" value = .ok () ↔
      (FieldType.oneOf kinds).fault? value = none := by
  have found : (Record.schema InputData).field? "data_source" = some (.required "data_source" (.oneOf kinds)) := rfl
  rw [Schema.validateField_of_field? found, Schema.verdict_eq_ok_iff]
  exact Field.fault?_of_required rfl

theorem dataSource_of_ofFields {fields : Fields} {input : InputData} (built : Record.ofFields fields = .ok input)
    {value : Value} (held : fields.get? "data_source" = some value) {location : DataLocation}
    (denoted : location.DenotedBy value) : input.dataSource = location := by
  have shown : Record.shown input "data_source" = (Field.required "data_source" (.oneOf kinds)).settle
      (Record.preset InputData "data_source") (fields.get? "data_source") :=
    Record.shown_of_ofFields built dataSource_mem_schema
  rw [held] at shown
  exact dataSource_eq_of_shown denoted shown

/-- Assigning a location changes that part of an input and nothing else. -/
theorem set_dataSource (input : InputData) {value : Value} {location : DataLocation}
    (denoted : location.DenotedBy value) :
    Record.set input "data_source" value = .ok { input with dataSource := location } := by
  obtain ⟨next, done⟩ := Record.exists_set input (validateField_dataSource.2 denoted.accepted)
  have located : next.dataSource = location :=
    dataSource_eq_of_shown denoted (Record.shown_of_set done dataSource_mem_schema)
  have named : next.channelName = input.channelName := by
    have mem : Field.required "channel_name" .string ∈ (Record.schema InputData).fields := .head _
    have kept : Record.shown next "channel_name" = Record.shown input "channel_name" := Record.shown_of_set done mem
    rw [shown_channelName, shown_channelName] at kept
    exact Value.string.inj kept
  rw [done, ← located, ← named]

/-- **The location of an input is unambiguous.** A value that is accepted for it is of
exactly one of the kinds, and denotes one location, which is of that kind and has the
contents of the value. An input that is built from such a value, out of a field map, out
of a text or by assignment, has that location. And every input is built again from what
it shows, where its location is shown by a value that denotes it. -/
theorem dataSource_unambiguous :
    Field.required "data_source" (.oneOf kinds) ∈ (Record.schema InputData).fields ∧
    (∀ value : Value, (Record.schema InputData).validateField "data_source" value = .ok () →
      (∃! kind, kind ∈ kinds ∧ kind.fault? value = none) ∧ ∃! location : DataLocation, location.DenotedBy value) ∧
    (∀ (value : Value) (location : DataLocation), location.DenotedBy value →
      (∀ fields, fields.get? "data_source" = some value → (Record.schema InputData).validate fields = .ok () →
        ∃ input : InputData, input.dataSource = location ∧ Record.ofFields fields = .ok input ∧
          ∀ text, Value.ofText? text = some (.object fields) → Record.ofText text = .ok input) ∧
      ∀ input : InputData, Record.set input "data_source" value = .ok { input with dataSource := location }) ∧
    ∀ input : InputData,
      (∃ value, (Record.dump input).get? "data_source" = some value ∧ input.dataSource.DenotedBy value) ∧
      Record.ofFields (Record.dump input) = .ok input ∧ Record.ofText (Record.toText input) = .ok input := by
  refine ⟨dataSource_mem_schema, fun value accepted => ?_, fun value location denoted => ⟨?_, ?_⟩, fun input => ?_⟩
  · obtain ⟨location, read⟩ := exists_decode (validateField_dataSource.1 accepted)
    have denoted := denotedBy_of_decode read
    exact ⟨⟨location.kind, ⟨location.kind_mem_kinds, denoted.accepts⟩, fun kind held => denoted.only kind held.1 held.2⟩,
      location, denoted, fun other otherDenoted => otherDenoted.unique denoted⟩
  · intro fields held accepted
    obtain ⟨input, read⟩ := Option.isSome_iff_exists.1
      ((Record.isSome_decode?_iff (R := InputData) fields).2 (Schema.validate_eq_ok_iff.1 accepted))
    have built := Record.ofFields_of_decode? read
    refine ⟨input, dataSource_of_ofFields built held denoted, built, fun text denotes => ?_⟩
    rw [Record.ofText_of_object denotes, built]
  · exact fun input => set_dataSource input denoted
  · have read : codec.decode (codec.encode input.dataSource) = some input.dataSource :=
      Codec.Lawful.decode_encode input.dataSource
    have denoted := denotedBy_of_decode read
    have denotes := Record.ofText?_toText (R := InputData) (by decide) input
    refine ⟨⟨_, rfl, denoted⟩, Record.ofFields_dump input, ?_⟩
    rw [Record.ofText_of_object denotes, Record.ofFields_dump]

theorem dataSource_unambiguous_s3 :
    let value := Value.object
      [("s3_uri", .string "s3://b"), ("attribute_names", .null), ("s3_data_type", .string "S3Prefix")]
    let location := DataLocation.s3 (.ofPrefix "s3://b")
    let text := "\x7b\"data_source\":\x7b\"s3_uri\":\"s3://b\",\"attribute_names\":null," ++
      "\"s3_data_type\":\"S3Prefix\"\x7d,\"channel_name\":\"train\"\x7d"
    (∃! kind, kind ∈ kinds ∧ kind.fault? value = none) ∧ location.DenotedBy value ∧
      (∃ input : InputData, input.dataSource = location ∧ Record.ofText text = .ok input) ∧
      Record.set (⟨"train", .uri "data"⟩ : InputData) "data_source" value = .ok ⟨"train", location⟩ := by
  intro value location text
  have denoted : location.DenotedBy value := denotedBy_of_decode rfl
  have builds := dataSource_unambiguous.2.2.1 value location denoted
  refine ⟨(dataSource_unambiguous.2.1 value rfl).1, denoted, ?_, builds.2 ⟨"train", .uri "data"⟩⟩
  obtain ⟨input, located, -, loads⟩ :=
    builds.1 [("data_source", value), ("channel_name", .string "train")] rfl rfl
  exact ⟨input, located, loads text (by decide +kernel +zetaReduce)⟩

end InputData

end Settings

end TrainingJob
