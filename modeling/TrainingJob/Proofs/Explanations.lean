import TrainingJob.Proofs.Diagnosis
import TrainingJob.Proofs.Documents
import TrainingJob.Proofs.Record.Projection
import TrainingJob.Proofs.Schema.Integers

/-!
# Errors that explain themselves

An error about a value says what was expected and what was found instead. The first
is the description of a type, the second a word for the kind of the value, and an
error explains nothing when the two are one text.

No schema of the catalogue is named like a kind of values, and no choice is described
like one (`RecordSort.isTelling`). So the two texts are one in a single case
(`FieldType.describe_eq_kind_iff`): a number that an unsigned 64-bit word holds and a
signed one does not is called an integer, and an integer field refuses it. Narrowing
does not come to that case, because the numbers that a record shows fit
(`FieldType.reaches_of_accepts`).
-/

set_option autoImplicit false

namespace TrainingJob

open Json

/-- The words that an error has for what was found. -/
def foundWords : List String :=
  "nothing" :: [Kind.null, .boolean, .integer, .number, .string, .list, .object].map Kind.name

theorem Json.Kind.name_mem_foundWords (kind : Kind) : kind.name ∈ foundWords := by
  cases kind <;> decide

/-- The type is a scalar, or is not described by a word for what was found. -/
def FieldType.tells : FieldType → Bool
  | .string | .integer | .boolean => true
  | type => !foundWords.contains type.describe

theorem RecordSort.isTelling (sort : RecordSort) :
    (FieldType.shape (Record.schema sort.Carrier)).throughout FieldType.tells = true := by
  cases sort <;> decide +kernel

namespace FieldType

/-- Only the names of scalars are both descriptions and words for what was found. -/
theorem of_describe_mem_foundWords {declared : FieldType} (telling : declared.tells = true)
    (word : declared.describe ∈ foundWords) : declared = .string ∨ declared = .integer ∨ declared = .boolean := by
  cases declared with
  | string => exact .inl rfl
  | integer => exact .inr (.inl rfl)
  | boolean => exact .inr (.inr rfl)
  | _ => simp_all [tells]

/-- **A type is described like the kind of a value that it refuses in one case only.** -/
theorem describe_eq_kind_iff {declared : FieldType} (telling : declared.tells = true) {part : Value}
    (rejects : declared.fault? part ≠ none) :
    declared.describe = part.kind.name ↔ declared = .integer ∧ ∃ n, ¬ FitsWord n ∧ part = .integer n := by
  constructor
  · intro same
    have scalar := of_describe_mem_foundWords telling (same ▸ part.kind.name_mem_foundWords)
    rcases scalar with rfl | rfl | rfl
    · cases part with
      | string s => exact absurd rfl rejects
      | _ => simp [describe, Value.kind, Kind.name] at same
    · cases part with
      | integer n =>
        refine ⟨rfl, n, fun fits => rejects ?_, rfl⟩
        exact fault?_integer_eq_none_iff.2 ⟨n, fits, rfl⟩
      | _ => simp [describe, Value.kind, Kind.name] at same
    · cases part with
      | boolean b => exact absurd rfl rejects
      | _ => simp [describe, Value.kind, Kind.name] at same
  · rintro ⟨rfl, n, -, rfl⟩
    rfl

theorem describe_ne_nothing {declared : FieldType} (telling : declared.tells = true) :
    declared.describe ≠ "nothing" := by
  intro same
  rcases of_describe_mem_foundWords telling (same ▸ .head _) with rfl | rfl | rfl <;> exact absurd same (by decide)

end FieldType

namespace Schema

/-- An integer field has an integer that a signed 64-bit word does not hold. -/
def HoldsTooWide (schema : Schema) (value : Value) (place : Location) : Prop :=
  (FieldType.shape schema).at? place = some .integer ∧ ∃ n, ¬ FitsWord n ∧ value.at? place = some (.integer n)

/-- What is expected and what is found differ, except for an integer that is too wide. -/
theorem expected_eq_found_iff {schema : Schema} (clear : (FieldType.shape schema).isClear = true)
    (telling : (FieldType.shape schema).throughout FieldType.tells = true) {fields : Fields} {name expected found : String}
    {place : Location} (rejected : schema.validate fields = .error (.mistyped name place expected found)) :
    expected = found ↔ schema.HoldsTooWide (.object fields) place := by
  obtain ⟨-, -, declared, reached, rfl, wrong⟩ := of_validate_mistyped clear rejected
  have tells := FieldType.check_of_throughout (FieldType.throughout_of_at? telling reached)
  rcases wrong with ⟨part, held, refused, rfl, -⟩ | ⟨parent, inner, field, members, rfl, -, -, -, holds, absent, rfl⟩
  · rw [← FieldType.fault?_eq_none_iff_admits] at refused
    rw [FieldType.describe_eq_kind_iff tells refused, HoldsTooWide, reached, held]
    simp only [Option.some.injEq]
  · -- an absent field has no integer
    refine ⟨fun same => absurd same (FieldType.describe_ne_nothing tells), ?_⟩
    rintro ⟨-, n, -, held⟩
    rw [Value.at?_append, holds, Option.bind_some] at held
    have read : members.get? field.name = some (.integer n) := by
      obtain ⟨part, here, same⟩ := Option.bind_eq_some_iff.1 held
      cases same
      exact here
    rw [read] at absent
    cases absent

end Schema

namespace Record

variable {R : Type} [Record R]

/-- What refuses an assignment refuses the record with the value in its place. -/
theorem validate_insert_of_set [Lawful R] {record : R} {name : String} {value : Value} {error : Error}
    (refused : set record name value = .error error) :
    (schema R).validate ((dump record).insert name value) = .error error := by
  rw [Schema.validate_insert nodup_fieldNames (fault?_dump record), ← outcome_set record, refused]
  rfl

/-- The integers that a narrowing passes on are integers of the source, which fit. -/
theorem fitsWord_of_shared {S T : Type} [Record S] [Record T] [Lawful S] {source : S} {place : Location} {n : Int}
    (held : (Value.object (shared T source)).at? place = some (.integer n)) : FitsWord n := by
  have accepts : (FieldType.shape (schema S)).fault? (.object (dump source)) = none := by
    rw [FieldType.fault?_shape_eq_none_iff]
    exact ⟨_, rfl, fault?_dump source⟩
  cases place with
  | nil => cases held
  | cons step rest =>
    obtain ⟨part, here, onwards⟩ := Option.bind_eq_some_iff.1 held
    cases step with
    | index position => cases here
    | field name =>
      have inDump := (mem_shared.1 (Fields.mem_of_get? here)).1
      have read : (Value.object (dump source)).part? (.field name) = some part :=
        (Fields.mem_iff_get? (nodup_names_dump source)).1 inDump
      have there : (Value.object (dump source)).at? (.field name :: rest) = some (.integer n) := by
        rw [Value.at?, read]
        exact onwards
      exact (FieldType.reaches_of_accepts accepts there).2

end Record

namespace RecordSort

variable {sort : RecordSort} {name expected found : String} {place : Location}

theorem explained_ofFields {fields : Fields}
    (refused : (Record.ofFields fields : Except Error sort.Carrier) = .error (.mistyped name place expected found)) :
    expected = found ↔ (Record.schema sort.Carrier).HoldsTooWide (.object fields) place :=
  Schema.expected_eq_found_iff sort.isClear sort.isTelling (Record.ofFields_eq_error_iff.1 refused)

/-- A value that is no object is not said to be one. -/
theorem explained_ofValue {value : Value}
    (refused : (Record.ofValue value : Except Error sort.Carrier) = .error (.mistyped name place expected found)) :
    expected = found ↔ (Record.schema sort.Carrier).HoldsTooWide value place := by
  cases value with
  | object members => exact explained_ofFields refused
  | _ =>
    cases refused
    constructor
    · intro same
      simp [Value.kind, Kind.name] at same
    · rintro ⟨-, n, -, held⟩
      cases held

theorem explained_ofText {text : String}
    (refused : (Record.ofText text : Except Error sort.Carrier) = .error (.mistyped name place expected found)) :
    ∃ value, Value.ofText? text = some value ∧
      (expected = found ↔ (Record.schema sort.Carrier).HoldsTooWide value place) := by
  rw [Record.ofText] at refused
  cases read : Value.ofText? text with
  | none =>
    rw [read] at refused
    cases refused
  | some value =>
    rw [read] at refused
    exact ⟨value, rfl, explained_ofValue refused⟩

/-- **Errors explain themselves**, but for one case. However a record was to be built, read
or changed, when a value is refused for its type, what the error says was expected is what
it says was found exactly if the value at the place it names is an integer that a signed
64-bit word does not hold, in an integer field. A narrowing always tells the two apart. -/
theorem explained_unless_tooWide (sort : RecordSort) :
    (∀ text name place expected found,
      (Record.ofText text : Except Error sort.Carrier) = .error (.mistyped name place expected found) →
      ∃ value, Value.ofText? text = some value ∧
        (expected = found ↔ (Record.schema sort.Carrier).HoldsTooWide value place)) ∧
    (∀ value name place expected found,
      (Record.ofValue value : Except Error sort.Carrier) = .error (.mistyped name place expected found) →
      (expected = found ↔ (Record.schema sort.Carrier).HoldsTooWide value place)) ∧
    (∀ fields name place expected found,
      (Record.ofFields fields : Except Error sort.Carrier) = .error (.mistyped name place expected found) →
      (expected = found ↔ (Record.schema sort.Carrier).HoldsTooWide (.object fields) place)) ∧
    (∀ (record : sort.Carrier) field value name place expected found,
      Record.set record field value = .error (.mistyped name place expected found) →
      (expected = found ↔
        (Record.schema sort.Carrier).HoldsTooWide (.object ((Record.dump record).insert field value)) place)) ∧
    ∀ (target : RecordSort) (record : sort.Carrier) source narrowed name place expected found,
      Record.project target.Carrier record =
        .error (.unprojectable source narrowed (.mistyped name place expected found)) → expected ≠ found := by
  refine ⟨fun _ _ _ _ _ => explained_ofText, fun _ _ _ _ _ => explained_ofValue,
    fun _ _ _ _ _ => explained_ofFields, ?_, ?_⟩
  · intro record field value name place expected found refused
    exact Schema.expected_eq_found_iff sort.isClear sort.isTelling (Record.validate_insert_of_set refused)
  · intro target record source narrowed name place expected found failed same
    obtain ⟨-, cause, rejected, wrapped⟩ := Record.project_eq_error_iff.1 failed
    cases wrapped
    obtain ⟨-, n, wide, held⟩ := (Schema.expected_eq_found_iff target.isClear target.isTelling rejected).1 same
    exact wide (Record.fitsWord_of_shared held)

theorem explained_unless_tooWide_compute :
    (∃ value, Value.ofText? "\x7b\"instance_count\": 9223372036854775808\x7d" = some value ∧
      Settings.Compute.schema.HoldsTooWide value [.field "instance_count"]) ∧
    (¬ Settings.Compute.schema.HoldsTooWide (.string "ml.m5") Record.wholeRecord) ∧
    (¬ Settings.Compute.schema.HoldsTooWide (.object [("instance_count", .string "2")]) [.field "instance_count"]) ∧
    Settings.Compute.schema.HoldsTooWide
      (.object ((Record.dump ({} : Settings.Compute)).insert "instance_groups" (.list [.object
        [("instance_type", .string "ml.m5"), ("instance_count", .integer 18446744073709551615),
          ("instance_group_name", .string "gpu")]])))
      [.field "instance_groups", .index 0, .field "instance_count"] ∧
    Record.project Submission.InstanceGroup ({ instanceCount := some 2 } : Settings.Compute) =
      .error (.unprojectable "Compute" "InstanceGroup"
        (.mistyped "InstanceGroup" [.field "instance_type"] "string" "nothing")) ∧
    "string" ≠ "nothing" := by
  obtain ⟨texts, values, maps, assignments, narrowings⟩ := explained_unless_tooWide .compute
  have failed : Record.project Submission.InstanceGroup ({ instanceCount := some 2 } : Settings.Compute) =
      .error (.unprojectable "Compute" "InstanceGroup"
        (.mistyped "InstanceGroup" [.field "instance_type"] "string" "nothing")) := rfl
  refine ⟨?_, ?_, ?_, ?_, failed, narrowings .instanceGroup _ _ _ _ _ _ _ failed⟩
  · have denotes : Value.ofText? "\x7b\"instance_count\": 9223372036854775808\x7d" =
        some (.object [("instance_count", .integer 9223372036854775808)]) := by decide +kernel
    obtain ⟨value, read, told⟩ := texts _ "Compute" [.field "instance_count"] "integer" "integer"
      ((Record.ofText_of_object denotes).trans rfl)
    exact ⟨value, read, told.1 rfl⟩
  · exact fun wide => absurd ((values (.string "ml.m5") _ _ "object" "string" rfl).2 wide) (by decide)
  · exact fun wide => absurd ((maps [("instance_count", .string "2")] _ _ "integer" "string" rfl).2 wide) (by decide)
  · exact (assignments {} "instance_groups" _ "Compute" _ "integer" "integer" rfl).1 rfl

/-- An integer field that is given `2 ^ 63` expects an integer and finds an integer. -/
theorem ofText_tooWide :
    (Record.ofText "\x7b\"volume_size_in_gb\": 9223372036854775808\x7d" : Except Error Settings.Compute) =
        .error (.mistyped "Compute" [.field "volume_size_in_gb"] "integer" "integer") ∧
      ¬ ∀ (sort : RecordSort) text name place expected found,
        (Record.ofText text : Except Error sort.Carrier) = .error (.mistyped name place expected found) →
          expected ≠ found := by
  have denotes : Value.ofText? "\x7b\"volume_size_in_gb\": 9223372036854775808\x7d" =
      some (.object [("volume_size_in_gb", .integer 9223372036854775808)]) := by decide +kernel
  have refused : (Record.ofText "\x7b\"volume_size_in_gb\": 9223372036854775808\x7d" :
      Except Error Settings.Compute) = .error (.mistyped "Compute" [.field "volume_size_in_gb"] "integer" "integer") :=
    (Record.ofText_of_object denotes).trans rfl
  exact ⟨refused, fun explained => explained .compute _ _ _ _ _ refused rfl⟩

end RecordSort

end TrainingJob
