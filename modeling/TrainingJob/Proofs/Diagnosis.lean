import TrainingJob.Proofs.Catalogue
import TrainingJob.Proofs.Schema.Conformance
import TrainingJob.Proofs.Schema.Places

/-!
# What an error says

The path of an error can be read back to one place, and that place is at fault in
the way the error says (`errors_point_at_places`). A mistyped value is not of the
type that is expected there, or nothing is there and something is required
(`Schema.of_validate_mistyped`). An undeclared name is one that the object above it
has and the schema above it does not declare (`Schema.of_validate_unknown`). Either
way the error names the record as a whole.

This holds for schemas whose names are distinct and plain on every level, which
those of all records are (`RecordSort.isClear`).
-/

set_option autoImplicit false

namespace TrainingJob

open Json

theorem RecordSort.isClear (sort : RecordSort) : (FieldType.shape (Record.schema sort.Carrier)).isClear = true := by
  cases sort <;> decide +kernel

/-- A name below a plain place is joined to the text of that place by a point, unless that
place is the record itself. -/
theorem Location.render_append_field {parent : Location} (plain : parent.IsPlain) (name : String) :
    render (parent ++ [.field name]) = if parent = [] then name else parent.render ++ "." ++ name := by
  have written : render (parent ++ [.field name]) = (Step.field name).extend parent.render := by
    rw [render_append]
    rfl
  have top : parent.render = "" ↔ parent = [] := by
    constructor
    · intro empty
      exact render_injective plain nofun empty
    · rintro rfl
      rfl
  rw [written, Step.extend]
  exact if_congr top rfl rfl

/-- A location ends in a field or in a position of a list. -/
theorem Location.exists_index_of_not_endsInField {place : Location} (below : place ≠ [])
    (other : ¬ place.EndsInField) : ∃ items position, place = items ++ [.index position] := by
  obtain ⟨parent, step, rfl⟩ := (List.eq_nil_or_concat place).resolve_left below
  rw [List.concat_eq_append] at other ⊢
  cases step with
  | field name => exact absurd ⟨parent, name, rfl⟩ other
  | index position => exact ⟨parent, position, rfl⟩

namespace Schema

variable {schema : Schema} {fields : Fields}

/-- What a check reports is a fault that stands where it says. -/
theorem points_of_validate (clear : (FieldType.shape schema).isClear = true) {error : Error}
    (rejected : schema.validate fields = .error error) :
    ∃ fault : Fault, fault.Points (.shape schema) (.object fields) ∧ fault.toError schema.name = error := by
  obtain ⟨fault, content, reported⟩ := validate_eq_error_iff.1 rejected
  exact ⟨fault, FieldType.points_of_fault? (.shape schema) clear (.object fields) fault content, reported⟩

/-- A mistyped place is one that the schema declares. What stands there is not of the type
declared, or the field there is absent and required. -/
theorem of_validate_mistyped (clear : (FieldType.shape schema).isClear = true) {record expected found : String}
    {place : Location} (rejected : schema.validate fields = .error (.mistyped record place expected found)) :
    record = schema.name ∧ place.IsPlain ∧
      ∃ declared, (FieldType.shape schema).at? place = some declared ∧ expected = declared.describe ∧
        ((∃ part, (Value.object fields).at? place = some part ∧ ¬ declared.Admits part ∧ found = part.kind.name ∧
            (part = .null → ∃ items position, place = items ++ [.index position])) ∨
          ∃ (parent : Location) (inner : Schema) (field : Field) (members : Fields),
            place = parent ++ [.field field.name] ∧ (FieldType.shape schema).at? parent = some (.shape inner) ∧
            field ∈ inner.fields ∧ field.isRequired = true ∧
            (Value.object fields).at? parent = some (.object members) ∧
            (members.get? field.name).getD .null = .null ∧ found = "nothing") := by
  obtain ⟨fault, points, reported⟩ := points_of_validate clear rejected
  cases points with
  | @mismatch place declared part expects holds rejects present =>
    cases reported
    refine ⟨rfl, (FieldType.isPlain_of_at? clear expects).1, declared, expects, rfl, .inl ⟨part, holds, ?_, rfl, ?_⟩⟩
    · rw [← FieldType.fault?_eq_none_iff_admits]
      exact rejects
    · -- the object itself is no null
      rintro rfl
      refine Location.exists_index_of_not_endsInField ?_ fun ends => present ends rfl
      rintro rfl
      cases holds
  | @absence parent inner members field expects holds mem required absent =>
    cases reported
    have reached : (FieldType.shape schema).at? (parent ++ [.field field.name]) = some field.type := by
      obtain ⟨distinct, -⟩ := FieldType.isClear_shape_iff.1 (FieldType.isPlain_of_at? clear expects).2
      rw [FieldType.at?_append, expects, Option.bind_some, FieldType.at?, FieldType.part?, field?_of_mem distinct mem]
      rfl
    refine ⟨rfl, (FieldType.isPlain_of_at? clear reached).1, field.type, reached, rfl, .inr ?_⟩
    exact ⟨parent, inner, field, members, rfl, expects, mem, required, holds, absent, rfl⟩
  | undeclared => cases reported

/-- An unknown name is one of an object whose schema does not declare it. -/
theorem of_validate_unknown (clear : (FieldType.shape schema).isClear = true) {record : String} {place : Location}
    (rejected : schema.validate fields = .error (.unknownField record place)) :
    record = schema.name ∧ ∃ (parent : Location) (inner : Schema) (members : Fields) (name : String),
      place.render = (if parent = [] then name else parent.render ++ "." ++ name) ∧
      (FieldType.shape schema).at? parent = some (.shape inner) ∧
      (Value.object fields).at? parent = some (.object members) ∧
      name ∈ members.names ∧ inner.declares name = false := by
  obtain ⟨fault, points, reported⟩ := points_of_validate clear rejected
  cases points with
  | @undeclared parent inner members name expects holds held undeclared =>
    cases reported
    have plain := (FieldType.isPlain_of_at? clear expects).1
    have rendered := Location.render_append_field plain name
    exact ⟨rfl, parent, inner, members, name, rendered, expects, holds, held, undeclared⟩
  | mismatch => cases reported
  | absence => cases reported

end Schema

/-- **Errors point at the offending place.** Only one location has the path of an error for
its text. The value there is not of the type that is declared there, the required field
there is missing or `null`, or the object above has a name there that its schema does not
declare. A `null` is found as such only as an item of a list. -/
theorem errors_point_at_places :
    (∀ sort : RecordSort, (FieldType.shape (Record.schema sort.Carrier)).isClear = true) ∧
    ∀ schema : Schema, (FieldType.shape schema).isClear = true → ∀ fields : Fields,
      (∀ record place expected found, schema.validate fields = .error (.mistyped record place expected found) →
        record = schema.name ∧
        (place.IsPlain ∧ ∀ other : Location, other.IsPlain → other.render = place.render → other = place) ∧
        ∃ declared, (FieldType.shape schema).at? place = some declared ∧ expected = declared.describe ∧
          ((∃ part, (Value.object fields).at? place = some part ∧ ¬ declared.Admits part ∧ found = part.kind.name ∧
              (part = .null → ∃ items position, place = items ++ [.index position])) ∨
            ∃ (parent : Location) (inner : Schema) (field : Field) (members : Fields),
              place = parent ++ [.field field.name] ∧
              (FieldType.shape schema).at? parent = some (.shape inner) ∧ field ∈ inner.fields ∧
              field.isRequired = true ∧ (Value.object fields).at? parent = some (.object members) ∧
              (members.get? field.name).getD .null = .null ∧ found = "nothing")) ∧
      ∀ record place, schema.validate fields = .error (.unknownField record place) →
        record = schema.name ∧ ∃ (parent : Location) (inner : Schema) (members : Fields) (name : String),
          place.render = (if parent = [] then name else parent.render ++ "." ++ name) ∧
          (FieldType.shape schema).at? parent = some (.shape inner) ∧
          (Value.object fields).at? parent = some (.object members) ∧
          name ∈ members.names ∧ inner.declares name = false := by
  refine ⟨RecordSort.isClear, fun schema clear fields => ⟨?_, fun record place => Schema.of_validate_unknown clear⟩⟩
  intro record place expected found rejected
  obtain ⟨named, plain, wrong⟩ := Schema.of_validate_mistyped clear rejected
  exact ⟨named, ⟨plain, fun other otherPlain same => Location.render_injective otherPlain plain same⟩, wrong⟩

theorem errors_point_at_places_resourceConfig :
    (∃ declared part,
      Submission.ResourceConfig.schema.validate [("instance_groups", .list [.object
          [("instance_type", .string "ml.m5"), ("instance_count", .string "2"),
            ("instance_group_name", .string "gpu")]]), ("volume_size_in_gb", .integer 30)] =
        .error (.mistyped "ResourceConfig" [.field "instance_groups", .index 0, .field "instance_count"]
          "integer" "string") ∧
      (FieldType.shape Submission.ResourceConfig.schema).at?
        [.field "instance_groups", .index 0, .field "instance_count"] = some declared ∧
      "integer" = declared.describe ∧ "string" = Kind.name (Value.kind part) ∧ ¬ declared.Admits part) ∧
    (∀ found, Submission.ResourceConfig.schema.validate [("instance_groups", .null), ("volume_size_in_gb", .null)] =
        .error (.mistyped "ResourceConfig" [.field "volume_size_in_gb"] "integer" found) → found = "nothing") ∧
    ∃ (parent : Location) (inner : Schema) (name : String),
      Submission.ResourceConfig.schema.validate [("volume_size_in_gb", .integer 30),
          ("instance_groups", .list [.object [("gpu", .integer 1)]])] =
        .error (.unknownField "ResourceConfig" [.field "instance_groups", .index 0, .field "gpu"]) ∧
      (FieldType.shape Submission.ResourceConfig.schema).at? parent = some (.shape inner) ∧
      inner.declares name = false := by
  have points := errors_point_at_places.2 Submission.ResourceConfig.schema (RecordSort.isClear .resourceConfig)
  refine ⟨?_, fun found rejected => ?_, ?_⟩
  · obtain ⟨-, -, declared, reached, described, ⟨part, -, rejects, shown, -⟩ | ⟨_, _, _, _, _, _, _, _, _, _, nothing⟩⟩ :=
      (points [("instance_groups", .list [.object
        [("instance_type", .string "ml.m5"), ("instance_count", .string "2"),
          ("instance_group_name", .string "gpu")]]), ("volume_size_in_gb", .integer 30)]).1 _ _ _ _ rfl
    · exact ⟨declared, part, rfl, reached, described, shown, rejects⟩
    · exact absurd nothing (by decide)
  · obtain ⟨-, -, declared, -, -, ⟨part, held, -, -, listed⟩ | ⟨_, _, _, _, _, _, _, _, _, _, nothing⟩⟩ :=
      (points _).1 _ _ _ _ rejected
    · cases held
      obtain ⟨items, position, same⟩ := listed rfl
      have last : [] ++ [Step.field "volume_size_in_gb"] = items ++ [Step.index position] := same
      cases (List.append_inj' last rfl).2
    · exact nothing
  · obtain ⟨-, parent, inner, -, name, -, reached, -, -, undeclared⟩ :=
      (points [("volume_size_in_gb", .integer 30),
        ("instance_groups", .list [.object [("gpu", .integer 1)]])]).2 _ _ rfl
    exact ⟨parent, inner, name, rfl, reached, undeclared⟩

end TrainingJob
