import TrainingJob.Proofs.Record.Layout
import TrainingJob.Record.Basic

/-!
# Lawful records

A record is lawful when its layout is, and when no preset fills in what its dump
leaves out. Then the typed reading of a map agrees with the check of the schema
(`Record.isSome_decode?_iff`), so that construction comes to the verdict of the
schema and to no other (`Record.outcome_ofFields`). A record is built again from
its own dump (`Record.ofFields_dump`), and the dump of a record that was built
from a map is the normal form of that map (`Record.dump_of_ofFields`).

A shape is a lawful record that leaves absent parts out. Shapes are what other
records may contain (`Codec.lawful_shape`).
-/

set_option autoImplicit false

namespace TrainingJob

open Json

/-- The entries of a record as its dump shows them. -/
def Absence.entries : Absence → Fields → Fields
  | .asNull, entries => entries
  | .leftOut, entries => entries.present

namespace Record

/-- A record whose layout agrees with its schema, and whose dump hides nothing
that a preset would bring back. -/
class Lawful (R : Type) [Record R] : Prop where
  layout : (Record.layout (R := R)).Lawful := by dsimp only [Record.Row, Record.layout]; infer_instance
  presets_eq_nil : absence R = .leftOut → (Record.layout (R := R)).presets = [] := by nofun

/-- A lawful record that leaves absent parts out. -/
class LawfulShape (R : Type) [Record R] : Prop extends Lawful R where
  leftOut : absence R = .leftOut := by rfl
  presets_eq_nil := by intro _; rfl

attribute [instance] Lawful.layout

variable {R : Type} [Record R]

theorem dump_eq_entries (record : R) : dump record = (absence R).entries (layout.encode (row record)) := by
  unfold dump
  cases absence R <;> rfl

theorem distinct_names : ((layout : Layout (Row R)).fields.map Field.name).Nodup := by
  rw [fields_layout]
  exact nodup_fieldNames

theorem names_encode (record : R) : (layout.encode (row record)).names = (schema R).fieldNames := by
  rw [Layout.names_encode, fields_layout]
  rfl

/-- A dump lists declared fields, in declaration order. -/
theorem names_dump_sublist (record : R) : (dump record).names.Sublist (schema R).fieldNames := by
  rw [dump_eq_entries, ← names_encode record]
  cases absence R with
  | asNull => exact List.Sublist.refl _
  | leftOut => exact Fields.names_present_sublist _

theorem nodup_names_dump (record : R) : (dump record).names.Nodup :=
  (names_dump_sublist record).nodup nodup_fieldNames

theorem declares_of_mem_dump {record : R} {name : String} (mem : name ∈ (dump record).names) :
    (schema R).declares name = true :=
  Schema.declares_iff.2 ((names_dump_sublist record).subset mem)

theorem decode?_of_declared {fields : Fields} (declared : ∀ name ∈ fields.names, (schema R).declares name = true) :
    (decode? fields : Option R) = (layout.decode fields).map ofRow := by
  rw [decode?, if_pos (List.all_eq_true.2 declared)]

variable [Lawful R]

/-- **The typed reading agrees with the schema**: it succeeds on the maps without fault. -/
theorem isSome_decode?_iff (fields : Fields) :
    (decode? fields : Option R).isSome ↔ (schema R).fault? fields = none := by
  rw [Schema.fault?_eq_none_iff, ← fields_layout, ← Layout.isSome_decode_iff layout]
  by_cases declared : ∀ name ∈ fields.names, (schema R).declares name = true
  · rw [decode?_of_declared declared, Option.isSome_map]
    exact ⟨fun read => ⟨declared, read⟩, fun read => read.2⟩
  · rw [decode?, if_neg (fun all => declared (List.all_eq_true.1 all))]
    exact ⟨nofun, fun read => absurd read.1 declared⟩

theorem accepts_of_decode? {fields : Fields} {record : R} (read : decode? fields = some record) :
    (schema R).fault? fields = none := by
  rw [← isSome_decode?_iff (R := R), read]
  rfl

/-- A record is read back from its dump. -/
theorem decode?_dump (record : R) : decode? (dump record) = some record := by
  have shown : (layout : Layout (Row R)).decode (dump record) = some (row record) := by
    have whole := Layout.decode_encode distinct_names (row record)
    rw [dump_eq_entries]
    cases absent : absence R with
    | asNull => exact whole
    | leftOut =>
      -- no preset fills in what is left out
      have distinct : (layout.encode (row record)).names.Nodup := names_encode record ▸ nodup_fieldNames
      rw [Absence.entries, Layout.decode_present (Lawful.presets_eq_nil absent) distinct, whole]
  rw [decode?_of_declared fun name mem => declares_of_mem_dump mem, shown, Option.map_some, ofRow_row]

/-- What is read from a map is shown as its normal form. -/
theorem dump_of_decode? {fields : Fields} {record : R} (read : decode? fields = some record) :
    dump record =
      (absence R).entries ((schema R).normalForm (layout : Layout (Row R)).presets fields) := by
  have accepted := accepts_of_decode? read
  rw [decode?_of_declared (Schema.fault?_eq_none_iff.1 accepted).1, Option.map_eq_some_iff] at read
  obtain ⟨parts, read, rfl⟩ := read
  have encoded := Layout.encode_of_decode distinct_names read
  rw [dump_eq_entries, row_ofRow, encoded, fields_layout]
  rfl

omit [Lawful R] in
theorem ofFields_of_fault? {fields : Fields} {fault : Fault} (found : (schema R).fault? fields = some fault) :
    (ofFields fields : Except Error R) = .error (fault.toError (schema R).name) := by
  rw [ofFields, Schema.validate, found]
  rfl

theorem ofFields_of_decode? {fields : Fields} {record : R} (read : decode? fields = some record) :
    ofFields fields = .ok record := by
  rw [ofFields, Schema.validate, accepts_of_decode? read, read]
  rfl

/-- Apart from the record that is built, construction is validation. -/
theorem outcome_ofFields (fields : Fields) :
    (ofFields fields : Except Error R).map (fun _ => ()) = (schema R).validate fields := by
  cases found : (schema R).fault? fields with
  | none =>
    obtain ⟨record, read⟩ := Option.isSome_iff_exists.1 ((isSome_decode?_iff (R := R) fields).2 found)
    rw [ofFields_of_decode? read, Schema.validate_eq_ok_iff.2 found]
    rfl
  | some fault =>
    rw [ofFields_of_fault? found, Schema.validate, found]
    rfl

/-- Construction succeeds with what the typed reading gives. -/
theorem ofFields_eq_ok_iff {fields : Fields} {record : R} :
    ofFields fields = .ok record ↔ decode? fields = some record := by
  refine ⟨fun built => ?_, ofFields_of_decode?⟩
  have accepted : (schema R).validate fields = .ok () := by
    rw [← outcome_ofFields, built]
    rfl
  have found := Schema.validate_eq_ok_iff.1 accepted
  obtain ⟨other, read⟩ := Option.isSome_iff_exists.1 ((isSome_decode?_iff (R := R) fields).2 found)
  rw [ofFields_of_decode? read] at built
  cases built
  exact read

/-- Construction fails with the verdict of the schema, and only so. -/
theorem ofFields_eq_error_iff {fields : Fields} {error : Error} :
    (ofFields fields : Except Error R) = .error error ↔ (schema R).validate fields = .error error := by
  rw [← outcome_ofFields]
  cases (ofFields fields : Except Error R) <;> simp [Except.map]

/-- A record is built again from its dump. -/
theorem ofFields_dump (record : R) : ofFields (dump record) = .ok record :=
  ofFields_eq_ok_iff.2 (decode?_dump record)

theorem dump_of_ofFields {fields : Fields} {record : R} (built : ofFields fields = .ok record) :
    dump record =
      (absence R).entries ((schema R).normalForm (layout : Layout (Row R)).presets fields) :=
  dump_of_decode? (ofFields_eq_ok_iff.1 built)

/-- No state of a record is at odds with its schema. -/
theorem fault?_dump (record : R) : (schema R).fault? (dump record) = none :=
  accepts_of_decode? (decode?_dump record)

/-- A record is determined by what it shows. -/
theorem dump_injective {record other : R} (same : dump record = dump other) : record = other := by
  have read := decode?_dump record
  rw [same, decode?_dump] at read
  exact (Option.some.inj read).symm

/-- A dump can be held by a text, as deep as the schema. -/
theorem spellable_dump (record : R) :
    (Value.object (dump record)).Spellable (FieldType.shape (schema R)).depth := by
  have entries := Layout.spellable_encode layout (row record) fun _ mem => Field.depth_le_deepest mem
  rw [fields_layout] at entries
  rw [FieldType.depth_shape]
  refine .object (nodup_names_dump record) fun entry mem => ?_
  rw [dump_eq_entries] at mem
  cases absent : absence R with
  | asNull =>
    rw [absent] at mem
    exact entries entry mem
  | leftOut =>
    rw [absent] at mem
    exact entries entry (List.mem_filter.1 mem).1

end Record

/-- Shapes may be parts of other records. -/
instance Codec.lawful_shape {R : Type} [Record R] [shape : Record.LawfulShape R] : (Codec.shape R).Lawful where
  isSome_decode_iff value := by
    show _ ↔ (FieldType.shape (Record.schema R)).fault? value = none
    rw [FieldType.fault?_shape_eq_none_iff]
    cases value with
    | object members =>
      show (Record.decode? members : Option R).isSome = true ↔ _
      rw [Record.isSome_decode?_iff]
      simp
    | _ => simp [Codec.shape]
  decode_encode record := Record.decode?_dump record
  encode_of_decode := by
    intro value record read
    cases value with
    | object members =>
      show Value.object (Record.dump record) = (FieldType.shape (Record.schema R)).tidy (.object members)
      rw [FieldType.tidy_shape, Record.dump_of_decode? read, shape.presets_eq_nil shape.leftOut, shape.leftOut,
        Absence.entries]
    | _ => simp [Codec.shape] at read
  spellable record := Record.spellable_dump record

/-- A nested record is read from an object as it would be built from it. -/
theorem Codec.ofFields_of_decode_shape {R : Type} [Record R] [Record.Lawful R] {value : Value} {record : R}
    (read : (Codec.shape R).decode value = some record) :
    ∃ members, value = .object members ∧ Record.ofFields members = .ok record := by
  cases value with
  | object members => exact ⟨members, rfl, Record.ofFields_eq_ok_iff.2 read⟩
  | _ => cases read

end TrainingJob
