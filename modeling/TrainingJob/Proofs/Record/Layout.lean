import TrainingJob.Proofs.Record.Codec
import TrainingJob.Record.Layout

/-!
# Lawful layouts

A column is lawful when it reads what its field is content with, reads back what
it shows, and shows what it read in normal form. The columns of lawful codecs
are, with or without a preset. A layout of lawful columns reads exactly the maps
in which every field is content (`Layout.isSome_decode_iff`), reads back every
row (`Layout.decode_encode`), and shows a row that it read in the normal form of
its fields (`Layout.encode_of_decode`).
-/

set_option autoImplicit false

namespace TrainingJob

open Json

namespace Column

variable {α : Type}

/-- What a record shows for a field that its map omits. -/
def omitted (column : Column α) : Value :=
  match column.decode none with
  | none => .null
  | some part => column.encode part

/-- A column that agrees with its field. -/
class Lawful (column : Column α) : Prop where
  /-- What is read is what the field is content with. -/
  isSome_decode_iff : ∀ value?, (column.decode value?).isSome ↔ column.field.fault? value? = none
  decode_encode : ∀ part, column.decode (some (column.encode part)) = some part
  encode_of_decode : ∀ {value? part}, column.decode value? = some part →
    column.encode part = column.field.settle column.omitted value?
  spellable : ∀ part, (column.encode part).Spellable column.field.type.depth

instance lawful_required (name : String) (codec : Codec α) [codec.Lawful] :
    (Column.required name codec).Lawful where
  isSome_decode_iff value? := by
    cases value? with
    | none => simp [required, Field.required, Field.fault?_of_missing]
    | some value =>
      show (codec.decode value).isSome = true ↔ _
      rw [Field.fault?_of_required rfl]
      exact Codec.Lawful.isSome_decode_iff value
  decode_encode part := Codec.Lawful.decode_encode part
  encode_of_decode := by
    intro value? part read
    cases value? with
    | none => simp [required] at read
    | some value =>
      have accepted : codec.decode value = some part := read
      have present : value ≠ .null := by
        rintro rfl
        simp [Codec.Lawful.decode_null] at accepted
      rw [Field.settle_of_present present]
      exact Codec.Lawful.encode_of_decode accepted
  spellable part := Codec.Lawful.spellable part

theorem optional_decode_of_present (name : String) (codec : Codec α) (preset : Option α) {value : Value}
    (present : value ≠ .null) :
    (optional name codec preset).decode (some value) = (codec.decode value).map some := by
  cases value with
  | null => exact absurd rfl present
  | _ => rfl

instance lawful_optional (name : String) (codec : Codec α) [codec.Lawful] (preset : Option α) :
    (Column.optional name codec preset).Lawful where
  isSome_decode_iff value? := by
    cases value? with
    | none => simp [optional, Field.optional, Field.fault?_of_missing]
    | some value =>
      by_cases present : value = .null
      · subst present
        simp [optional, Field.optional, Field.fault?_of_null]
      · rw [optional_decode_of_present name codec preset present, Field.fault?_of_present present,
          Option.isSome_map]
        exact Codec.Lawful.isSome_decode_iff value
  decode_encode part := by
    cases part with
    | none => rfl
    | some a =>
      show (optional name codec preset).decode (some (codec.encode a)) = _
      rw [optional_decode_of_present name codec preset (Codec.Lawful.encode_ne_null a),
        Codec.Lawful.decode_encode]
      rfl
  encode_of_decode := by
    intro value? part read
    cases value? with
    | none =>
      cases read
      rfl
    | some value =>
      by_cases present : value = .null
      · subst present
        cases read
        rfl
      · rw [optional_decode_of_present name codec preset present] at read
        obtain ⟨a, accepted, rfl⟩ := Option.map_eq_some_iff.1 read
        rw [Field.settle_of_present present]
        exact Codec.Lawful.encode_of_decode accepted
  spellable part := by
    cases part with
    | none => exact .null
    | some a => exact Codec.Lawful.spellable a

/-- Where omission means absence, a missing name reads like `null`. -/
theorem decode_none {column : Column α} [lawful : column.Lawful] (unset : column.omitted = .null) :
    column.decode none = column.decode (some .null) := by
  have missing := lawful.isSome_decode_iff none
  have null := lawful.isSome_decode_iff (some .null)
  rw [Field.fault?_of_missing] at missing
  rw [Field.fault?_of_null, ← missing] at null
  cases h : column.decode none with
  | none =>
    have unread : column.decode (some .null) = none := by simpa [h] using null
    rw [unread]
  | some a =>
    obtain ⟨b, hb⟩ := Option.isSome_iff_exists.1 (null.2 (by rw [h]; rfl))
    have shown : column.encode a = column.encode b := by
      rw [Lawful.encode_of_decode h, Lawful.encode_of_decode hb, Field.settle_none, unset, Field.settle_null]
    rw [hb, ← lawful.decode_encode a, shown, lawful.decode_encode b]

end Column

namespace Layout

variable {ρ : Type}

/-- A layout of lawful columns. -/
class inductive Lawful : {ρ : Type} → Layout ρ → Prop where
  | nil : Lawful .nil
  | cons {α ρ : Type} {column : Column α} {rest : Layout ρ} (first : column.Lawful) (others : Lawful rest) :
      Lawful (.cons column rest)

instance lawful_nil : (Layout.nil).Lawful := .nil

instance lawful_required {α : Type} (name : String) (codec : Codec α) (rest : Layout ρ) [codec.Lawful]
    [others : rest.Lawful] : (Layout.required name codec rest).Lawful :=
  .cons (Column.lawful_required name codec) others

instance lawful_optional {α : Type} (name : String) (codec : Codec α) (rest : Layout ρ) [codec.Lawful]
    [others : rest.Lawful] : (Layout.optional name codec rest).Lawful :=
  .cons (Column.lawful_optional name codec none) others

instance lawful_preset {α : Type} (name : String) (codec : Codec α) (value : α) (rest : Layout ρ)
    [codec.Lawful] [others : rest.Lawful] : (Layout.preset name codec value rest).Lawful :=
  .cons (Column.lawful_optional name codec (some value)) others

/-- What a record shows for each field if its map omits it. -/
def omitted {ρ : Type} : Layout ρ → Fields
  | nil => []
  | cons column rest => (column.field.name, column.omitted) :: rest.omitted

/-- The fields that have a value when they are omitted, with that value. -/
def presets (layout : Layout ρ) : Fields := layout.omitted.present

theorem names_omitted (layout : Layout ρ) : layout.omitted.names = layout.fields.map Field.name := by
  induction layout with
  | nil => rfl
  | cons column rest ih => rw [omitted, Fields.names_cons, ih, fields, List.map_cons]

/-- A layout reads a map when every field is content with what the map holds for it. -/
theorem isSome_decode_iff (layout : Layout ρ) [lawful : layout.Lawful] (fields : Fields) :
    (layout.decode fields).isSome ↔
      ∀ field ∈ layout.fields, field.fault? (fields.get? field.name) = none := by
  induction lawful with
  | nil => simp [decode, Layout.fields]
  | @cons α ρ column rest first _ ih =>
    have part := first.isSome_decode_iff (fields.get? column.field.name)
    rw [Layout.fields, List.forall_mem_cons, ← ih, ← part, decode]
    cases column.decode (fields.get? column.field.name) <;> cases rest.decode fields <;> simp

/-- A row is read back from any map that shows it. The map may hold more: the
columns after the first are read from all of it. -/
theorem decode_of_shows {layout : Layout ρ} [lawful : layout.Lawful]
    (distinct : (layout.fields.map Field.name).Nodup) {fields : Fields} {row : ρ}
    (shows : ∀ name ∈ layout.fields.map Field.name, fields.get? name = (layout.encode row).get? name) :
    layout.decode fields = some row := by
  induction lawful with
  | nil => rfl
  | @cons α ρ column rest first _ ih =>
    obtain ⟨part, row⟩ := row
    rw [Layout.fields, List.map_cons, List.nodup_cons] at distinct
    obtain ⟨fresh, distinct⟩ := distinct
    rw [Layout.fields, List.map_cons, List.forall_mem_cons] at shows
    obtain ⟨shown, others⟩ := shows
    have head : column.decode (fields.get? column.field.name) = some part := by
      rw [shown, encode, Fields.get?_cons, if_pos rfl]
      exact first.decode_encode part
    have tail : rest.decode fields = some row := by
      refine ih distinct fun name mem => ?_
      have other : column.field.name ≠ name := fun same => fresh (same ▸ mem)
      rw [others name mem, encode, Fields.get?_cons, if_neg other]
    rw [decode, head, tail]
    rfl

theorem decode_encode {layout : Layout ρ} [layout.Lawful] (distinct : (layout.fields.map Field.name).Nodup)
    (row : ρ) : layout.decode (layout.encode row) = some row :=
  decode_of_shows distinct fun _ _ => rfl

/-- Without presets it makes no difference whether an absent field is `null` or left out. -/
theorem decode_present {layout : Layout ρ} [lawful : layout.Lawful] (unset : layout.presets = [])
    {fields : Fields} (distinct : fields.names.Nodup) : layout.decode fields.present = layout.decode fields := by
  induction lawful with
  | nil => rfl
  | @cons α ρ column rest first _ ih =>
    rw [presets, omitted, Fields.present_cons] at unset
    split at unset
    case isFalse => exact absurd unset (List.cons_ne_nil _ _)
    case isTrue null =>
      have absent := Column.decode_none (Value.isNull_iff.1 null)
      rw [decode, decode, ih unset, Fields.get?_present distinct]
      cases held : fields.get? column.field.name with
      | none => rfl
      | some value =>
        cases nullValue : value.isNull with
        | true =>
          rw [Value.isNull_iff.1 nullValue, ← absent]
          rfl
        | false =>
          rw [Option.filter_some, nullValue]
          rfl

/-- A row that was read from a map is shown with a settled entry for every field,
given presets that are those of the layout for the fields it has. -/
theorem encode_of_decode_of_agree {layout : Layout ρ} [lawful : layout.Lawful]
    (distinct : (layout.fields.map Field.name).Nodup) {presets fields : Fields} {row : ρ}
    (agree : ∀ name ∈ layout.fields.map Field.name,
      (presets.get? name).getD .null = (layout.omitted.get? name).getD .null)
    (read : layout.decode fields = some row) :
    layout.encode row = layout.fields.map fun field =>
      (field.name, field.settle ((presets.get? field.name).getD .null) (fields.get? field.name)) := by
  induction lawful with
  | nil => rfl
  | @cons α ρ column rest first _ ih =>
    obtain ⟨part, row⟩ := row
    rw [Layout.fields, List.map_cons, List.nodup_cons] at distinct
    obtain ⟨fresh, distinct⟩ := distinct
    rw [Layout.fields, List.map_cons, List.forall_mem_cons] at agree
    obtain ⟨agreed, others⟩ := agree
    rw [decode, Option.bind_eq_bind, Option.bind_eq_some_iff] at read
    obtain ⟨part', head, read⟩ := read
    obtain ⟨row', tail, read⟩ := Option.bind_eq_some_iff.1 read
    cases read
    have preset : (presets.get? column.field.name).getD .null = column.omitted := by
      rw [agreed, omitted, Fields.get?_cons, if_pos rfl]
      rfl
    -- the presets are those of the whole layout, so the induction asks for agreement only on the names it has
    have rest_agree : ∀ name ∈ rest.fields.map Field.name,
        (presets.get? name).getD .null = (rest.omitted.get? name).getD .null := by
      intro name mem
      have other : column.field.name ≠ name := fun same => fresh (same ▸ mem)
      rw [others name mem, omitted, Fields.get?_cons, if_neg other]
    rw [encode, Layout.fields, List.map_cons, ih distinct rest_agree tail, preset, first.encode_of_decode head]

/-- A row that was read from a map is shown as the normal form of that map. -/
theorem encode_of_decode {layout : Layout ρ} [layout.Lawful] (distinct : (layout.fields.map Field.name).Nodup)
    {fields : Fields} {row : ρ} (read : layout.decode fields = some row) :
    layout.encode row = layout.fields.map fun field =>
      (field.name, field.settle ((layout.presets.get? field.name).getD .null) (fields.get? field.name)) :=
  encode_of_decode_of_agree distinct
    (fun name _ => Fields.getD_get?_present (layout.names_omitted ▸ distinct) name) read

/-- What a layout shows can be held by a text, as deep as the types of its fields. -/
theorem spellable_encode (layout : Layout ρ) [lawful : layout.Lawful] (row : ρ) {depth : Nat}
    (deep : ∀ field ∈ layout.fields, field.type.depth ≤ depth) :
    ∀ entry ∈ layout.encode row, entry.2.Spellable depth := by
  induction lawful with
  | nil => simp [encode]
  | @cons α ρ column rest first _ ih =>
    obtain ⟨part, row⟩ := row
    rw [Layout.fields, List.forall_mem_cons] at deep
    exact List.forall_mem_cons.2 ⟨(first.spellable part).mono deep.1, ih row deep.2⟩

end Layout

end TrainingJob
