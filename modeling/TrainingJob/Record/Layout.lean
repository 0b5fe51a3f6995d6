import TrainingJob.Record.Codec

/-!
# Layouts

A layout lists the columns of a record. Each column knows the field it fills,
how its part of a record is shown in a field map, and how that part is read from
one. A record is laid out over the row of its parts, a nested pair that ends in
the unit.

Two sorts of columns exist. A required column reads the value that it is given.
An optional column holds `null` for an absent part, and reads `null` as absence,
but when the map does not have the name at all it falls back on a preset, which
may itself be absence.

A row is shown under the names of its columns, in order (`Layout.names_encode`).
-/

set_option autoImplicit false

namespace TrainingJob

open Json

/-- One field of a record. `decode` is given what a map holds under the name of the field. -/
structure Column (α : Type) where
  field : Field
  encode : α → Value
  decode : Option Value → Option α

namespace Column

variable {α : Type}

/-- A part that every record has. -/
def required (name : String) (codec : Codec α) : Column α where
  field := .required name codec.type
  encode := codec.encode
  decode value? := value?.bind codec.decode

/-- A part that a record may lack. The preset stands in when a map omits the name. -/
def optional (name : String) (codec : Codec α) (preset : Option α) : Column (Option α) where
  field := .optional name codec.type
  encode
    | none => .null
    | some a => codec.encode a
  decode
    | none => some preset
    | some .null => some none
    | some value => (codec.decode value).map some

end Column

/-- The columns of a record, over the row of its parts. -/
inductive Layout : Type → Type 1 where
  | nil : Layout Unit
  | cons {α ρ : Type} (column : Column α) (rest : Layout ρ) : Layout (α × ρ)

namespace Layout

/-- A layout that starts with a required column. -/
def required {α ρ : Type} (name : String) (codec : Codec α) (rest : Layout ρ) : Layout (α × ρ) :=
  cons (.required name codec) rest

/-- A layout that starts with an optional column, absent when omitted. -/
def optional {α ρ : Type} (name : String) (codec : Codec α) (rest : Layout ρ) :
    Layout (Option α × ρ) :=
  cons (.optional name codec none) rest

/-- A layout that starts with an optional column that has a value when omitted. -/
def preset {α ρ : Type} (name : String) (codec : Codec α) (value : α) (rest : Layout ρ) :
    Layout (Option α × ρ) :=
  cons (.optional name codec (some value)) rest

/-- The fields that the columns fill, in order. -/
def fields {ρ : Type} : Layout ρ → List Field
  | nil => []
  | cons column rest => column.field :: rest.fields

/-- The field map of a row, with `null` for every absent part. -/
def encode {ρ : Type} : Layout ρ → ρ → Fields
  | nil, _ => []
  | cons column rest, (part, row) => (column.field.name, column.encode part) :: rest.encode row

/-- The row that a field map holds, as far as the columns are concerned. -/
def decode {ρ : Type} : Layout ρ → Fields → Option ρ
  | nil, _ => some ()
  | cons column rest, fields => do
    let part ← column.decode (fields.get? column.field.name)
    let row ← rest.decode fields
    return (part, row)

/-- A row is shown under the names of its columns, in order. -/
theorem names_encode {ρ : Type} (layout : Layout ρ) (row : ρ) :
    (layout.encode row).names = layout.fields.map Field.name := by
  induction layout with
  | nil => rfl
  | cons column rest ih =>
    obtain ⟨part, row⟩ := row
    simp [encode, fields, ih]

end Layout

end TrainingJob
