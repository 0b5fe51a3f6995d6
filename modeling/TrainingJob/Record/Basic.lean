import TrainingJob.Record.Layout
import TrainingJob.Schema.Validation

/-!
# Records

A record is a structure with a declared schema. The schema is the contract: a
field map is checked against it before anything is read, at construction
(`Record.ofFields`) and on every assignment by name (`Record.set`). The layout
says how the parts of the structure are held, and the class asks for the
agreement of the two.

A record is shown as a field map (`Record.dump`) in declaration order. Some
records show an absent part as `null`, others leave it out.
-/

set_option autoImplicit false

namespace TrainingJob

open Json

/-- How a record shows that a part is absent. -/
inductive Absence where
  | asNull
  | leftOut
deriving DecidableEq, Repr

/-- A structure that is held as a field map of a declared schema. -/
class Record (R : Type) where
  /-- The parts of the structure, as a nested pair. -/
  Row : Type
  schema : Schema
  layout : Layout Row
  absence : Absence
  row : R → Row
  ofRow : Row → R
  fields_layout : layout.fields = schema.fields := by rfl
  nodup_fieldNames : schema.fieldNames.Nodup := by decide
  ofRow_row : ∀ record, ofRow (row record) = record := by intros; rfl
  row_ofRow : ∀ parts, row (ofRow parts) = parts := by intros; rfl

namespace Record

variable {R : Type} [Record R]

/-- The field map that shows a record. -/
def dump (record : R) : Fields :=
  let fields := layout.encode (row record)
  match absence R with
  | .asNull => fields
  | .leftOut => fields.present

/-- The record that a field map holds. Every name has to be declared. This is meant for
maps that the schema accepts and asked about no others. -/
def decode? (fields : Fields) : Option R :=
  if fields.names.all (schema R).declares then ((layout : Layout (Row R)).decode fields).map ofRow else none

/-- Where an error stands that concerns a record as a whole. -/
def wholeRecord : Location := [.field "<record>"]

/-- Builds a record from named values. Omitted fields take their presets. What
the schema accepts the layout reads, so the last case is for a layout at odds
with its schema and does not arise. What it says was found stands in for the
message of a decoder. -/
def ofFields (fields : Fields) : Except Error R := do
  (schema R).validate fields
  match decode? fields with
  | some record => return record
  | none => throw (.mistyped (schema R).name wholeRecord (schema R).name Kind.object.name)

/-- Builds a record from an object. -/
def ofValue : Value → Except Error R
  | .object members => ofFields members
  | value => throw (.mistyped (schema R).name wholeRecord Kind.object.name value.kind.name)

/-- Reads a field by name. An absent field reads as `null`. -/
def get (record : R) (name : String) : Except Error Value :=
  if (schema R).declares name then .ok (((dump record).get? name).getD .null)
  else throw (.unknownField (schema R).name [.field name])

/-- Assigns a field by name: the record is built again with that field replaced. -/
def set (record : R) (name : String) (value : Value) : Except Error R := do
  (schema R).validateField name value
  ofFields ((dump record).insert name value)

/-- Checks a record against its own schema. -/
def validate (record : R) : Except Error Unit := (schema R).validate (dump record)

/-- Builds a record again from its present fields, so that presets return. -/
def renew (record : R) : Except Error R := ofFields (dump record).present

end Record

/-- Records as nested values. Like `Record.decode?`, decoding is meant for objects that
the schema accepts. -/
def Codec.shape (R : Type) [Record R] : Codec R where
  type := .shape (Record.schema R)
  encode record := .object (Record.dump record)
  decode
    | .object members => Record.decode? members
    | _ => none

end TrainingJob
