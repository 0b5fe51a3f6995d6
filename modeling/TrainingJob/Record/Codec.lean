import TrainingJob.Json.Fields
import TrainingJob.Schema.Basic

/-!
# Codecs

How the values of a Lean type are held as JSON: the field type that describes
them, the value that shows one, and the way back. Decoding is strict, so a value
is only read from exactly its own kind.
-/

set_option autoImplicit false

namespace TrainingJob

open Json

/-- A Lean type held as JSON. -/
structure Codec (α : Type) where
  type : FieldType
  encode : α → Value
  decode : Value → Option α

namespace Codec

def string : Codec String where
  type := .string
  encode := .string
  decode
    | .string s => some s
    | _ => none

def integer : Codec Int64 where
  type := .integer
  encode n := .integer n.toInt
  decode
    | .integer n => if FitsWord n then some (Int64.ofInt n) else none
    | _ => none

def boolean : Codec Bool where
  type := .boolean
  encode := .boolean
  decode
    | .boolean b => some b
    | _ => none

/-- Lists whose items are all held by one codec. -/
def list {α : Type} (item : Codec α) : Codec (List α) where
  type := .list item.type
  encode items := .list (items.map item.encode)
  decode
    | .list values => values.mapM item.decode
    | _ => none

end Codec

end TrainingJob
