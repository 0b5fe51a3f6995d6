import TrainingJob.Json.Reader
import TrainingJob.Json.Writer
import TrainingJob.Record.Basic

/-!
# Records as documents

A document is the JSON text of a record. Loading one goes through the same
checks as any other construction. A file has to be UTF-8 throughout before its
text is looked at, so an ill-formed byte outweighs every fault of the text, and
a byte order mark is part of the text.
-/

set_option autoImplicit false

namespace TrainingJob

open Json

namespace Record

variable {R : Type} [Record R]

/-- Reads a record from a text. -/
def ofText (text : String) : Except Error R :=
  match Value.ofText? text with
  | none => throw (.malformed "not a JSON text")
  | some value => ofValue value

/-- Reads a record from the contents of a file, if there is such a file. -/
def ofFile : Option ByteArray → Except Error R
  | none => throw (.unreadable .missing)
  | some contents =>
    match String.fromUTF8? contents with
    | none => throw (.unreadable .notText)
    | some text => ofText text

/-- The laid-out text of a record. -/
def toText (record : R) : String := (Value.object (dump record)).toText

end Record

end TrainingJob
