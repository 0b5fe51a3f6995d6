import TrainingJob.Schema.Location

/-!
# Errors

Why a record could not be built, assigned, narrowed or loaded. Each constructor
is a cause, with the names that describe it, and `Error.message` puts it into a
sentence. `Error.path` leads to the offending place where there is one, and for
a failed projection it is the path of the failure inside it
(`Error.path_unprojectable`).
-/

set_option autoImplicit false

namespace TrainingJob

/-- Why a file gave no text. -/
inductive FileFault where
  | missing
  | notText
  | other (detail : String)
deriving DecidableEq, Repr

def FileFault.message : FileFault → String
  | missing => "no such file"
  | notText => "the file is not UTF-8 text"
  | other detail => detail

inductive Error where
  /-- A field name that the schema at its place does not declare. -/
  | unknownField (record : String) (path : Location)
  /-- A value that is not of the declared type, or the absence of a required one. -/
  | mistyped (record : String) (path : Location) (expected found : String)
  /-- The fields that a target declares do not form a record of it. -/
  | unprojectable (source target : String) (cause : Error)
  /-- A text that is not JSON. -/
  | malformed (detail : String)
  | unreadable (fault : FileFault)
deriving DecidableEq, Repr

namespace Error

def message : Error → String
  | unknownField record path => s!"Unknown field for {record}: {path.render}"
  | mistyped record path expected found =>
    s!"Invalid value for {record}.{path.render}: expected {expected}, found {found}"
  | unprojectable source target cause => s!"Cannot project {source} onto {target}: {cause.message}"
  | malformed detail => s!"Serialization error: {detail}"
  | unreadable fault => s!"I/O error: {fault.message}"

/-- The place of the offending field, for the errors that concern one. -/
def path : Error → Option Location
  | unknownField _ path => some path
  | mistyped _ path _ _ => some path
  | unprojectable _ _ cause => cause.path
  | malformed _ => none
  | unreadable _ => none

/-- The verdicts of a schema, as opposed to failures of a projection or of a document. -/
def isValidation : Error → Bool
  | unknownField .. => true
  | mistyped .. => true
  | _ => false

@[simp] theorem path_unprojectable (source target : String) (cause : Error) :
    (unprojectable source target cause).path = cause.path := rfl

end Error

end TrainingJob
