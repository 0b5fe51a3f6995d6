import TrainingJob.Record.Basic

/-!
# Projection

A rich record is narrowed to a poorer one that declares some of its fields. What
the source shows under those names, absences apart, is what the target is built
from. With nothing to show there is no target, which is not an error. With
something to show that does not form a target the projection fails, and the
error keeps its cause.
-/

set_option autoImplicit false

namespace TrainingJob

open Json

namespace Record

variable {S T : Type} [Record S] [Record T]

/-- The present fields of a record that another sort of record declares. -/
def shared (T : Type) [Record T] (source : S) : Fields :=
  Fields.present ((dump source).filter fun entry => (schema T).declares entry.1)

/-- Narrows a record to another sort of record, if it has any field to show for it. -/
def project (T : Type) [Record T] (source : S) : Except Error (Option T) :=
  match shared T source with
  | [] => return none
  | fields =>
    match (ofFields fields : Except Error T) with
    | .ok target => return some target
    | .error cause => throw (.unprojectable (schema S).name (schema T).name cause)

end Record

end TrainingJob
