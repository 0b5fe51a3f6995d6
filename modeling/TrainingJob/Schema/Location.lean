/-!
# Locations

A location leads from a record to a place inside it, through named fields and
list positions. Its text puts a point before a name and brackets around a
position, as in `instance_groups[0].instance_count`. A name that opens the text
has no point before it, and that is decided by the text so far: after a field
whose name is empty the next name still opens the text.
-/

set_option autoImplicit false

namespace TrainingJob

/-- One step from a value to a part of it. -/
inductive Step where
  | field (name : String)
  | index (position : Nat)
deriving DecidableEq, Repr

/-- The steps from a record to a place inside it, outermost first. -/
abbrev Location := List Step

/-- A text for a location, extended by one more step. -/
def Step.extend (text : String) : Step → String
  | .field name => if text = "" then name else text ++ "." ++ name
  | .index position => text ++ "[" ++ toString position ++ "]"

/-- The text of a location. -/
def Location.render (location : Location) : String := location.foldl Step.extend ""

/-- A field of the record itself is written as its name. -/
@[simp] theorem Location.render_field (name : String) : Location.render [.field name] = name := by
  simp [render, Step.extend]

theorem Location.render_append (location rest : Location) :
    (location ++ rest).render = rest.foldl Step.extend location.render := by
  simp [render, List.foldl_append]

end TrainingJob
