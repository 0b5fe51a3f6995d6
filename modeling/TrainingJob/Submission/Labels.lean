import TrainingJob.Record.Basic

/-!
# Labels of a submitted job

What a job is found and measured by.
-/

set_option autoImplicit false

namespace TrainingJob.Submission

/-- A label of a resource. -/
structure Tag where
  key : String
  value : String
deriving DecidableEq, Repr

def Tag.schema : Schema where
  name := "Tag"
  fields := [
    .required "key" .string,
    .required "value" .string]

instance : Record Tag where
  Row := _
  schema := Tag.schema
  layout :=
    .required "key" .string <|
    .required "value" .string <|
    .nil
  absence := .leftOut
  row r := (r.key, r.value, ())
  ofRow | (key, value, ()) => ⟨key, value⟩

/-- A measure that a pattern extracts from the log of a job. -/
structure MetricDefinition where
  name : String
  regex : String
deriving DecidableEq, Repr

def MetricDefinition.schema : Schema where
  name := "MetricDefinition"
  fields := [
    .required "name" .string,
    .required "regex" .string]

instance : Record MetricDefinition where
  Row := _
  schema := MetricDefinition.schema
  layout :=
    .required "name" .string <|
    .required "regex" .string <|
    .nil
  absence := .leftOut
  row r := (r.name, r.regex, ())
  ofRow | (name, regex, ()) => ⟨name, regex⟩

end TrainingJob.Submission
