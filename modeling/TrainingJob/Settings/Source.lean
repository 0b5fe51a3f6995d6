import TrainingJob.Record.Basic

/-!
# Source code settings

The training script of a job and how it is started. Which of an entry script and
a command applies when both are given is left to whoever starts the job.
-/

set_option autoImplicit false

namespace TrainingJob.Settings

/-- The files that are left out of an upload by default. -/
def SourceCode.presetIgnorePatterns : List String :=
  [".env", ".git", "__pycache__", ".DS_Store", ".cache", ".ipynb_checkpoints"]

/-- The training script of a job. -/
structure SourceCode where
  sourceDir : Option String := none
  requirements : Option String := none
  entryScript : Option String := none
  command : Option String := none
  /-- The files that are left out of the upload. -/
  ignorePatterns : Option (List String) := some SourceCode.presetIgnorePatterns
deriving DecidableEq, Repr

def SourceCode.schema : Schema where
  name := "SourceCode"
  fields := [
    .optional "source_dir" .string,
    .optional "requirements" .string,
    .optional "entry_script" .string,
    .optional "command" .string,
    .optional "ignore_patterns" (.list .string)]

instance : Record SourceCode where
  Row := _
  schema := SourceCode.schema
  layout :=
    .optional "source_dir" .string <|
    .optional "requirements" .string <|
    .optional "entry_script" .string <|
    .optional "command" .string <|
    .preset "ignore_patterns" (.list .string) SourceCode.presetIgnorePatterns <|
    .nil
  absence := .asNull
  row r := (r.sourceDir, r.requirements, r.entryScript, r.command, r.ignorePatterns, ())
  ofRow
    | (sourceDir, requirements, entryScript, command, ignorePatterns, ()) =>
      ⟨sourceDir, requirements, entryScript, command, ignorePatterns⟩

end TrainingJob.Settings
