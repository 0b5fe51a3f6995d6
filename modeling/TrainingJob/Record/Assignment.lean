import TrainingJob.Record.Basic

/-!
# Assignment in place

A record that is kept in one place is assigned to field by field. The check of
the value comes first, then the record is built again from its dump, and the
result takes its place only when both have gone well. A run of assignments goes
on after a failure, and keeps the outcome of each.
-/

set_option autoImplicit false

namespace TrainingJob

open Json

namespace Record

variable {R : Type} [Record R]

/-- Assigns a field of the record in its place. -/
def assign (name : String) (value : Value) : ExceptT Error (StateM R) Unit := do
  (schema R).validateField name value
  let record ← MonadState.get
  let rebuilt ← (ofFields ((dump record).insert name value) : Except Error R)
  MonadState.set rebuilt

/-- Makes assignments one after the other. -/
def assignEach (steps : List (String × Value)) : StateM R (List (Except Error Unit)) :=
  steps.mapM fun (name, value) => (assign name value).run

/-- In its place a record is left as it was by an assignment that fails. -/
theorem run_assign (record : R) (name : String) (value : Value) :
    (assign name value).run.run record =
      match set record name value with
      | .ok next => (.ok (), next)
      | .error error => (.error error, record) := by
  rw [assign, set]
  cases (schema R).validateField name value with
  | error error => rfl
  | ok _ =>
    show ((do
      let rebuilt ← (ofFields ((dump record).insert name value) : Except Error R)
      MonadState.set rebuilt) : ExceptT Error (StateM R) Unit).run.run record =
        match (ofFields ((dump record).insert name value) : Except Error R) with
        | .ok next => (.ok (), next)
        | .error error => (.error error, record)
    cases (ofFields ((dump record).insert name value) : Except Error R) <;> rfl

end Record

end TrainingJob
