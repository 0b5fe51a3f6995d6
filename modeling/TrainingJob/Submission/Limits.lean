import TrainingJob.Record.Basic

/-!
# Limits of a submitted job

How long a job may run or wait, and how often it is tried again.
-/

set_option autoImplicit false

namespace TrainingJob.Submission

/-- Time limits of a job. -/
structure StoppingCondition where
  maxRuntimeInSeconds : Option Int64 := none
  /-- The total time on spare capacity, waiting for it included. -/
  maxWaitTimeInSeconds : Option Int64 := none
  maxPendingTimeInSeconds : Option Int64 := none
deriving DecidableEq, Repr

def StoppingCondition.schema : Schema where
  name := "StoppingCondition"
  fields := [
    .optional "max_runtime_in_seconds" .integer,
    .optional "max_wait_time_in_seconds" .integer,
    .optional "max_pending_time_in_seconds" .integer]

instance : Record StoppingCondition where
  Row := _
  schema := StoppingCondition.schema
  layout :=
    .optional "max_runtime_in_seconds" .integer <|
    .optional "max_wait_time_in_seconds" .integer <|
    .optional "max_pending_time_in_seconds" .integer <|
    .nil
  absence := .leftOut
  row r := (r.maxRuntimeInSeconds, r.maxWaitTimeInSeconds, r.maxPendingTimeInSeconds, ())
  ofRow
    | (maxRuntimeInSeconds, maxWaitTimeInSeconds, maxPendingTimeInSeconds, ()) =>
      ⟨maxRuntimeInSeconds, maxWaitTimeInSeconds, maxPendingTimeInSeconds⟩

/-- How often a failed job is tried again. -/
structure RetryStrategy where
  maximumRetryAttempts : Int64
deriving DecidableEq, Repr

def RetryStrategy.schema : Schema where
  name := "RetryStrategy"
  fields := [
    .required "maximum_retry_attempts" .integer]

instance : Record RetryStrategy where
  Row := _
  schema := RetryStrategy.schema
  layout :=
    .required "maximum_retry_attempts" .integer <|
    .nil
  absence := .leftOut
  row r := (r.maximumRetryAttempts, ())
  ofRow | (maximumRetryAttempts, ()) => ⟨maximumRetryAttempts⟩

end TrainingJob.Submission
