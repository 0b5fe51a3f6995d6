import TrainingJob.Record.Basic

/-!
# Switches of a submitted job

Features of the service that a job turns on or off.
-/

set_option autoImplicit false

namespace TrainingJob.Submission

/-- Checks of the instances before the job starts. -/
structure InfraCheckConfig where
  enableInfraCheck : Option Bool := none
deriving DecidableEq, Repr

def InfraCheckConfig.schema : Schema where
  name := "InfraCheckConfig"
  fields := [
    .optional "enable_infra_check" .boolean]

instance : Record InfraCheckConfig where
  Row := _
  schema := InfraCheckConfig.schema
  layout :=
    .optional "enable_infra_check" .boolean <|
    .nil
  absence := .leftOut
  row r := (r.enableInfraCheck, ())
  ofRow | (enableInfraCheck, ()) => ⟨enableInfraCheck⟩

/-- Access to the running container for debugging. -/
structure RemoteDebugConfig where
  enableRemoteDebug : Option Bool := none
deriving DecidableEq, Repr

def RemoteDebugConfig.schema : Schema where
  name := "RemoteDebugConfig"
  fields := [
    .optional "enable_remote_debug" .boolean]

instance : Record RemoteDebugConfig where
  Row := _
  schema := RemoteDebugConfig.schema
  layout :=
    .optional "enable_remote_debug" .boolean <|
    .nil
  absence := .leftOut
  row r := (r.enableRemoteDebug, ())
  ofRow | (enableRemoteDebug, ()) => ⟨enableRemoteDebug⟩

/-- Tags of the session that are passed on to the job. -/
structure SessionChainingConfig where
  enableSessionTagChaining : Option Bool := none
deriving DecidableEq, Repr

def SessionChainingConfig.schema : Schema where
  name := "SessionChainingConfig"
  fields := [
    .optional "enable_session_tag_chaining" .boolean]

instance : Record SessionChainingConfig where
  Row := _
  schema := SessionChainingConfig.schema
  layout :=
    .optional "enable_session_tag_chaining" .boolean <|
    .nil
  absence := .leftOut
  row r := (r.enableSessionTagChaining, ())
  ofRow | (enableSessionTagChaining, ()) => ⟨enableSessionTagChaining⟩

end TrainingJob.Submission
