import TrainingJob.Record.Basic

/-!
# Training image of a submitted job

How the image that a job runs is fetched from its registry.
-/

set_option autoImplicit false

namespace TrainingJob.Submission

/-- The provider of credentials for a private registry. -/
structure TrainingRepositoryAuthConfig where
  credentialsProviderArn : String
deriving DecidableEq, Repr

def TrainingRepositoryAuthConfig.schema : Schema where
  name := "TrainingRepositoryAuthConfig"
  fields := [
    .required "training_repository_credentials_provider_arn" .string]

instance : Record TrainingRepositoryAuthConfig where
  Row := _
  schema := TrainingRepositoryAuthConfig.schema
  layout :=
    .required "training_repository_credentials_provider_arn" .string <|
    .nil
  absence := .leftOut
  row r := (r.credentialsProviderArn, ())
  ofRow | (credentialsProviderArn, ()) => ⟨credentialsProviderArn⟩

/-- Access to the registry of a training image. -/
structure TrainingImageConfig where
  /-- `Platform` or `Vpc`. -/
  trainingRepositoryAccessMode : String
  trainingRepositoryAuthConfig : Option TrainingRepositoryAuthConfig := none
deriving DecidableEq, Repr

def TrainingImageConfig.schema : Schema where
  name := "TrainingImageConfig"
  fields := [
    .required "training_repository_access_mode" .string,
    .optional "training_repository_auth_config" (.shape TrainingRepositoryAuthConfig.schema)]

instance : Record TrainingImageConfig where
  Row := _
  schema := TrainingImageConfig.schema
  layout :=
    .required "training_repository_access_mode" .string <|
    .optional "training_repository_auth_config" (.shape TrainingRepositoryAuthConfig) <|
    .nil
  absence := .leftOut
  row r := (r.trainingRepositoryAccessMode, r.trainingRepositoryAuthConfig, ())
  ofRow
    | (trainingRepositoryAccessMode, trainingRepositoryAuthConfig, ()) =>
      ⟨trainingRepositoryAccessMode, trainingRepositoryAuthConfig⟩

end TrainingJob.Submission
