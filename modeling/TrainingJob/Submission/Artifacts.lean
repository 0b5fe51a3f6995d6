import TrainingJob.Record.Basic

/-!
# Results of a submitted job

Where a job leaves its model, its visualisation logs and its checkpoints.
-/

set_option autoImplicit false

namespace TrainingJob.Submission

/-- Where model artifacts are uploaded. -/
structure OutputDataConfig where
  s3OutputPath : String
  kmsKeyId : Option String := none
  /-- `GZIP` or `NONE`. -/
  compressionType : Option String := none
deriving DecidableEq, Repr

def OutputDataConfig.schema : Schema where
  name := "OutputDataConfig"
  fields := [
    .required "s3_output_path" .string,
    .optional "kms_key_id" .string,
    .optional "compression_type" .string]

instance : Record OutputDataConfig where
  Row := _
  schema := OutputDataConfig.schema
  layout :=
    .required "s3_output_path" .string <|
    .optional "kms_key_id" .string <|
    .optional "compression_type" .string <|
    .nil
  absence := .leftOut
  row r := (r.s3OutputPath, r.kmsKeyId, r.compressionType, ())
  ofRow | (s3OutputPath, kmsKeyId, compressionType, ()) => ⟨s3OutputPath, kmsKeyId, compressionType⟩

/-- Where visualisation logs are uploaded, and where the container writes them. -/
structure TensorBoardOutputConfig where
  s3OutputPath : String
  localPath : Option String := none
deriving DecidableEq, Repr

def TensorBoardOutputConfig.schema : Schema where
  name := "TensorBoardOutputConfig"
  fields := [
    .required "s3_output_path" .string,
    .optional "local_path" .string]

instance : Record TensorBoardOutputConfig where
  Row := _
  schema := TensorBoardOutputConfig.schema
  layout :=
    .required "s3_output_path" .string <|
    .optional "local_path" .string <|
    .nil
  absence := .leftOut
  row r := (r.s3OutputPath, r.localPath, ())
  ofRow | (s3OutputPath, localPath, ()) => ⟨s3OutputPath, localPath⟩

/-- Where checkpoints are uploaded, and where the container writes them. -/
structure CheckpointConfig where
  s3Uri : String
  localPath : Option String := none
deriving DecidableEq, Repr

def CheckpointConfig.schema : Schema where
  name := "CheckpointConfig"
  fields := [
    .required "s3_uri" .string,
    .optional "local_path" .string]

instance : Record CheckpointConfig where
  Row := _
  schema := CheckpointConfig.schema
  layout :=
    .required "s3_uri" .string <|
    .optional "local_path" .string <|
    .nil
  absence := .leftOut
  row r := (r.s3Uri, r.localPath, ())
  ofRow | (s3Uri, localPath, ()) => ⟨s3Uri, localPath⟩

end TrainingJob.Submission
