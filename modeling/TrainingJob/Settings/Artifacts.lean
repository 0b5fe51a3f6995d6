import TrainingJob.Record.Projection
import TrainingJob.Submission.Artifacts

/-!
# Settings for results

What a user says about where a job leaves its results. Each record relaxes the
shape of the same name: locations in the object store may still be open, and the
directories inside the container have defaults.
-/

set_option autoImplicit false

namespace TrainingJob.Settings

/-- Where the container writes visualisation logs by default. -/
def TensorBoardOutputConfig.presetLocalPath : String := "/opt/ml/output/tensorboard"

/-- Where the container writes checkpoints by default. -/
def CheckpointConfig.presetLocalPath : String := "/opt/ml/checkpoints"

/-- Where the results of a job are uploaded. -/
structure OutputDataConfig where
  s3OutputPath : Option String := none
  /-- The key that encrypts the results. -/
  kmsKeyId : Option String := none
  /-- `GZIP` or `NONE`. -/
  compressionType : Option String := none
deriving DecidableEq, Repr

def OutputDataConfig.schema : Schema where
  name := "OutputDataConfig"
  fields := [
    .optional "s3_output_path" .string,
    .optional "kms_key_id" .string,
    .optional "compression_type" .string]

instance : Record OutputDataConfig where
  Row := _
  schema := OutputDataConfig.schema
  layout :=
    .optional "s3_output_path" .string <|
    .optional "kms_key_id" .string <|
    .optional "compression_type" .string <|
    .nil
  absence := .asNull
  row r := (r.s3OutputPath, r.kmsKeyId, r.compressionType, ())
  ofRow | (s3OutputPath, kmsKeyId, compressionType, ()) => ⟨s3OutputPath, kmsKeyId, compressionType⟩

/-- The location to submit, if anything about it is settled. -/
def OutputDataConfig.toShape (output : OutputDataConfig) :
    Except Error (Option Submission.OutputDataConfig) :=
  Record.project Submission.OutputDataConfig output

/-- Where visualisation logs are written and uploaded. -/
structure TensorBoardOutputConfig where
  s3OutputPath : Option String := none
  localPath : Option String := some TensorBoardOutputConfig.presetLocalPath
deriving DecidableEq, Repr

def TensorBoardOutputConfig.schema : Schema where
  name := "TensorBoardOutputConfig"
  fields := [
    .optional "s3_output_path" .string,
    .optional "local_path" .string]

instance : Record TensorBoardOutputConfig where
  Row := _
  schema := TensorBoardOutputConfig.schema
  layout :=
    .optional "s3_output_path" .string <|
    .preset "local_path" .string TensorBoardOutputConfig.presetLocalPath <|
    .nil
  absence := .asNull
  row r := (r.s3OutputPath, r.localPath, ())
  ofRow | (s3OutputPath, localPath, ()) => ⟨s3OutputPath, localPath⟩

/-- The location to submit, if anything about it is settled. -/
def TensorBoardOutputConfig.toShape (output : TensorBoardOutputConfig) :
    Except Error (Option Submission.TensorBoardOutputConfig) :=
  Record.project Submission.TensorBoardOutputConfig output

/-- Where checkpoints are written and uploaded. -/
structure CheckpointConfig where
  s3Uri : Option String := none
  localPath : Option String := some CheckpointConfig.presetLocalPath
deriving DecidableEq, Repr

def CheckpointConfig.schema : Schema where
  name := "CheckpointConfig"
  fields := [
    .optional "s3_uri" .string,
    .optional "local_path" .string]

instance : Record CheckpointConfig where
  Row := _
  schema := CheckpointConfig.schema
  layout :=
    .optional "s3_uri" .string <|
    .preset "local_path" .string CheckpointConfig.presetLocalPath <|
    .nil
  absence := .asNull
  row r := (r.s3Uri, r.localPath, ())
  ofRow | (s3Uri, localPath, ()) => ⟨s3Uri, localPath⟩

/-- The location to submit, if anything about it is settled. -/
def CheckpointConfig.toShape (checkpoint : CheckpointConfig) :
    Except Error (Option Submission.CheckpointConfig) :=
  Record.project Submission.CheckpointConfig checkpoint

end TrainingJob.Settings
