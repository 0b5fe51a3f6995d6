import TrainingJob.Record.Projection
import TrainingJob.Submission.Channel
import TrainingJob.Text.Uppercase

/-!
# Input settings

A named input of a job, as a user gives it. Where its data lie is said by a
plain text, a path or an address, or by one of the two shapes that the service
knows. A document does not tell the three apart by a tag, but no value is of two
of these kinds. Inside the container a channel is found by its directory, or
through an environment variable.
-/

set_option autoImplicit false

namespace TrainingJob.Settings

open Json Submission

/-- Where the data of an input lie. -/
inductive DataLocation where
  | uri (text : String)
  | s3 (source : S3DataSource)
  | fileSystem (source : FileSystemDataSource)
deriving DecidableEq, Repr

/-- A location is read as the first of its kinds that fits. -/
def DataLocation.codec : Codec DataLocation where
  type := .oneOf [.string, .shape S3DataSource.schema, .shape FileSystemDataSource.schema]
  encode
    | .uri text => Codec.string.encode text
    | .s3 source => (Codec.shape S3DataSource).encode source
    | .fileSystem source => (Codec.shape FileSystemDataSource).encode source
  decode value :=
    (Codec.string.decode value).map .uri <|>
    ((Codec.shape S3DataSource).decode value).map .s3 <|>
    ((Codec.shape FileSystemDataSource).decode value).map .fileSystem

/-- A named input of a job. -/
structure InputData where
  channelName : String
  dataSource : DataLocation
deriving DecidableEq, Repr

def InputData.schema : Schema where
  name := "InputData"
  fields := [
    .required "channel_name" .string,
    .required "data_source"
      (.oneOf [.string, .shape S3DataSource.schema, .shape FileSystemDataSource.schema])]

instance : Record InputData where
  Row := _
  schema := InputData.schema
  layout :=
    .required "channel_name" .string <|
    .required "data_source" DataLocation.codec <|
    .nil
  absence := .asNull
  row r := (r.channelName, r.dataSource, ())
  ofRow | (channelName, dataSource, ()) => ⟨channelName, dataSource⟩

/-- The directory of the container that holds all channels. -/
def channelRoot : String := "/opt/ml/input/data"

namespace InputData

/-- The directory of the container that holds the data of a channel. -/
def directory (input : InputData) : String := channelRoot ++ "/" ++ input.channelName

/-- The environment variable that leads a training script to the channel. -/
def environmentVariable (input : InputData) : String := "SM_CHANNEL_" ++ Text.uppercase input.channelName

end InputData

end TrainingJob.Settings
