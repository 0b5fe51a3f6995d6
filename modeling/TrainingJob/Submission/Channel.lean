import TrainingJob.Record.Basic

/-!
# Input channels of a submitted job

A channel is a named input of a job. Its data lie in an object store or on a
shared file system, and it may ask for shuffling.
-/

set_option autoImplicit false

namespace TrainingJob.Submission

/-- Data in an object store. -/
structure S3DataSource where
  /-- `S3Prefix`, `ManifestFile` or `AugmentedManifestFile`. -/
  s3DataType : String
  s3Uri : String
  /-- `FullyReplicated` or `ShardedByS3Key`. -/
  s3DataDistributionType : Option String := none
  attributeNames : Option (List String) := none
  instanceGroupNames : Option (List String) := none
deriving DecidableEq, Repr

def S3DataSource.schema : Schema where
  name := "S3DataSource"
  fields := [
    .required "s3_data_type" .string,
    .required "s3_uri" .string,
    .optional "s3_data_distribution_type" .string,
    .optional "attribute_names" (.list .string),
    .optional "instance_group_names" (.list .string)]

instance : Record S3DataSource where
  Row := _
  schema := S3DataSource.schema
  layout :=
    .required "s3_data_type" .string <|
    .required "s3_uri" .string <|
    .optional "s3_data_distribution_type" .string <|
    .optional "attribute_names" (.list .string) <|
    .optional "instance_group_names" (.list .string) <|
    .nil
  absence := .leftOut
  row r := (r.s3DataType, r.s3Uri, r.s3DataDistributionType, r.attributeNames, r.instanceGroupNames, ())
  ofRow
    | (s3DataType, s3Uri, s3DataDistributionType, attributeNames, instanceGroupNames, ()) =>
      ⟨s3DataType, s3Uri, s3DataDistributionType, attributeNames, instanceGroupNames⟩

/-- All objects under a prefix, given to every instance. -/
def S3DataSource.ofPrefix (uri : String) : S3DataSource := { s3DataType := "S3Prefix", s3Uri := uri }

/-- Data on a shared file system. -/
structure FileSystemDataSource where
  fileSystemId : String
  /-- `rw` or `ro`. -/
  fileSystemAccessMode : String
  /-- `EFS` or `FSxLustre`. -/
  fileSystemType : String
  directoryPath : String
deriving DecidableEq, Repr

def FileSystemDataSource.schema : Schema where
  name := "FileSystemDataSource"
  fields := [
    .required "file_system_id" .string,
    .required "file_system_access_mode" .string,
    .required "file_system_type" .string,
    .required "directory_path" .string]

instance : Record FileSystemDataSource where
  Row := _
  schema := FileSystemDataSource.schema
  layout :=
    .required "file_system_id" .string <|
    .required "file_system_access_mode" .string <|
    .required "file_system_type" .string <|
    .required "directory_path" .string <|
    .nil
  absence := .leftOut
  row r := (r.fileSystemId, r.fileSystemAccessMode, r.fileSystemType, r.directoryPath, ())
  ofRow
    | (fileSystemId, fileSystemAccessMode, fileSystemType, directoryPath, ()) =>
      ⟨fileSystemId, fileSystemAccessMode, fileSystemType, directoryPath⟩

/-- Where the data of a channel lie. -/
structure DataSource where
  s3DataSource : Option S3DataSource := none
  fileSystemDataSource : Option FileSystemDataSource := none
deriving DecidableEq, Repr

def DataSource.schema : Schema where
  name := "DataSource"
  fields := [
    .optional "s3_data_source" (.shape S3DataSource.schema),
    .optional "file_system_data_source" (.shape FileSystemDataSource.schema)]

instance : Record DataSource where
  Row := _
  schema := DataSource.schema
  layout :=
    .optional "s3_data_source" (.shape S3DataSource) <|
    .optional "file_system_data_source" (.shape FileSystemDataSource) <|
    .nil
  absence := .leftOut
  row r := (r.s3DataSource, r.fileSystemDataSource, ())
  ofRow | (s3DataSource, fileSystemDataSource, ()) => ⟨s3DataSource, fileSystemDataSource⟩

/-- Shuffling of the input, from a seed. -/
structure ShuffleConfig where
  seed : Int64
deriving DecidableEq, Repr

def ShuffleConfig.schema : Schema where
  name := "ShuffleConfig"
  fields := [
    .required "seed" .integer]

instance : Record ShuffleConfig where
  Row := _
  schema := ShuffleConfig.schema
  layout :=
    .required "seed" .integer <|
    .nil
  absence := .leftOut
  row r := (r.seed, ())
  ofRow | (seed, ()) => ⟨seed⟩

/-- A named input of a job. -/
structure Channel where
  channelName : String
  dataSource : DataSource
  contentType : Option String := none
  compressionType : Option String := none
  recordWrapperType : Option String := none
  /-- `File`, `Pipe` or `FastFile`. -/
  inputMode : Option String := none
  shuffleConfig : Option ShuffleConfig := none
deriving DecidableEq, Repr

def Channel.schema : Schema where
  name := "Channel"
  fields := [
    .required "channel_name" .string,
    .required "data_source" (.shape DataSource.schema),
    .optional "content_type" .string,
    .optional "compression_type" .string,
    .optional "record_wrapper_type" .string,
    .optional "input_mode" .string,
    .optional "shuffle_config" (.shape ShuffleConfig.schema)]

instance : Record Channel where
  Row := _
  schema := Channel.schema
  layout :=
    .required "channel_name" .string <|
    .required "data_source" (.shape DataSource) <|
    .optional "content_type" .string <|
    .optional "compression_type" .string <|
    .optional "record_wrapper_type" .string <|
    .optional "input_mode" .string <|
    .optional "shuffle_config" (.shape ShuffleConfig) <|
    .nil
  absence := .leftOut
  row r :=
    (r.channelName, r.dataSource, r.contentType, r.compressionType, r.recordWrapperType, r.inputMode,
      r.shuffleConfig, ())
  ofRow
    | (channelName, dataSource, contentType, compressionType, recordWrapperType, inputMode,
        shuffleConfig, ()) =>
      ⟨channelName, dataSource, contentType, compressionType, recordWrapperType, inputMode, shuffleConfig⟩

end TrainingJob.Submission
