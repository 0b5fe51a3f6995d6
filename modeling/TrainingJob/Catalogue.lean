import TrainingJob.Record.Document
import TrainingJob.Settings.Artifacts
import TrainingJob.Settings.Cluster
import TrainingJob.Settings.Input
import TrainingJob.Settings.Source
import TrainingJob.Submission.Image
import TrainingJob.Submission.Labels
import TrainingJob.Submission.Limits
import TrainingJob.Submission.Switches

/-!
# The catalogue of records

All sorts of records, as data: seven of settings and twenty shapes for
submission. Each sort knows the structure that carries its records, so a
statement about every record is a statement about every sort.
-/

set_option autoImplicit false

namespace TrainingJob

/-- Settings are what a user writes, submission shapes are what the service takes. -/
inductive Family where
  | settings
  | submission
deriving DecidableEq, Repr

/-- The sorts of records. Where a setting and a shape have one name, the sort of
the shape says so. -/
inductive RecordSort where
  | sourceCode | compute | networking | inputData
  | outputData | tensorBoard | checkpoint
  | resourceConfig | instanceGroup | vpcConfig
  | outputDataShape | tensorBoardShape | checkpointShape
  | s3DataSource | fileSystemDataSource | dataSource | shuffleConfig | channel
  | stoppingCondition | retryStrategy
  | repositoryAuth | trainingImage
  | tag | metricDefinition
  | infraCheck | remoteDebug | sessionChaining
deriving DecidableEq, Repr

namespace RecordSort

/-- Every sort, settings first. -/
def all : List RecordSort := [
  .sourceCode, .compute, .networking, .inputData, .outputData, .tensorBoard, .checkpoint,
  .resourceConfig, .instanceGroup, .vpcConfig, .outputDataShape, .tensorBoardShape,
  .checkpointShape, .s3DataSource, .fileSystemDataSource, .dataSource, .shuffleConfig, .channel,
  .stoppingCondition, .retryStrategy, .repositoryAuth, .trainingImage, .tag, .metricDefinition,
  .infraCheck, .remoteDebug, .sessionChaining]

theorem mem_all (sort : RecordSort) : sort ∈ all := by
  cases sort <;> decide

def family : RecordSort → Family
  | .sourceCode | .compute | .networking | .inputData
  | .outputData | .tensorBoard | .checkpoint => .settings
  | _ => .submission

/-- The structure that carries the records of a sort. -/
abbrev Carrier : RecordSort → Type
  | .sourceCode => Settings.SourceCode
  | .compute => Settings.Compute
  | .networking => Settings.Networking
  | .inputData => Settings.InputData
  | .outputData => Settings.OutputDataConfig
  | .tensorBoard => Settings.TensorBoardOutputConfig
  | .checkpoint => Settings.CheckpointConfig
  | .resourceConfig => Submission.ResourceConfig
  | .instanceGroup => Submission.InstanceGroup
  | .vpcConfig => Submission.VpcConfig
  | .outputDataShape => Submission.OutputDataConfig
  | .tensorBoardShape => Submission.TensorBoardOutputConfig
  | .checkpointShape => Submission.CheckpointConfig
  | .s3DataSource => Submission.S3DataSource
  | .fileSystemDataSource => Submission.FileSystemDataSource
  | .dataSource => Submission.DataSource
  | .shuffleConfig => Submission.ShuffleConfig
  | .channel => Submission.Channel
  | .stoppingCondition => Submission.StoppingCondition
  | .retryStrategy => Submission.RetryStrategy
  | .repositoryAuth => Submission.TrainingRepositoryAuthConfig
  | .trainingImage => Submission.TrainingImageConfig
  | .tag => Submission.Tag
  | .metricDefinition => Submission.MetricDefinition
  | .infraCheck => Submission.InfraCheckConfig
  | .remoteDebug => Submission.RemoteDebugConfig
  | .sessionChaining => Submission.SessionChainingConfig

instance (sort : RecordSort) : Record sort.Carrier :=
  match sort with
  | .sourceCode => inferInstanceAs (Record Settings.SourceCode)
  | .compute => inferInstanceAs (Record Settings.Compute)
  | .networking => inferInstanceAs (Record Settings.Networking)
  | .inputData => inferInstanceAs (Record Settings.InputData)
  | .outputData => inferInstanceAs (Record Settings.OutputDataConfig)
  | .tensorBoard => inferInstanceAs (Record Settings.TensorBoardOutputConfig)
  | .checkpoint => inferInstanceAs (Record Settings.CheckpointConfig)
  | .resourceConfig => inferInstanceAs (Record Submission.ResourceConfig)
  | .instanceGroup => inferInstanceAs (Record Submission.InstanceGroup)
  | .vpcConfig => inferInstanceAs (Record Submission.VpcConfig)
  | .outputDataShape => inferInstanceAs (Record Submission.OutputDataConfig)
  | .tensorBoardShape => inferInstanceAs (Record Submission.TensorBoardOutputConfig)
  | .checkpointShape => inferInstanceAs (Record Submission.CheckpointConfig)
  | .s3DataSource => inferInstanceAs (Record Submission.S3DataSource)
  | .fileSystemDataSource => inferInstanceAs (Record Submission.FileSystemDataSource)
  | .dataSource => inferInstanceAs (Record Submission.DataSource)
  | .shuffleConfig => inferInstanceAs (Record Submission.ShuffleConfig)
  | .channel => inferInstanceAs (Record Submission.Channel)
  | .stoppingCondition => inferInstanceAs (Record Submission.StoppingCondition)
  | .retryStrategy => inferInstanceAs (Record Submission.RetryStrategy)
  | .repositoryAuth => inferInstanceAs (Record Submission.TrainingRepositoryAuthConfig)
  | .trainingImage => inferInstanceAs (Record Submission.TrainingImageConfig)
  | .tag => inferInstanceAs (Record Submission.Tag)
  | .metricDefinition => inferInstanceAs (Record Submission.MetricDefinition)
  | .infraCheck => inferInstanceAs (Record Submission.InfraCheckConfig)
  | .remoteDebug => inferInstanceAs (Record Submission.RemoteDebugConfig)
  | .sessionChaining => inferInstanceAs (Record Submission.SessionChainingConfig)

instance (sort : RecordSort) : DecidableEq sort.Carrier :=
  match sort with
  | .sourceCode => inferInstanceAs (DecidableEq Settings.SourceCode)
  | .compute => inferInstanceAs (DecidableEq Settings.Compute)
  | .networking => inferInstanceAs (DecidableEq Settings.Networking)
  | .inputData => inferInstanceAs (DecidableEq Settings.InputData)
  | .outputData => inferInstanceAs (DecidableEq Settings.OutputDataConfig)
  | .tensorBoard => inferInstanceAs (DecidableEq Settings.TensorBoardOutputConfig)
  | .checkpoint => inferInstanceAs (DecidableEq Settings.CheckpointConfig)
  | .resourceConfig => inferInstanceAs (DecidableEq Submission.ResourceConfig)
  | .instanceGroup => inferInstanceAs (DecidableEq Submission.InstanceGroup)
  | .vpcConfig => inferInstanceAs (DecidableEq Submission.VpcConfig)
  | .outputDataShape => inferInstanceAs (DecidableEq Submission.OutputDataConfig)
  | .tensorBoardShape => inferInstanceAs (DecidableEq Submission.TensorBoardOutputConfig)
  | .checkpointShape => inferInstanceAs (DecidableEq Submission.CheckpointConfig)
  | .s3DataSource => inferInstanceAs (DecidableEq Submission.S3DataSource)
  | .fileSystemDataSource => inferInstanceAs (DecidableEq Submission.FileSystemDataSource)
  | .dataSource => inferInstanceAs (DecidableEq Submission.DataSource)
  | .shuffleConfig => inferInstanceAs (DecidableEq Submission.ShuffleConfig)
  | .channel => inferInstanceAs (DecidableEq Submission.Channel)
  | .stoppingCondition => inferInstanceAs (DecidableEq Submission.StoppingCondition)
  | .retryStrategy => inferInstanceAs (DecidableEq Submission.RetryStrategy)
  | .repositoryAuth => inferInstanceAs (DecidableEq Submission.TrainingRepositoryAuthConfig)
  | .trainingImage => inferInstanceAs (DecidableEq Submission.TrainingImageConfig)
  | .tag => inferInstanceAs (DecidableEq Submission.Tag)
  | .metricDefinition => inferInstanceAs (DecidableEq Submission.MetricDefinition)
  | .infraCheck => inferInstanceAs (DecidableEq Submission.InfraCheckConfig)
  | .remoteDebug => inferInstanceAs (DecidableEq Submission.RemoteDebugConfig)
  | .sessionChaining => inferInstanceAs (DecidableEq Submission.SessionChainingConfig)

/-- The record of which nothing is said, for the sorts that have no required part. -/
def blank? : (sort : RecordSort) → Option sort.Carrier
  | .sourceCode => some ({} : Settings.SourceCode)
  | .compute => some ({} : Settings.Compute)
  | .networking => some ({} : Settings.Networking)
  | .outputData => some ({} : Settings.OutputDataConfig)
  | .tensorBoard => some ({} : Settings.TensorBoardOutputConfig)
  | .checkpoint => some ({} : Settings.CheckpointConfig)
  | .dataSource => some ({} : Submission.DataSource)
  | .stoppingCondition => some ({} : Submission.StoppingCondition)
  | .infraCheck => some ({} : Submission.InfraCheckConfig)
  | .remoteDebug => some ({} : Submission.RemoteDebugConfig)
  | .sessionChaining => some ({} : Submission.SessionChainingConfig)
  | _ => none

end RecordSort

end TrainingJob
