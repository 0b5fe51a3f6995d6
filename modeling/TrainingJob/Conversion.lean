import TrainingJob.Catalogue

/-!
# Conversions

Five sorts of settings have a shape that a job is submitted with. Each of them
is narrowed to its shape by a conversion of its own. What the settings say beyond
the shape stays behind.
-/

set_option autoImplicit false

namespace TrainingJob

/-- The settings that are converted before a job is submitted. -/
inductive Conversion where
  | compute
  | networking
  | outputData
  | tensorBoard
  | checkpoint
deriving DecidableEq, Repr

namespace Conversion

/-- The settings that are converted. -/
def source : Conversion → RecordSort
  | .compute => .compute
  | .networking => .networking
  | .outputData => .outputData
  | .tensorBoard => .tensorBoard
  | .checkpoint => .checkpoint

/-- The shape that they are converted to. -/
def target : Conversion → RecordSort
  | .compute => .resourceConfig
  | .networking => .vpcConfig
  | .outputData => .outputDataShape
  | .tensorBoard => .tensorBoardShape
  | .checkpoint => .checkpointShape

/-- What is declared of the settings. -/
abbrev settings (conversion : Conversion) : Schema := Record.schema conversion.source.Carrier

/-- What is declared of the shape. -/
abbrev shape (conversion : Conversion) : Schema := Record.schema conversion.target.Carrier

/-- The shape to submit, if anything about it is settled. -/
def convert : (conversion : Conversion) → conversion.source.Carrier →
    Except Error (Option conversion.target.Carrier)
  | .compute => Settings.Compute.toShape
  | .networking => Settings.Networking.toShape
  | .outputData => Settings.OutputDataConfig.toShape
  | .tensorBoard => Settings.TensorBoardOutputConfig.toShape
  | .checkpoint => Settings.CheckpointConfig.toShape

/-- Every conversion is a projection. -/
theorem convert_eq_project (conversion : Conversion) (record : conversion.source.Carrier) :
    conversion.convert record = Record.project conversion.target.Carrier record := by
  cases conversion <;> rfl

end Conversion

end TrainingJob
