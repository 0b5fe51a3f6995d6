import TrainingJob.Record.Projection
import TrainingJob.Submission.Cluster

/-!
# Compute and network settings

What a user says about the machines and the network of a job. Each record
narrows to the shape that is submitted; the switches that the shape does not
declare are used elsewhere.
-/

set_option autoImplicit false

namespace TrainingJob.Settings

open Submission

/-- The storage volume of a job that says nothing about it. -/
def Compute.presetVolumeSizeInGb : Int64 := 30

/-- The machines of a job. -/
structure Compute where
  instanceType : Option String := none
  instanceCount : Option Int64 := none
  /-- The storage volume attached to each instance. -/
  volumeSizeInGb : Option Int64 := some Compute.presetVolumeSizeInGb
  volumeKmsKeyId : Option String := none
  keepAlivePeriodInSeconds : Option Int64 := none
  instanceGroups : Option (List InstanceGroup) := none
  trainingPlanArn : Option String := none
  /-- Whether the job runs on spare capacity. -/
  enableManagedSpotTraining : Option Bool := none
deriving DecidableEq, Repr

def Compute.schema : Schema where
  name := "Compute"
  fields := [
    .optional "instance_type" .string,
    .optional "instance_count" .integer,
    .optional "volume_size_in_gb" .integer,
    .optional "volume_kms_key_id" .string,
    .optional "keep_alive_period_in_seconds" .integer,
    .optional "instance_groups" (.list (.shape InstanceGroup.schema)),
    .optional "training_plan_arn" .string,
    .optional "enable_managed_spot_training" .boolean]

instance : Record Compute where
  Row := _
  schema := Compute.schema
  layout :=
    .optional "instance_type" .string <|
    .optional "instance_count" .integer <|
    .preset "volume_size_in_gb" .integer Compute.presetVolumeSizeInGb <|
    .optional "volume_kms_key_id" .string <|
    .optional "keep_alive_period_in_seconds" .integer <|
    .optional "instance_groups" (.list (.shape InstanceGroup)) <|
    .optional "training_plan_arn" .string <|
    .optional "enable_managed_spot_training" .boolean <|
    .nil
  absence := .asNull
  row r :=
    (r.instanceType, r.instanceCount, r.volumeSizeInGb, r.volumeKmsKeyId, r.keepAlivePeriodInSeconds,
      r.instanceGroups, r.trainingPlanArn, r.enableManagedSpotTraining, ())
  ofRow
    | (instanceType, instanceCount, volumeSizeInGb, volumeKmsKeyId, keepAlivePeriodInSeconds,
        instanceGroups, trainingPlanArn, enableManagedSpotTraining, ()) =>
      ⟨instanceType, instanceCount, volumeSizeInGb, volumeKmsKeyId, keepAlivePeriodInSeconds,
        instanceGroups, trainingPlanArn, enableManagedSpotTraining⟩

namespace Compute

/-- A number of instances of one type. -/
def ofInstances (type : String) (count : Int64) : Compute :=
  { instanceType := some type, instanceCount := some count }

/-- The resources to provision, if any are settled. -/
def toShape (compute : Compute) : Except Error (Option ResourceConfig) :=
  Record.project ResourceConfig compute

end Compute

/-- The network of a job. -/
structure Networking where
  securityGroupIds : Option (List String) := none
  subnets : Option (List String) := none
  /-- Whether the containers are cut off from all but each other. -/
  enableNetworkIsolation : Option Bool := none
  encryptInterContainerTraffic : Option Bool := none
deriving DecidableEq, Repr

def Networking.schema : Schema where
  name := "Networking"
  fields := [
    .optional "security_group_ids" (.list .string),
    .optional "subnets" (.list .string),
    .optional "enable_network_isolation" .boolean,
    .optional "enable_inter_container_traffic_encryption" .boolean]

instance : Record Networking where
  Row := _
  schema := Networking.schema
  layout :=
    .optional "security_group_ids" (.list .string) <|
    .optional "subnets" (.list .string) <|
    .optional "enable_network_isolation" .boolean <|
    .optional "enable_inter_container_traffic_encryption" .boolean <|
    .nil
  absence := .asNull
  row r := (r.securityGroupIds, r.subnets, r.enableNetworkIsolation, r.encryptInterContainerTraffic, ())
  ofRow
    | (securityGroupIds, subnets, enableNetworkIsolation, encryptInterContainerTraffic, ()) =>
      ⟨securityGroupIds, subnets, enableNetworkIsolation, encryptInterContainerTraffic⟩

/-- The network to attach to, if any is settled. -/
def Networking.toShape (networking : Networking) : Except Error (Option VpcConfig) :=
  Record.project VpcConfig networking

end TrainingJob.Settings
