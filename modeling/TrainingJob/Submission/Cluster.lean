import TrainingJob.Record.Basic

/-!
# Machines and network of a submitted job

The instances that a job runs on, either of one type or in named groups of
several types, and the private network that its containers attach to.
-/

set_option autoImplicit false

namespace TrainingJob.Submission

/-- One group of equal instances in a cluster of several. -/
structure InstanceGroup where
  instanceType : String
  instanceCount : Int64
  instanceGroupName : String
deriving DecidableEq, Repr

def InstanceGroup.schema : Schema where
  name := "InstanceGroup"
  fields := [
    .required "instance_type" .string,
    .required "instance_count" .integer,
    .required "instance_group_name" .string]

instance : Record InstanceGroup where
  Row := _
  schema := InstanceGroup.schema
  layout :=
    .required "instance_type" .string <|
    .required "instance_count" .integer <|
    .required "instance_group_name" .string <|
    .nil
  absence := .leftOut
  row r := (r.instanceType, r.instanceCount, r.instanceGroupName, ())
  ofRow
    | (instanceType, instanceCount, instanceGroupName, ()) =>
      ⟨instanceType, instanceCount, instanceGroupName⟩

/-- The resources provisioned for a job. -/
structure ResourceConfig where
  instanceType : Option String := none
  instanceCount : Option Int64 := none
  /-- The storage volume attached to each instance. -/
  volumeSizeInGb : Int64
  /-- The key that encrypts the storage volume. -/
  volumeKmsKeyId : Option String := none
  /-- How long the instances are kept for a next job. -/
  keepAlivePeriodInSeconds : Option Int64 := none
  instanceGroups : Option (List InstanceGroup) := none
  /-- The plan that capacity is drawn from. -/
  trainingPlanArn : Option String := none
deriving DecidableEq, Repr

def ResourceConfig.schema : Schema where
  name := "ResourceConfig"
  fields := [
    .optional "instance_type" .string,
    .optional "instance_count" .integer,
    .required "volume_size_in_gb" .integer,
    .optional "volume_kms_key_id" .string,
    .optional "keep_alive_period_in_seconds" .integer,
    .optional "instance_groups" (.list (.shape InstanceGroup.schema)),
    .optional "training_plan_arn" .string]

instance : Record ResourceConfig where
  Row := _
  schema := ResourceConfig.schema
  layout :=
    .optional "instance_type" .string <|
    .optional "instance_count" .integer <|
    .required "volume_size_in_gb" .integer <|
    .optional "volume_kms_key_id" .string <|
    .optional "keep_alive_period_in_seconds" .integer <|
    .optional "instance_groups" (.list (.shape InstanceGroup)) <|
    .optional "training_plan_arn" .string <|
    .nil
  absence := .leftOut
  row r :=
    (r.instanceType, r.instanceCount, r.volumeSizeInGb, r.volumeKmsKeyId, r.keepAlivePeriodInSeconds,
      r.instanceGroups, r.trainingPlanArn, ())
  ofRow
    | (instanceType, instanceCount, volumeSizeInGb, volumeKmsKeyId, keepAlivePeriodInSeconds,
        instanceGroups, trainingPlanArn, ()) =>
      ⟨instanceType, instanceCount, volumeSizeInGb, volumeKmsKeyId, keepAlivePeriodInSeconds,
        instanceGroups, trainingPlanArn⟩

/-- Resources of which only the storage volume is settled. -/
def ResourceConfig.ofVolume (sizeInGb : Int64) : ResourceConfig := { volumeSizeInGb := sizeInGb }

/-- The private network that the containers of a job attach to. -/
structure VpcConfig where
  securityGroupIds : List String
  subnets : List String
deriving DecidableEq, Repr

def VpcConfig.schema : Schema where
  name := "VpcConfig"
  fields := [
    .required "security_group_ids" (.list .string),
    .required "subnets" (.list .string)]

instance : Record VpcConfig where
  Row := _
  schema := VpcConfig.schema
  layout :=
    .required "security_group_ids" (.list .string) <|
    .required "subnets" (.list .string) <|
    .nil
  absence := .leftOut
  row r := (r.securityGroupIds, r.subnets, ())
  ofRow | (securityGroupIds, subnets, ()) => ⟨securityGroupIds, subnets⟩

end TrainingJob.Submission
