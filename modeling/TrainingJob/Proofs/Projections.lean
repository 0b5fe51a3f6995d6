import TrainingJob.Proofs.Record.Projection
import TrainingJob.Proofs.Vocabulary

/-!
# Narrowing between the records of the catalogue

Any record can be narrowed to any sort. The fields that the two share decide
whether there is a result, and the result shows them unchanged: the catalogue
types a shared name alike wherever a value suits both (`RecordSort.agree`).
Presets of the target come in for what is not shared, so only a shape is sure to
show nothing else.
-/

set_option autoImplicit false

namespace TrainingJob

open Json

namespace RecordSort

theorem agree (source target : RecordSort) : Record.Agree source.Carrier target.Carrier :=
  fun _ mem _ twinMem same _ => type_eq_of_accepts source target mem twinMem same

theorem preset_carrier (sort : RecordSort) (name : String) :
    Record.preset sort.Carrier name = (sort.presets.get? name).getD .null := by
  rw [Record.preset, presets_layout]

theorem presets_of_submission {sort : RecordSort} (shape : sort.family = .submission) : sort.presets = [] := by
  cases sort <;> first | rfl | cases shape

/-- **Narrowing**, for every pair of sorts and every record. What the two share is
what the source shows under the names that the target declares, absences apart.
With nothing shared there is no result. Otherwise there is a result exactly if every shared field suits the target
and every field that it requires is shared. The result shows what is shared as the
source does, its own presets otherwise, and a shape shows nothing but what is
shared. A failure names both schemas and has its place from the fault that caused
it, which is one of the target's schema and stands below a field of the target. -/
theorem narrowing (source target : RecordSort) (record : source.Carrier) :
    (Record.shared target.Carrier record = (Record.dump record).filter fun entry =>
      !entry.2.isNull && (Record.schema target.Carrier).declares entry.1) ∧
    (Record.project target.Carrier record = .ok none ↔ Record.shared target.Carrier record = []) ∧
    (Record.shared target.Carrier record ≠ [] →
      ((∃ result : target.Carrier, Record.project target.Carrier record = .ok (some result)) ↔
        (∀ entry ∈ Record.shared target.Carrier record,
          (Record.schema target.Carrier).validateField entry.1 entry.2 = .ok ()) ∧
        ∀ field ∈ (Record.schema target.Carrier).fields, field.isRequired = true →
          field.name ∈ (Record.shared target.Carrier record).names)) ∧
    (∀ result : target.Carrier, Record.project target.Carrier record = .ok (some result) →
      (∀ field ∈ (Record.schema target.Carrier).fields,
        Record.get result field.name =
          .ok (((Record.shared target.Carrier record).get? field.name).getD
            ((target.presets.get? field.name).getD .null))) ∧
      (target.family = .submission →
        target.presets = [] ∧ (Record.dump result).Perm (Record.shared target.Carrier record))) ∧
    ∀ error, Record.project target.Carrier record = .error error →
      ∃ cause, error = .unprojectable (Record.schema source.Carrier).name (Record.schema target.Carrier).name cause ∧
        (Record.schema target.Carrier).validate (Record.shared target.Carrier record) = .error cause ∧
        ((∃ place, cause = .unknownField (Record.schema target.Carrier).name place) ∨
          ∃ place expected found, cause = .mistyped (Record.schema target.Carrier).name place expected found) ∧
        error.path = cause.path ∧
        (∃ name ∈ (Record.schema target.Carrier).fieldNames, ∃ rest, error.path = some (.field name :: rest)) ∧
        error.isValidation = false := by
  refine ⟨List.filter_filter, Record.project_eq_none_iff, Record.exists_project_iff,
    fun result projected => ⟨fun field mem => ?_, ?_⟩, ?_⟩
  · rw [Record.get_of_mem mem, Record.shown_of_project (agree source target) projected mem, preset_carrier]
  · intro shape
    have leftOut : Record.absence target.Carrier = .leftOut := by rw [absence_carrier, absence, shape]
    exact ⟨presets_of_submission shape, Record.dump_perm_shared (agree source target) leftOut projected⟩
  · intro error failed
    obtain ⟨-, cause, rejected, rfl⟩ := Record.project_eq_error_iff.1 failed
    obtain ⟨name, mem, rest, stands⟩ := Record.path_of_rejected rejected
    refine ⟨cause, rfl, rejected, ?_, rfl, ⟨name, mem, rest, stands⟩, rfl⟩
    obtain ⟨fault, -, rfl⟩ := Schema.validate_eq_error_iff.1 rejected
    cases fault with
    | unknown place => exact .inl ⟨place, rfl⟩
    | mistyped place expected found => exact .inr ⟨place, expected, found, rfl⟩

theorem narrowing_instanceGroup :
    (∃ result : Settings.Compute,
      Record.project Settings.Compute (⟨"ml.m5", 2, "gpu"⟩ : Submission.InstanceGroup) = .ok (some result) ∧
        Record.get result "instance_count" = .ok (.integer 2) ∧
        Record.get result "volume_size_in_gb" = .ok (.integer 30)) ∧
    (∃ result : Submission.InstanceGroup,
      Record.project Submission.InstanceGroup (⟨"ml.m5", 2, "gpu"⟩ : Submission.InstanceGroup) = .ok (some result) ∧
        (Record.dump result).Perm
          [("instance_type", .string "ml.m5"), ("instance_count", .integer 2), ("instance_group_name", .string "gpu")]) ∧
    ∃ error,
      Record.project Submission.InstanceGroup ({ instanceCount := some 2 } : Settings.Compute) = .error error ∧
        error.path = some [.field "instance_type"] ∧ error.isValidation = false := by
  refine ⟨?_, ?_, ?_⟩
  · have narrow := narrowing .instanceGroup .compute ⟨"ml.m5", 2, "gpu"⟩
    obtain ⟨result, projected⟩ := (narrow.2.2.1 (List.cons_ne_nil _ _)).2
      ⟨List.forall_mem_cons.2 ⟨rfl, List.forall_mem_singleton.2 rfl⟩, by decide⟩
    have shows := (narrow.2.2.2.1 result projected).1
    refine ⟨result, projected, ?_, ?_⟩
    · exact shows (.optional "instance_count" .integer) (.tail _ (.head _))
    · exact shows (.optional "volume_size_in_gb" .integer) (.tail _ (.tail _ (.head _)))
  · have narrow := narrowing .instanceGroup .instanceGroup ⟨"ml.m5", 2, "gpu"⟩
    obtain ⟨result, projected⟩ := (narrow.2.2.1 (List.cons_ne_nil _ _)).2
      ⟨List.forall_mem_cons.2 ⟨rfl, List.forall_mem_cons.2 ⟨rfl, List.forall_mem_singleton.2 rfl⟩⟩, by decide⟩
    exact ⟨result, projected, ((narrow.2.2.2.1 result projected).2 rfl).2⟩
  · have narrow := narrowing .compute .instanceGroup { instanceCount := some 2 }
    have failed : Record.project Submission.InstanceGroup ({ instanceCount := some 2 } : Settings.Compute) =
        .error (.unprojectable "Compute" "InstanceGroup"
          (.mistyped "InstanceGroup" [.field "instance_type"] "string" "nothing")) := rfl
    obtain ⟨cause, -, -, -, -, -, notValidation⟩ := narrow.2.2.2.2 _ failed
    exact ⟨_, failed, rfl, notValidation⟩

end RecordSort

end TrainingJob
