import TrainingJob.Proofs.Dumps
import TrainingJob.Proofs.Record.Assignment
import TrainingJob.Proofs.Schema.Reordering

/-!
# The order of a document does not count

Two field maps that differ only in the order of members, on any level, have one
verdict and build one record (`member_order_does_not_count`). The only trace that
the order leaves is in the name that is reported, where an object has several
undeclared ones. A record remembers nothing of it, since each field settles to the
normal form of its value (`Record.ofFields_of_alike`).
-/

set_option autoImplicit false

namespace TrainingJob

open Json

/-- Alike field maps build the same record. -/
theorem Record.ofFields_of_alike {R : Type} [Record R] [Lawful R] {fields others : Fields} {record : R}
    (alike : (Value.object fields).Alike (.object others)) (built : ofFields fields = .ok record) :
    ofFields others = .ok record := by
  have accepted : (schema R).fault? fields = none := accepts_of_decode? (ofFields_eq_ok_iff.1 built)
  have otherAccepted : (schema R).fault? others = none :=
    ((FieldType.shape (schema R)).accepts_iff_of_alike alike).1 accepted
  obtain ⟨other, read⟩ := Option.isSome_iff_exists.1 ((isSome_decode?_iff (R := R) others).2 otherAccepted)
  have otherBuilt : ofFields others = .ok other := ofFields_eq_ok_iff.2 read
  have same : record = other := by
    refine ext_shown fun field mem => ?_
    rw [shown_of_ofFields built mem, shown_of_ofFields otherBuilt mem]
    exact Field.settle_of_alike field.type.tidy_of_alike alike ((Schema.fault?_eq_none_iff.1 accepted).2 field mem)
  rw [same, otherBuilt]

/-- **The order of members does not count.** Of two field maps that are alike a schema
accepts both or neither. A mistyped value is reported of both in the same way. If an
undeclared name is reported of one, then one of the same object is reported of the other,
and the same if there is only one. Where they are accepted they build the same record,
which shows its fields in the order of their declarations. -/
theorem member_order_does_not_count :
    (∀ (schema : Schema) (fields others : Fields), (Value.object fields).Alike (.object others) →
      (schema.validate fields = .ok () ↔ schema.validate others = .ok ()) ∧
      (∀ record place expected found, schema.validate fields = .error (.mistyped record place expected found) →
        schema.validate others = .error (.mistyped record place expected found)) ∧
      ∀ record place, schema.validate fields = .error (.unknownField record place) →
        ∃ (parent : Location) (inner : Schema) (members reordered : Fields) (key otherKey : String),
          (FieldType.shape schema).Leads parent (.shape inner) ∧
          (Value.object fields).at? parent = some (.object members) ∧
          (Value.object others).at? parent = some (.object reordered) ∧
          (Value.object members).Alike (.object reordered) ∧
          place = parent ++ [.field key] ∧ key ∈ members.names ∧ inner.declares key = false ∧
          schema.validate others = .error (.unknownField record (parent ++ [.field otherKey])) ∧
          otherKey ∈ reordered.names ∧ inner.declares otherKey = false ∧
          ((∀ name ∈ members.names, inner.declares name = false → name = key) → otherKey = key)) ∧
    ∀ (sort : RecordSort) (fields others : Fields), (Value.object fields).Alike (.object others) →
      ∀ record : sort.Carrier, Record.ofFields fields = .ok record →
        Record.ofFields others = .ok record ∧ Record.dump record = sort.normalForm fields ∧
        Record.dump record = sort.normalForm others ∧
        (Record.dump record).names.Sublist (Record.schema sort.Carrier).fieldNames := by
  refine ⟨fun schema fields others alike => ?_, fun sort fields others alike record built => ?_⟩
  · have judged : Option.Rel (Fault.Corresponds (.shape schema) (.object fields) (.object others))
        (schema.fault? fields) (schema.fault? others) :=
      (FieldType.shape schema).fault?_of_alike _ _ alike
    unfold Schema.validate
    generalize schema.fault? fields = found at judged ⊢
    generalize schema.fault? others = otherFound at judged ⊢
    cases judged with
    | none => exact ⟨Iff.rfl, nofun, nofun⟩
    | some corresponds =>
      refine ⟨⟨nofun, nofun⟩, fun record place expected kind rejected => ?_, fun record place rejected => ?_⟩
      · cases corresponds with
        | mistyped place expected kind => exact rejected
        | unknown => cases rejected
      · cases corresponds with
        | mistyped place expected kind => cases rejected
        | @unknown parent inner members reordered key otherKey leads holds otherHolds inside first otherFirst =>
          cases rejected
          obtain ⟨held, undeclared⟩ := Schema.of_undeclared?_eq_some first
          obtain ⟨otherHeld, otherUndeclared⟩ := Schema.of_undeclared?_eq_some otherFirst
          refine ⟨parent, inner, members, reordered, key, otherKey, leads, holds, otherHolds, inside, rfl, held,
            undeclared, rfl, otherHeld, otherUndeclared, fun only => ?_⟩
          exact only otherKey ((inside.mem_names_iff otherKey).2 otherHeld) otherUndeclared
  · have otherBuilt := Record.ofFields_of_alike alike built
    exact ⟨otherBuilt, RecordSort.dump_of_ofFields built, RecordSort.dump_of_ofFields otherBuilt,
      Record.names_dump_sublist record⟩

theorem member_order_does_not_count_inputData :
    let source := Value.object [("s3_data_type", .string "S3Prefix"), ("s3_uri", .string "s3://bucket/x")]
    let reordered := Value.object [("s3_uri", .string "s3://bucket/x"), ("s3_data_type", .string "S3Prefix")]
    (∃ input : Settings.InputData,
      Record.ofFields [("channel_name", .string "train"), ("data_source", source)] = .ok input ∧
        Record.ofFields [("data_source", reordered), ("channel_name", .string "train")] = .ok input) ∧
      Submission.Tag.schema.validate [("value", .integer 1), ("key", .integer 2)] =
        .error (.mistyped "Tag" [.field "key"] "string" "integer") ∧
      ∃ key, Submission.Tag.schema.validate [("team", .null), ("key", .integer 2)] =
          .error (.unknownField "Tag" [.field key]) ∧
        Submission.Tag.schema.declares key = false := by
  intro source reordered
  have inside : source.Alike reordered := .of_perm (by decide) (.swap _ _ _)
  have alike : (Value.object [("channel_name", .string "train"), ("data_source", source)]).Alike
      (.object [("data_source", reordered), ("channel_name", .string "train")]) := by
    refine .object (fun name => ?_) fun name member other held there => ?_
    · simp [Fields.names, or_comm]
    · rcases List.mem_cons.1 (Fields.mem_of_get? held) with first | second
      · cases first
        cases there
        exact .string "train"
      · cases List.mem_singleton.1 second
        cases there
        exact inside
  refine ⟨?_, ?_, ?_⟩
  · have built : Record.ofFields [("channel_name", .string "train"), ("data_source", source)] =
        .ok (⟨"train", .s3 (.ofPrefix "s3://bucket/x")⟩ : Settings.InputData) := rfl
    exact ⟨_, built, (member_order_does_not_count.2 .inputData _ _ alike _ built).1⟩
  · have swapped : (Value.object [("key", .integer 2), ("value", .integer 1)]).Alike
        (.object [("value", .integer 1), ("key", .integer 2)]) := .of_perm (by decide) (.swap _ _ _)
    exact (member_order_does_not_count.1 Submission.Tag.schema _ _ swapped).2.1 _ _ _ _ rfl
  · have swapped : (Value.object [("key", .integer 2), ("team", .null)]).Alike
        (.object [("team", .null), ("key", .integer 2)]) := .of_perm (by decide) (.swap _ _ _)
    obtain ⟨parent, inner, members, others, key, otherKey, leads, -, -, -, place, -, -, rejected, -, undeclared, -⟩ :=
      (member_order_does_not_count.1 Submission.Tag.schema _ _ swapped).2.2 _ _ rfl
    cases parent with
    | cons step rest => cases rest <;> cases place
    | nil =>
      cases leads
      exact ⟨otherKey, rejected, undeclared⟩

end TrainingJob
