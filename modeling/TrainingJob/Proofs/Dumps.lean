import TrainingJob.Proofs.Catalogue

/-!
# What a dump shows

A record forgets how the map was spelled that it was built from: the order of
the members, at every depth, and whether an absent nested member was `null` or
left out. What it remembers is the normal form of the map
(`RecordSort.normalForm`). In it the omitted fields have taken their presets, and
a field that was `null` stays absent even where there is a preset.

The dump of a record is its own normal form, so a record is built again from
what it shows, and showing it once more changes nothing.
-/

set_option autoImplicit false

namespace TrainingJob

open Json

namespace RecordSort

/-- What a record of this sort shows if it is built from a map: an entry for
every declared field, in order. Shapes leave absent entries out. -/
def normalForm (sort : RecordSort) (fields : Fields) : Fields :=
  sort.absence.entries ((Record.schema sort.Carrier).normalForm sort.presets fields)

theorem dump_of_ofFields {sort : RecordSort} {fields : Fields} {record : sort.Carrier}
    (built : Record.ofFields fields = .ok record) : Record.dump record = sort.normalForm fields := by
  rw [Record.dump_of_ofFields built, sort.absence_carrier, sort.presets_layout]
  rfl

/-- **Dump and construction are inverse up to spelling**, for every sort of
record. A dump is valid and builds the record again. A record that was built from
a map shows the normal form of that map, and does so again when it is rebuilt. -/
theorem dump_construction (sort : RecordSort) :
    (∀ record : sort.Carrier, Record.validate record = .ok () ∧
      Record.ofFields (Record.dump record) = .ok record) ∧
    ∀ (fields : Fields) (record : sort.Carrier), Record.ofFields fields = .ok record →
      Record.dump record = sort.normalForm fields ∧
      (Record.ofFields (Record.dump record) : Except Error sort.Carrier).map Record.dump =
        .ok (Record.dump record) := by
  refine ⟨fun record => ⟨?_, Record.ofFields_dump record⟩, fun fields record built => ⟨dump_of_ofFields built, ?_⟩⟩
  · exact Schema.validate_eq_ok_iff.2 (Record.fault?_dump record)
  · rw [Record.ofFields_dump record]
    rfl

theorem dump_construction_checkpoint :
    Record.ofFields [("local_path", .null), ("s3_uri", .string "s3://results")] =
        .ok (⟨some "s3://results", none⟩ : Settings.CheckpointConfig) ∧
      Record.dump (⟨some "s3://results", none⟩ : Settings.CheckpointConfig) =
        [("s3_uri", .string "s3://results"), ("local_path", .null)] := by
  have built : Record.ofFields [("local_path", .null), ("s3_uri", .string "s3://results")] =
      .ok (⟨some "s3://results", none⟩ : Settings.CheckpointConfig) := by rfl
  have shown := ((dump_construction .checkpoint).2 _ _ built).1
  refine ⟨built, ?_⟩
  rw [shown]
  rfl

end RecordSort

end TrainingJob
