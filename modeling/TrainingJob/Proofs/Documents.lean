import TrainingJob.Proofs.Catalogue
import TrainingJob.Record.Document

/-!
# Documents read back

The text of a record denotes its dump, so loading it builds the record again. A
dump is shallow enough for the reader, since no schema of the catalogue nests
its shapes as deep as the reader goes.
-/

set_option autoImplicit false

namespace TrainingJob

open Json

namespace Record

variable {R : Type} [Record R]

/-- A text that denotes an object is loaded as that field map. -/
theorem ofText_of_object {text : String} {members : Fields}
    (denotes : Value.ofText? text = some (.object members)) :
    (ofText text : Except Error R) = ofFields members := by
  rw [ofText, denotes]
  rfl

/-- The text of a record denotes its dump. -/
theorem ofText?_toText [Lawful R] (shallow : (FieldType.shape (schema R)).depth ≤ Reader.maxDepth)
    (record : R) : Value.ofText? (toText record) = some (.object (dump record)) :=
  Value.ofText?_toText ((spellable_dump record).mono shallow)

end Record

/-- **Written documents read back**, for every sort of record: the text denotes
the dump, member by member, and loading it gives the record. -/
theorem RecordSort.ofText_toText (sort : RecordSort) (record : sort.Carrier) :
    Value.ofText? (Record.toText record) = some (.object (Record.dump record)) ∧
      Record.ofText (Record.toText record) = .ok record := by
  have denotes := Record.ofText?_toText sort.depth_le_maxDepth record
  refine ⟨denotes, ?_⟩
  rw [Record.ofText_of_object denotes]
  exact Record.ofFields_dump record

end TrainingJob
