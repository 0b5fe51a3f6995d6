import TrainingJob.Proofs.Documents
import TrainingJob.Proofs.Schema.Faults
import TrainingJob.Proofs.Schema.Paths

/-!
# The verdict of the schema

A record is declared twice, as a schema and as a layout, and only the schema is
heard: the typed reading behind it never turns down what the schema accepts, so
the outcome of construction is that of validation (`Record.outcome_ofFields`).

A document adds two ways to fail, and they can be told from the verdict of the
schema. Only a text that is not JSON is malformed (`Record.ofText_malformed_iff`),
and only a text that denotes no object is mistyped as a whole
(`Record.ofText_isMistypedAt_iff`): declared names are plain words, so no place
inside a record is written like the place of the record itself.
-/

set_option autoImplicit false

namespace TrainingJob

open Json

/-- What declared names are made of. -/
def isWordChar (c : Char) : Bool := c.isLower || c.isDigit || c == '_'

/-- A plain word, which no brackets or points can be confused with. -/
def isWord (name : String) : Bool := !name.toList.isEmpty && name.toList.all isWordChar

theorem exists_cons_of_isWord {name : String} (word : isWord name = true) :
    ∃ c cs, name.toList = c :: cs ∧ isWordChar c = true := by
  rw [isWord, Bool.and_eq_true, List.all_eq_true] at word
  obtain ⟨nonempty, chars⟩ := word
  cases spelled : name.toList with
  | nil => simp [spelled] at nonempty
  | cons c cs => exact ⟨c, cs, rfl, chars c (by rw [spelled]; exact .head _)⟩

theorem ne_empty_of_isWord {name : String} (word : isWord name = true) : name ≠ "" := by
  obtain ⟨c, cs, spelled, -⟩ := exists_cons_of_isWord word
  rintro rfl
  cases spelled

/-- A schema whose fields are named by plain words. -/
def Schema.NamesAreWords (schema : Schema) : Prop := ∀ name ∈ schema.fieldNames, isWord name = true

theorem RecordSort.namesAreWords (sort : RecordSort) : (Record.schema sort.Carrier).NamesAreWords := by
  unfold Schema.NamesAreWords
  cases sort <;> decide +kernel

/-- A value of a wrong type, at the place of that text. -/
def Error.IsMistypedAt (place : String) : Error → Prop
  | .mistyped _ location _ _ => location.render = place
  | _ => False

/-- A schema never puts the blame on the record as a whole. -/
theorem Schema.not_isMistypedAt_of_validate {schema : Schema} (words : schema.NamesAreWords) {fields : Fields}
    {error : Error} (rejected : schema.validate fields = .error error) : ¬ error.IsMistypedAt "<record>" := by
  intro whole
  cases error with
  | mistyped record location expected found =>
    obtain ⟨name, mem, rest, rfl⟩ := location_of_mistyped rejected
    obtain ⟨c, cs, spelled, wordChar⟩ := exists_cons_of_isWord (words name mem)
    obtain ⟨suffix, rendered⟩ := Location.render_cons_field (ne_empty_of_isWord (words name mem)) rest
    have text : name ++ suffix = "<record>" := rendered ▸ whole
    have start : c :: (cs ++ suffix.toList) = '<' :: "record>".toList := by
      rw [← List.cons_append, ← spelled, ← String.toList_append, text]
      rfl
    rw [(List.cons.inj start).1] at wordChar
    exact absurd wordChar (by decide)
  | _ => exact whole

namespace Record

variable {R : Type} [Record R]

/-- A text that denotes something else than an object is mistyped as a whole. -/
theorem ofText_of_not_object {text : String} {value : Value} (denotes : Value.ofText? text = some value)
    (other : value.kind ≠ .object) :
    (ofText text : Except Error R) =
      .error (.mistyped (schema R).name wholeRecord Kind.object.name value.kind.name) := by
  rw [ofText, denotes]
  cases value with
  | object members => exact absurd rfl other
  | _ => rfl

variable [Lawful R]

/-- Only a text that is not JSON is malformed. -/
theorem ofText_malformed_iff {text : String} :
    (∃ detail, (ofText text : Except Error R) = .error (.malformed detail)) ↔ Value.ofText? text = none := by
  constructor
  · rintro ⟨detail, failed⟩
    cases denotes : Value.ofText? text with
    | none => rfl
    | some value =>
      by_cases object : value.kind = .object
      · cases value with
        | object members =>
          rw [ofText_of_object denotes, ofFields_eq_error_iff] at failed
          cases Schema.isValidation_of_validate failed
        | _ => cases object
      · rw [ofText_of_not_object denotes object] at failed
        cases failed
  · intro unread
    rw [ofText, unread]
    exact ⟨_, rfl⟩

/-- Only a text that denotes no object is mistyped as a whole. -/
theorem ofText_isMistypedAt_iff (words : (schema R).NamesAreWords) {text : String} :
    (∃ error, (ofText text : Except Error R) = .error error ∧ error.IsMistypedAt "<record>") ↔
      ∃ value, Value.ofText? text = some value ∧ value.kind ≠ .object := by
  constructor
  · rintro ⟨error, failed, whole⟩
    cases denotes : Value.ofText? text with
    | none =>
      rw [ofText, denotes] at failed
      cases failed
      cases whole
    | some value =>
      refine ⟨value, rfl, fun object => ?_⟩
      cases value with
      | object members =>
        rw [ofText_of_object denotes, ofFields_eq_error_iff] at failed
        exact Schema.not_isMistypedAt_of_validate words failed whole
      | _ => cases object
  · rintro ⟨value, denotes, other⟩
    exact ⟨_, ofText_of_not_object denotes other, Location.render_field _⟩

end Record

/-- **Construction gives the verdict of the schema**, for every sort of record.
The outcome of construction is that of validation, the typed reading succeeds
on all that is valid, and a document that denotes an object is judged like that
object. Documents that do not are set apart by their errors. Only valid maps come
to the typed reading, so that it fails on the others has no effect on any outcome. -/
theorem RecordSort.construction_verdict (sort : RecordSort) :
    (∀ fields, (Record.ofFields fields : Except Error sort.Carrier).map (fun _ => ()) =
      (Record.schema sort.Carrier).validate fields) ∧
    (∀ fields, (Record.decode? fields : Option sort.Carrier).isSome ↔
      (Record.schema sort.Carrier).validate fields = .ok ()) ∧
    ∀ text,
      ((∃ detail, (Record.ofText text : Except Error sort.Carrier) = .error (.malformed detail)) ↔
        Value.ofText? text = none) ∧
      ((∃ error, (Record.ofText text : Except Error sort.Carrier) = .error error ∧ error.IsMistypedAt "<record>") ↔
        ∃ value, Value.ofText? text = some value ∧ value.kind ≠ .object) ∧
      ∀ members, Value.ofText? text = some (.object members) →
        (Record.ofText text : Except Error sort.Carrier).map (fun _ => ()) =
          (Record.schema sort.Carrier).validate members := by
  refine ⟨Record.outcome_ofFields, fun fields => ?_, fun text => ⟨?_, ?_, fun members denotes => ?_⟩⟩
  · rw [Schema.validate_eq_ok_iff]
    exact Record.isSome_decode?_iff fields
  · exact Record.ofText_malformed_iff
  · exact Record.ofText_isMistypedAt_iff sort.namesAreWords
  · rw [Record.ofText_of_object denotes]
    exact Record.outcome_ofFields members

theorem RecordSort.construction_verdict_compute :
    Value.ofText? "\x7b\"instance_count\": \"4\"\x7d" = some (.object [("instance_count", .string "4")]) ∧
      (Record.ofText "\x7b\"instance_count\": \"4\"\x7d" : Except Error Settings.Compute).map (fun _ => ()) =
        .error (.mistyped "Compute" [.field "instance_count"] "integer" "string") := by
  have denotes : Value.ofText? "\x7b\"instance_count\": \"4\"\x7d" =
      some (.object [("instance_count", .string "4")]) := by decide +kernel
  refine ⟨denotes, ?_⟩
  have documents := (RecordSort.construction_verdict .compute).2.2
  rw [(documents _).2.2 _ denotes]
  rfl

end TrainingJob
