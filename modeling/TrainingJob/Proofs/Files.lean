import TrainingJob.Proofs.Utf8
import TrainingJob.Proofs.Verdict

/-!
# Records from files

A file is read as the text that its bytes spell, and then like any text. A byte order
mark at the start is the first character of that text. If the bytes spell no text
nothing else is looked at, whatever stands before the first byte that is wrong
(`RecordSort.ofFile_reads_text`).
-/

set_option autoImplicit false

namespace TrainingJob

open Json

namespace Record

variable {R : Type} [Record R]

/-- Bytes that spell a text are loaded like that text. -/
theorem ofFile_of_spells {bytes : List UInt8} {text : List Char} (spells : Utf8.Spells bytes text) :
    (ofFile (some bytes.toByteArray) : Except Error R) = ofText (String.ofList text) := by
  have decoded : String.fromUTF8? bytes.toByteArray = some (String.ofList text) := by
    rw [Utf8.fromUTF8?_eq_some_iff, String.toList_ofList]
    exact spells
  rw [ofFile, decoded]

/-- What is wrong with a text is not that it could not be read. -/
theorem ofText_ne_unreadable [Lawful R] (text : String) (fault : FileFault) :
    (ofText text : Except Error R) ≠ .error (.unreadable fault) := by
  intro failed
  cases denotes : Value.ofText? text with
  | none =>
    rw [ofText, denotes] at failed
    cases failed
  | some value =>
    by_cases object : value.kind = .object
    · cases value with
      | object members =>
        rw [ofText_of_object denotes, ofFields_eq_error_iff] at failed
        cases Schema.isValidation_of_validate failed
      | _ => cases object
    · rw [ofText_of_not_object denotes object] at failed
      cases failed

/-- A file is refused as unreadable exactly when its bytes spell no text. -/
theorem ofFile_notText_iff [Lawful R] {bytes : List UInt8} :
    (ofFile (some bytes.toByteArray) : Except Error R) = .error (.unreadable .notText) ↔
      ∀ text, ¬ Utf8.Spells bytes text := by
  constructor
  · intro failed text spells
    rw [ofFile_of_spells spells] at failed
    exact ofText_ne_unreadable _ _ failed
  · intro none
    have undecoded : String.fromUTF8? bytes.toByteArray = Option.none := by
      rw [Option.eq_none_iff_forall_ne_some]
      intro text decoded
      exact none text.toList (Utf8.fromUTF8?_eq_some_iff.1 decoded)
    rw [ofFile, undecoded]
    rfl

end Record

/-- The byte order mark is a character like others. -/
theorem Utf8.Spells.byteOrderMark {bytes : List UInt8} {text : List Char} (spells : Spells bytes text) :
    Spells (0xEF :: 0xBB :: 0xBF :: bytes) ('\uFEFF' :: text) :=
  .cons (encodes_utf8EncodeChar '\uFEFF') spells

/-- **A file is loaded like the text that its bytes spell**, for every sort of record. A
byte order mark is part of the text. Bytes that spell no text are refused as such, and
nothing else is. The bytes of a written record load as that record. -/
theorem RecordSort.ofFile_reads_text (sort : RecordSort) :
    (∀ bytes text, Utf8.Spells bytes text →
      (Record.ofFile (some bytes.toByteArray) : Except Error sort.Carrier) = Record.ofText (String.ofList text) ∧
        (Record.ofFile (some (0xEF :: 0xBB :: 0xBF :: bytes).toByteArray) : Except Error sort.Carrier) =
          Record.ofText (String.ofList ('\uFEFF' :: text))) ∧
    (∀ bytes : List UInt8,
      (Record.ofFile (some bytes.toByteArray) : Except Error sort.Carrier) = .error (.unreadable .notText) ↔
        ∀ text, ¬ Utf8.Spells bytes text) ∧
    ∀ record : sort.Carrier, Record.ofFile (some (Record.toText record).toUTF8) = .ok record := by
  refine ⟨fun bytes text spells => ⟨Record.ofFile_of_spells spells, ?_⟩, fun bytes => Record.ofFile_notText_iff,
    fun record => ?_⟩
  · exact Record.ofFile_of_spells spells.byteOrderMark
  · have denotes := Record.ofText?_toText sort.depth_le_maxDepth record
    rw [Record.ofFile, Utf8.fromUTF8?_toUTF8]
    exact (Record.ofText_of_object denotes).trans (Record.ofFields_dump record)

theorem RecordSort.ofFile_reads_text_tag :
    let text := "\x7b\"value\": \"😀\", \"key\": \"é\"\x7d"
    Utf8.Spells (text.toList.flatMap String.utf8EncodeChar) text.toList ∧
      Record.ofFile (some (text.toList.flatMap String.utf8EncodeChar).toByteArray) =
        .ok (⟨"é", "😀"⟩ : Submission.Tag) ∧
      ∀ text, ¬ Utf8.Spells ("\x7b\"team\": 1\x7d".toList.flatMap String.utf8EncodeChar ++ [0xC0, 0x80]) text := by
  intro text
  have spells := Utf8.spells_iff.2 (Eq.refl (text.toList.flatMap String.utf8EncodeChar))
  obtain ⟨loads, refuses, -⟩ := RecordSort.ofFile_reads_text .tag
  refine ⟨spells, ?_, ?_⟩
  · have denotes : Value.ofText? (String.ofList text.toList) =
        some (.object [("value", .string "😀"), ("key", .string "é")]) := by decide +kernel +zetaReduce
    rw [(loads _ _ spells).1, Record.ofText_of_object denotes]
    rfl
  · have undecoded : String.fromUTF8?
        ("\x7b\"team\": 1\x7d".toList.flatMap String.utf8EncodeChar ++ [0xC0, 0x80]).toByteArray = none := by
      decide +kernel
    refine (refuses _).1 ?_
    rw [Record.ofFile, undecoded]
    rfl

end TrainingJob
