import TrainingJob.Proofs.Diagnosis
import TrainingJob.Proofs.Documents
import TrainingJob.Proofs.Json.Magnitude
import TrainingJob.Proofs.Record.Assignment
import TrainingJob.Proofs.Schema.Integers
import TrainingJob.Proofs.Schema.Substitution

/-!
# Integers from text to text

An integer field of a document can be given any number that JSON can spell. It takes
those that a signed 64-bit word holds, spelled without fraction and exponent and other
than `-0`, and what it takes is held and written exactly (`RecordSort.integers_exact`).
Every other number is refused. One that is read at all is refused at the place of the
field, and one that exceeds a 64-bit float makes the text unreadable. The numbers are those
of the grammar (`Numeral.Spells`), and what exceeds a float is said in exact magnitudes
(`Decimal.magnitude`), up to one part in `2 ^ 51`.

The rest of the document does not matter, except that it is accepted with some integer
in that field: the verdict on the document is then that on the number
(`Record.ofText_of_put`). Wherever an accepted document has an integer there is such a
field, since no choice of the catalogue has one inside (`RecordSort.showsIntegers`).
-/

set_option autoImplicit false

namespace TrainingJob

open Json

/-- What an integer field takes, told by the spelling of the number. -/
theorem FieldType.exists_integer_iff {text : List Char} {n : Numeral} (spelled : Numeral.Spells text n) :
    (∃ value, n.value? = some value ∧ FieldType.integer.fault? value = none) ↔
      n.fraction = [] ∧ n.exponent = none ∧ text ≠ ['-', '0'] ∧ FitsWord n.wholePart := by
  constructor
  · rintro ⟨value, denotes, accepts⟩
    obtain ⟨k, fits, rfl⟩ := fault?_integer_eq_none_iff.1 accepts
    obtain ⟨isInteger, rfl⟩ := Numeral.value?_eq_integer_iff.1 denotes
    obtain ⟨bare, notNegativeZero, -, -⟩ := Numeral.isInteger_iff.1 isInteger
    obtain ⟨noFraction, noExponent⟩ := Numeral.isWhole_iff.1 bare
    exact ⟨noFraction, noExponent, fun same => notNegativeZero ((spelled.eq_negativeZero_iff bare).1 same),
      fits⟩
  · rintro ⟨noFraction, noExponent, notNegativeZero, lower, upper⟩
    have bare := Numeral.isWhole_iff.2 ⟨noFraction, noExponent⟩
    have isInteger : n.isInteger = true := by
      refine Numeral.isInteger_iff.2 ⟨bare, fun zero => notNegativeZero ?_, by omega, by omega⟩
      exact (spelled.eq_negativeZero_iff bare).2 zero
    refine ⟨.integer n.wholePart, Numeral.value?_eq_integer_iff.2 ⟨isInteger, rfl⟩, ?_⟩
    exact fault?_integer_eq_none_iff.2 ⟨_, ⟨lower, upper⟩, rfl⟩

namespace Record

variable {R : Type} [Record R]

/-- What a record is loaded from denotes an object. -/
theorem exists_object_of_ofText {text : String} {record : R} (loads : ofText text = .ok record) :
    ∃ members, Value.ofText? text = some (.object members) ∧ ofFields members = .ok record := by
  rw [ofText] at loads
  cases read : Value.ofText? text with
  | none =>
    rw [read] at loads
    cases loads
  | some value =>
    rw [read] at loads
    cases value with
    | object members => exact ⟨members, rfl, loads⟩
    | _ => cases loads

variable [Lawful R]

/-- What a map has at a place below one of its fields, a record that is built from the map
shows there in normal form. -/
theorem at?_dump_of_ofFields (clear : (FieldType.shape (schema R)).isClear = true) {fields : Fields} {record : R}
    (built : ofFields fields = .ok record) {step : Step} {rest : Location} {declared : FieldType}
    (expects : (FieldType.shape (schema R)).at? (step :: rest) = some declared) {part : Value}
    (held : (Value.object fields).at? (step :: rest) = some part) (present : part ≠ .null) :
    (Value.object (dump record)).at? (step :: rest) = some (declared.tidy part) := by
  obtain ⟨inner, expectsInner, expectsOnwards⟩ := Option.bind_eq_some_iff.1 expects
  obtain ⟨piece, here, onwards⟩ := Option.bind_eq_some_iff.1 held
  cases step with
  | index position => cases here
  | field name =>
    obtain ⟨field, found, rfl⟩ := Option.map_eq_some_iff.1 expectsInner
    have mem := Schema.mem_of_field? found
    have read : fields.get? field.name = some piece := by
      rw [Schema.name_of_field? found]
      exact here
    have piecePresent := Value.ne_null_of_at? onwards present
    have shows := shown_of_ofFields built mem
    rw [read, Field.settle_of_present piecePresent] at shows
    have shownPresent : shown record field.name ≠ .null := by
      rw [shows]
      exact FieldType.tidy_ne_null piecePresent
    have dumped : (Value.object (dump record)).part? (.field name) = some (field.type.tidy piece) := by
      rw [← shows, ← Schema.name_of_field? found]
      exact Fields.get?_of_getD shownPresent
    obtain ⟨-, -, inside⟩ := FieldType.isClear_shape_iff.1 clear
    rw [Value.at?, dumped]
    exact FieldType.at?_tidy (inside field mem) expectsOnwards onwards present

/-- An accepted map with another value in the place of an integer is as faulty as an
integer field finds that value. -/
theorem exists_object_put (clear : (FieldType.shape (schema R)).isClear = true) {members : Fields} {record : R}
    (built : ofFields members = .ok record) {place : Location}
    (integral : (FieldType.shape (schema R)).at? place = some .integer) {k : Int}
    (held : (Value.object members).at? place = some (.integer k)) {value : Value} (present : value ≠ .null) :
    ∃ changed, (Value.object members).put place value = .object changed ∧
      (schema R).fault? changed = (FieldType.integer.fault? value).map (Fault.under place) := by
  have accepted : (FieldType.shape (schema R)).fault? (.object members) = none :=
    FieldType.fault?_shape_eq_none_iff.2 ⟨members, rfl, accepts_of_decode? (ofFields_eq_ok_iff.1 built)⟩
  have judged := FieldType.fault?_put clear integral accepted held nofun present
  cases place with
  | nil => cases held
  | cons step rest =>
    cases step with
    | index position => cases held
    | field name =>
      rw [Value.put] at judged ⊢
      exact ⟨_, rfl, judged⟩

/-- **The verdict on a document is that on the value in the place of the integer.** What is
accepted is shown there as it was given. -/
theorem ofText_of_put (clear : (FieldType.shape (schema R)).isClear = true) {members : Fields} {record : R}
    (built : ofFields members = .ok record) {place : Location}
    (integral : (FieldType.shape (schema R)).at? place = some .integer) {k : Int}
    (held : (Value.object members).at? place = some (.integer k)) {value : Value} (present : value ≠ .null)
    {text : String} (denotes : Value.ofText? text = some ((Value.object members).put place value)) :
    (FieldType.integer.fault? value = none →
      ∃ changed : R, ofText text = .ok changed ∧ (Value.object (dump changed)).at? place = some value) ∧
    (FieldType.integer.fault? value ≠ none →
      (ofText text : Except Error R) = .error (.mistyped (schema R).name place "integer" value.kind.name)) := by
  obtain ⟨fields, same, judged⟩ := exists_object_put clear built integral held present
  have there : (Value.object fields).at? place = some value := by
    rw [← same]
    exact Value.at?_put held
  rw [same] at denotes
  rw [ofText_of_object denotes]
  constructor
  · intro accepts
    rw [accepts, Option.map_none, ← isSome_decode?_iff (R := R), Option.isSome_iff_exists] at judged
    obtain ⟨changed, read⟩ := judged
    refine ⟨changed, ofFields_of_decode? read, ?_⟩
    cases place with
    | nil => cases held
    | cons step rest => exact at?_dump_of_ofFields clear (ofFields_of_decode? read) integral there present
  · intro rejects
    have whole := (FieldType.fault?_of_isAtomic rfl value).resolve_left rejects
    rw [whole, Option.map_some, Fault.mismatch, Fault.under_mistyped, List.append_nil] at judged
    exact ofFields_of_fault? judged

/-- **What becomes of a document with another number in the place of the integer.** Either an
integer field takes the number, and then the record shows it there, or the document is
refused, for its text or at that place. -/
theorem ofText_of_gap (clear : (FieldType.shape (schema R)).isClear = true) {members : Fields} {record : R}
    (built : ofFields members = .ok record) {place : Location}
    (integral : (FieldType.shape (schema R)).at? place = some .integer) {k : Int}
    (held : (Value.object members).at? place = some (.integer k)) {before after : String}
    (gap : Gap before after (.object members) place) {literal : String} {n : Numeral}
    (spelled : Numeral.Spells literal.toList n) :
    ((n.fraction = [] ∧ n.exponent = none ∧ literal ≠ "-0" ∧ FitsWord n.wholePart) ∧
      ∃ changed : R, ofText (before ++ literal ++ after) = .ok changed ∧
        (Value.object (dump changed)).at? place = some (.integer n.wholePart)) ∨
    (¬ (n.fraction = [] ∧ n.exponent = none ∧ literal ≠ "-0" ∧ FitsWord n.wholePart) ∧
      ∃ error, (ofText (before ++ literal ++ after) : Except Error R) = .error error ∧
        if n.isInteger = false ∧ n.overflows = true then
          (∃ detail, error = .malformed detail) ∧ 2 ^ 1024 - 2 ^ 973 ≤ n.decimal.magnitude
        else
          (∃ found, error = .mistyped (schema R).name place "integer" found) ∧
            n.decimal.magnitude < 2 ^ 1024 + 2 ^ 973) := by
  have denotes := gap literal n spelled
  have notNegativeZero : literal.toList ≠ ['-', '0'] ↔ literal ≠ "-0" := by
    rw [ne_eq, ne_eq, ← String.toList_inj]
    rfl
  rw [← notNegativeZero, ← FieldType.exists_integer_iff spelled]
  cases isValue : n.value? with
  | none =>
    rw [isValue] at denotes
    refine .inr ⟨?_, .malformed "not a JSON text", ?_, ?_⟩
    · rintro ⟨value, absent, -⟩
      cases absent
    · rw [ofText, denotes]
      rfl
    · rw [if_pos (Numeral.value?_eq_none_iff.1 isValue)]
      exact ⟨⟨_, rfl⟩, spelled.le_magnitude_of_value? isValue⟩
  | some value =>
    rw [isValue] at denotes
    obtain ⟨taken, refused⟩ := ofText_of_put clear built integral held (Numeral.value?_ne_null isValue) denotes
    by_cases accepts : FieldType.integer.fault? value = none
    · obtain ⟨changed, loaded, shows⟩ := taken accepts
      obtain ⟨whole, -, rfl⟩ := FieldType.fault?_integer_eq_none_iff.1 accepts
      obtain ⟨-, rfl⟩ := Numeral.value?_eq_integer_iff.1 isValue
      exact .inl ⟨⟨_, rfl, accepts⟩, changed, loaded, shows⟩
    · refine .inr ⟨?_, _, refused accepts, ?_⟩
      · rintro ⟨_, ⟨⟩, otherAccepts⟩
        exact accepts otherAccepts
      · have valued : n.value? ≠ none := isValue ▸ Option.some_ne_none value
        rw [if_neg (mt Numeral.value?_eq_none_iff.2 valued)]
        exact ⟨⟨_, rfl⟩, spelled.magnitude_lt_of_value? valued⟩

end Record

/-- No choice of the catalogue has an integer field inside. -/
theorem RecordSort.showsIntegers (sort : RecordSort) :
    (FieldType.shape (Record.schema sort.Carrier)).throughout FieldType.showsIntegers = true := by
  cases sort <;> decide +kernel

/-- **Integer fields are exact from text to text.** Of every sort, where a document that is
accepted has an integer there is an integer field, its text has the numeral of that integer
there, and any other number can be spelled in its place. The document is accepted exactly if
that number has no fraction and no exponent, is not `-0`, and is one of a signed 64-bit word.
Then the field holds exactly that number, and the record is written with its numeral in that
field. Any other number is refused, at the place of the field unless its magnitude exceeds a
64-bit float, in which case the text is malformed: it is then at least `2 ^ 1024`, and
otherwise less, up to one part in `2 ^ 51`. -/
theorem RecordSort.integers_exact (sort : RecordSort) {text : String} {document : Value} {record : sort.Carrier}
    (denotes : Value.ofText? text = some document) (loads : Record.ofText text = .ok record) {place : Location}
    {k : Int} (held : document.at? place = some (.integer k)) :
    (FieldType.shape (Record.schema sort.Carrier)).at? place = some .integer ∧
      ∃ before after, text = before ++ toString k ++ after ∧ Gap before after document place ∧
        ∀ (literal : String) (n : Numeral), Numeral.Spells literal.toList n →
          ((∃ changed : sort.Carrier, Record.ofText (before ++ literal ++ after) = .ok changed) ↔
            n.fraction = [] ∧ n.exponent = none ∧ literal ≠ "-0" ∧ FitsWord n.wholePart) ∧
          (∀ changed : sort.Carrier, Record.ofText (before ++ literal ++ after) = .ok changed →
            (Value.object (Record.dump changed)).at? place = some (.integer n.wholePart) ∧
            ∃ front back, Record.toText changed = front ++ toString n.wholePart ++ back ∧
              Gap front back (.object (Record.dump changed)) place) ∧
          ∀ error, (Record.ofText (before ++ literal ++ after) : Except Error sort.Carrier) = .error error →
            if n.isInteger = false ∧ n.overflows = true then
              (∃ detail, error = .malformed detail) ∧ 2 ^ 1024 - 2 ^ 973 ≤ n.decimal.magnitude
            else
              (∃ found, error = .mistyped (Record.schema sort.Carrier).name place "integer" found) ∧
                n.decimal.magnitude < 2 ^ 1024 + 2 ^ 973 := by
  obtain ⟨before, after, parts, gap⟩ := Value.exists_gap denotes held
  obtain ⟨members, isObject, built⟩ := Record.exists_object_of_ofText loads
  rw [isObject] at denotes
  cases denotes
  have accepted : (FieldType.shape (Record.schema sort.Carrier)).fault? (.object members) = none :=
    FieldType.fault?_shape_eq_none_iff.2 ⟨members, rfl, Record.accepts_of_decode? (Record.ofFields_eq_ok_iff.1 built)⟩
  have reaches := (FieldType.reaches_of_accepts accepted held).1
  have integral := FieldType.at?_of_reaches_integer sort.showsIntegers reaches rfl
  refine ⟨integral, before, after, parts, gap, fun literal n spelled => ?_⟩
  rcases Record.ofText_of_gap sort.isClear built integral held gap spelled with
    ⟨takes, changed, loaded, shows⟩ | ⟨refuses, error, failed, told⟩
  · rw [loaded]
    refine ⟨iff_of_true ⟨changed, rfl⟩ takes, ?_, ?_⟩
    · rintro _ ⟨⟩
      exact ⟨shows, Value.exists_gap (Record.ofText?_toText sort.depth_le_maxDepth changed) shows⟩
    · intro error failed
      cases failed
  · rw [failed]
    refine ⟨iff_of_false ?_ refuses, ?_, ?_⟩
    · rintro ⟨changed, loaded⟩
      cases loaded
    · intro changed loaded
      cases loaded
    · rintro _ ⟨⟩
      exact told

theorem RecordSort.integers_exact_compute :
    let text := "\x7b\"instance_groups\": [\x7b\"instance_type\": \"ml.m5\", \"instance_count\": 2, " ++
      "\"instance_group_name\": \"gpu\"\x7d]\x7d"
    let place : Location := [.field "instance_groups", .index 0, .field "instance_count"]
    ∃ before after, text = before ++ "2" ++ after ∧
      (∃ changed : Settings.Compute, Record.ofText (before ++ "-9223372036854775808" ++ after) = .ok changed ∧
        (Value.object (Record.dump changed)).at? place = some (.integer (-9223372036854775808))) ∧
      (∀ changed : Settings.Compute, Record.ofText (before ++ "9223372036854775808" ++ after) ≠ .ok changed) ∧
      (∀ changed : Settings.Compute, Record.ofText (before ++ "2.0" ++ after) ≠ .ok changed) ∧
      ∀ error, (Record.ofText (before ++ "1e309" ++ after) : Except Error Settings.Compute) = .error error →
        ∃ detail, error = .malformed detail := by
  intro text place
  have denotes : Value.ofText? text = some (.object [("instance_groups", .list [.object
      [("instance_type", .string "ml.m5"), ("instance_count", .integer 2), ("instance_group_name", .string "gpu")]])]) := by
    decide +kernel +zetaReduce
  have loads : Record.ofText text = .ok ({ instanceGroups := some [⟨"ml.m5", 2, "gpu"⟩] } : Settings.Compute) := by
    rw [Record.ofText_of_object denotes]
    rfl
  obtain ⟨-, before, after, parts, -, put⟩ := RecordSort.integers_exact .compute denotes loads
    (show Value.at? _ place = some (.integer 2) from rfl)
  obtain ⟨lowest, holds, -⟩ := put "-9223372036854775808" ⟨true, "9223372036854775808".toList, [], none⟩
    (Numeral.scan_eq_some_iff.1 rfl)
  obtain ⟨tooHigh, -⟩ := put "9223372036854775808" ⟨false, "9223372036854775808".toList, [], none⟩
    (Numeral.scan_eq_some_iff.1 rfl)
  obtain ⟨fraction, -⟩ := put "2.0" ⟨false, ['2'], ['0'], none⟩ (Numeral.scan_eq_some_iff.1 rfl)
  obtain ⟨-, -, tooGreat⟩ := put "1e309" ⟨false, ['1'], [], some 309⟩ (Numeral.scan_eq_some_iff.1 rfl)
  refine ⟨before, after, parts, ?_, fun changed loaded => ?_, fun changed loaded => ?_, fun error failed => ?_⟩
  · obtain ⟨changed, loaded⟩ := lowest.2 (by decide)
    exact ⟨changed, loaded, (holds changed loaded).1⟩
  · exact absurd (tooHigh.1 ⟨changed, loaded⟩) (by decide)
  · exact absurd (fraction.1 ⟨changed, loaded⟩) (by decide)
  · have told := tooGreat error failed
    rw [if_pos (by decide)] at told
    exact told.1

end TrainingJob
