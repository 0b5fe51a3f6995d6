import TrainingJob.Json.Numeral

/-!
# How numbers are spelled

The grammar of numbers in a text (`Numeral.Spells`), part by part: an optional minus,
whole digits without a needless zero in front, an optional fraction and an optional
exponent. It says nothing of reading.

The scanner takes a spelling off the front of a text if nothing after it extends it
(`Numeral.Spells.scan_append`), and what it takes is always a spelling
(`Numeral.exists_spells_of_scan`). So it takes the whole of a text exactly if the text
spells a number (`Numeral.scan_eq_some_iff`).
-/

set_option autoImplicit false

namespace TrainingJob.Json.Numeral

/-- Digits that may stand for the whole part of a numeral: a zero only stands alone. -/
structure IsWholePart (digits : List Char) : Prop where
  isDigit : ∀ c ∈ digits, c.isDigit = true
  ne_nil : digits ≠ []
  zero_alone : ∀ tail, digits = '0' :: tail → tail = []

/-- The text is a fraction of these digits. No digits means that there is none. -/
inductive SpellsFraction : List Char → List Char → Prop where
  | absent : SpellsFraction [] []
  | point {digits : List Char} (isDigit : ∀ c ∈ digits, c.isDigit = true) (ne_nil : digits ≠ []) :
      SpellsFraction ('.' :: digits) digits

/-- The text is a sign of an exponent, and tells whether that is negative. -/
inductive SpellsSign : List Char → Bool → Prop where
  | absent : SpellsSign [] false
  | plus : SpellsSign ['+'] false
  | minus : SpellsSign ['-'] true

/-- The text is an exponent of this value, or is empty where there is none. -/
inductive SpellsExponent : List Char → Option Int → Prop where
  | absent : SpellsExponent [] none
  | marked {mark : Char} {sign digits : List Char} {negative : Bool} (isMark : mark = 'e' ∨ mark = 'E')
      (isSign : SpellsSign sign negative) (isDigit : ∀ c ∈ digits, c.isDigit = true) (ne_nil : digits ≠ []) :
      SpellsExponent (mark :: (sign ++ digits)) (some (signed negative (ofDigits digits)))

/-- The text is all of a numeral but its sign. -/
inductive SpellsUnsigned : List Char → Numeral → Prop where
  | parts {negative : Bool} {whole point fraction mark : List Char} {exponent : Option Int}
      (isWhole : IsWholePart whole) (isFraction : SpellsFraction point fraction)
      (isExponent : SpellsExponent mark exponent) :
      SpellsUnsigned (whole ++ (point ++ mark)) ⟨negative, whole, fraction, exponent⟩

/-- The text is a number of the grammar, of these parts. -/
inductive Spells : List Char → Numeral → Prop where
  | positive {text : List Char} {n : Numeral} (sign : n.negative = false) (rest : SpellsUnsigned text n) :
      Spells text n
  | negative {text : List Char} {n : Numeral} (sign : n.negative = true) (rest : SpellsUnsigned text n) :
      Spells ('-' :: text) n

theorem SpellsFraction.isDigit {point fraction : List Char} (spells : SpellsFraction point fraction) :
    ∀ c ∈ fraction, c.isDigit = true := by
  cases spells with
  | absent => exact List.forall_mem_nil _
  | point isDigit => exact isDigit

theorem Spells.isDigit {text : List Char} {n : Numeral} (spells : Spells text n) :
    (∀ c ∈ n.whole, c.isDigit = true) ∧ ∀ c ∈ n.fraction, c.isDigit = true := by
  obtain ⟨-, isWhole, isFraction, -⟩ | ⟨-, isWhole, isFraction, -⟩ := spells <;>
    exact ⟨isWhole.isDigit, isFraction.isDigit⟩

/-- A text that cannot extend a numeral in front of it. -/
def EndsBefore (rest : List Char) : Prop :=
  ∀ c ∈ rest.head?, c.isDigit = false ∧ c ≠ '.' ∧ c ≠ 'e' ∧ c ≠ 'E'

theorem endsBefore_nil : EndsBefore [] := by simp [EndsBefore]

theorem endsBefore_cons {c : Char} {rest : List Char} :
    EndsBefore (c :: rest) ↔ c.isDigit = false ∧ c ≠ '.' ∧ c ≠ 'e' ∧ c ≠ 'E' := by
  simp [EndsBefore]

/-! The scanner takes what is spelled. -/

/-- Digits are scanned up to the first character that is none. -/
theorem scanDigits_append {digits rest : List Char} (isDigit : ∀ c ∈ digits, c.isDigit = true)
    (ne_nil : digits ≠ []) (stops : ∀ c ∈ rest.head?, c.isDigit = false) :
    scanDigits (digits ++ rest) = some (digits, rest) := by
  have hrest : rest.takeWhile Char.isDigit = [] ∧ rest.dropWhile Char.isDigit = rest := by
    cases rest with
    | nil => simp
    | cons c rest => simp [stops c rfl]
  have taken : (digits ++ rest).takeWhile Char.isDigit = digits := by
    rw [List.takeWhile_append_of_pos isDigit, hrest.1, List.append_nil]
  have left : (digits ++ rest).dropWhile Char.isDigit = rest := by
    rw [List.dropWhile_append_of_pos isDigit, hrest.2]
  rw [scanDigits, taken, left]
  cases digits with
  | nil => exact absurd rfl ne_nil
  | cons c digits => rfl

theorem scanWhole_append {digits rest : List Char} (whole : IsWholePart digits)
    (stops : ∀ c ∈ rest.head?, c.isDigit = false) : scanWhole (digits ++ rest) = some (digits, rest) := by
  cases digits with
  | nil => exact absurd rfl whole.ne_nil
  | cons c digits =>
    by_cases zero : c = '0'
    · subst zero
      rw [whole.zero_alone digits rfl]
      rfl
    · rw [← scanDigits_append whole.isDigit whole.ne_nil stops, List.cons_append]
      unfold scanWhole
      split
      · simp_all
      · rfl

/-- A fraction is taken where neither a digit nor a point follows. -/
theorem SpellsFraction.scan_append {point fraction rest : List Char} (spells : SpellsFraction point fraction)
    (ends : ∀ c ∈ rest.head?, c.isDigit = false ∧ c ≠ '.') :
    scanFraction (point ++ rest) = some (fraction, rest) := by
  cases spells with
  | absent =>
    rw [List.nil_append]
    unfold scanFraction
    split
    · exact absurd rfl (ends '.' rfl).2
    · rfl
  | point isDigit ne_nil => exact scanDigits_append isDigit ne_nil fun c mem => (ends c mem).1

/-- The sign of an exponent is taken in front of its digits. -/
theorem SpellsSign.scan_append {sign digits : List Char} {negative : Bool} (spells : SpellsSign sign negative)
    (isDigit : ∀ c ∈ digits, c.isDigit = true) (ne_nil : digits ≠ []) (rest : List Char) :
    scanSign (sign ++ (digits ++ rest)) = (negative, digits ++ rest) := by
  cases spells with
  | plus => rfl
  | minus => rfl
  | absent =>
    obtain ⟨c, digits, rfl⟩ := List.exists_cons_of_ne_nil ne_nil
    have digit : c.isDigit = true := isDigit c List.mem_cons_self
    rw [List.nil_append, List.cons_append]
    unfold scanSign
    split <;> simp_all

theorem SpellsExponent.scan_append {mark rest : List Char} {exponent : Option Int}
    (spells : SpellsExponent mark exponent) (ends : EndsBefore rest) :
    scanExponent (mark ++ rest) = some (exponent, rest) := by
  cases spells with
  | absent =>
    cases rest with
    | nil => rfl
    | cons c rest =>
      obtain ⟨-, -, notLower, notUpper⟩ := endsBefore_cons.1 ends
      simp [scanExponent, notLower, notUpper]
  | @marked mark sign digits negative isMark isSign isDigit ne_nil =>
    have body := scanDigits_append isDigit ne_nil fun c mem => (ends c mem).1
    rw [List.cons_append, List.append_assoc, scanExponent, if_pos isMark, isSign.scan_append isDigit ne_nil, body]
    rfl

theorem SpellsFraction.starts {point fraction : List Char} (spells : SpellsFraction point fraction) :
    ∀ c ∈ point.head?, c = '.' := by
  cases spells <;> simp

theorem SpellsExponent.starts {mark : List Char} {exponent : Option Int} (spells : SpellsExponent mark exponent) :
    ∀ c ∈ mark.head?, c = 'e' ∨ c = 'E' := by
  cases spells with
  | absent => simp
  | marked isMark => simpa using isMark

theorem SpellsFraction.eq_nil {point : List Char} (spells : SpellsFraction point []) : point = [] := by
  cases spells with
  | absent => rfl
  | point isDigit ne_nil => exact absurd rfl ne_nil

theorem SpellsExponent.eq_nil {mark : List Char} (spells : SpellsExponent mark none) : mark = [] := by
  cases spells
  rfl

/-- The parts are taken one after the other: none of them extends the one before. -/
theorem SpellsUnsigned.scan_append {text rest : List Char} {n : Numeral} (spells : SpellsUnsigned text n)
    (ends : EndsBefore rest) : scanUnsigned n.negative (text ++ rest) = some (n, rest) := by
  obtain @⟨negative, whole, point, fraction, mark, exponent, isWhole, isFraction, isExponent⟩ := spells
  have afterPoint : ∀ c ∈ (mark ++ rest).head?, c.isDigit = false ∧ c ≠ '.' := by
    intro c mem
    cases mark with
    | nil => exact ⟨(ends c mem).1, (ends c mem).2.1⟩
    | cons first mark =>
      have starts : c = 'e' ∨ c = 'E' := isExponent.starts c mem
      rcases starts with rfl | rfl <;> decide
  have afterWhole : ∀ c ∈ (point ++ (mark ++ rest)).head?, c.isDigit = false := by
    intro c mem
    cases point with
    | nil => exact (afterPoint c mem).1
    | cons first point =>
      have starts : c = '.' := isFraction.starts c mem
      rw [starts]
      decide
  have takesWhole := scanWhole_append isWhole afterWhole
  have takesFraction := isFraction.scan_append afterPoint
  have takesExponent := isExponent.scan_append ends
  rw [List.append_assoc, List.append_assoc]
  simp [scanUnsigned, takesWhole, takesFraction, takesExponent]

/-- **A spelling is taken** in front of any text that does not extend it. -/
theorem Spells.scan_append {text rest : List Char} {n : Numeral} (spells : Spells text n) (ends : EndsBefore rest) :
    scan (text ++ rest) = some (n, rest) := by
  cases spells with
  | negative sign unsigned =>
    have taken := unsigned.scan_append ends
    rw [sign] at taken
    exact taken
  | positive sign unsigned =>
    have taken := unsigned.scan_append ends
    rw [sign] at taken
    rw [← taken]
    obtain @⟨-, whole, point, -, mark, -, isWhole, -, -⟩ := unsigned
    obtain ⟨c, digits, starts⟩ := List.exists_cons_of_ne_nil isWhole.ne_nil
    have digit : c.isDigit = true := isWhole.isDigit c (starts ▸ List.mem_cons_self)
    rw [starts, List.cons_append, List.cons_append]
    unfold scan
    split
    · simp_all
    · rfl

/-! What the scanner takes is spelled. -/

theorem of_scanDigits {text digits after : List Char} (scanned : scanDigits text = some (digits, after)) :
    text = digits ++ after ∧ digits ≠ [] ∧ ∀ c ∈ digits, c.isDigit = true := by
  obtain ⟨parts, ne_nil⟩ := scanDigits_eq_append scanned
  refine ⟨parts.symm, ne_nil, fun c mem => ?_⟩
  unfold scanDigits at scanned
  split at scanned
  · cases scanned
  · simp only [Option.some.injEq, Prod.mk.injEq] at scanned
    rw [← scanned.1] at mem
    exact List.all_eq_true.1 List.all_takeWhile c mem

theorem of_scanWhole {text digits after : List Char} (scanned : scanWhole text = some (digits, after)) :
    text = digits ++ after ∧ IsWholePart digits := by
  unfold scanWhole at scanned
  split at scanned
  · cases scanned
    exact ⟨rfl, List.forall_mem_singleton.2 rfl, List.cons_ne_nil _ _, by simp⟩
  case h_2 other =>
    obtain ⟨parts, ne_nil, isDigit⟩ := of_scanDigits scanned
    refine ⟨parts, isDigit, ne_nil, ?_⟩
    rintro tail rfl
    exact absurd parts (other _)

theorem exists_spells_of_scanFraction {text fraction after : List Char}
    (scanned : scanFraction text = some (fraction, after)) :
    ∃ point, text = point ++ after ∧ SpellsFraction point fraction := by
  unfold scanFraction at scanned
  split at scanned
  · obtain ⟨rfl, ne_nil, isDigit⟩ := of_scanDigits scanned
    exact ⟨'.' :: fraction, rfl, .point isDigit ne_nil⟩
  · cases scanned
    exact ⟨[], rfl, .absent⟩

theorem exists_spells_scanSign (text : List Char) :
    ∃ sign, text = sign ++ (scanSign text).2 ∧ SpellsSign sign (scanSign text).1 := by
  unfold scanSign
  split
  · exact ⟨['-'], rfl, .minus⟩
  · exact ⟨['+'], rfl, .plus⟩
  · exact ⟨[], rfl, .absent⟩

theorem exists_spells_of_scanExponent {text after : List Char} {exponent : Option Int}
    (scanned : scanExponent text = some (exponent, after)) :
    ∃ mark, text = mark ++ after ∧ SpellsExponent mark exponent := by
  unfold scanExponent at scanned
  split at scanned
  · cases scanned
    exact ⟨[], rfl, .absent⟩
  case h_2 c tail =>
    split at scanned
    case isTrue isMark =>
      obtain ⟨⟨digits, _⟩, body, same⟩ := Option.map_eq_some_iff.1 scanned
      cases same
      obtain ⟨sign, signed, isSign⟩ := exists_spells_scanSign tail
      obtain ⟨parts, ne_nil, isDigit⟩ := of_scanDigits body
      refine ⟨c :: (sign ++ digits), ?_, .marked isMark isSign isDigit ne_nil⟩
      rw [List.cons_append, List.append_assoc, ← parts, ← signed]
    case isFalse =>
      cases scanned
      exact ⟨[], rfl, .absent⟩

theorem exists_spells_of_scanUnsigned {negative : Bool} {text after : List Char} {n : Numeral}
    (scanned : scanUnsigned negative text = some (n, after)) :
    n.negative = negative ∧ ∃ front, text = front ++ after ∧ SpellsUnsigned front n := by
  simp only [scanUnsigned, Option.bind_eq_bind, Option.bind_eq_some_iff, Option.pure_def, Option.some.injEq,
    Prod.mk.injEq, Prod.exists] at scanned
  obtain ⟨whole, afterWhole, scannedWhole, fraction, afterFraction, scannedFraction, exponent, after,
    scannedExponent, rfl, rfl⟩ := scanned
  obtain ⟨rfl, isWhole⟩ := of_scanWhole scannedWhole
  obtain ⟨point, rfl, isFraction⟩ := exists_spells_of_scanFraction scannedFraction
  obtain ⟨mark, rfl, isExponent⟩ := exists_spells_of_scanExponent scannedExponent
  refine ⟨rfl, whole ++ (point ++ mark), ?_, .parts isWhole isFraction isExponent⟩
  rw [List.append_assoc, List.append_assoc]

/-- **What is taken is a spelling.** -/
theorem exists_spells_of_scan {text after : List Char} {n : Numeral} (scanned : scan text = some (n, after)) :
    ∃ front, text = front ++ after ∧ Spells front n := by
  unfold scan at scanned
  split at scanned
  · obtain ⟨sign, front, rfl, unsigned⟩ := exists_spells_of_scanUnsigned scanned
    exact ⟨'-' :: front, rfl, .negative sign unsigned⟩
  · obtain ⟨sign, front, rfl, unsigned⟩ := exists_spells_of_scanUnsigned scanned
    exact ⟨front, rfl, .positive sign unsigned⟩

/-- **A text is scanned as a whole exactly if it spells a number.** -/
theorem scan_eq_some_iff {text : List Char} {n : Numeral} : scan text = some (n, []) ↔ Spells text n := by
  constructor
  · intro scanned
    obtain ⟨front, rfl, spells⟩ := exists_spells_of_scan scanned
    rwa [List.append_nil]
  · intro spells
    have scanned := spells.scan_append endsBefore_nil
    rwa [List.append_nil] at scanned

end TrainingJob.Json.Numeral
