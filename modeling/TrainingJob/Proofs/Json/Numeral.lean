import TrainingJob.Json.Writer
import TrainingJob.Proofs.Json.Spelling

/-!
# Written numbers are numerals

What the writer puts down for a number spells one numeral (`Numeral.spells_writeInteger`,
`Numeral.spells_writeDecimal`). The numeral of an integer denotes that integer as
long as a 64-bit word holds it (`Numeral.value?_ofInteger`), and no other text spells
a numeral that does (`Numeral.Spells.text_of_value?`).
-/

set_option autoImplicit false

namespace TrainingJob.Json.Numeral

/-- The numeral that is written for an integer. -/
def ofInteger (n : Int) : Numeral := ⟨decide (n < 0), Nat.toDigits 10 n.natAbs, [], none⟩

/-- The numeral that is written for a decimal. -/
def ofDecimal (d : Decimal) : Numeral := ⟨d.negative, Nat.toDigits 10 d.significand, [], some d.exponent⟩

theorem isDigit_of_mem_toDigits {n : Nat} : ∀ c ∈ Nat.toDigits 10 n, c.isDigit = true :=
  fun _ mem => Nat.isDigit_of_mem_toDigits (by decide) (by decide) mem

@[simp] theorem ofDigits_toDigits (n : Nat) : ofDigits (Nat.toDigits 10 n) = n :=
  Nat.ofDigitChars_ten_toDigits

/-- Only zero is written with a zero in front. -/
theorem isWholePart_toDigits (n : Nat) : IsWholePart (Nat.toDigits 10 n) := by
  refine ⟨isDigit_of_mem_toDigits, Nat.toDigits_ne_nil, ?_⟩
  induction n using Nat.strongRecOn with
  | ind n ih =>
    intro tail starts
    by_cases small : n < 10
    · rw [Nat.toDigits_of_lt_base small] at starts
      exact (List.cons.inj starts).2.symm
    · rw [Nat.toDigits_of_base_le (by decide) (by omega)] at starts
      obtain ⟨front, h⟩ | ⟨front, h, -⟩ := List.append_eq_cons_iff.1 starts
      · exact absurd front Nat.toDigits_ne_nil
      · have alone := ih (n / 10) (by omega) front h
        have zero : n / 10 = 0 := by
          rw [← ofDigits_toDigits (n / 10), h, alone]
          rfl
        omega

/-- An integer is written as its numeral. -/
theorem spells_writeInteger (n : Int) : Spells (writeInteger n) (ofInteger n) := by
  have unsigned : SpellsUnsigned (Nat.toDigits 10 n.natAbs) (ofInteger n) := by
    have parts : SpellsUnsigned (Nat.toDigits 10 n.natAbs ++ ([] ++ [])) (ofInteger n) :=
      .parts (isWholePart_toDigits n.natAbs) .absent .absent
    rwa [List.append_nil, List.append_nil] at parts
  by_cases negative : n < 0
  · rw [writeInteger, if_pos negative]
    exact .negative (decide_eq_true negative) unsigned
  · rw [writeInteger, if_neg negative]
    exact .positive (decide_eq_false negative) unsigned

/-- The exponent of a decimal is written with a sign only when it is negative. -/
theorem spellsExponent_writeInteger (e : Int) : SpellsExponent ('e' :: writeInteger e) (some e) := by
  have spelled {sign : List Char} {negative : Bool} (isSign : SpellsSign sign negative) :
      SpellsExponent ('e' :: (sign ++ Nat.toDigits 10 e.natAbs)) (some (signed negative e.natAbs)) := by
    have marked :=
      SpellsExponent.marked (.inl rfl) isSign (isDigit_of_mem_toDigits (n := e.natAbs)) Nat.toDigits_ne_nil
    rwa [ofDigits_toDigits] at marked
  by_cases negative : e < 0
  · have value : signed true e.natAbs = e := by
      rw [signed, if_pos rfl]
      omega
    have minus := spelled .minus
    rw [value] at minus
    rw [writeInteger, if_pos negative]
    exact minus
  · have value : signed false e.natAbs = e := by
      rw [signed, if_neg Bool.false_ne_true]
      omega
    have bare := spelled .absent
    rw [value] at bare
    rw [writeInteger, if_neg negative]
    exact bare

/-- A decimal is written as its numeral. -/
theorem spells_writeDecimal (d : Decimal) : Spells (writeDecimal d) (ofDecimal d) := by
  have unsigned : SpellsUnsigned (Nat.toDigits 10 d.significand ++ 'e' :: writeInteger d.exponent) (ofDecimal d) :=
    .parts (isWholePart_toDigits d.significand) .absent (spellsExponent_writeInteger d.exponent)
  rw [writeDecimal, List.append_assoc]
  cases negative : d.negative with
  | true => exact .negative negative unsigned
  | false => exact .positive negative unsigned

theorem wholePart_ofInteger (n : Int) : (ofInteger n).wholePart = n := by
  simp only [wholePart, ofInteger, ofDigits_toDigits, signed, decide_eq_true_eq]
  split <;> omega

/-- The numeral of an integer denotes it, if a 64-bit word holds it, signed or unsigned. -/
theorem value?_ofInteger {n : Int} (lower : -0x8000000000000000 ≤ n) (upper : n < 0x10000000000000000) :
    (ofInteger n).value? = some (.integer n) := by
  have signedZero : ((ofInteger n).negative && n == 0) = false := by
    simp [ofInteger]
    omega
  have held : (ofInteger n).isInteger = true := by
    simp only [isInteger, wholePart_ofInteger, signedZero]
    simp [isWhole, ofInteger]
    omega
  rw [value?, if_pos held, wholePart_ofInteger]

/-- The numeral of a decimal denotes it, unless it overflows. -/
theorem value?_ofDecimal {d : Decimal} (bounded : (ofDecimal d).overflows = false) :
    (ofDecimal d).value? = some (.decimal d) := by
  have notInteger : (ofDecimal d).isInteger = false := by simp [isInteger, isWhole, ofDecimal]
  have exact : (ofDecimal d).decimal = d := by simp [decimal, ofDecimal]
  rw [value?, notInteger, bounded, exact]
  rfl

theorem isWhole_iff {n : Numeral} : n.isWhole = true ↔ n.fraction = [] ∧ n.exponent = none := by
  simp [isWhole]

/-- The character of a digit is made again from its value. -/
theorem digitChar_of_isDigit {c : Char} (digit : c.isDigit = true) :
    c.toNat - '0'.toNat < 10 ∧ Nat.digitChar (c.toNat - '0'.toNat) = c ∧ (c ≠ '0' → 0 < c.toNat - '0'.toNat) := by
  obtain ⟨lower, upper⟩ : 48 ≤ c.toNat ∧ c.toNat ≤ 57 := by
    simpa [Char.isDigit, UInt32.le_iff_toNat_le] using digit
  have zero : '0'.toNat = 48 := rfl
  refine ⟨by omega, ?_, fun notZero => ?_⟩
  · apply Char.toNat_inj.1
    rw [Nat.toNat_digitChar_of_lt_ten (by omega)]
    omega
  · have : c.toNat ≠ '0'.toNat := fun same => notZero (Char.toNat_inj.1 same)
    omega

/-- Digits after those of a positive number are the last digits of a greater one. -/
theorem toDigits_append_digits {digits : List Char} (isDigit : ∀ c ∈ digits, c.isDigit = true) {n : Nat}
    (positive : 0 < n) : Nat.toDigits 10 n ++ digits = Nat.toDigits 10 (Nat.ofDigitChars 10 digits n) := by
  induction digits generalizing n with
  | nil => simp
  | cons c digits ih =>
    obtain ⟨digit, others⟩ := List.forall_mem_cons.1 isDigit
    obtain ⟨small, char, -⟩ := digitChar_of_isDigit digit
    have next := Nat.toDigits_append_toDigits (b := 10) (by decide) positive small
    rw [Nat.toDigits_of_lt_base small, char] at next
    rw [Nat.ofDigitChars_cons, ← ih others (by omega), ← next, List.append_assoc]
    rfl

/-- Digits without a needless zero in front are those of their number. -/
theorem IsWholePart.eq_toDigits {digits : List Char} (whole : IsWholePart digits) :
    digits = Nat.toDigits 10 (ofDigits digits) := by
  cases digits with
  | nil => exact absurd rfl whole.ne_nil
  | cons c digits =>
    obtain ⟨digit, others⟩ := List.forall_mem_cons.1 whole.isDigit
    obtain ⟨small, char, positive⟩ := digitChar_of_isDigit digit
    by_cases zero : c = '0'
    · subst zero
      rw [whole.zero_alone digits rfl]
      rfl
    · rw [ofDigits, Nat.ofDigitChars_cons, Nat.mul_zero, Nat.zero_add,
        ← toDigits_append_digits others (positive zero), Nat.toDigits_of_lt_base small, char]
      rfl

theorem isInteger_iff {n : Numeral} :
    n.isInteger = true ↔ n.isWhole = true ∧ ¬ (n.negative = true ∧ n.wholePart = 0) ∧
      -0x8000000000000000 ≤ n.wholePart ∧ n.wholePart < 0x10000000000000000 := by
  have signedZero : (!(n.negative && n.wholePart == 0)) = true ↔ ¬ (n.negative = true ∧ n.wholePart = 0) := by
    rw [Bool.not_eq_true', Bool.eq_false_iff, ne_eq, Bool.and_eq_true, beq_iff_eq]
  simp only [isInteger, Bool.and_eq_true, signedZero, decide_eq_true_eq, and_assoc]

/-- A numeral has no value exactly if it is no integer and its magnitude exceeds a 64-bit float. -/
theorem value?_eq_none_iff {n : Numeral} : n.value? = none ↔ n.isInteger = false ∧ n.overflows = true := by
  rw [value?]
  cases n.isInteger <;> cases n.overflows <;> simp

theorem value?_ne_null {n : Numeral} {value : Value} (denotes : n.value? = some value) : value ≠ .null := by
  rintro rfl
  rw [value?] at denotes
  split at denotes
  · cases denotes
  · split at denotes <;> cases denotes

theorem value?_eq_integer_iff {n : Numeral} {k : Int} :
    n.value? = some (.integer k) ↔ n.isInteger = true ∧ n.wholePart = k := by
  rw [value?]
  split
  · simp [*]
  · split <;> simp [*]

/-- Without fraction and exponent a numeral has the characters of its sign and its number. -/
theorem Spells.text_of_isWhole {text : List Char} {n : Numeral} (spells : Spells text n) (bare : n.isWhole = true) :
    text = (if n.negative then ['-'] else []) ++ Nat.toDigits 10 (ofDigits n.whole) := by
  have digits {text : List Char} (unsigned : SpellsUnsigned text n) :
      text = Nat.toDigits 10 (ofDigits n.whole) := by
    obtain ⟨noFraction, noExponent⟩ := isWhole_iff.1 bare
    cases unsigned with
    | parts isWhole isFraction isExponent =>
      cases noFraction
      cases noExponent
      rw [isFraction.eq_nil, isExponent.eq_nil, List.append_nil, List.append_nil]
      exact isWhole.eq_toDigits
  cases spells with
  | positive sign unsigned => rw [sign, digits unsigned, if_neg Bool.false_ne_true, List.nil_append]
  | negative sign unsigned => rw [sign, digits unsigned, if_pos rfl, List.singleton_append]

/-- **An integer has a single spelling.** -/
theorem Spells.text_of_value? {text : List Char} {n : Numeral} {k : Int} (spells : Spells text n)
    (denotes : n.value? = some (.integer k)) : text = writeInteger k := by
  obtain ⟨isInteger, rfl⟩ := value?_eq_integer_iff.1 denotes
  obtain ⟨bare, notNegativeZero, -, -⟩ := isInteger_iff.1 isInteger
  rw [spells.text_of_isWhole bare, writeInteger]
  cases sign : n.negative with
  | false =>
    have value : n.wholePart = ofDigits n.whole := by rw [wholePart, sign]; rfl
    simp [value]
  | true =>
    have value : n.wholePart = -(ofDigits n.whole : Int) := by rw [wholePart, sign]; rfl
    have negative : n.wholePart < 0 := by
      have nonzero : n.wholePart ≠ 0 := fun zero => notNegativeZero ⟨sign, zero⟩
      omega
    rw [if_pos negative, value]
    simp

/-- The zero that is no integer is spelled `-0`. -/
theorem Spells.eq_negativeZero_iff {text : List Char} {n : Numeral} (spells : Spells text n)
    (bare : n.isWhole = true) : text = ['-', '0'] ↔ n.negative = true ∧ n.wholePart = 0 := by
  constructor
  · rintro rfl
    cases scan_eq_some_iff.2 spells
    exact ⟨rfl, rfl⟩
  · rintro ⟨sign, zero⟩
    rw [wholePart, sign] at zero
    have zero : ofDigits n.whole = 0 := by
      simpa [signed] using zero
    rw [spells.text_of_isWhole bare, sign, zero]
    rfl

theorem ofList_writeInteger (n : Int) : String.ofList (writeInteger n) = toString n := by
  rw [writeInteger]
  cases n with
  | ofNat n => rfl
  | negSucc n =>
    have text : toString (Int.negSucc n) = "-" ++ String.ofList (Nat.toDigits 10 (n + 1)) := rfl
    rw [if_pos (Int.negSucc_lt_zero n), text, Int.natAbs_negSucc, ← String.toList_inj]
    simp

end TrainingJob.Json.Numeral
