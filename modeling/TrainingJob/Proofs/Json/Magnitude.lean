import Mathlib.Algebra.Order.Field.Power
import Mathlib.Data.Rat.Cast.Order
import Mathlib.Tactic.Linarith
import Mathlib.Tactic.NormNum
import Mathlib.Tactic.Positivity
import Mathlib.Tactic.Ring
import TrainingJob.Proofs.Json.Numeral

/-!
# Numerals of too great a magnitude

Whether a numeral overflows is judged by the digits that a 64-bit word holds and by a
product that is rounded to 53 bits three times. All this loses less than one part in
`2 ^ 51` (`Numeral.Spells.leading_near`, `Numeral.nearest_near`). So a numeral that has no
value is one of a magnitude of at least `2 ^ 1024`, up to that part
(`Numeral.Spells.le_magnitude_of_value?`), and up to that part every such numeral has no
value (`Numeral.Spells.magnitude_lt_of_value?`).
-/

set_option autoImplicit false

namespace TrainingJob.Json

/-- The exact magnitude of a decimal. -/
def Decimal.magnitude (d : Decimal) : ℚ := d.significand * 10 ^ d.exponent

/-- Neither number exceeds the other by more than one part in `parts`. -/
def Near (parts : ℕ) (a b : ℚ) : Prop := parts * a ≤ (parts + 1) * b ∧ parts * b ≤ (parts + 1) * a

theorem Near.refl {parts : ℕ} {a : ℚ} (nonneg : 0 ≤ a) : Near parts a a :=
  ⟨by linarith, by linarith⟩

/-- Two numbers with the same whole number of units are near if there are many units. -/
theorem Near.of_units {parts : ℕ} {a b unit t : ℚ} (positive : 0 < unit) (many : parts ≤ t)
    (lower : t * unit ≤ a) (upper : a < (t + 1) * unit) (lower' : t * unit ≤ b) (upper' : b < (t + 1) * unit) :
    Near parts a b := by
  have units : parts * unit ≤ t * unit := by gcongr
  have nonneg : (0 : ℚ) ≤ parts := Nat.cast_nonneg parts
  constructor <;> nlinarith

namespace Numeral

/-- A number is rounded to 53 bits by less than one part in `2 ^ 53`. -/
theorem nearest_near (n : ℕ) : Near (2 ^ 53 - 1) (nearest n) n := by
  have bounds : (2 ^ 53 - 1) * nearest n ≤ (2 ^ 53 - 1 + 1) * n ∧
      (2 ^ 53 - 1) * n ≤ (2 ^ 53 - 1 + 1) * nearest n := by
    rw [nearest, Nat.one_shiftLeft]
    have split := Nat.div_add_mod' n (2 ^ (n.log2 - 52))
    have small := Nat.mod_lt n (Nat.two_pow_pos (n.log2 - 52))
    generalize below : n / 2 ^ (n.log2 - 52) = floor at *
    generalize remains : n % 2 ^ (n.log2 - 52) = rest at *
    by_cases few : n.log2 ≤ 52
    · have one : 2 ^ (n.log2 - 52) = 1 := by rw [Nat.sub_eq_zero_of_le few, Nat.pow_zero]
      rw [one] at split small ⊢
      rw [if_neg (by omega)]
      omega
    · have many : 2 ^ 52 * 2 ^ (n.log2 - 52) ≤ n := by
        rw [← Nat.pow_add, Nat.add_sub_cancel' (by omega)]
        exact Nat.log2_self_le (by rintro rfl; exact few (by decide))
      generalize 2 ^ (n.log2 - 52) = unit at *
      split_ifs with up
      · have next : (floor + 1) * unit = floor * unit + unit := Nat.succ_mul floor unit
        omega
      · omega
  exact ⟨by exact_mod_cast bounds.1, by exact_mod_cast bounds.2⟩

/-- Digits after those of `t` leave it the whole number of units of the place where they start. -/
theorem scaled_bounds {digits : List Char} (isDigit : ∀ c ∈ digits, c.isDigit = true) (t : ℕ) (place : ℤ) :
    (t : ℚ) * 10 ^ place ≤ Nat.ofDigitChars 10 digits t * 10 ^ (place - digits.length) ∧
      (Nat.ofDigitChars 10 digits t : ℚ) * 10 ^ (place - digits.length) < (t + 1) * 10 ^ place := by
  induction digits generalizing t place with
  | nil =>
    have positive : (0 : ℚ) < 10 ^ place := by positivity
    rw [Nat.ofDigitChars_nil, List.length_nil, Nat.cast_zero, sub_zero]
    exact ⟨le_refl _, by linarith⟩
  | cons c digits ih =>
    obtain ⟨digit, others⟩ := List.forall_mem_cons.1 isDigit
    obtain ⟨small, -, -⟩ := digitChar_of_isDigit digit
    obtain ⟨lower, upper⟩ := ih others (10 * t + (c.toNat - '0'.toNat)) (place - 1)
    have unit : (10 : ℚ) ^ place = 10 * 10 ^ (place - 1) := by
      rw [zpow_sub_one₀ (by norm_num)]
      ring
    have positive : (0 : ℚ) < 10 ^ (place - 1) := by positivity
    have same : place - 1 - digits.length = place - (c :: digits).length := by
      rw [List.length_cons]
      omega
    have low : (10 * t : ℚ) ≤ (10 * t + (c.toNat - '0'.toNat) : ℕ) := by exact_mod_cast Nat.le_add_right _ _
    have high : ((10 * t + (c.toNat - '0'.toNat) : ℕ) : ℚ) + 1 ≤ 10 * (t + 1) := by
      exact_mod_cast (by omega : 10 * t + (c.toNat - '0'.toNat) + 1 ≤ 10 * (t + 1))
    rw [same] at lower upper
    rw [Nat.ofDigitChars_cons, unit]
    constructor
    · calc (t : ℚ) * (10 * 10 ^ (place - 1)) = 10 * t * 10 ^ (place - 1) := by ring
        _ ≤ (10 * t + (c.toNat - '0'.toNat) : ℕ) * 10 ^ (place - 1) := by gcongr
        _ ≤ _ := lower
    · calc _ < (((10 * t + (c.toNat - '0'.toNat) : ℕ) : ℚ) + 1) * 10 ^ (place - 1) := upper
        _ ≤ 10 * (t + 1) * 10 ^ (place - 1) := by gcongr
        _ = (t + 1) * (10 * 10 ^ (place - 1)) := by ring

/-- Digits are held from the front, up to one that a 64-bit word does not hold. -/
theorem exists_hold {digits : List Char} (isDigit : ∀ c ∈ digits, c.isDigit = true) {t : ℕ}
    (small : t < 0x10000000000000000) :
    ∃ front back, digits = front ++ back ∧ hold t digits = (Nat.ofDigitChars 10 front t, front.length) ∧
      Nat.ofDigitChars 10 front t < 0x10000000000000000 ∧ (back ≠ [] → 2 ^ 60 ≤ Nat.ofDigitChars 10 front t) := by
  induction digits generalizing t with
  | nil => exact ⟨[], [], rfl, rfl, small, fun more => absurd rfl more⟩
  | cons c digits ih =>
    obtain ⟨digit, others⟩ := List.forall_mem_cons.1 isDigit
    obtain ⟨decimal, -, -⟩ := digitChar_of_isDigit digit
    by_cases fits : 10 * t + (c.toNat - '0'.toNat) < 0x10000000000000000
    · obtain ⟨front, back, rfl, held, bounded, many⟩ := ih others fits
      refine ⟨c :: front, back, rfl, ?_, bounded, many⟩
      rw [hold, if_pos fits, held]
      rfl
    · refine ⟨[], c :: digits, rfl, ?_, small, fun _ => ?_⟩
      · rw [hold, if_neg fits]
        rfl
      · rw [Nat.ofDigitChars_nil]
        omega

/-- Whole digits that are not held count as powers of ten, and fraction digits that are held
take one away each. -/
theorem leading_of_hold {n : Numeral} {front back : List Char} {t held count : ℕ} (parts : n.whole = front ++ back)
    (wholeHeld : hold 0 n.whole = (t, front.length)) (fractionHeld : hold t n.fraction = (held, count)) :
    n.leading = (held, back.length - count + n.exponent.getD 0) := by
  simp only [Numeral.leading, wholeHeld, fractionHeld]
  rw [parts, List.length_append, Nat.cast_add, Prod.mk.injEq]
  exact ⟨rfl, by ring⟩

/-- The magnitude told from the first of the whole digits on. -/
theorem magnitude_of_append {n : Numeral} {front back : List Char} (parts : n.whole = front ++ back) :
    n.decimal.magnitude = Nat.ofDigitChars 10 (back ++ n.fraction) (Nat.ofDigitChars 10 front 0) *
      10 ^ (n.exponent.getD 0 - n.fraction.length) := by
  rw [Decimal.magnitude, Numeral.decimal, ofDigits, parts, List.append_assoc, Nat.ofDigitChars_append]

/-- **The leading digits tell the magnitude** up to one part in `2 ^ 60`. -/
theorem Spells.leading_near {text : List Char} {n : Numeral} (spelled : Spells text n) :
    n.leading.1 < 0x10000000000000000 ∧ Near (2 ^ 60) (n.leading.1 * 10 ^ n.leading.2) n.decimal.magnitude := by
  obtain ⟨whole, fraction⟩ := spelled.isDigit
  obtain ⟨front, back, splitWhole, heldWhole, small, manyWhole⟩ :=
    exists_hold whole (by decide : 0 < 0x10000000000000000)
  obtain ⟨held, left, splitFraction, heldFraction, bounded, manyFraction⟩ := exists_hold fraction small
  rw [leading_of_hold splitWhole heldWhole heldFraction, magnitude_of_append splitWhole]
  rw [splitWhole] at whole
  rw [splitFraction] at fraction ⊢
  obtain ⟨-, isDigitBack⟩ := List.forall_mem_append.1 whole
  obtain ⟨isDigitHeld, isDigitLeft⟩ := List.forall_mem_append.1 fraction
  refine ⟨bounded, ?_⟩
  generalize Nat.ofDigitChars 10 front 0 = t at *
  generalize n.exponent.getD 0 = exponent at *
  by_cases wholeHeld : back = []
  · -- what is left are digits of the fraction, after those that are held
    subst wholeHeld
    rw [List.nil_append, List.length_nil, Nat.ofDigitChars_append, Nat.cast_zero, zero_sub, neg_add_eq_sub]
    by_cases allHeld : left = []
    · subst allHeld
      rw [List.append_nil, Nat.ofDigitChars_nil]
      exact .refl (by positivity)
    · obtain ⟨lower, upper⟩ :=
        scaled_bounds isDigitLeft (Nat.ofDigitChars 10 held t) (exponent - held.length)
      have place : exponent - held.length - left.length = exponent - (held ++ left).length := by
        rw [List.length_append]
        omega
      rw [place] at lower upper
      have positive : (0 : ℚ) < 10 ^ (exponent - held.length) := by positivity
      refine .of_units positive ?_ (le_refl _) (by linarith) lower upper
      exact_mod_cast manyFraction allHeld
  · -- digits of the whole part are left, so both numbers continue those in front of them
    obtain ⟨lower, upper⟩ := scaled_bounds isDigitHeld t (back.length + exponent)
    obtain ⟨lower', upper'⟩ :=
      scaled_bounds (List.forall_mem_append.2 ⟨isDigitBack, fraction⟩) t (back.length + exponent)
    have place : (back.length : ℤ) + exponent - held.length = back.length - held.length + exponent := by ring
    have place' : (back.length : ℤ) + exponent - (back ++ (held ++ left)).length =
        exponent - (held ++ left).length := by
      have length : (back ++ (held ++ left)).length = back.length + (held ++ left).length := List.length_append
      omega
    rw [place] at lower upper
    rw [place'] at lower' upper'
    refine .of_units (by positivity) ?_ lower upper lower' upper'
    exact_mod_cast manyWhole wholeHeld

/-- A product of rounded factors that is rounded itself is near the product of the factors. -/
theorem product_near (a b : ℕ) :
    (2 ^ 53 - 1) ^ 3 * (nearest (nearest a * nearest b) : ℚ) ≤ (2 ^ 53) ^ 3 * (a * b) ∧
      (2 ^ 53 - 1) ^ 3 * (a * b : ℚ) ≤ (2 ^ 53) ^ 3 * nearest (nearest a * nearest b) := by
  obtain ⟨upA, downA⟩ := nearest_near a
  obtain ⟨upB, downB⟩ := nearest_near b
  obtain ⟨up, down⟩ := nearest_near (nearest a * nearest b)
  norm_num at upA downA upB downB up down ⊢
  have factors : (9007199254740991 * nearest a : ℚ) * (9007199254740991 * nearest b) ≤
      (9007199254740992 * a) * (9007199254740992 * b) := by gcongr
  have factors' : (9007199254740991 * a : ℚ) * (9007199254740991 * b) ≤
      (9007199254740992 * nearest a) * (9007199254740992 * nearest b) := by gcongr
  constructor <;> linarith

theorem overflows_iff {n : Numeral} :
    n.overflows = true ↔ n.leading.1 ≠ 0 ∧ (308 < n.leading.2 ∨ 0 ≤ n.leading.2 ∧
      1 <<< 1024 ≤ nearest (nearest n.leading.1 * nearest (10 ^ n.leading.2.toNat))) := by
  have judged (significand product limit : ℕ) (exponent : ℤ) :
      (significand != 0 && (308 < exponent || (0 ≤ exponent && limit ≤ product))) = true ↔
        significand ≠ 0 ∧ (308 < exponent ∨ 0 ≤ exponent ∧ limit ≤ product) := by
    simp
  exact judged _ _ _ _

/-- The rounded product is the one of the leading digits and their power of ten. -/
theorem leading_product_near {n : Numeral} (whole : 0 ≤ n.leading.2) :
    (2 ^ 53 - 1) ^ 3 * (nearest (nearest n.leading.1 * nearest (10 ^ n.leading.2.toNat)) : ℚ) ≤
        (2 ^ 53) ^ 3 * (n.leading.1 * 10 ^ n.leading.2) ∧
      (2 ^ 53 - 1) ^ 3 * (n.leading.1 * 10 ^ n.leading.2 : ℚ) ≤
        (2 ^ 53) ^ 3 * nearest (nearest n.leading.1 * nearest (10 ^ n.leading.2.toNat)) := by
  have power : ((10 ^ n.leading.2.toNat : ℕ) : ℚ) = 10 ^ n.leading.2 := by
    rw [Nat.cast_pow, ← zpow_natCast, Int.toNat_of_nonneg whole]
    rfl
  have near := product_near n.leading.1 (10 ^ n.leading.2.toNat)
  rwa [power] at near

theorem two_pow_1024 : (2 : ℚ) ^ 1024 = 2 ^ 51 * 2 ^ 973 := by rw [← pow_add]

/-- One followed by 309 zeros is past the limit. -/
theorem two_pow_le_ten_pow : (2 : ℚ) ^ 1024 ≤ 10 ^ (309 : ℤ) := by
  have naturals : 2 ^ 1024 ≤ 10 ^ 309 := by decide +kernel
  exact_mod_cast naturals

theorem cast_one_shiftLeft (k : ℕ) : ((1 <<< k : ℕ) : ℚ) = 2 ^ k := by
  rw [Nat.one_shiftLeft, Nat.cast_pow, Nat.cast_ofNat]

/-- **A numeral that overflows** has a magnitude of `2 ^ 1024`, up to one part in `2 ^ 51`. -/
theorem Spells.le_magnitude_of_overflows {text : List Char} {n : Numeral} (spelled : Spells text n)
    (overflows : n.overflows = true) : 2 ^ 1024 - 2 ^ 973 ≤ n.decimal.magnitude := by
  obtain ⟨-, above, -⟩ := spelled.leading_near
  have positive : (0 : ℚ) < 2 ^ 973 := by positivity
  rw [two_pow_1024]
  obtain ⟨nonzero, huge | ⟨nonneg, reached⟩⟩ := overflows_iff.1 overflows
  · have one : (1 : ℚ) ≤ n.leading.1 := by exact_mod_cast Nat.one_le_iff_ne_zero.2 nonzero
    have leading : (2 : ℚ) ^ 51 * 2 ^ 973 ≤ n.leading.1 * 10 ^ n.leading.2 :=
      calc (2 : ℚ) ^ 51 * 2 ^ 973 ≤ 10 ^ (309 : ℤ) := two_pow_1024.symm.trans_le two_pow_le_ten_pow
        _ ≤ 10 ^ n.leading.2 := zpow_le_zpow_right₀ (by norm_num) huge
        _ ≤ n.leading.1 * 10 ^ n.leading.2 := le_mul_of_one_le_left (by positivity) one
    generalize (2 : ℚ) ^ 973 = part at *
    norm_num at above leading ⊢
    linarith only [above, leading, positive]
  · obtain ⟨up, -⟩ := leading_product_near nonneg
    have product := (Nat.cast_le (α := ℚ)).2 reached
    rw [(cast_one_shiftLeft 1024).trans two_pow_1024] at product
    generalize (2 : ℚ) ^ 973 = part at *
    norm_num at up above product ⊢
    linarith

/-- What the leading digits and a negative power of ten are near is far from the limit. -/
theorem Spells.magnitude_lt_of_negative {text : List Char} {n : Numeral} (spelled : Spells text n)
    (negative : n.leading.2 < 0) : n.decimal.magnitude < 2 ^ 973 := by
  obtain ⟨held, -, below⟩ := spelled.leading_near
  have small : (10 : ℚ) ^ n.leading.2 ≤ 1 := zpow_le_one_of_nonpos₀ (by norm_num) negative.le
  have leading : n.leading.1 * 10 ^ n.leading.2 ≤ (0x10000000000000000 : ℚ) :=
    calc n.leading.1 * 10 ^ n.leading.2 ≤ (n.leading.1 * 1 : ℚ) := by gcongr
      _ ≤ 0x10000000000000000 := by
        rw [mul_one]
        exact_mod_cast held.le
  have wide : (2 : ℚ) ^ 66 ≤ 2 ^ 973 := pow_le_pow_right₀ (by norm_num) (by norm_num)
  generalize (2 : ℚ) ^ 973 = part at *
  norm_num at below leading wide
  linarith only [below, leading, wide]

/-- **A numeral of a magnitude above `2 ^ 1024`** by one part in `2 ^ 51` overflows. -/
theorem Spells.overflows_of_le_magnitude {text : List Char} {n : Numeral} (spelled : Spells text n)
    (large : 2 ^ 1024 + 2 ^ 973 ≤ n.decimal.magnitude) : n.overflows = true := by
  obtain ⟨-, -, below⟩ := spelled.leading_near
  have positive : (0 : ℚ) < 2 ^ 973 := by positivity
  rw [two_pow_1024] at large
  have nonzero : n.leading.1 ≠ 0 := by
    intro zero
    rw [zero, Nat.cast_zero, zero_mul] at below
    generalize (2 : ℚ) ^ 973 = part at *
    norm_num at below large
    linarith only [below, large, positive]
  refine overflows_iff.2 ⟨nonzero, ?_⟩
  by_cases huge : 308 < n.leading.2
  · exact .inl huge
  · have nonneg : 0 ≤ n.leading.2 := by
      by_contra negative
      have small := spelled.magnitude_lt_of_negative (not_le.1 negative)
      generalize (2 : ℚ) ^ 973 = part at *
      norm_num at large
      linarith only [large, small, positive]
    obtain ⟨-, down⟩ := leading_product_near nonneg
    have product : ((1 <<< 1024 : ℕ) : ℚ) ≤ nearest (nearest n.leading.1 * nearest (10 ^ n.leading.2.toNat)) := by
      rw [(cast_one_shiftLeft 1024).trans two_pow_1024]
      generalize (2 : ℚ) ^ 973 = part at *
      norm_num at down below large ⊢
      linarith
    exact .inr ⟨nonneg, Nat.cast_le.1 product⟩

/-- An integer that a 64-bit word holds has a magnitude of `2 ^ 64` at most. -/
theorem magnitude_le_of_isInteger {n : Numeral} (isInteger : n.isInteger = true) :
    n.decimal.magnitude ≤ 0x10000000000000000 := by
  obtain ⟨bare, -, lower, upper⟩ := isInteger_iff.1 isInteger
  obtain ⟨noFraction, noExponent⟩ := isWhole_iff.1 bare
  have bounded : ofDigits n.whole ≤ 0x10000000000000000 := by
    rw [wholePart, signed] at lower upper
    split_ifs at lower upper <;> omega
  have whole : n.decimal.magnitude = ofDigits n.whole := by
    rw [Decimal.magnitude, Numeral.decimal, noFraction, noExponent]
    simp
  rw [whole]
  exact_mod_cast bounded

/-- **Only a great magnitude has no value**: it is one of `2 ^ 1024`, up to one part in `2 ^ 51`. -/
theorem Spells.le_magnitude_of_value? {text : List Char} {n : Numeral} (spelled : Spells text n)
    (valueless : n.value? = none) : 2 ^ 1024 - 2 ^ 973 ≤ n.decimal.magnitude :=
  spelled.le_magnitude_of_overflows (value?_eq_none_iff.1 valueless).2

/-- **Every great magnitude has no value**, up to one part in `2 ^ 51`. -/
theorem Spells.magnitude_lt_of_value? {text : List Char} {n : Numeral} (spelled : Spells text n)
    (valued : n.value? ≠ none) : n.decimal.magnitude < 2 ^ 1024 + 2 ^ 973 := by
  by_contra large
  have overflows := spelled.overflows_of_le_magnitude (not_lt.1 large)
  have isInteger : n.isInteger = true := by
    by_contra other
    exact valued (value?_eq_none_iff.2 ⟨Bool.eq_false_iff.2 other, overflows⟩)
  have small := magnitude_le_of_isInteger isInteger
  have wide : (2 : ℚ) ^ 64 ≤ 2 ^ 1024 := pow_le_pow_right₀ (by norm_num) (by norm_num)
  have positive : (0 : ℚ) < 2 ^ 973 := by positivity
  generalize (2 : ℚ) ^ 1024 = limit at *
  generalize (2 : ℚ) ^ 973 = part at *
  norm_num at wide
  linarith only [large, small, wide, positive]

end Numeral

end TrainingJob.Json
