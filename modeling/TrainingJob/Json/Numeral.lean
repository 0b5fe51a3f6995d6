import TrainingJob.Json.Value

/-!
# Numerals

A numeral is a number as JSON spells it: a sign, whole digits without a needless
leading zero, and optionally a fraction and an exponent. `Numeral.scan` reads
one off the front of a text.

What a numeral denotes depends on its spelling (`Numeral.value?`). Without
fraction and exponent it is an integer if a 64-bit word holds it, signed or
unsigned, and it is not `-0`. Every other numeral is a decimal, and has no value
at all when its magnitude exceeds that of a 64-bit float. A numeral of huge
exponent is fine when its digits are zero or its exponent negative.
-/

set_option autoImplicit false

namespace TrainingJob.Json

/-- A number as it is spelled. No fraction digits means no point. -/
structure Numeral where
  negative : Bool
  whole : List Char
  fraction : List Char
  exponent : Option Int
deriving DecidableEq, Repr

namespace Numeral

/-- Digits at the front of a text, at least one, and the text after them. -/
def scanDigits (text : List Char) : Option (List Char × List Char) :=
  match text.takeWhile Char.isDigit with
  | [] => none
  | digits => some (digits, text.dropWhile Char.isDigit)

/-- A zero stands alone: a longer run of digits starts with another digit. -/
def scanWhole : List Char → Option (List Char × List Char)
  | '0' :: rest => some (['0'], rest)
  | text => scanDigits text

/-- A point needs digits after it. -/
def scanFraction : List Char → Option (List Char × List Char)
  | '.' :: rest => scanDigits rest
  | text => some ([], text)

/-- A sign that may stand before the digits of an exponent. -/
def scanSign : List Char → Bool × List Char
  | '-' :: rest => (true, rest)
  | '+' :: rest => (false, rest)
  | text => (false, text)

/-- The number that digits spell. -/
def ofDigits (digits : List Char) : Nat := Nat.ofDigitChars 10 digits 0

def signed (negative : Bool) (n : Nat) : Int := if negative then -(n : Int) else n

def scanExponent : List Char → Option (Option Int × List Char)
  | [] => some (none, [])
  | c :: rest =>
    if c = 'e' ∨ c = 'E' then
      (scanDigits (scanSign rest).2).map fun (digits, after) =>
        (some (signed (scanSign rest).1 (ofDigits digits)), after)
    else some (none, c :: rest)

/-- The numeral after a sign. -/
def scanUnsigned (negative : Bool) (text : List Char) : Option (Numeral × List Char) := do
  let (whole, text) ← scanWhole text
  let (fraction, text) ← scanFraction text
  let (exponent, text) ← scanExponent text
  return (⟨negative, whole, fraction, exponent⟩, text)

/-- The numeral at the front of a text, and the text after it. -/
def scan : List Char → Option (Numeral × List Char)
  | '-' :: rest => scanUnsigned true rest
  | text => scanUnsigned false text

/-- Neither a fraction nor an exponent is spelled. -/
def isWhole (n : Numeral) : Bool := n.fraction.isEmpty && n.exponent.isNone

/-- The number that the sign and the whole digits spell. -/
def wholePart (n : Numeral) : Int := signed n.negative (ofDigits n.whole)

/-- The exact number that a numeral spells. -/
def decimal (n : Numeral) : Decimal where
  negative := n.negative
  significand := ofDigits (n.whole ++ n.fraction)
  exponent := n.exponent.getD 0 - n.fraction.length

/-- Extends a significand by digits as long as an unsigned 64-bit word holds it,
and counts the digits taken. -/
def hold (significand : Nat) : List Char → Nat × Nat
  | [] => (significand, 0)
  | c :: rest =>
    let next := 10 * significand + (c.toNat - '0'.toNat)
    if next < 0x10000000000000000 then
      let (held, count) := hold next rest
      (held, count + 1)
    else (significand, 0)

/-- The nearest number of 53 significant bits. A tie goes to the even one. -/
def nearest (n : Nat) : Nat :=
  let unit := 1 <<< (n.log2 - 52)
  let below := n / unit
  let rest := n % unit
  if unit < 2 * rest ∨ (unit = 2 * rest ∧ below % 2 = 1) then (below + 1) * unit else below * unit

/-- The significand and the power of ten that judge the magnitude of a numeral:
whole digits are held first, each one not held counts as a power of ten, and
then fraction digits are held. -/
def leading (n : Numeral) : Nat × Int :=
  let (significand, wholeHeld) := hold 0 n.whole
  let (significand, fractionHeld) := hold significand n.fraction
  (significand, n.whole.length - wholeHeld - fractionHeld + n.exponent.getD 0)

/-- The magnitude exceeds that of a 64-bit float: the leading digits times their
power of ten, each rounded to 53 bits and so the product, reach `2 ^ 1024`. -/
def overflows (n : Numeral) : Bool :=
  let (significand, exponent) := n.leading
  significand != 0 &&
    (308 < exponent ||
      (0 ≤ exponent && 1 <<< 1024 ≤ nearest (nearest significand * nearest (Nat.pow 10 exponent.toNat))))

/-- The integers that a 64-bit word holds, signed or unsigned. -/
def isInteger (n : Numeral) : Bool :=
  n.isWhole && !(n.negative && n.wholePart == 0) && -0x8000000000000000 ≤ n.wholePart &&
    n.wholePart < 0x10000000000000000

/-- What a numeral denotes, unless it overflows. -/
def value? (n : Numeral) : Option Value :=
  if n.isInteger then some (.integer n.wholePart)
  else if n.overflows then none
  else some (.decimal n.decimal)

theorem scanDigits_eq_append {text digits rest : List Char}
    (h : scanDigits text = some (digits, rest)) :
    digits ++ rest = text ∧ digits ≠ [] := by
  unfold scanDigits at h
  split at h
  · simp at h
  · rename_i hne
    simp only [Option.some.injEq, Prod.mk.injEq] at h
    obtain ⟨rfl, rfl⟩ := h
    exact ⟨List.takeWhile_append_dropWhile, fun he => hne he⟩

theorem length_lt_of_scanDigits {text digits rest : List Char}
    (h : scanDigits text = some (digits, rest)) :
    rest.length < text.length := by
  obtain ⟨rfl, hne⟩ := scanDigits_eq_append h
  have := List.length_pos_iff.2 hne
  simp
  omega

theorem length_lt_of_scanWhole {text digits rest : List Char}
    (h : scanWhole text = some (digits, rest)) :
    rest.length < text.length := by
  unfold scanWhole at h
  split at h
  · simp_all
  · exact length_lt_of_scanDigits h

theorem length_le_of_scanFraction {text digits rest : List Char}
    (h : scanFraction text = some (digits, rest)) :
    rest.length ≤ text.length := by
  unfold scanFraction at h
  split at h
  · have := length_lt_of_scanDigits h
    simp
    omega
  · simp_all

theorem length_scanSign_le (text : List Char) : (scanSign text).2.length ≤ text.length := by
  unfold scanSign
  split <;> simp

theorem length_le_of_scanExponent {text rest : List Char} {e : Option Int}
    (h : scanExponent text = some (e, rest)) :
    rest.length ≤ text.length := by
  unfold scanExponent at h
  split at h
  · simp_all
  · rename_i c tail
    split at h
    · obtain ⟨⟨digits, after⟩, hd, he⟩ := Option.map_eq_some_iff.1 h
      simp only [Prod.mk.injEq] at he
      have h1 := length_lt_of_scanDigits hd
      have h2 := length_scanSign_le tail
      simp only [List.length_cons, ← he.2]
      omega
    · simp_all

theorem length_lt_of_scanUnsigned {negative : Bool} {text rest : List Char} {n : Numeral}
    (h : scanUnsigned negative text = some (n, rest)) : rest.length < text.length := by
  simp only [scanUnsigned, Option.bind_eq_bind, Option.bind_eq_some_iff, Option.pure_def, Option.some.injEq,
    Prod.mk.injEq, Prod.exists] at h
  obtain ⟨whole, t1, h1, fraction, t2, h2, e, t3, h3, -, rfl⟩ := h
  have := length_lt_of_scanWhole h1
  have := length_le_of_scanFraction h2
  have := length_le_of_scanExponent h3
  omega

/-- A numeral takes at least one character. -/
theorem length_lt_of_scan {text rest : List Char} {n : Numeral} (h : scan text = some (n, rest)) :
    rest.length < text.length := by
  unfold scan at h
  split at h
  · have := length_lt_of_scanUnsigned h
    simp
    omega
  · exact length_lt_of_scanUnsigned h

end Numeral

end TrainingJob.Json
