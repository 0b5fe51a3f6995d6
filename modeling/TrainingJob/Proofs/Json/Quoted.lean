import TrainingJob.Json.Quoted

/-!
# Quoted text reads back

Whatever a text contains, scanning its written form gives it back, and leaves
what stands after the closing mark (`Quoted.scan_flatMap_escape`).
-/

set_option autoImplicit false

namespace TrainingJob.Json.Quoted

theorem hexValue_hexDigit : ∀ n, n < 16 → hexValue (hexDigit n) = some n := by decide

/-- Four digits of which the first two are zero spell a code unit below 256. -/
theorem codeUnit_hexDigit {n : Nat} (small : n < 256) :
    codeUnit '0' '0' (hexDigit (n / 16)) (hexDigit (n % 16)) = some n := by
  have zero : hexValue '0' = some 0 := by decide
  have high := hexValue_hexDigit (n / 16) (by omega)
  have low := hexValue_hexDigit (n % 16) (by omega)
  simp only [codeUnit, zero, high, low, Option.bind_eq_bind, Option.bind_some, Option.pure_def,
    Option.some.injEq]
  omega

/-- A control that has no letter of its own is scanned from its code unit. -/
theorem scan_codeUnit {c : Char} (control : c.toNat < 256) (rest : List Char) :
    scan ('\\' :: 'u' :: '0' :: '0' :: hexDigit (c.toNat / 16) :: hexDigit (c.toNat % 16) :: rest) =
      (scan rest).map (push c) := by
  have notLeading : isLeading c.toNat = false := by simp [isLeading]; omega
  have notTrailing : isTrailing c.toNat = false := by simp [isTrailing]; omega
  rw [scan, codeUnit_hexDigit control]
  simp only [notLeading, notTrailing, Bool.false_eq_true, if_false, Char.ofNat_toNat]

/-- A character that needs no escape stands for itself. -/
theorem scan_plain {c : Char} (notQuote : c ≠ '"') (notBackslash : c ≠ '\\') (notControl : ¬ c < ' ')
    (rest : List Char) : scan (c :: rest) = (scan rest).map (push c) := by
  rw [scan.eq_def]
  split
  case h_5 same =>
    obtain ⟨rfl, rfl⟩ := List.cons.inj same
    exact if_neg notControl
  all_goals simp_all

/-- What is written for a character is scanned as that character. -/
theorem scan_escape_append (c : Char) (rest : List Char) :
    scan (escape c ++ rest) = (scan rest).map (push c) := by
  unfold escape
  -- the two marks and the five controls that have a letter
  iterate 7
    split
    · subst_vars
      rfl
  split
  case isTrue control =>
    have small : c.toNat < 256 := Nat.lt_trans (UInt32.lt_iff_toNat_lt.1 control) (by decide)
    exact scan_codeUnit small rest
  case isFalse notQuote notBackslash _ _ _ _ _ notControl =>
    exact scan_plain notQuote notBackslash notControl rest

/-- **Quoted text reads back**, whatever it contains and whatever follows it. -/
theorem scan_flatMap_escape (text rest : List Char) :
    scan (text.flatMap escape ++ '"' :: rest) = some (text, rest) := by
  induction text with
  | nil => rfl
  | cons c text ih =>
    rw [List.flatMap_cons, List.append_assoc, scan_escape_append, ih]
    rfl

end TrainingJob.Json.Quoted
