import TrainingJob.Text.UppercaseTable

/-!
# Upper case

A text in upper case, character by character: each is replaced by its upper
case, which may be several characters, and a character without one stands for
itself.
-/

set_option autoImplicit false

namespace TrainingJob.Text

/-- The image of a code point that lies in a run. -/
def CaseRun.image? (run : CaseRun) (code : Nat) : Option Nat :=
  let offset := code - run.first
  if run.first ≤ code ∧ offset < run.count * run.stride ∧ offset % run.stride = 0 then
    some (run.image + offset)
  else none

/-- The upper case of a character. -/
def uppercaseChar (c : Char) : List Char :=
  match uppercaseSequences.lookup c.toNat with
  | some codes => codes.map Char.ofNat
  | none => [(uppercaseRuns.findSome? fun run => run.image? c.toNat).elim c Char.ofNat]

/-- A text in upper case. -/
def uppercase (text : String) : String := String.ofList (text.toList.flatMap uppercaseChar)

/-- Below U+0080 only the letters change. -/
theorem uppercaseChar_of_lt {n : Nat} (h : n < 128) :
    uppercaseChar (Char.ofNat n) = [(Char.ofNat n).toUpper] :=
  (by decide +kernel : ∀ n < 128, uppercaseChar (Char.ofNat n) = [(Char.ofNat n).toUpper]) n h

/-- The runs stand in order and do not overlap. -/
example : uppercaseRuns.Pairwise fun a b => a.first + (a.count - 1) * a.stride < b.first := by
  decide +kernel

end TrainingJob.Text
