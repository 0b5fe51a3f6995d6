import TrainingJob.Json.Fields
import TrainingJob.Json.Quoted

/-!
# Writing values

The laid-out text of a value. Items and members stand on lines of their own, two
spaces further in than the container that holds them, and a name is followed by
a colon and a space. An empty container is written on one line.
-/

set_option autoImplicit false

namespace TrainingJob.Json

/-- The digits of a whole number, with its sign. -/
def writeInteger (n : Int) : List Char :=
  if n < 0 then '-' :: Nat.toDigits 10 n.natAbs else Nat.toDigits 10 n.natAbs

/-- A decimal in scientific notation. -/
def writeDecimal (d : Decimal) : List Char :=
  (if d.negative then ['-'] else []) ++ Nat.toDigits 10 d.significand ++ 'e' :: writeInteger d.exponent

/-- A new line, indented by two spaces for each level. -/
def newLine (level : Nat) : List Char := '\n' :: List.replicate (2 * level) ' '

mutual

/-- The text of a value that starts on a line of the given level. -/
def Value.write (level : Nat) : Value → List Char
  | .null => "null".toList
  | .boolean b => if b then "true".toList else "false".toList
  | .integer n => writeInteger n
  | .decimal d => writeDecimal d
  | .string s => Quoted.write s.toList
  | .list [] => ['[', ']']
  | .list (item :: rest) =>
    '[' :: newLine (level + 1) ++ item.write (level + 1) ++ Value.writeItems level rest ++
      newLine level ++ [']']
  | .object [] => ['{', '}']
  | .object ((name, value) :: rest) =>
    '{' :: newLine (level + 1) ++ Quoted.write name.toList ++ ':' :: ' ' :: value.write (level + 1) ++
      Value.writeMembers level rest ++ newLine level ++ ['}']

/-- The items after the first of a list at the given level. -/
def Value.writeItems (level : Nat) : List Value → List Char
  | [] => []
  | item :: rest => ',' :: newLine (level + 1) ++ item.write (level + 1) ++ Value.writeItems level rest

/-- The members after the first of an object at the given level. -/
def Value.writeMembers (level : Nat) : List (String × Value) → List Char
  | [] => []
  | (name, value) :: rest =>
    ',' :: newLine (level + 1) ++ Quoted.write name.toList ++ ':' :: ' ' :: value.write (level + 1) ++
      Value.writeMembers level rest

end

/-- The laid-out text of a value. -/
def Value.toText (value : Value) : String := String.ofList (value.write 0)

end TrainingJob.Json
