import TrainingJob.Json.Numeral
import TrainingJob.Json.Quoted

/-!
# Tokens

The lexical items of a JSON text. `Token.scan` splits a text into tokens and
skips the blanks between them, which are the space, the tabulator, the line feed
and the carriage return. Two tokens may touch. Whether they may follow each
other is the reader's concern, so `01` and `truefalse` are each two tokens here.
-/

set_option autoImplicit false

namespace TrainingJob.Json

inductive Token where
  | openObject | closeObject
  | openList | closeList
  | colon | comma
  | null
  | boolean (b : Bool)
  | numeral (n : Numeral)
  | string (s : String)
deriving DecidableEq, Repr

namespace Token

/-- The characters that may stand between tokens. -/
def isBlank (c : Char) : Bool := c == ' ' || c == '\t' || c == '\n' || c == '\r'

/-- The token at the front of a text, and the text after it. -/
def first? : List Char → Option (Token × List Char)
  | '{' :: rest => some (openObject, rest)
  | '}' :: rest => some (closeObject, rest)
  | '[' :: rest => some (openList, rest)
  | ']' :: rest => some (closeList, rest)
  | ':' :: rest => some (colon, rest)
  | ',' :: rest => some (comma, rest)
  | 'n' :: 'u' :: 'l' :: 'l' :: rest => some (null, rest)
  | 't' :: 'r' :: 'u' :: 'e' :: rest => some (boolean true, rest)
  | 'f' :: 'a' :: 'l' :: 's' :: 'e' :: rest => some (boolean false, rest)
  | '"' :: rest => (Quoted.scan rest).map fun (quoted, after) => (string (String.ofList quoted), after)
  | text => (Numeral.scan text).map fun (n, after) => (numeral n, after)

/-- A token takes at least one character. -/
theorem length_lt_of_first? {text rest : List Char} {token : Token} (h : first? text = some (token, rest)) :
    rest.length < text.length := by
  unfold first? at h
  split at h
  case h_10 tail =>
    obtain ⟨⟨quoted, after⟩, hs, he⟩ := Option.map_eq_some_iff.1 h
    simp only [Prod.mk.injEq] at he
    have := Quoted.length_lt_of_scan hs
    simp only [List.length_cons, ← he.2]
    omega
  case h_11 =>
    obtain ⟨⟨n, after⟩, hs, he⟩ := Option.map_eq_some_iff.1 h
    simp only [Prod.mk.injEq] at he
    exact he.2 ▸ Numeral.length_lt_of_scan hs
  all_goals
    simp only [Option.some.injEq, Prod.mk.injEq] at h
    simp only [List.length_cons, ← h.2]
    omega

/-- The tokens of a text. -/
def scan : List Char → Option (List Token)
  | [] => some []
  | c :: rest =>
    if isBlank c then scan rest
    else
      match _h : first? (c :: rest) with
      | none => none
      | some (token, after) => (scan after).map (token :: ·)
termination_by text => text.length
decreasing_by
  · simp
  · exact length_lt_of_first? ‹_›

end Token

end TrainingJob.Json
