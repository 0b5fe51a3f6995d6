import TrainingJob.Json.Fields
import TrainingJob.Json.Token

/-!
# Reading values

The tokens of a text are read one at a time. A `Reader` is what has been read so
far together with what may come next, and its containers that are still open
form a stack of frames. Every state is meaningful: a comma is only expected
after an item or a member, and a colon only after a name.

A text may open up to 127 containers inside each other. A name that an object
repeats keeps the place of its first occurrence and the value of its last,
because members are inserted (`Fields.insert`).
-/

set_option autoImplicit false

namespace TrainingJob.Json

/-- A container that waits for a value: a list with the items before it, latest
first, or an object with the members before it and the name of the value. -/
inductive Frame where
  | list (items : List Value)
  | member (members : Fields) (name : String)

/-- What has been read, and what may come next. The open containers around it
stand innermost first. -/
inductive Reader where
  | beforeValue (opened : List Frame)
  | beforeFirstItem (opened : List Frame)
  | beforeFirstName (opened : List Frame)
  | beforeName (members : Fields) (opened : List Frame)
  | beforeColon (members : Fields) (name : String) (opened : List Frame)
  | afterItem (items : List Value) (opened : List Frame)
  | afterMember (members : Fields) (opened : List Frame)
  | finished (value : Value)

namespace Reader

/-- The greatest number of containers inside each other. -/
def maxDepth : Nat := 127

/-- Hands a complete value to the container that waits for it. -/
def deliver (value : Value) : List Frame → Reader
  | [] => finished value
  | .list items :: opened => afterItem (value :: items) opened
  | .member members name :: opened => afterMember (members.insert name value) opened

/-- Takes the first token of a value. -/
def start (opened : List Frame) : Token → Option Reader
  | .openObject => if opened.length < maxDepth then some (beforeFirstName opened) else none
  | .openList => if opened.length < maxDepth then some (beforeFirstItem opened) else none
  | .null => some (deliver .null opened)
  | .boolean b => some (deliver (.boolean b) opened)
  | .numeral n => n.value?.map (deliver · opened)
  | .string s => some (deliver (.string s) opened)
  | _ => none

/-- Takes one token. -/
def step : Reader → Token → Option Reader
  | beforeValue opened, token => start opened token
  | beforeFirstItem opened, .closeList => some (deliver (.list []) opened)
  | beforeFirstItem opened, token => start (.list [] :: opened) token
  | beforeFirstName opened, .closeObject => some (deliver (.object []) opened)
  | beforeFirstName opened, .string s => some (beforeColon [] s opened)
  | beforeName members opened, .string s => some (beforeColon members s opened)
  | beforeColon members name opened, .colon => some (beforeValue (.member members name :: opened))
  | afterItem items opened, .comma => some (beforeValue (.list items :: opened))
  | afterItem items opened, .closeList => some (deliver (.list items.reverse) opened)
  | afterMember members opened, .comma => some (beforeName members opened)
  | afterMember members opened, .closeObject => some (deliver (.object members) opened)
  | _, _ => none

/-- Takes tokens in order. -/
def run (reader : Reader) (tokens : List Token) : Option Reader := tokens.foldlM step reader

@[simp] theorem run_nil (reader : Reader) : reader.run [] = some reader := rfl

@[simp] theorem run_cons (reader : Reader) (token : Token) (rest : List Token) :
    reader.run (token :: rest) = (reader.step token).bind (·.run rest) := by
  simp [run]

/-- Reading may pause anywhere. -/
theorem run_append (reader : Reader) (tokens rest : List Token) :
    reader.run (tokens ++ rest) = (reader.run tokens).bind (·.run rest) := by
  simp [run, List.foldlM_append]

/-- The value read, once nothing is missing. -/
def result? : Reader → Option Value
  | finished value => some value
  | _ => none

end Reader

/-- The value that tokens spell. -/
def Value.ofTokens? (tokens : List Token) : Option Value := do
  (← (Reader.beforeValue []).run tokens).result?

/-- The value that a text spells. -/
def Value.ofText? (text : String) : Option Value := do
  Value.ofTokens? (← Token.scan text.toList)

end TrainingJob.Json
