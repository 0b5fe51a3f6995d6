import TrainingJob.Json.Token
import TrainingJob.Proofs.Json.Numeral
import TrainingJob.Proofs.Json.Quoted

/-!
# The tokens of a written value

Between a value and its text stand its tokens (`Value.tokens`), which say nothing
about layout. Scanning the text of a value yields its tokens, whatever the level
it is written at, and goes on with the rest (`Token.scan_write`). The only
condition is that the rest does not extend a numeral at the end of the value.
-/

set_option autoImplicit false

namespace TrainingJob.Json

mutual

/-- The tokens of a value, in order. -/
def Value.tokens : Value → List Token
  | .null => [.null]
  | .boolean b => [.boolean b]
  | .integer n => [.numeral (.ofInteger n)]
  | .decimal d => [.numeral (.ofDecimal d)]
  | .string s => [.string s]
  | .list [] => [.openList, .closeList]
  | .list (item :: rest) => .openList :: item.tokens ++ Value.tokensOfItems rest ++ [.closeList]
  | .object [] => [.openObject, .closeObject]
  | .object ((name, value) :: rest) =>
    .openObject :: .string name :: .colon :: value.tokens ++ Value.tokensOfMembers rest ++ [.closeObject]

/-- The tokens of the items after the first. -/
def Value.tokensOfItems : List Value → List Token
  | [] => []
  | item :: rest => .comma :: item.tokens ++ Value.tokensOfItems rest

/-- The tokens of the members after the first. -/
def Value.tokensOfMembers : List (String × Value) → List Token
  | [] => []
  | (name, value) :: rest => .comma :: .string name :: .colon :: value.tokens ++ Value.tokensOfMembers rest

end

namespace Token

/-- Blanks start no token. -/
theorem first?_of_isBlank {c : Char} (blank : isBlank c = true) (rest : List Char) :
    first? (c :: rest) = none := by
  simp only [isBlank, Bool.or_eq_true, beq_iff_eq] at blank
  rcases blank with ((rfl | rfl) | rfl) | rfl <;> rfl

theorem scan_blank {c : Char} (blank : isBlank c = true) (rest : List Char) :
    scan (c :: rest) = scan rest := by
  rw [scan, if_pos blank]

/-- A text is its first token and the tokens of what follows. -/
theorem scan_of_first? {text rest : List Char} {token : Token} (first : first? text = some (token, rest)) :
    scan text = (scan rest).map (token :: ·) := by
  cases text with
  | nil => simp [first?, Numeral.scan, Numeral.scanUnsigned, Numeral.scanWhole, Numeral.scanDigits] at first
  | cons c text =>
    have notBlank : ¬ isBlank c = true := fun blank => by simp [first?_of_isBlank blank text] at first
    rw [scan, if_neg notBlank]
    split
    · simp_all
    · simp_all

theorem scan_openObject (rest : List Char) : scan ('{' :: rest) = (scan rest).map (openObject :: ·) :=
  scan_of_first? rfl

theorem scan_closeObject (rest : List Char) : scan ('}' :: rest) = (scan rest).map (closeObject :: ·) :=
  scan_of_first? rfl

theorem scan_openList (rest : List Char) : scan ('[' :: rest) = (scan rest).map (openList :: ·) :=
  scan_of_first? rfl

theorem scan_closeList (rest : List Char) : scan (']' :: rest) = (scan rest).map (closeList :: ·) :=
  scan_of_first? rfl

theorem scan_colon (rest : List Char) : scan (':' :: rest) = (scan rest).map (colon :: ·) :=
  scan_of_first? rfl

theorem scan_comma (rest : List Char) : scan (',' :: rest) = (scan rest).map (comma :: ·) :=
  scan_of_first? rfl

theorem scan_newLine (level : Nat) (rest : List Char) : scan (newLine level ++ rest) = scan rest := by
  have spaces (n : Nat) : scan (List.replicate n ' ' ++ rest) = scan rest := by
    induction n with
    | zero => rfl
    | succ n ih => rw [List.replicate_succ, List.cons_append, scan_blank (by decide), ih]
  rw [newLine, List.cons_append, scan_blank (by decide), spaces]

theorem scan_quoted (s : String) (rest : List Char) :
    scan (Quoted.write s.toList ++ rest) = (scan rest).map (string s :: ·) := by
  apply scan_of_first?
  rw [Quoted.write, List.append_assoc, List.cons_append]
  simp [first?, Quoted.scan_flatMap_escape]

/-- A numeral is a token of its own sort: none of the others starts like it. -/
theorem first?_of_numeral {text rest : List Char} {n : Numeral} (scanned : Numeral.scan text = some (n, rest)) :
    first? text = some (numeral n, rest) := by
  unfold first?
  split
  case h_11 => rw [scanned]; rfl
  all_goals
    simp [Numeral.scan, Numeral.scanUnsigned, Numeral.scanWhole, Numeral.scanDigits] at scanned

theorem scan_numeral {text rest : List Char} {n : Numeral} (scanned : Numeral.scan text = some (n, rest)) :
    scan text = (scan rest).map (numeral n :: ·) :=
  scan_of_first? (first?_of_numeral scanned)

/-- Scanning the text of a value yields its tokens, at any level of indentation. -/
def Spells (value : Value) : Prop :=
  ∀ level rest, Numeral.EndsBefore rest →
    scan (value.write level ++ rest) = (scan rest).map (value.tokens ++ ·)

theorem endsBefore_newLine (level : Nat) (rest : List Char) : Numeral.EndsBefore (newLine level ++ rest) := by
  rw [newLine, List.cons_append, Numeral.endsBefore_cons]
  decide

theorem endsBefore_writeItems (level : Nat) (items : List Value) (rest : List Char) :
    Numeral.EndsBefore (Value.writeItems level items ++ (newLine level ++ rest)) := by
  cases items with
  | nil => exact endsBefore_newLine level rest
  | cons item items =>
    simp only [Value.writeItems, List.cons_append, Numeral.endsBefore_cons]
    decide

theorem endsBefore_writeMembers (level : Nat) (members : Fields) (rest : List Char) :
    Numeral.EndsBefore (Value.writeMembers level members ++ (newLine level ++ rest)) := by
  cases members with
  | nil => exact endsBefore_newLine level rest
  | cons entry members =>
    simp only [Value.writeMembers, List.cons_append, Numeral.endsBefore_cons]
    decide

/-- A name, the colon after it, and its value. -/
theorem scan_member (name : String) {value : Value} (spells : Spells value) (level : Nat)
    {rest : List Char} (ends : Numeral.EndsBefore rest) :
    scan (Quoted.write name.toList ++ ':' :: ' ' :: (value.write level ++ rest)) =
      (scan rest).map (string name :: colon :: value.tokens ++ ·) := by
  rw [scan_quoted, scan_colon, scan_blank (by decide), spells level rest ends]
  cases scan rest <;> rfl

/-- The items after the first of a list, up to the end of the line of the last one. -/
theorem scan_writeItems (level : Nat) {items : List Value} (spell : ∀ item ∈ items, Spells item)
    (rest : List Char) :
    scan (Value.writeItems level items ++ (newLine level ++ rest)) =
      (scan rest).map (Value.tokensOfItems items ++ ·) := by
  induction items with
  | nil =>
    rw [Value.writeItems, List.nil_append, scan_newLine]
    simp [Value.tokensOfItems]
  | cons item items ih =>
    obtain ⟨first, others⟩ := List.forall_mem_cons.1 spell
    have head := first (level + 1) _ (endsBefore_writeItems level items rest)
    simp only [Value.writeItems, List.cons_append, List.append_assoc, scan_comma, scan_newLine]
    rw [head, ih others]
    cases scan rest <;> simp [Value.tokensOfItems]

theorem scan_writeMembers (level : Nat) {members : Fields} (spell : ∀ entry ∈ members, Spells entry.2)
    (rest : List Char) :
    scan (Value.writeMembers level members ++ (newLine level ++ rest)) =
      (scan rest).map (Value.tokensOfMembers members ++ ·) := by
  induction members with
  | nil =>
    rw [Value.writeMembers, List.nil_append, scan_newLine]
    simp [Value.tokensOfMembers]
  | cons entry members ih =>
    obtain ⟨name, value⟩ := entry
    obtain ⟨first, others⟩ := List.forall_mem_cons.1 spell
    have head := scan_member name first (level + 1) (endsBefore_writeMembers level members rest)
    simp only [Value.writeMembers, List.cons_append, List.append_assoc, scan_comma, scan_newLine]
    rw [head, ih others]
    cases scan rest <;> simp [Value.tokensOfMembers]

/-- **Every value spells its tokens.** -/
theorem scan_write (value : Value) : Spells value := by
  induction value with
  | null =>
    intro level rest _
    exact scan_of_first? rfl
  | boolean b =>
    intro level rest _
    cases b <;> exact scan_of_first? rfl
  | integer n =>
    intro level rest ends
    exact scan_numeral ((Numeral.spells_writeInteger n).scan_append ends)
  | decimal d =>
    intro level rest ends
    exact scan_numeral ((Numeral.spells_writeDecimal d).scan_append ends)
  | string s =>
    intro level rest _
    exact scan_quoted s rest
  | list items ih =>
    intro level rest _
    cases items with
    | nil =>
      rw [Value.write, List.cons_append, scan_openList, List.cons_append, scan_closeList, List.nil_append]
      cases scan rest <;> rfl
    | cons item items =>
      obtain ⟨first, others⟩ := List.forall_mem_cons.1 ih
      have head := first (level + 1) _ (endsBefore_writeItems level items (']' :: rest))
      simp only [Value.write, List.cons_append, List.append_assoc, List.nil_append, scan_openList, scan_newLine]
      rw [head, scan_writeItems level others, scan_closeList]
      cases scan rest <;> simp [Value.tokens]
  | object members ih =>
    intro level rest _
    cases members with
    | nil =>
      rw [Value.write, List.cons_append, scan_openObject, List.cons_append, scan_closeObject, List.nil_append]
      cases scan rest <;> rfl
    | cons entry members =>
      obtain ⟨name, value⟩ := entry
      obtain ⟨first, others⟩ := List.forall_mem_cons.1 ih
      have head := scan_member name first (level + 1)
        (endsBefore_writeMembers level members ('}' :: rest))
      simp only [Value.write, List.cons_append, List.append_assoc, List.nil_append, scan_openObject,
        scan_newLine]
      rw [head, scan_writeMembers level others, scan_closeObject]
      cases scan rest <;> simp [Value.tokens]

end Token

end TrainingJob.Json
