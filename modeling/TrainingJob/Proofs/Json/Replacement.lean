import Mathlib.Data.List.Induction
import TrainingJob.Proofs.Json.Lexemes
import TrainingJob.Proofs.Json.Phrases
import TrainingJob.Proofs.Schema.Places

/-!
# A number in the place of another

Where a text denotes a document with an integer at some place, that integer is spelled
at one place of the text (`Value.exists_gap`). Any other number can be put there. The
text then denotes the document with that number at the place (`Value.put`), and nothing
at all if the number has no value.

The reason is in the tokens. The phrase of a document holds one numeral for the integer,
and it stays a phrase when that numeral is exchanged for another that has a value
(`Phrase.exists_numeral`). Of a name that an object repeats it is the last member that
counts (`Part.exists_last`), and putting a value under the name changes that member
(`Part.insert_assemble`).
-/

set_option autoImplicit false

namespace TrainingJob.Json

/-- The value with `part` at the place. -/
def Value.put (whole : Value) (place : Location) (part : Value) : Value :=
  match place, whole with
  | [], _ => part
  | .index position :: rest, .list items => .list (items.modify position fun item => item.put rest part)
  | .field name :: rest, .object members =>
    .object (Fields.insert members name (((Fields.get? members name).getD .null).put rest part))
  | _ :: _, _ => whole

namespace Value

variable {whole old part : Value}

/-- What was put at a place that the value has is there. -/
theorem at?_put {place : Location} (held : whole.at? place = some old) :
    (whole.put place part).at? place = some part := by
  induction place generalizing whole with
  | nil => rw [put]; rfl
  | cons step rest ih =>
    obtain ⟨inner, here, onwards⟩ := Option.bind_eq_some_iff.1 held
    cases step with
    | index position =>
      cases whole with
      | list items =>
        have read : items[position]? = some inner := here
        rw [put, at?, part?, List.getElem?_modify_eq, read]
        exact ih onwards
      | _ => cases here
    | field name =>
      cases whole with
      | object members =>
        have read : Fields.get? members name = some inner := here
        rw [put, at?, part?, Fields.get?_insert_self, read]
        exact ih onwards
      | _ => cases here

theorem put_ne_null {place : Location} (held : whole.at? place = some old) (present : part ≠ .null) :
    whole.put place part ≠ .null := by
  cases place with
  | nil =>
    rw [put]
    exact present
  | cons step rest =>
    obtain ⟨inner, here, -⟩ := Option.bind_eq_some_iff.1 held
    cases step <;> cases whole <;> first | cases here | simp [put]

end Value

namespace Fields

theorem insert_insert_self (fields : Fields) (name : String) (value other : Value) :
    (fields.insert name value).insert name other = fields.insert name other := by
  induction fields with
  | nil => simp [insert]
  | cons entry rest ih =>
    obtain ⟨k, v⟩ := entry
    by_cases same : k = name <;> simp [insert, same, ih]

/-- A name that a map holds stays where it is, so another one can come before or after. -/
theorem insert_insert_of_mem {fields : Fields} {name later : String} (held : name ∈ names fields)
    (apart : later ≠ name) (value other : Value) :
    (fields.insert later other).insert name value = (fields.insert name value).insert later other := by
  induction fields with
  | nil => cases held
  | cons entry rest ih =>
    obtain ⟨k, v⟩ := entry
    by_cases same : k = name
    · have notLater : k ≠ later := fun isLater => apart (isLater.symm.trans same)
      simp [insert, same, Ne.symm apart]
    · have inRest : name ∈ names rest := (List.mem_cons.1 held).resolve_left (Ne.symm same)
      by_cases isLater : k = later
      · simp [insert, isLater, apart]
      · simp [insert, same, isLater, ih inRest]

end Fields

namespace Part

/-- What a list has at a position is the value of one item. -/
theorem exists_at {items : List Part} {position : Nat} {value : Value}
    (held : (items.map Part.value)[position]? = some value) :
    ∃ front part back, items = front ++ part :: back ∧ part.value = value ∧ front.length = position := by
  rw [List.getElem?_map, Option.map_eq_some_iff] at held
  obtain ⟨part, stands, isValue⟩ := held
  obtain ⟨inBounds, rfl⟩ := List.getElem?_eq_some_iff.1 stands
  refine ⟨items.take position, items[position], items.drop (position + 1), ?_, isValue, ?_⟩
  · rw [← List.drop_eq_getElem_cons inBounds, List.take_append_drop]
  · rw [List.length_take]
    omega

theorem modify_values (front : List Part) (part : Part) (back : List Part) (change : Value → Value) :
    ((front ++ part :: back).map Part.value).modify front.length change =
      front.map Part.value ++ change part.value :: back.map Part.value := by
  induction front with
  | nil => rfl
  | cons first front ih => simpa using ih

/-- What an object holds under a name is the value of the last member of that name. -/
theorem exists_last {members : List (String × Part)} {name : String} {value : Value}
    (held : (assemble members).get? name = some value) :
    ∃ front part back, members = front ++ (name, part) :: back ∧ part.value = value ∧
      ∀ later ∈ back, later.1 ≠ name := by
  induction members using List.reverseRecOn with
  | nil => cases held
  | append_singleton front last ih =>
    rw [assemble_concat] at held
    by_cases same : last.1 = name
    · rw [same, Fields.get?_insert_self] at held
      exact ⟨front, last.2, [], by rw [← same], Option.some.inj held, nofun⟩
    · rw [Fields.get?_insert_of_ne _ _ same] at held
      obtain ⟨before, part, back, rfl, isValue, fresh⟩ := ih held
      refine ⟨before, part, back ++ [last], by simp, isValue, ?_⟩
      exact List.forall_mem_append.2 ⟨fresh, List.forall_mem_singleton.2 same⟩

theorem mem_names_assemble {members : List (String × Part)} {name : String} :
    name ∈ Fields.names (assemble members) ↔ name ∈ members.map Prod.fst := by
  induction members using List.reverseRecOn with
  | nil => rfl
  | append_singleton front last ih => simp [assemble_concat, Fields.mem_names_insert, ih, or_comm]

/-- Putting a value under a name changes the last member of that name. -/
theorem insert_assemble (front : List (String × Part)) {name : String} (part other : Part)
    {back : List (String × Part)} (fresh : ∀ later ∈ back, later.1 ≠ name) :
    (assemble (front ++ (name, part) :: back)).insert name other.value = assemble (front ++ (name, other) :: back) := by
  induction back using List.reverseRecOn with
  | nil => rw [assemble_concat, assemble_concat, Fields.insert_insert_self]
  | append_singleton back last ih =>
    obtain ⟨others, apart⟩ := List.forall_mem_append.1 fresh
    have held : name ∈ Fields.names (assemble (front ++ (name, part) :: back)) := by
      rw [mem_names_assemble]
      simp
    rw [← List.cons_append, ← List.append_assoc, assemble_concat,
      Fields.insert_insert_of_mem held (apart last (.head _)), ih others, ← assemble_concat]
    simp

end Part

/-- A value without parts has a value only at itself. -/
theorem Value.eq_of_at?_scalar {whole part : Value} (scalar : ∀ step, whole.part? step = none) {place : Location}
    (held : whole.at? place = some part) : place = [] ∧ whole = part := by
  cases place with
  | nil => exact ⟨rfl, Option.some.inj held⟩
  | cons step rest =>
    rw [at?, scalar step] at held
    cases held

theorem Numeral.part?_of_value? {n : Numeral} {value : Value} (denotes : n.value? = some value) (step : Step) :
    value.part? step = none := by
  rw [value?] at denotes
  split at denotes
  · cases denotes
    cases step <;> rfl
  · split at denotes
    · cases denotes
    · cases denotes
      cases step <;> rfl

namespace Phrase

variable {level : Nat}

/-- A list with a phrase in the middle. -/
theorem list_append_cons (front back : List Part) {tokens : List Token} {value : Value}
    (room : level < Reader.maxDepth) (before : ∀ item ∈ front, Phrase (level + 1) item.tokens item.value)
    (phrase : Phrase (level + 1) tokens value) (after : ∀ item ∈ back, Phrase (level + 1) item.tokens item.value) :
    Phrase level
      (.openList :: Token.lead (front.map Part.tokens) ++ tokens ++ (back.map Part.tokens).flatMap (.comma :: ·) ++
        [.closeList])
      (.list (front.map Part.value ++ value :: back.map Part.value)) := by
  have each : ∀ item ∈ front ++ ⟨tokens, value⟩ :: back, Phrase (level + 1) item.tokens item.value :=
    List.forall_mem_append.2 ⟨before, List.forall_mem_cons.2 ⟨phrase, after⟩⟩
  simpa [Token.separate_append_cons] using Phrase.list room each

/-- An object with a member in the middle. -/
theorem object_append_cons (front back : List (String × Part)) (name : String) {tokens : List Token} {value : Value}
    (room : level < Reader.maxDepth) (before : ∀ member ∈ front, Phrase (level + 1) member.2.tokens member.2.value)
    (phrase : Phrase (level + 1) tokens value)
    (after : ∀ member ∈ back, Phrase (level + 1) member.2.tokens member.2.value) :
    Phrase level
      (.openObject :: Token.lead (front.map Part.spell) ++ Part.spell (name, ⟨tokens, value⟩) ++
        (back.map Part.spell).flatMap (.comma :: ·) ++ [.closeObject])
      (.object (Part.assemble (front ++ (name, ⟨tokens, value⟩) :: back))) := by
  have each : ∀ member ∈ front ++ (name, ⟨tokens, value⟩) :: back,
      Phrase (level + 1) member.2.tokens member.2.value :=
    List.forall_mem_append.2 ⟨before, List.forall_mem_cons.2 ⟨phrase, after⟩⟩
  simpa [Token.separate_append_cons] using Phrase.object room each

/-- **The phrase of a document has one numeral for an integer of it**, and any other that
has a value can take its place. -/
theorem exists_numeral {tokens : List Token} {document : Value} (phrase : Phrase level tokens document)
    {place : Location} {k : Int} (held : document.at? place = some (.integer k)) :
    ∃ left n right, tokens = left ++ .numeral n :: right ∧ n.value? = some (.integer k) ∧
      ∀ m value, m.value? = some value → Phrase level (left ++ .numeral m :: right) (document.put place value) := by
  induction phrase generalizing place with
  | null => cases (Value.eq_of_at?_scalar (by rintro ⟨⟩ <;> rfl) held).2
  | boolean b => cases (Value.eq_of_at?_scalar (by rintro ⟨⟩ <;> rfl) held).2
  | string s => cases (Value.eq_of_at?_scalar (by rintro ⟨⟩ <;> rfl) held).2
  | @numeral level n value denotes =>
    obtain ⟨rfl, rfl⟩ := Value.eq_of_at?_scalar (Numeral.part?_of_value? denotes) held
    refine ⟨[], n, [], rfl, denotes, fun m other isOther => ?_⟩
    rw [Value.put]
    exact .numeral isOther
  | @list level items room each ih =>
    cases place with
    | nil => cases held
    | cons step rest =>
      obtain ⟨inner, here, onwards⟩ := Option.bind_eq_some_iff.1 held
      cases step with
      | field name => cases here
      | index position =>
        have read : (items.map Part.value)[position]? = some inner := here
        obtain ⟨front, part, back, rfl, rfl, rfl⟩ := Part.exists_at read
        obtain ⟨before, atPart⟩ := List.forall_mem_append.1 each
        obtain ⟨-, after⟩ := List.forall_mem_cons.1 atPart
        obtain ⟨left, n, right, spelled, denotes, again⟩ := ih part (by simp) onwards
        refine ⟨.openList :: Token.lead (front.map Part.tokens) ++ left, n,
          right ++ ((back.map Part.tokens).flatMap (.comma :: ·) ++ [.closeList]), ?_, denotes, fun m value isValue => ?_⟩
        · simp [Token.separate_append_cons, spelled]
        · have replaced := list_append_cons front back room before (again m value isValue) after
          rw [Value.put, Part.modify_values]
          simpa using replaced
  | @object level members room each ih =>
    cases place with
    | nil => cases held
    | cons step rest =>
      obtain ⟨inner, here, onwards⟩ := Option.bind_eq_some_iff.1 held
      cases step with
      | index position => cases here
      | field name =>
        have read : Fields.get? (Part.assemble members) name = some inner := here
        obtain ⟨front, part, back, rfl, rfl, fresh⟩ := Part.exists_last read
        obtain ⟨before, atPart⟩ := List.forall_mem_append.1 each
        obtain ⟨-, after⟩ := List.forall_mem_cons.1 atPart
        obtain ⟨left, n, right, spelled, denotes, again⟩ := ih (name, part) (by simp) onwards
        refine ⟨.openObject :: Token.lead (front.map Part.spell) ++ .string name :: .colon :: left, n,
          right ++ ((back.map Part.spell).flatMap (.comma :: ·) ++ [.closeObject]), ?_, denotes, fun m value isValue => ?_⟩
        · have whole : part.tokens = left ++ .numeral n :: right := spelled
          simp [Token.separate_append_cons, Part.spell, whole]
        · have replaced := object_append_cons front back name room before (again m value isValue) after
          rw [← Part.insert_assemble front part _ fresh] at replaced
          rw [Value.put, read, Option.getD_some]
          simpa [Part.spell] using replaced

end Phrase

namespace Reader

/-- A numeral is taken where a value is expected, and is handed over as its value. -/
theorem deliver_of_numeral {reader next : Reader} {n : Numeral} (stepped : reader.step (.numeral n) = some next) :
    ∃ value opened, n.value? = some value ∧ next = deliver value opened := by
  cases reader with
  | beforeValue opened =>
    obtain ⟨value, denotes, rfl⟩ := Option.map_eq_some_iff.1 stepped
    exact ⟨value, opened, denotes, rfl⟩
  | beforeFirstItem opened =>
    obtain ⟨value, denotes, rfl⟩ := Option.map_eq_some_iff.1 stepped
    exact ⟨value, .list [] :: opened, denotes, rfl⟩
  | _ => cases stepped

/-- A complete value is followed by a comma or a closing bracket. -/
theorem isStop_of_deliver {value : Value} {opened : List Frame} {token : Token} {next : Reader}
    (stepped : (deliver value opened).step token = some next) : token.isStop = true := by
  cases opened with
  | nil => cases stepped
  | cons frame opened => cases frame <;> cases token <;> first | rfl | cases stepped

/-- In what is read numerals do not touch. -/
theorem spaced_of_run {reader final : Reader} {tokens : List Token} (ran : reader.run tokens = some final) :
    Token.Spaced tokens := by
  rintro left n next right rfl
  rw [run_append, Option.bind_eq_some_iff] at ran
  obtain ⟨before, -, ran⟩ := ran
  rw [run_cons, Option.bind_eq_some_iff] at ran
  obtain ⟨after, taken, ran⟩ := ran
  obtain ⟨value, opened, -, rfl⟩ := deliver_of_numeral taken
  rw [run_cons, Option.bind_eq_some_iff] at ran
  obtain ⟨later, stepped, -⟩ := ran
  exact isStop_of_deliver stepped

end Reader

/-- Nothing is read from tokens of which a numeral has no value. -/
theorem Value.ofTokens?_of_value?_none {left right : List Token} {n : Numeral} (unbounded : n.value? = none) :
    Value.ofTokens? (left ++ .numeral n :: right) = none := by
  refine Option.bind_eq_none_iff.2 fun final ran => ?_
  rw [Reader.run_append, Option.bind_eq_some_iff] at ran
  obtain ⟨before, -, ran⟩ := ran
  rw [Reader.run_cons, Option.bind_eq_some_iff] at ran
  obtain ⟨after, taken, -⟩ := ran
  obtain ⟨value, opened, denotes, -⟩ := Reader.deliver_of_numeral taken
  rw [unbounded] at denotes
  cases denotes

/-- Whatever number is spelled between the two texts, they denote the document with that
number at the place, and nothing if it has no value. -/
def Gap (before after : String) (document : Value) (place : Location) : Prop :=
  ∀ (literal : String) (n : Numeral), Numeral.Spells literal.toList n →
    Value.ofText? (before ++ literal ++ after) = n.value?.map (document.put place)

/-- **An integer of a document has its numeral in the text**, and any other number can take
the place of that numeral. -/
theorem Value.exists_gap {text : String} {document : Value} (denotes : Value.ofText? text = some document)
    {place : Location} {k : Int} (held : document.at? place = some (.integer k)) :
    ∃ before after, text = before ++ toString k ++ after ∧ Gap before after document place := by
  obtain ⟨tokens, scanned, read⟩ := Option.bind_eq_some_iff.1 denotes
  obtain ⟨final, ran, -⟩ := Option.bind_eq_some_iff.1 read
  obtain ⟨left, n, right, rfl, isInteger, again⟩ := (Value.ofTokens?_eq_some_iff.1 read).exists_numeral held
  obtain ⟨before, lexeme, after, parts, spells, ends, onwards, scannedBefore⟩ :=
    Token.exists_cut scanned (Reader.spaced_of_run ran)
  refine ⟨String.ofList before, String.ofList after, ?_, ?_⟩
  · rw [← Numeral.ofList_writeInteger, ← spells.text_of_value? isInteger, ← String.toList_inj]
    simp [parts]
  · intro literal m spelled
    have scannedText : Token.scan (String.ofList before ++ literal ++ String.ofList after).toList =
        some (left ++ .numeral m :: right) := by
      have numeral := Token.scan_numeral (spelled.scan_append ends)
      simp only [String.toList_append, String.toList_ofList, List.append_assoc]
      rw [scannedBefore, numeral, onwards]
      rfl
    rw [Value.ofText?, scannedText]
    show Value.ofTokens? (left ++ .numeral m :: right) = _
    cases isOther : m.value? with
    | none => exact Value.ofTokens?_of_value?_none isOther
    | some value => exact Value.ofTokens?_eq_some_iff.2 (again m value isOther)

end TrainingJob.Json
