import TrainingJob.Json.Reader

/-!
# Phrases

The grammar of values over tokens. A phrase is the tokens of one value: those of a
scalar, or the phrases of the parts of a container with commas between them and
brackets around them. It is a phrase at a level, which counts the containers around it.

The reader takes one token at a time and never looks at the grammar. All the same it
reads a value from exactly the phrases for that value (`Value.ofTokens?_eq_some_iff`).
A phrase hands its value to the innermost open container (`Reader.run_phrase`). For the
converse, `Reader.Read` says of each state of the reader what tokens lead there. One step
preserves that (`Reader.Read.step`), and so does a run.
-/

set_option autoImplicit false

namespace TrainingJob.Json

namespace Token

/-- Lists of tokens with a comma between each two. -/
def separate : List (List Token) → List Token
  | [] => []
  | first :: rest => first ++ rest.flatMap (.comma :: ·)

/-- Lists of tokens with a comma after each. -/
def lead (parts : List (List Token)) : List Token := parts.flatMap (· ++ [.comma])

/-- Any one of the lists has those before it with a comma after each, and those after it
with a comma in front of each. -/
theorem separate_append_cons (front : List (List Token)) (part : List Token) (back : List (List Token)) :
    separate (front ++ part :: back) = lead front ++ part ++ back.flatMap (.comma :: ·) := by
  cases front with
  | nil => rfl
  | cons first front =>
    induction front generalizing first with
    | nil => simp [separate, lead]
    | cons second front ih =>
      have later := ih second
      simp only [separate, lead, List.cons_append, List.flatMap_cons, List.append_assoc, List.nil_append] at later ⊢
      rw [later]

theorem separate_concat (front : List (List Token)) (last : List Token) :
    separate (front ++ [last]) = lead front ++ last := by
  rw [separate_append_cons, List.flatMap_nil, List.append_nil]

theorem lead_concat (front : List (List Token)) (last : List Token) :
    lead (front ++ [last]) = lead front ++ last ++ [.comma] := by
  simp [lead]

end Token

/-- A part of a container: its tokens, and the value that they are read as. -/
structure Part where
  tokens : List Token
  value : Value

namespace Part

/-- The tokens of a member: its name, a colon, and those of its value. -/
def spell (member : String × Part) : List Token := .string member.1 :: .colon :: member.2.tokens

/-- The members of an object, put under their names one after the other. -/
def assemble (members : List (String × Part)) : Fields :=
  members.foldl (fun fields member => fields.insert member.1 member.2.value) []

theorem assemble_concat (front : List (String × Part)) (last : String × Part) :
    assemble (front ++ [last]) = (assemble front).insert last.1 last.2.value := by
  simp [assemble]

end Part

/-- The tokens of a value with `level` containers around it. -/
inductive Phrase : Nat → List Token → Value → Prop where
  | null {level : Nat} : Phrase level [.null] .null
  | boolean {level : Nat} (b : Bool) : Phrase level [.boolean b] (.boolean b)
  | numeral {level : Nat} {n : Numeral} {value : Value} (denotes : n.value? = some value) :
      Phrase level [.numeral n] value
  | string {level : Nat} (s : String) : Phrase level [.string s] (.string s)
  | list {level : Nat} {items : List Part} (room : level < Reader.maxDepth)
      (each : ∀ item ∈ items, Phrase (level + 1) item.tokens item.value) :
      Phrase level (.openList :: Token.separate (items.map Part.tokens) ++ [.closeList])
        (.list (items.map Part.value))
  | object {level : Nat} {members : List (String × Part)} (room : level < Reader.maxDepth)
      (each : ∀ member ∈ members, Phrase (level + 1) member.2.tokens member.2.value) :
      Phrase level (.openObject :: Token.separate (members.map Part.spell) ++ [.closeObject])
        (.object (Part.assemble members))

namespace Reader

/-- The first item of a list is read like any other value: no phrase starts by closing the list. -/
theorem run_beforeFirstItem_phrase {level : Nat} {tokens : List Token} {value : Value}
    (phrase : Phrase level tokens value) (opened : List Frame) (rest : List Token) :
    (beforeFirstItem opened).run (tokens ++ rest) = (beforeValue (.list [] :: opened)).run (tokens ++ rest) := by
  cases phrase <;> rfl

/-- Where a value is expected, these tokens hand it to the innermost of `level` open containers. -/
def Hands (level : Nat) (tokens : List Token) (value : Value) : Prop :=
  ∀ opened rest, opened.length = level → (beforeValue opened).run (tokens ++ rest) = (deliver value opened).run rest

/-- The items after the first, up to the end of the list. -/
theorem run_items {items : List Part} {opened : List Frame}
    (each : ∀ item ∈ items, Hands (opened.length + 1) item.tokens item.value) (before : List Value) (rest : List Token) :
    (afterItem before opened).run ((items.map Part.tokens).flatMap (.comma :: ·) ++ .closeList :: rest) =
      (deliver (.list (before.reverse ++ items.map Part.value)) opened).run rest := by
  induction items generalizing before with
  | nil => simp [step]
  | cons item items ih =>
    obtain ⟨first, others⟩ := List.forall_mem_cons.1 each
    have read := first (.list before :: opened) ((items.map Part.tokens).flatMap (.comma :: ·) ++ .closeList :: rest) rfl
    simp only [List.map_cons, List.flatMap_cons, List.cons_append, List.append_assoc, run_cons, step, Option.bind_some]
    rw [read, deliver, ih others]
    simp

/-- The members after the first, up to the end of the object. -/
theorem run_members {members : List (String × Part)} {opened : List Frame}
    (each : ∀ member ∈ members, Hands (opened.length + 1) member.2.tokens member.2.value)
    (before : List (String × Part)) (rest : List Token) :
    (afterMember (Part.assemble before) opened).run
        ((members.map Part.spell).flatMap (.comma :: ·) ++ .closeObject :: rest) =
      (deliver (.object (Part.assemble (before ++ members))) opened).run rest := by
  induction members generalizing before with
  | nil => simp [step]
  | cons member members ih =>
    obtain ⟨first, others⟩ := List.forall_mem_cons.1 each
    have read := first (.member (Part.assemble before) member.1 :: opened)
      ((members.map Part.spell).flatMap (.comma :: ·) ++ .closeObject :: rest) rfl
    have later := ih others (before ++ [member])
    simp only [List.map_cons, List.flatMap_cons, Part.spell, List.cons_append, List.append_assoc, run_cons, step,
      Option.bind_some] at later ⊢
    rw [read, deliver, ← Part.assemble_concat, later]
    simp

/-- **A phrase hands its value to the container that waits for it.** -/
theorem run_phrase {level : Nat} {tokens : List Token} {value : Value} (phrase : Phrase level tokens value) :
    Hands level tokens value := by
  induction phrase with
  | null => exact fun opened rest _ => rfl
  | boolean b => exact fun opened rest _ => rfl
  | string s => exact fun opened rest _ => rfl
  | numeral denotes =>
    intro opened rest _
    simp [step, start, denotes]
  | @list level items room phrases ih =>
    rintro opened rest rfl
    cases items with
    | nil => simp [Token.separate, step, start, room]
    | cons item items =>
      obtain ⟨first, others⟩ := List.forall_mem_cons.1 ih
      have read := first (.list [] :: opened) ((items.map Part.tokens).flatMap (.comma :: ·) ++ .closeList :: rest) rfl
      simp only [List.map_cons, Token.separate, List.cons_append, List.append_assoc, List.nil_append, run_cons, step,
        start, if_pos room, Option.bind_some]
      rw [run_beforeFirstItem_phrase (phrases item (.head _)), read, deliver, run_items others]
      rfl
  | @object level members room _ ih =>
    rintro opened rest rfl
    cases members with
    | nil =>
      simp [Token.separate, step, start, room]
      rfl
    | cons member members =>
      obtain ⟨first, others⟩ := List.forall_mem_cons.1 ih
      have read := first (.member [] member.1 :: opened)
        ((members.map Part.spell).flatMap (.comma :: ·) ++ .closeObject :: rest) rfl
      have later := run_members others [member] rest
      simp only [List.map_cons, Token.separate, Part.spell, List.cons_append, List.append_assoc, List.nil_append,
        run_cons, step, start, if_pos room, Option.bind_some] at later ⊢
      rw [read, deliver]
      exact later

/-- The tokens that open these containers, up to where a value is expected. Each part
before it is complete. -/
inductive Opens : List Token → List Frame → Prop where
  | nil : Opens [] []
  | list {before : List Token} {opened : List Frame} {items : List Part} (outer : Opens before opened)
      (room : opened.length < maxDepth) (each : ∀ item ∈ items, Phrase (opened.length + 1) item.tokens item.value) :
      Opens (before ++ .openList :: Token.lead (items.map Part.tokens)) (.list (items.map Part.value).reverse :: opened)
  | member {before : List Token} {opened : List Frame} {members : List (String × Part)} {name : String}
      (outer : Opens before opened) (room : opened.length < maxDepth)
      (each : ∀ member ∈ members, Phrase (opened.length + 1) member.2.tokens member.2.value) :
      Opens (before ++ .openObject :: Token.lead (members.map Part.spell) ++ [.string name, .colon])
        (.member (Part.assemble members) name :: opened)

/-- The tokens that lead the reader to a state. -/
inductive Read : List Token → Reader → Prop where
  | beforeValue {before : List Token} {opened : List Frame} (opens : Opens before opened) :
      Read before (beforeValue opened)
  | beforeFirstItem {before : List Token} {opened : List Frame} (outer : Opens before opened)
      (room : opened.length < maxDepth) : Read (before ++ [.openList]) (beforeFirstItem opened)
  | beforeFirstName {before : List Token} {opened : List Frame} (outer : Opens before opened)
      (room : opened.length < maxDepth) : Read (before ++ [.openObject]) (beforeFirstName opened)
  | beforeName {before : List Token} {opened : List Frame} {members : List (String × Part)}
      (outer : Opens before opened) (room : opened.length < maxDepth)
      (each : ∀ member ∈ members, Phrase (opened.length + 1) member.2.tokens member.2.value) :
      Read (before ++ .openObject :: Token.lead (members.map Part.spell)) (beforeName (Part.assemble members) opened)
  | beforeColon {before : List Token} {opened : List Frame} {members : List (String × Part)} {name : String}
      (outer : Opens before opened) (room : opened.length < maxDepth)
      (each : ∀ member ∈ members, Phrase (opened.length + 1) member.2.tokens member.2.value) :
      Read (before ++ .openObject :: Token.lead (members.map Part.spell) ++ [.string name])
        (beforeColon (Part.assemble members) name opened)
  | afterItem {before : List Token} {opened : List Frame} {front : List Part} {last : Part}
      (outer : Opens before opened) (room : opened.length < maxDepth)
      (each : ∀ item ∈ front ++ [last], Phrase (opened.length + 1) item.tokens item.value) :
      Read (before ++ .openList :: Token.lead (front.map Part.tokens) ++ last.tokens)
        (afterItem ((front ++ [last]).map Part.value).reverse opened)
  | afterMember {before : List Token} {opened : List Frame} {front : List (String × Part)} {last : String × Part}
      (outer : Opens before opened) (room : opened.length < maxDepth)
      (each : ∀ member ∈ front ++ [last], Phrase (opened.length + 1) member.2.tokens member.2.value) :
      Read (before ++ .openObject :: Token.lead (front.map Part.spell) ++ Part.spell last)
        (afterMember (Part.assemble (front ++ [last])) opened)
  | finished {tokens : List Token} {value : Value} (phrase : Phrase 0 tokens value) : Read tokens (finished value)

/-- A phrase where a value is expected leads to where that value is handed over. -/
theorem Opens.deliver {before tokens : List Token} {opened : List Frame} {value : Value}
    (opens : Opens before opened) (phrase : Phrase opened.length tokens value) :
    Read (before ++ tokens) (deliver value opened) := by
  cases opens with
  | nil => exact .finished phrase
  | @list before opened items outer room each =>
    have all : ∀ item ∈ items ++ [⟨tokens, value⟩], Phrase (opened.length + 1) item.tokens item.value :=
      List.forall_mem_append.2 ⟨each, List.forall_mem_singleton.2 phrase⟩
    simpa [Reader.deliver] using Read.afterItem outer room all
  | @member before opened members name outer room each =>
    have all : ∀ member ∈ members ++ [(name, ⟨tokens, value⟩)],
        Phrase (opened.length + 1) member.2.tokens member.2.value :=
      List.forall_mem_append.2 ⟨each, List.forall_mem_singleton.2 phrase⟩
    have read := Read.afterMember outer room all
    rw [Part.assemble_concat] at read
    simpa [Part.spell, Reader.deliver] using read

/-- The first token of a value, where one is expected. -/
theorem Opens.start {before : List Token} {opened : List Frame} {token : Token} {next : Reader}
    (opens : Opens before opened) (started : start opened token = some next) : Read (before ++ [token]) next := by
  cases token with
  | openObject =>
    obtain ⟨room, same⟩ := Option.ite_none_right_eq_some.1 started
    cases same
    exact .beforeFirstName opens room
  | openList =>
    obtain ⟨room, same⟩ := Option.ite_none_right_eq_some.1 started
    cases same
    exact .beforeFirstItem opens room
  | null =>
    cases started
    exact opens.deliver .null
  | boolean b =>
    cases started
    exact opens.deliver (.boolean b)
  | string s =>
    cases started
    exact opens.deliver (.string s)
  | numeral n =>
    obtain ⟨value, denotes, rfl⟩ := Option.map_eq_some_iff.1 started
    exact opens.deliver (.numeral denotes)
  | _ => cases started

/-- **One step**: each token leads the reader on as the grammar has it. -/
theorem Read.step {before : List Token} {reader next : Reader} {token : Token} (read : Read before reader)
    (stepped : reader.step token = some next) : Read (before ++ [token]) next := by
  cases read with
  | beforeValue opens => exact opens.start stepped
  | @beforeFirstItem before opened outer room =>
    have first : Opens (before ++ [.openList]) (.list [] :: opened) := @Opens.list before opened [] outer room nofun
    cases token with
    | closeList =>
      cases stepped
      have closed : Phrase opened.length [.openList, .closeList] (.list []) := @Phrase.list opened.length [] room nofun
      simpa using outer.deliver closed
    | _ => exact first.start stepped
  | @beforeFirstName before opened outer room =>
    cases token with
    | closeObject =>
      cases stepped
      have closed : Phrase opened.length [.openObject, .closeObject] (.object []) :=
        @Phrase.object opened.length [] room nofun
      simpa using outer.deliver closed
    | string s =>
      cases stepped
      exact @Read.beforeColon before opened [] s outer room nofun
    | _ => cases stepped
  | beforeName outer room each =>
    cases token with
    | string s =>
      cases stepped
      exact .beforeColon outer room each
    | _ => cases stepped
  | @beforeColon before opened members name outer room each =>
    cases token with
    | colon =>
      cases stepped
      have opens := @Opens.member before opened members name outer room each
      simpa using Read.beforeValue opens
    | _ => cases stepped
  | @afterItem before opened front last outer room each =>
    cases token with
    | comma =>
      cases stepped
      have opens := Opens.list outer room each
      simpa [Token.lead_concat] using Read.beforeValue opens
    | closeList =>
      cases stepped
      have closed := Phrase.list room each
      simpa [Token.separate_concat] using outer.deliver closed
    | _ => cases stepped
  | @afterMember before opened front last outer room each =>
    cases token with
    | comma =>
      cases stepped
      simpa [Token.lead_concat] using Read.beforeName outer room each
    | closeObject =>
      cases stepped
      have closed := Phrase.object room each
      simpa [Token.separate_concat] using outer.deliver closed
    | _ => cases stepped
  | finished phrase => cases stepped

/-- What leads to a state leads on to the state after a run. -/
theorem Read.run {before tokens : List Token} {reader next : Reader} (read : Read before reader)
    (ran : reader.run tokens = some next) : Read (before ++ tokens) next := by
  induction tokens generalizing before reader with
  | nil =>
    cases ran
    rwa [List.append_nil]
  | cons token tokens ih =>
    rw [run_cons, Option.bind_eq_some_iff] at ran
    obtain ⟨middle, stepped, onwards⟩ := ran
    have later := ih (read.step stepped) onwards
    rwa [List.append_assoc, List.singleton_append] at later

end Reader

/-- **The reader reads exactly the phrases.** -/
theorem Value.ofTokens?_eq_some_iff {tokens : List Token} {value : Value} :
    Value.ofTokens? tokens = some value ↔ Phrase 0 tokens value := by
  constructor
  · intro read
    obtain ⟨reader, ran, result⟩ := Option.bind_eq_some_iff.1 read
    have reached := (Reader.Read.beforeValue .nil).run ran
    cases reader with
    | finished other =>
      cases result
      cases reached with
      | finished phrase => exact phrase
    | _ => cases result
  · intro phrase
    have ran := Reader.run_phrase phrase [] [] rfl
    rw [List.append_nil] at ran
    rw [Value.ofTokens?, ran]
    rfl

end TrainingJob.Json
