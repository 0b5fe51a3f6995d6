import Mathlib.Data.List.Induction
import TrainingJob.Proofs.Json.Phrases
import TrainingJob.Proofs.Json.Tokens

/-!
# Written values read back

A text holds the values that its reader can build: objects whose names are
distinct, integers of a 64-bit word, decimals of bounded magnitude, and no more
containers inside each other than the reader opens (`Value.Spellable`). The tokens
of such a value are a phrase for it (`Phrase.of_spellable`), so it is read back from
its own text, with the members of its objects in the same order
(`Value.ofText?_toText`).
-/

set_option autoImplicit false

namespace TrainingJob.Json

/-- The values that a text can hold where `depth` more containers may be opened. -/
inductive Value.Spellable : Nat → Value → Prop where
  | null {depth : Nat} : Value.Spellable depth .null
  | boolean {depth : Nat} (b : Bool) : Value.Spellable depth (.boolean b)
  | integer {depth : Nat} {n : Int} (lower : -0x8000000000000000 ≤ n) (upper : n < 0x10000000000000000) :
      Value.Spellable depth (.integer n)
  | decimal {depth : Nat} {d : Decimal} (bounded : (Numeral.ofDecimal d).overflows = false) :
      Value.Spellable depth (.decimal d)
  | string {depth : Nat} (s : String) : Value.Spellable depth (.string s)
  | list {depth : Nat} {items : List Value} (each : ∀ item ∈ items, Value.Spellable depth item) :
      Value.Spellable (depth + 1) (.list items)
  | object {depth : Nat} {members : Fields} (distinct : members.names.Nodup)
      (each : ∀ entry ∈ members, Value.Spellable depth entry.2) :
      Value.Spellable (depth + 1) (.object members)

/-- A value fits wherever more containers may be opened. -/
theorem Value.Spellable.mono {depth : Nat} {value : Value} (spellable : value.Spellable depth) :
    ∀ {more : Nat}, depth ≤ more → value.Spellable more := by
  induction spellable with
  | null => exact fun _ => .null
  | boolean b => exact fun _ => .boolean b
  | integer lower upper => exact fun _ => .integer lower upper
  | decimal bounded => exact fun _ => .decimal bounded
  | string s => exact fun _ => .string s
  | list _ ih =>
    intro more le
    obtain ⟨more, rfl⟩ : ∃ k, more = k + 1 := ⟨more - 1, by omega⟩
    exact .list fun item mem => ih item mem (by omega)
  | object distinct _ ih =>
    intro more le
    obtain ⟨more, rfl⟩ : ∃ k, more = k + 1 := ⟨more - 1, by omega⟩
    exact .object distinct fun entry mem => ih entry mem (by omega)

namespace Part

/-- A value among the parts of a container, with its own tokens. -/
def ofValue (value : Value) : Part := ⟨value.tokens, value⟩

theorem tokensOfItems_eq (items : List Value) :
    Value.tokensOfItems items = ((items.map ofValue).map Part.tokens).flatMap (.comma :: ·) := by
  induction items with
  | nil => rfl
  | cons item items ih => simp [Value.tokensOfItems, ih, ofValue]

theorem tokensOfMembers_eq (members : Fields) :
    Value.tokensOfMembers members =
      ((members.map (Prod.map id ofValue)).map Part.spell).flatMap (.comma :: ·) := by
  induction members with
  | nil => rfl
  | cons entry members ih => simp [Value.tokensOfMembers, ih, ofValue, spell]

/-- Members whose names are distinct are assembled in their order: each name is new to those
before it, so it is put at the end. -/
theorem assemble_ofValue {members : Fields} (distinct : members.names.Nodup) :
    assemble (members.map (Prod.map id ofValue)) = members := by
  induction members using List.reverseRecOn with
  | nil => rfl
  | append_singleton before entry ih =>
    rw [Fields.names, List.map_append, List.nodup_append] at distinct
    obtain ⟨beforeDistinct, -, apart⟩ := distinct
    have fresh : entry.1 ∉ Fields.names before := fun mem => apart entry.1 mem entry.1 (by simp) rfl
    rw [List.map_append, List.map_singleton, assemble_concat, ih beforeDistinct]
    exact Fields.insert_of_not_mem entry.2 fresh

end Part

/-- **The tokens of a value are a phrase for it**, as long as a text can hold it. -/
theorem Phrase.of_spellable {depth : Nat} {value : Value} (spellable : value.Spellable depth) :
    ∀ {level : Nat}, level + depth ≤ Reader.maxDepth → Phrase level value.tokens value := by
  induction spellable with
  | null => exact fun _ => .null
  | boolean b => exact fun _ => .boolean b
  | integer lower upper => exact fun _ => .numeral (Numeral.value?_ofInteger lower upper)
  | decimal bounded => exact fun _ => .numeral (Numeral.value?_ofDecimal bounded)
  | string s => exact fun _ => .string s
  | @list depth items _ ih =>
    intro level room
    have each : ∀ item ∈ items.map Part.ofValue, Phrase (level + 1) item.tokens item.value := by
      intro item mem
      obtain ⟨value, held, rfl⟩ := List.mem_map.1 mem
      exact ih value held (by omega)
    have phrase := Phrase.list (by omega) each
    have values : (items.map Part.ofValue).map Part.value = items := by
      rw [List.map_map]
      exact List.map_id items
    rw [values] at phrase
    cases items with
    | nil => exact phrase
    | cons item items =>
      rw [Value.tokens, Part.tokensOfItems_eq]
      exact phrase
  | @object depth members distinct _ ih =>
    intro level room
    have each : ∀ member ∈ members.map (Prod.map id Part.ofValue),
        Phrase (level + 1) member.2.tokens member.2.value := by
      intro member mem
      obtain ⟨entry, held, rfl⟩ := List.mem_map.1 mem
      exact ih entry held (by omega)
    have phrase := Phrase.object (by omega) each
    rw [Part.assemble_ofValue distinct] at phrase
    cases members with
    | nil => exact phrase
    | cons entry members =>
      rw [Value.tokens, Part.tokensOfMembers_eq]
      exact phrase

namespace Reader

/-- Where a value is expected, its tokens hand it to the innermost open container. -/
def Delivers (depth : Nat) (value : Value) : Prop :=
  ∀ opened rest, opened.length + depth ≤ maxDepth →
    (beforeValue opened).run (value.tokens ++ rest) = (deliver value opened).run rest

/-- **A reader gets back what tokens were made from**, as long as a text can hold it. -/
theorem delivers_of_spellable {depth : Nat} {value : Value} (spellable : value.Spellable depth) :
    Delivers depth value :=
  fun opened rest room => run_phrase (.of_spellable spellable room) opened rest rfl

end Reader

/-- **Written values read back**: the text of a value denotes that value. -/
theorem Value.ofText?_toText {value : Value} (spellable : value.Spellable Reader.maxDepth) :
    Value.ofText? value.toText = some value := by
  have tokens : Token.scan value.toText.toList = some value.tokens := by
    have scanned := Token.scan_write value 0 [] Numeral.endsBefore_nil
    rw [List.append_nil] at scanned
    rw [Value.toText, String.toList_ofList, scanned, Token.scan]
    simp
  have read := Reader.delivers_of_spellable spellable [] [] (by simp)
  rw [List.append_nil] at read
  simp [Value.ofText?, tokens, Value.ofTokens?, read, Reader.deliver, Reader.result?]

end TrainingJob.Json
