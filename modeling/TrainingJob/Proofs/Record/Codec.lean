import TrainingJob.Proofs.Json.Text
import TrainingJob.Proofs.Schema.NormalForm
import TrainingJob.Record.Codec

/-!
# Lawful codecs

A codec is lawful when it agrees with the type that describes it. It reads
exactly the values that the type accepts, reads back what it shows, shows what it
read in the normal form of the type, and shows nothing that a text could not
hold. The codecs of texts, integers, switches and lists are lawful here, those
of nested records where records are (`TrainingJob.Proofs.Record.Lawful`).
-/

set_option autoImplicit false

namespace TrainingJob

open Json

mutual

/-- How many containers the values of a type hold inside each other, at most. -/
def FieldType.depth : FieldType → Nat
  | .string => 0
  | .integer => 0
  | .boolean => 0
  | .list item => item.depth + 1
  | .shape ⟨_, declared⟩ => Field.deepest declared + 1
  | .oneOf members => FieldType.deepest members

def FieldType.deepest : List FieldType → Nat
  | [] => 0
  | member :: rest => max member.depth (FieldType.deepest rest)

def Field.deepest : List Field → Nat
  | [] => 0
  | ⟨_, type, _⟩ :: rest => max type.depth (Field.deepest rest)

end

theorem FieldType.depth_shape (schema : Schema) :
    (FieldType.shape schema).depth = Field.deepest schema.fields + 1 := by
  obtain ⟨name, declared⟩ := schema
  rfl

theorem FieldType.depth_le_deepest {member : FieldType} {members : List FieldType} (mem : member ∈ members) :
    member.depth ≤ FieldType.deepest members := by
  induction mem with
  | head rest => exact Nat.le_max_left _ _
  | tail other _ ih => exact Nat.le_trans ih (Nat.le_max_right _ _)

theorem Field.depth_le_deepest {field : Field} {declared : List Field} (mem : field ∈ declared) :
    field.type.depth ≤ Field.deepest declared := by
  induction mem with
  | head rest =>
    obtain ⟨name, type, isRequired⟩ := field
    exact Nat.le_max_left _ _
  | tail other _ ih =>
    obtain ⟨name, type, isRequired⟩ := other
    exact Nat.le_trans ih (Nat.le_max_right _ _)

/-- A codec that agrees with its type. -/
class Codec.Lawful {α : Type} (codec : Codec α) : Prop where
  /-- What is read is what the type accepts. -/
  isSome_decode_iff : ∀ value, (codec.decode value).isSome ↔ codec.type.fault? value = none
  decode_encode : ∀ a, codec.decode (codec.encode a) = some a
  encode_of_decode : ∀ {value a}, codec.decode value = some a → codec.encode a = codec.type.tidy value
  spellable : ∀ a, (codec.encode a).Spellable codec.type.depth

namespace Codec.Lawful

variable {α : Type} {codec : Codec α} [codec.Lawful]

theorem accepts_of_decode {value : Value} {a : α} (read : codec.decode value = some a) :
    codec.type.fault? value = none := by
  rw [← isSome_decode_iff, read]
  rfl

theorem rejects_of_decode {value : Value} (unread : codec.decode value = none) :
    codec.type.fault? value ≠ none := by
  rw [ne_eq, ← isSome_decode_iff, unread]
  nofun

theorem fault?_encode (a : α) : codec.type.fault? (codec.encode a) = none :=
  accepts_of_decode (decode_encode a)

theorem encode_ne_null (a : α) : codec.encode a ≠ .null :=
  FieldType.ne_null_of_fault? (fault?_encode a)

theorem encode_injective {a b : α} (same : codec.encode a = codec.encode b) : a = b := by
  have read : codec.decode (codec.encode a) = some a := decode_encode a
  rw [same, decode_encode] at read
  exact (Option.some.inj read).symm

theorem decode_null : codec.decode .null = none := by
  rw [← Option.not_isSome_iff_eq_none, isSome_decode_iff]
  exact codec.type.fault?_null_ne_none

end Codec.Lawful

namespace Codec

instance lawful_string : string.Lawful where
  isSome_decode_iff value := by cases value <;> simp [string, FieldType.fault?_string_eq_none_iff]
  decode_encode _ := rfl
  encode_of_decode := by
    intro value s read
    cases value <;> simp_all [string, FieldType.tidy]
  spellable s := .string s

instance lawful_boolean : boolean.Lawful where
  isSome_decode_iff value := by cases value <;> simp [boolean, FieldType.fault?_boolean_eq_none_iff]
  decode_encode _ := rfl
  encode_of_decode := by
    intro value b read
    cases value <;> simp_all [boolean, FieldType.tidy]
  spellable b := .boolean b

theorem fitsWord_toInt (n : Int64) : FitsWord n.toInt := by
  have lower := n.le_toInt
  have upper := n.toInt_lt
  omega

instance lawful_integer : integer.Lawful where
  isSome_decode_iff value := by
    rw [integer, FieldType.fault?_integer_eq_none_iff]
    cases value with
    | integer n =>
      show (if FitsWord n then some (Int64.ofInt n) else none).isSome = true ↔ _
      by_cases fits : FitsWord n
      · rw [if_pos fits]
        exact ⟨fun _ => ⟨n, fits, rfl⟩, fun _ => rfl⟩
      · rw [if_neg fits]
        refine ⟨nofun, ?_⟩
        rintro ⟨m, fits', same⟩
        cases same
        exact absurd fits' fits
    | _ => simp
  decode_encode n := by
    show (if FitsWord n.toInt then some (Int64.ofInt n.toInt) else none) = some n
    rw [if_pos (fitsWord_toInt n), Int64.ofInt_toInt]
  encode_of_decode := by
    intro value n read
    cases value with
    | integer m =>
      by_cases fits : FitsWord m
      · simp only [integer, if_pos fits, Option.some.injEq] at read
        subst read
        show Value.integer (Int64.ofInt m).toInt = .integer m
        rw [Int64.toInt_ofInt_of_le fits.1 fits.2]
      · simp [integer, fits] at read
    | _ => simp [integer] at read
  spellable n := by
    have fits := fitsWord_toInt n
    exact .integer fits.1 (by omega)

/-- A list is read when each of its items is. -/
theorem isSome_mapM_iff {α β : Type} {f : α → Option β} {items : List α} :
    (items.mapM f).isSome ↔ ∀ item ∈ items, (f item).isSome := by
  induction items with
  | nil => simp
  | cons item rest ih =>
    rw [List.forall_mem_cons, ← ih, List.mapM_cons]
    cases f item <;> cases rest.mapM f <;> simp

theorem mapM_map_eq_some {α β : Type} {f : α → β} {g : β → Option α} (back : ∀ a, g (f a) = some a)
    (items : List α) : (items.map f).mapM g = some items := by
  induction items with
  | nil => rfl
  | cons item rest ih =>
    rw [List.map_cons, List.mapM_cons, back, ih]
    rfl

/-- What holds of every item read holds of the list. -/
theorem map_eq_of_mapM {α β γ : Type} {f : α → Option β} {g : β → γ} {h : α → γ}
    (each : ∀ {a b}, f a = some b → g b = h a) :
    ∀ {items : List α} {read : List β}, items.mapM f = some read → read.map g = items.map h
  | [], read, eq => by
    rw [List.mapM_nil] at eq
    cases eq
    rfl
  | item :: rest, read, eq => by
    rw [List.mapM_cons, Option.bind_eq_bind, Option.bind_eq_some_iff] at eq
    obtain ⟨b, first, eq⟩ := eq
    obtain ⟨bs, others, eq⟩ := Option.bind_eq_some_iff.1 eq
    cases eq
    rw [List.map_cons, List.map_cons, each first, map_eq_of_mapM each others]

instance lawful_list {α : Type} (item : Codec α) [item.Lawful] : (list item).Lawful where
  isSome_decode_iff value := by
    rw [list, FieldType.fault?_list_eq_none_iff]
    cases value with
    | list items =>
      show (items.mapM item.decode).isSome = true ↔ _
      simp [isSome_mapM_iff, Lawful.isSome_decode_iff]
    | _ => simp
  decode_encode items := mapM_map_eq_some Lawful.decode_encode items
  encode_of_decode := by
    intro value items read
    cases value with
    | list values =>
      show Value.list (items.map item.encode) = (FieldType.list item.type).tidy (.list values)
      rw [FieldType.tidy_list, map_eq_of_mapM Lawful.encode_of_decode read]
    | _ => simp [list] at read
  spellable items := by
    refine .list fun value mem => ?_
    obtain ⟨a, -, rfl⟩ := List.mem_map.1 mem
    exact Lawful.spellable a

end Codec

end TrainingJob
