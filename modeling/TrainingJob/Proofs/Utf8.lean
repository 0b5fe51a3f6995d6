/-!
# UTF-8

Which bytes are text, said by the bytes. A character takes one to four of them. The
first byte tells how many, all others are continuations, and between them they carry
the number of the character. Four sorts of sequences that would fit this pattern are
no text: those that are longer than the character needs, those that stand for
surrogates, those beyond U+10FFFF, and those that break off (`Utf8.Encodes`).

A text has one spelling in bytes, and bytes spell one text or none
(`Utf8.fromUTF8?_eq_some_iff`).
-/

set_option autoImplicit false

namespace TrainingJob.Utf8

/-- A byte that continues a character, and carries six bits of it. -/
def IsTail (byte : UInt8) : Prop := 0x80 ≤ byte.toNat ∧ byte.toNat < 0xC0

/-- The well-formed bytes of one character. -/
inductive Encodes : List UInt8 → Char → Prop where
  | one {a : UInt8} {c : Char} (lead : a.toNat < 0x80) (value : c.toNat = a.toNat) : Encodes [a] c
  | two {a b : UInt8} {c : Char} (lead : 0xC2 ≤ a.toNat ∧ a.toNat < 0xE0) (tail : IsTail b)
      (value : c.toNat = (a.toNat - 0xC0) * 0x40 + (b.toNat - 0x80)) : Encodes [a, b] c
  | three {a b d : UInt8} {c : Char} (lead : 0xE0 ≤ a.toNat ∧ a.toNat < 0xF0) (tail : IsTail b) (last : IsTail d)
      (notOverlong : a.toNat = 0xE0 → 0xA0 ≤ b.toNat) (notSurrogate : a.toNat = 0xED → b.toNat < 0xA0)
      (value : c.toNat = (a.toNat - 0xE0) * 0x1000 + (b.toNat - 0x80) * 0x40 + (d.toNat - 0x80)) :
      Encodes [a, b, d] c
  | four {a b d e : UInt8} {c : Char} (lead : 0xF0 ≤ a.toNat ∧ a.toNat < 0xF5) (tail : IsTail b) (next : IsTail d)
      (last : IsTail e) (notOverlong : a.toNat = 0xF0 → 0x90 ≤ b.toNat) (notBeyond : a.toNat = 0xF4 → b.toNat < 0x90)
      (value : c.toNat = (a.toNat - 0xF0) * 0x40000 + (b.toNat - 0x80) * 0x1000 + (d.toNat - 0x80) * 0x40 +
        (e.toNat - 0x80)) : Encodes [a, b, d, e] c

/-- The bytes of a text are those of its characters, one after the other. -/
inductive Spells : List UInt8 → List Char → Prop where
  | nil : Spells [] []
  | cons {bytes rest : List UInt8} {c : Char} {text : List Char} (first : Encodes bytes c)
      (later : Spells rest text) : Spells (bytes ++ rest) (c :: text)

/-- A byte is known by its number. -/
theorem ofNat_eq {n : Nat} (byte : UInt8) (same : n = byte.toNat) : UInt8.ofNat n = byte := by
  rw [same, UInt8.ofNat_toNat]

theorem utf8EncodeChar_of_encodes {bytes : List UInt8} {c : Char} (encodes : Encodes bytes c) :
    String.utf8EncodeChar c = bytes := by
  have value (n : Nat) (same : c.toNat = n) : c.val.toNat = n := same
  cases encodes with
  | @one a _ lead same =>
    rw [String.utf8EncodeChar, value _ same, if_pos (by omega), ofNat_eq a rfl]
  | @two a b _ lead tail same =>
    obtain ⟨lower, upper⟩ := tail
    rw [String.utf8EncodeChar, value _ same, if_neg (by omega), if_pos (by omega), ofNat_eq a (by omega),
      ofNat_eq b (by omega)]
  | @three a b d _ lead tail last notOverlong _ same =>
    obtain ⟨lower, upper⟩ := tail
    obtain ⟨lastLower, lastUpper⟩ := last
    rw [String.utf8EncodeChar, value _ same, if_neg (by omega), if_neg (by omega), if_pos (by omega),
      ofNat_eq a (by omega), ofNat_eq b (by omega), ofNat_eq d (by omega)]
  | @four a b d e _ lead tail next last notOverlong _ same =>
    obtain ⟨lower, upper⟩ := tail
    obtain ⟨nextLower, nextUpper⟩ := next
    obtain ⟨lastLower, lastUpper⟩ := last
    rw [String.utf8EncodeChar, value _ same, if_neg (by omega), if_neg (by omega), if_neg (by omega),
      ofNat_eq a (by omega), ofNat_eq b (by omega), ofNat_eq d (by omega),
      ofNat_eq e (by omega)]

theorem toNat_ofNat {n : Nat} (small : n < 256) : (UInt8.ofNat n).toNat = n := by
  rw [UInt8.toNat_ofNat']
  exact Nat.mod_eq_of_lt small

/-- Six bits of a number, as a continuation. -/
theorem toNat_tail (n : Nat) : (UInt8.ofNat (n % 64 + 128)).toNat = n % 64 + 128 := toNat_ofNat (by omega)

theorem isTail_tail (n : Nat) : IsTail (UInt8.ofNat (n % 64 + 128)) := by
  rw [IsTail, toNat_tail]
  omega

/-- The bytes of a character are well formed: no character is a surrogate, and none lies beyond U+10FFFF. -/
theorem encodes_utf8EncodeChar (c : Char) : Encodes (String.utf8EncodeChar c) c := by
  have valid : c.toNat < 0xD800 ∨ (0xDFFF < c.toNat ∧ c.toNat < 0x110000) := c.valid
  have value : c.val.toNat = c.toNat := rfl
  have last := toNat_tail c.toNat
  have next := toNat_tail (c.toNat / 64)
  have second := toNat_tail (c.toNat / 4096)
  rw [String.utf8EncodeChar, value]
  split
  case isTrue small =>
    have lead : (UInt8.ofNat c.toNat).toNat = c.toNat := toNat_ofNat (by omega)
    exact .one (by omega) (by omega)
  split
  case isTrue small =>
    have lead : (UInt8.ofNat (c.toNat / 64 % 32 + 192)).toNat = c.toNat / 64 % 32 + 192 := toNat_ofNat (by omega)
    exact .two (by omega) (isTail_tail _) (by omega)
  split
  case isTrue small =>
    have lead : (UInt8.ofNat (c.toNat / 4096 % 16 + 224)).toNat = c.toNat / 4096 % 16 + 224 := toNat_ofNat (by omega)
    exact .three (by omega) (isTail_tail _) (isTail_tail _) (by omega) (by omega) (by omega)
  case isFalse =>
    have lead : (UInt8.ofNat (c.toNat / 262144 % 8 + 240)).toNat = c.toNat / 262144 % 8 + 240 := toNat_ofNat (by omega)
    exact .four (by omega) (isTail_tail _) (isTail_tail _) (isTail_tail _) (by omega) (by omega) (by omega)

theorem encodes_iff {bytes : List UInt8} {c : Char} : Encodes bytes c ↔ String.utf8EncodeChar c = bytes := by
  constructor
  · exact utf8EncodeChar_of_encodes
  · rintro rfl
    exact encodes_utf8EncodeChar c

/-- The bytes of a text are those that it is encoded to. -/
theorem spells_iff {bytes : List UInt8} {text : List Char} :
    Spells bytes text ↔ text.flatMap String.utf8EncodeChar = bytes := by
  constructor
  · intro spells
    induction spells with
    | nil => rfl
    | cons first _ ih => rw [List.flatMap_cons, encodes_iff.1 first, ih]
  · rintro rfl
    induction text with
    | nil => exact .nil
    | cons c text ih =>
      rw [List.flatMap_cons]
      exact .cons (encodes_utf8EncodeChar c) ih

/-- **Bytes are read as the text that they spell**, and are no text if they spell none. -/
theorem fromUTF8?_eq_some_iff {bytes : List UInt8} {text : String} :
    String.fromUTF8? bytes.toByteArray = some text ↔ Spells bytes text.toList := by
  have encoded : text.toByteArray = bytes.toByteArray ↔ text.toList.flatMap String.utf8EncodeChar = bytes := by
    rw [← String.utf8Encode_toList, List.utf8Encode, List.toByteArray_inj]
  rw [spells_iff, ← encoded, String.fromUTF8?]
  constructor
  · intro read
    split at read
    case isTrue valid =>
      cases read
      rfl
    case isFalse => cases read
  · intro same
    have valid : bytes.toByteArray.IsValidUTF8 := same ▸ text.isValidUTF8
    rw [dif_pos valid, String.fromUTF8]
    congr 1
    exact String.toByteArray_inj.1 same.symm

/-- A text is read back from its bytes. -/
theorem fromUTF8?_toUTF8 (text : String) : String.fromUTF8? text.toUTF8 = some text := by
  rw [String.toUTF8_eq_toByteArray, String.fromUTF8?, dif_pos text.isValidUTF8, String.fromUTF8]

end TrainingJob.Utf8
