/-!
# Quoted text

The text between the quotation marks of a JSON string. `Quoted.write` escapes
only what has to be escaped: the quotation mark, the backslash, and the controls
below U+0020, five of which have a letter of their own while the others are
written with four hexadecimal digits. `Quoted.scan` reads every escape of JSON.
A control may not stand unescaped, and escaped code units have to form
characters: a leading surrogate needs a trailing one after it, and a trailing
one may not stand alone.
-/

set_option autoImplicit false

namespace TrainingJob.Json.Quoted

/-- The value of a hexadecimal digit of either case. -/
def hexValue (c : Char) : Option Nat :=
  if c.isDigit then some (c.toNat - '0'.toNat)
  else if 'a' ≤ c ∧ c ≤ 'f' then some (c.toNat - 'a'.toNat + 10)
  else if 'A' ≤ c ∧ c ≤ 'F' then some (c.toNat - 'A'.toNat + 10)
  else none

/-- The 16-bit code unit that four hexadecimal digits spell. -/
def codeUnit (a b c d : Char) : Option Nat := do
  return (((← hexValue a) * 16 + (← hexValue b)) * 16 + (← hexValue c)) * 16 + (← hexValue d)

def isLeading (unit : Nat) : Bool := 0xD800 ≤ unit && unit < 0xDC00

def isTrailing (unit : Nat) : Bool := 0xDC00 ≤ unit && unit < 0xE000

/-- The character above U+FFFF that two surrogates stand for. -/
def ofSurrogates (leading trailing : Nat) : Char :=
  Char.ofNat (0x10000 + (leading - 0xD800) * 0x400 + (trailing - 0xDC00))

/-- The character that a letter after a backslash stands for. -/
def ofLetter : Char → Option Char
  | '"' => some '"'
  | '\\' => some '\\'
  | '/' => some '/'
  | 'b' => some '\x08'
  | 'f' => some '\x0c'
  | 'n' => some '\n'
  | 'r' => some '\r'
  | 't' => some '\t'
  | _ => none

/-- Puts a character in front of the text scanned after it. -/
def push (c : Char) (scanned : List Char × List Char) : List Char × List Char :=
  (c :: scanned.1, scanned.2)

/-- The text up to the closing quotation mark, and what follows that mark. -/
def scan : List Char → Option (List Char × List Char)
  | [] => none
  | '"' :: rest => some ([], rest)
  | '\\' :: 'u' :: a :: b :: c :: d :: rest =>
    match codeUnit a b c d with
    | none => none
    | some unit =>
      if isLeading unit then
        match rest with
        | '\\' :: 'u' :: a :: b :: c :: d :: rest =>
          match codeUnit a b c d with
          | none => none
          | some trailing =>
            if isTrailing trailing then (scan rest).map (push (ofSurrogates unit trailing)) else none
        | _ => none
      else if isTrailing unit then none
      else (scan rest).map (push (Char.ofNat unit))
  | '\\' :: letter :: rest =>
    match ofLetter letter with
    | none => none
    | some c => (scan rest).map (push c)
  | c :: rest => if c < ' ' then none else (scan rest).map (push c)

/-- The digit of a value below 16, in lower case. -/
def hexDigit (n : Nat) : Char := Nat.digitChar n

/-- A character as it is written between quotation marks. -/
def escape (c : Char) : List Char :=
  if c = '"' then ['\\', '"']
  else if c = '\\' then ['\\', '\\']
  else if c = '\x08' then ['\\', 'b']
  else if c = '\x0c' then ['\\', 'f']
  else if c = '\n' then ['\\', 'n']
  else if c = '\r' then ['\\', 'r']
  else if c = '\t' then ['\\', 't']
  else if c < ' ' then ['\\', 'u', '0', '0', hexDigit (c.toNat / 16), hexDigit (c.toNat % 16)]
  else [c]

/-- A text between quotation marks. -/
def write (text : List Char) : List Char := '"' :: text.flatMap escape ++ ['"']

theorem exists_of_map_push {scanned : Option (List Char × List Char)} {c : Char} {quoted rest : List Char}
    (h : scanned.map (push c) = some (quoted, rest)) : ∃ tail, scanned = some (tail, rest) := by
  obtain ⟨⟨tail, _⟩, hs, he⟩ := Option.map_eq_some_iff.1 h
  simp only [push, Prod.mk.injEq] at he
  exact ⟨tail, he.2 ▸ hs⟩

/-- Scanning takes at least the closing quotation mark. -/
theorem length_lt_of_scan {text quoted rest : List Char} (h : scan text = some (quoted, rest)) :
    rest.length < text.length := by
  fun_induction scan text generalizing quoted with
  | case2 => simp_all
  | case5 _ _ _ _ _ _ _ _ _ _ _ _ _ _ _ ih =>
    have := ih (exists_of_map_push h).choose_spec
    simp only [List.length_cons]
    omega
  | case9 _ _ _ _ _ _ _ _ _ ih | case11 _ _ _ _ _ ih | case13 _ _ _ _ _ _ ih =>
    have := ih (exists_of_map_push h).choose_spec
    simp only [List.length_cons]
    omega
  | _ => simp at h

end TrainingJob.Json.Quoted
