import TrainingJob.Proofs.Json.Tokens

/-!
# Lexemes

What a scanner takes off the front of a text is a lexeme: in front of any other text it
is taken again, and the same is made of it. A string needs nothing for that but its own
marks (`Quoted.exists_lexeme`). A numeral goes on as long as it can, so the other text
must not extend it (`Numeral.Spells.scan_append`).

Scanning a text cuts it at each of its tokens. At a numeral the text can be cut out and
another put in its place (`Token.exists_cut`), provided that numerals do not touch.
-/

set_option autoImplicit false

namespace TrainingJob.Json

namespace Quoted

/-- The characters that are taken again in front of any text. -/
def IsLexeme (quoted lexeme : List Char) : Prop := ∀ rest, scan (lexeme ++ rest) = some (quoted, rest)

/-- What spells one more character goes in front of a lexeme. -/
theorem exists_lexeme_of_push {c : Char} (piece : List Char)
    (spells : ∀ rest, scan (piece ++ rest) = (scan rest).map (push c)) {rest quoted after : List Char}
    (ih : ∀ {quoted}, scan rest = some (quoted, after) → ∃ lexeme, rest = lexeme ++ after ∧ IsLexeme quoted lexeme)
    (scanned : (scan rest).map (push c) = some (quoted, after)) :
    ∃ lexeme, piece ++ rest = lexeme ++ after ∧ IsLexeme quoted lexeme := by
  obtain ⟨⟨tail, _⟩, found, same⟩ := Option.map_eq_some_iff.1 scanned
  cases same
  obtain ⟨lexeme, rfl, again⟩ := ih found
  refine ⟨piece ++ lexeme, (List.append_assoc _ _ _).symm, fun other => ?_⟩
  rw [List.append_assoc, spells, again other]
  rfl

/-- **A string is taken again**, whatever stands after its closing mark. -/
theorem exists_lexeme {text quoted after : List Char} (scanned : scan text = some (quoted, after)) :
    ∃ lexeme, text = lexeme ++ after ∧ IsLexeme quoted lexeme := by
  fun_induction scan text generalizing quoted with
  | case1 => cases scanned
  | case2 rest =>
    cases scanned
    exact ⟨['"'], rfl, fun _ => rfl⟩
  | case5 a b c d leading spells isLeading a' b' c' d' rest trailing spells' isTrailing ih =>
    apply exists_lexeme_of_push ['\\', 'u', a, b, c, d, '\\', 'u', a', b', c', d'] _ ih scanned
    intro other
    simp [scan, *]
  | case9 a b c d rest unit found notLeading notTrailing ih =>
    apply exists_lexeme_of_push ['\\', 'u', a, b, c, d] _ ih scanned
    intro other
    simp [scan, *]
  | case11 letter rest notUnit c found ih =>
    apply exists_lexeme_of_push ['\\', letter] _ ih scanned
    intro other
    have notU : letter ≠ 'u' := by
      rintro rfl
      cases found
    simp [scan, notU, found]
  | case13 c rest notQuote notUnit notEscape notControl ih =>
    apply exists_lexeme_of_push [c] _ ih scanned
    have notBackslash : c ≠ '\\' := by
      rintro rfl
      cases rest with
      | nil => cases scanned
      | cons letter rest => exact notEscape letter rest rfl rfl
    exact scan_plain notQuote notBackslash notControl
  | _ => cases scanned

end Quoted

namespace Token

/-- The characters from which a token is taken again in front of any text, which for a numeral
must not extend it. -/
def IsLexeme (token : Token) (lexeme : List Char) : Prop :=
  ∀ rest, (∀ n, token = .numeral n → Numeral.EndsBefore rest) → first? (lexeme ++ rest) = some (token, rest)

theorem exists_lexeme {text after : List Char} {token : Token} (first : first? text = some (token, after)) :
    ∃ lexeme, text = lexeme ++ after ∧ token.IsLexeme lexeme := by
  unfold first? at first
  split at first
  case h_10 tail =>
    obtain ⟨⟨quoted, _⟩, scanned, same⟩ := Option.map_eq_some_iff.1 first
    cases same
    obtain ⟨lexeme, rfl, again⟩ := Quoted.exists_lexeme scanned
    refine ⟨'"' :: lexeme, rfl, fun rest _ => ?_⟩
    rw [List.cons_append, first?, again rest]
    rfl
  case h_11 =>
    obtain ⟨⟨n, _⟩, scanned, same⟩ := Option.map_eq_some_iff.1 first
    cases same
    obtain ⟨lexeme, rfl, spells⟩ := Numeral.exists_spells_of_scan scanned
    exact ⟨lexeme, rfl, fun rest ends => first?_of_numeral (spells.scan_append (ends n rfl))⟩
  case h_7 => cases first; exact ⟨['n', 'u', 'l', 'l'], rfl, fun _ _ => rfl⟩
  case h_8 => cases first; exact ⟨['t', 'r', 'u', 'e'], rfl, fun _ _ => rfl⟩
  case h_9 => cases first; exact ⟨['f', 'a', 'l', 's', 'e'], rfl, fun _ _ => rfl⟩
  all_goals
    cases first
    exact ⟨[_], rfl, fun _ _ => rfl⟩

/-- The tokens that may follow a value inside a container. -/
def isStop : Token → Bool
  | comma | closeList | closeObject => true
  | _ => false

/-- Numerals do not touch: what follows one is a token that may follow a value. -/
def Spaced (tokens : List Token) : Prop :=
  ∀ left n next right, tokens = left ++ .numeral n :: next :: right → next.isStop = true

theorem Spaced.tail {token : Token} {tokens : List Token} (spaced : Spaced (token :: tokens)) : Spaced tokens :=
  fun left n next right same => spaced (token :: left) n next right (by rw [same, List.cons_append])

theorem head_of_isStop {c : Char} {text after : List Char} {token : Token}
    (first : first? (c :: text) = some (token, after)) (stop : token.isStop = true) : c = ',' ∨ c = ']' ∨ c = '}' := by
  unfold first? at first
  split at first
  case h_2 same | h_4 same | h_6 same => simp [(List.cons.inj same).1]
  case h_10 | h_11 =>
    obtain ⟨_, -, same⟩ := Option.map_eq_some_iff.1 first
    cases same
    cases stop
  all_goals
    cases first
    cases stop

/-- Blanks and the tokens that may follow a value do not extend a numeral. -/
theorem endsBefore_of_scan {text : List Char} {tokens : List Token} (scanned : scan text = some tokens)
    (stops : ∀ next ∈ tokens.head?, next.isStop = true) : Numeral.EndsBefore text := by
  cases text with
  | nil => exact Numeral.endsBefore_nil
  | cons c text =>
    rw [Numeral.endsBefore_cons]
    by_cases blank : isBlank c = true
    · simp only [isBlank, Bool.or_eq_true, beq_iff_eq] at blank
      rcases blank with ((rfl | rfl) | rfl) | rfl <;> decide
    · rw [scan, if_neg blank] at scanned
      split at scanned
      · cases scanned
      case h_2 token after first =>
        obtain ⟨others, -, rfl⟩ := Option.map_eq_some_iff.1 scanned
        rcases head_of_isStop first (stops token rfl) with rfl | rfl | rfl <;> decide

theorem scan_of_first?_numeral {text after : List Char} {n : Numeral}
    (first : first? text = some (.numeral n, after)) : Numeral.scan text = some (n, after) := by
  unfold first? at first
  split at first
  case h_11 =>
    obtain ⟨_, scanned, same⟩ := Option.map_eq_some_iff.1 first
    cases same
    exact scanned
  case h_10 =>
    obtain ⟨_, -, same⟩ := Option.map_eq_some_iff.1 first
    cases same
  all_goals cases first

/-- **A text can be cut at a numeral**: into what comes before it, its characters, and what
comes after. Whatever takes the place of the last two, the first part is scanned as before. -/
theorem exists_cut {text : List Char} {left right : List Token} {n : Numeral}
    (scanned : scan text = some (left ++ .numeral n :: right)) (spaced : Spaced (left ++ .numeral n :: right)) :
    ∃ before lexeme after, text = before ++ (lexeme ++ after) ∧ Numeral.Spells lexeme n ∧
      Numeral.EndsBefore after ∧ scan after = some right ∧
      ∀ rest, scan (before ++ rest) = (scan rest).map (left ++ ·) := by
  fun_induction scan text generalizing left with
  | case1 => simp at scanned
  | case2 c text blank ih =>
    obtain ⟨before, lexeme, after, rfl, spells, ends, onwards, again⟩ := ih scanned spaced
    refine ⟨c :: before, lexeme, after, rfl, spells, ends, onwards, fun rest => ?_⟩
    rw [List.cons_append, scan_blank blank, again rest]
  | case3 => cases scanned
  | case4 c text notBlank token after first ih =>
    obtain ⟨tokens, scannedAfter, same⟩ := Option.map_eq_some_iff.1 scanned
    cases left with
    | nil =>
      cases same
      obtain ⟨lexeme, parts, spells⟩ := Numeral.exists_spells_of_scan (scan_of_first?_numeral first)
      have ends : Numeral.EndsBefore after :=
        endsBefore_of_scan scannedAfter fun next starts => by
          obtain ⟨rest, rfl⟩ := List.head?_eq_some_iff.1 starts
          exact spaced [] n next rest rfl
      exact ⟨[], lexeme, after, parts, spells, ends, scannedAfter, fun rest => by simp⟩
    | cons head left =>
      cases same
      obtain ⟨before, lexeme, rest, rfl, spells, ends, onwards, again⟩ := ih scannedAfter spaced.tail
      obtain ⟨front, parts, isFront⟩ := exists_lexeme first
      refine ⟨front ++ before, lexeme, rest, ?_, spells, ends, onwards, fun other => ?_⟩
      · rw [parts, List.append_assoc]
      · have scannedBefore : scan before = some left := by simpa [scan] using again []
        -- a numeral in front of the cut has a token between itself and the cut
        have apart : ∀ m, token = .numeral m → Numeral.EndsBefore (before ++ other) := by
          rintro m rfl
          cases left with
          | nil => exact absurd (spaced [] m (.numeral n) right rfl) Bool.false_ne_true
          | cons next left =>
            have stops := endsBefore_of_scan scannedBefore fun stop starts => by
              cases starts
              exact spaced [] m next _ rfl
            cases before with
            | nil => simp [scan] at scannedBefore
            | cons c before => exact stops
        rw [List.append_assoc, scan_of_first? (isFront (before ++ other) apart), again other, Option.map_map]
        rfl

end Token

end TrainingJob.Json
