import TrainingJob.Proofs.Json.Numeral
import TrainingJob.Schema.Location

/-!
# Texts of locations

The text of a location is its first name, or its first position in brackets, and
behind that a trail in which each step announces itself: a name by a point, a
position by a bracket (`Location.trail`). As long as no name is empty or holds a
point or an opening bracket, the text can be taken apart again, and only one
location has it (`Location.render_injective`).
-/

set_option autoImplicit false

namespace TrainingJob

open Json

/-- What neither a point nor a bracket could be mistaken for. -/
def isNameChar (c : Char) : Bool := c != '.' && c != '['

/-- A name that stands out from the steps around it. -/
def isPlainName (name : String) : Bool := name != "" && name.toList.all isNameChar

theorem isPlainName_iff {name : String} :
    isPlainName name = true ↔ name ≠ "" ∧ ∀ c ∈ name.toList, isNameChar c = true := by
  simp [isPlainName]

/-- Two texts that start with characters of one kind, as far as that kind goes, and are
equal are equal in both parts. -/
theorem append_inj_of_stops {p : Char → Bool} {start other rest rest' : List Char}
    (kind : ∀ c ∈ start, p c = true) (otherKind : ∀ c ∈ other, p c = true)
    (stops : ∀ c ∈ rest.head?, p c = false) (otherStops : ∀ c ∈ rest'.head?, p c = false)
    (same : start ++ rest = other ++ rest') : start = other ∧ rest = rest' := by
  have nothing : ∀ {text : List Char}, (∀ c ∈ text.head?, p c = false) → text.takeWhile p = [] := by
    intro text stops
    cases text with
    | nil => rfl
    | cons c text => simp [stops c rfl]
  have taken := congrArg (List.takeWhile p) same
  rw [List.takeWhile_append_of_pos kind, List.takeWhile_append_of_pos otherKind, nothing stops, nothing otherStops,
    List.append_nil, List.append_nil] at taken
  subst taken
  exact ⟨rfl, List.append_cancel_left same⟩

/-- A step as it is written behind a text. -/
def Step.chars : Step → List Char
  | .field name => '.' :: name.toList
  | .index position => '[' :: (Nat.toDigits 10 position ++ [']'])

theorem Step.chars_index_append (position : Nat) (rest : List Char) :
    (Step.index position).chars ++ rest = '[' :: (Nat.toDigits 10 position ++ ']' :: rest) := by
  simp [chars]

namespace Location

/-- The steps of a location as they are written behind a text. -/
def trail (location : Location) : List Char := location.flatMap Step.chars

/-- All names of a location stand out from the steps around them. -/
def IsPlain (location : Location) : Prop := ∀ name, .field name ∈ location → isPlainName name = true

@[simp] theorem trail_nil : trail [] = [] := rfl

@[simp] theorem trail_cons (step : Step) (rest : Location) : trail (step :: rest) = step.chars ++ trail rest := rfl

theorem IsPlain.tail {step : Step} {rest : Location} (plain : IsPlain (step :: rest)) : IsPlain rest :=
  fun name mem => plain name (.tail _ mem)

theorem toList_foldl_extend (location : Location) {text : String} (nonempty : text ≠ "") :
    (location.foldl Step.extend text).toList = text.toList ++ location.trail := by
  induction location generalizing text with
  | nil => simp
  | cons step rest ih =>
    have written : (step.extend text).toList = text.toList ++ step.chars := by
      cases step with
      | field name => simp [Step.extend, Step.chars, nonempty]
      | index position => simp [Step.extend, Step.chars, Nat.toString_eq_repr, Nat.repr_eq_ofList_toDigits]
    have still : step.extend text ≠ "" := by
      intro empty
      rw [empty] at written
      have both := List.append_eq_nil_iff.1 written.symm
      exact nonempty (String.toList_injective both.1)
    rw [List.foldl_cons, ih still, written, trail_cons, List.append_assoc]

/-- A location that starts with a name is written as that name and a trail. -/
theorem toList_render_field {name : String} (nonempty : name ≠ "") (rest : Location) :
    (render (.field name :: rest)).toList = name.toList ++ rest.trail := by
  have start : (Step.field name).extend "" = name := by rw [Step.extend, if_pos rfl]
  rw [render, List.foldl_cons, start, toList_foldl_extend rest nonempty]

theorem render_cons_field {name : String} (nonempty : name ≠ "") (rest : Location) :
    ∃ suffix, render (.field name :: rest) = name ++ suffix := by
  refine ⟨String.ofList rest.trail, ?_⟩
  apply String.toList_injective
  rw [toList_render_field nonempty, String.toList_append, String.toList_ofList]

/-- A place below a field is not written like the field itself. -/
theorem render_ne_of_cons_field {name : String} (nonempty : name ≠ "") {rest : Location} (below : rest ≠ []) :
    render (.field name :: rest) ≠ name := by
  intro same
  have written := toList_render_field nonempty rest
  rw [same, List.self_eq_append_right] at written
  cases rest with
  | nil => exact below rfl
  | cons step rest => cases step <;> cases written

/-- A location that starts with a position is written as a trail. -/
theorem toList_render_index (position : Nat) (rest : Location) :
    (render (.index position :: rest)).toList = trail (.index position :: rest) := by
  have written : ((Step.index position).extend "").toList = (Step.index position).chars := by
    simp [Step.extend, Step.chars, Nat.toString_eq_repr, Nat.repr_eq_ofList_toDigits]
  have nonempty : (Step.index position).extend "" ≠ "" := by
    intro empty
    rw [empty] at written
    cases written
  rw [render, List.foldl_cons, toList_foldl_extend rest nonempty, written, trail_cons]

/-- Behind a name a trail goes on with a character that is none of a name. -/
theorem isNameChar_head?_trail (location : Location) : ∀ c ∈ location.trail.head?, isNameChar c = false := by
  intro c head
  cases location with
  | nil => cases head
  | cons step rest => cases step <;> (cases head; rfl)

theorem toDigits_injective {n m : Nat} (same : Nat.toDigits 10 n = Nat.toDigits 10 m) : n = m := by
  rw [← Numeral.ofDigits_toDigits n, same, Numeral.ofDigits_toDigits]

theorem trail_injective {location other : Location} (plain : location.IsPlain) (otherPlain : other.IsPlain)
    (same : location.trail = other.trail) : location = other := by
  induction location generalizing other with
  | nil =>
    cases other with
    | nil => rfl
    | cons step rest => cases step <;> cases same
  | cons step rest ih =>
    cases other with
    | nil => cases step <;> cases same
    | cons step' rest' =>
      rw [trail_cons, trail_cons] at same
      cases step with
      | field name =>
        cases step' with
        | index position => cases same
        | field name' =>
          have chars := (isPlainName_iff.1 (plain name (.head _))).2
          have otherChars := (isPlainName_iff.1 (otherPlain name' (.head _))).2
          obtain ⟨names, trails⟩ := append_inj_of_stops chars otherChars (isNameChar_head?_trail rest)
            (isNameChar_head?_trail rest') (List.cons.inj same).2
          rw [String.toList_injective names, ih plain.tail otherPlain.tail trails]
      | index position =>
        cases step' with
        | field name => cases same
        | index position' =>
          -- the digits end at the closing bracket
          rw [Step.chars_index_append, Step.chars_index_append] at same
          obtain ⟨digits, trails⟩ := append_inj_of_stops Numeral.isDigit_of_mem_toDigits
            Numeral.isDigit_of_mem_toDigits (by simp) (by simp) (List.cons.inj same).2
          rw [toDigits_injective digits, ih plain.tail otherPlain.tail (List.cons.inj trails).2]

/-- The trail that a text of a location comes from: a first name has no point before it. -/
def announced : List Char → List Char
  | [] => []
  | c :: text => if isNameChar c then '.' :: c :: text else c :: text

theorem announced_render {location : Location} (plain : location.IsPlain) :
    announced location.render.toList = location.trail := by
  cases location with
  | nil => rfl
  | cons step rest =>
    cases step with
    | field name =>
      obtain ⟨nonempty, chars⟩ := isPlainName_iff.1 (plain name (.head _))
      rw [toList_render_field nonempty, trail_cons, Step.chars]
      cases spelled : name.toList with
      | nil => exact absurd (String.toList_injective spelled) nonempty
      | cons c cs =>
        have first : isNameChar c = true := chars c (by rw [spelled]; exact .head _)
        rw [List.cons_append, announced, if_pos first, List.cons_append, List.cons_append]
    | index position =>
      rw [toList_render_index, trail_cons, Step.chars_index_append, announced, if_neg (by decide)]

/-- **Only one location has a given text**, among those of plain names. -/
theorem render_injective {location other : Location} (plain : location.IsPlain) (otherPlain : other.IsPlain)
    (same : location.render = other.render) : location = other := by
  apply trail_injective plain otherPlain
  rw [← announced_render plain, same, announced_render otherPlain]

/-- A name with a point in it is written like two. -/
example : render [.field "a.b"] = render [.field "a", .field "b"] := by decide

end Location

end TrainingJob
