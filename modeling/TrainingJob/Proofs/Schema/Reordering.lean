import TrainingJob.Proofs.Json.Alike
import TrainingJob.Proofs.Schema.NormalForm
import TrainingJob.Proofs.Schema.Places

/-!
# The order of members

Alike values are checked alike (`FieldType.fault?_of_alike`). Either both pass, or
both are mistyped at one place in one way, or both have an undeclared name in one
object. Which of several undeclared names is reported is all that the order of
members decides (`Fault.Corresponds`).

The place of such an object is one that the type leads to, through any entry of a
name where a schema repeats it (`FieldType.Leads`). Nothing is assumed of the names
of a schema here.

What passes has one normal form, whatever the order (`FieldType.tidy_of_alike`).
-/

set_option autoImplicit false

namespace TrainingJob

open Json

/-- A location that can be followed through a type, by any of its entries and not into a choice. -/
inductive FieldType.Leads : FieldType → Location → FieldType → Prop where
  | here (type : FieldType) : Leads type [] type
  | item {item declared : FieldType} {rest : Location} (position : Nat) (leads : Leads item rest declared) :
      Leads (.list item) (.index position :: rest) declared
  | field {schema : Schema} {field : Field} {declared : FieldType} {rest : Location} (mem : field ∈ schema.fields)
      (leads : Leads field.type rest declared) : Leads (.shape schema) (.field field.name :: rest) declared

/-- Faults of two values that tell the same, except for the choice among the undeclared
names of an object. -/
inductive Fault.Corresponds (type : FieldType) (value other : Value) : Fault → Fault → Prop where
  | mistyped (place : Location) (expected found : String) :
      Fault.Corresponds type value other (.mistyped place expected found) (.mistyped place expected found)
  | unknown {parent : Location} {schema : Schema} {members others : Fields} {key otherKey : String}
      (leads : type.Leads parent (.shape schema)) (holds : value.at? parent = some (.object members))
      (otherHolds : other.at? parent = some (.object others)) (alike : (Value.object members).Alike (.object others))
      (first : schema.undeclared? members = some key) (otherFirst : schema.undeclared? others = some otherKey) :
      Fault.Corresponds type value other (.unknown (parent ++ [.field key])) (.unknown (parent ++ [.field otherKey]))

namespace Fault

/-- What corresponds in parts corresponds in the whole, with the step to the parts in front. -/
theorem Corresponds.below {type inner : FieldType} {value part other otherPart : Value} {step : Step}
    {fault otherFault : Fault}
    (leads : ∀ {rest declared}, inner.Leads rest declared → type.Leads (step :: rest) declared)
    (holds : value.part? step = some part) (otherHolds : other.part? step = some otherPart)
    (corresponds : Corresponds inner part otherPart fault otherFault) :
    Corresponds type value other (fault.below step) (otherFault.below step) := by
  cases corresponds with
  | mistyped place expected found => exact .mistyped (step :: place) expected found
  | @unknown parent schema members others key otherKey inside placed otherPlaced alike first otherFirst =>
    have whole : value.at? (step :: parent) = some (.object members) := by
      rw [Value.at?, holds, Option.bind_some, placed]
    have otherWhole : other.at? (step :: parent) = some (.object others) := by
      rw [Value.at?, otherHolds, Option.bind_some, otherPlaced]
    show Corresponds type value other (.unknown (step :: parent ++ [.field key]))
      (.unknown (step :: parent ++ [.field otherKey]))
    exact .unknown (leads inside) whole otherWhole alike first otherFirst

/-- Items whose faults correspond one by one have corresponding first faults. -/
theorem ofItems_rel {relation : Fault → Fault → Prop} {fault? : Value → Option Fault} {items others : List Value}
    (position : Nat) (length : items.length = others.length)
    (each : ∀ (index : Nat) (item other : Value), items[index]? = some item → others[index]? = some other →
      Option.Rel (fun fault otherFault =>
        relation (fault.below (.index (position + index))) (otherFault.below (.index (position + index))))
        (fault? item) (fault? other)) :
    Option.Rel relation (ofItems fault? position items) (ofItems fault? position others) := by
  induction items generalizing position others with
  | nil =>
    cases others with
    | nil => exact .none
    | cons other rest => cases length
  | cons item rest ih =>
    cases others with
    | nil => cases length
    | cons other otherRest =>
      have first := each 0 item other rfl rfl
      rw [ofItems, ofItems]
      generalize fault? item = found at first ⊢
      generalize fault? other = otherFound at first ⊢
      cases first with
      | some corresponds => exact .some corresponds
      | none =>
        refine ih (position + 1) (Nat.succ.inj length) fun index item other held there => ?_
        rw [Nat.add_assoc, Nat.add_comm 1 index]
        exact each (index + 1) item other held there

end Fault

/-- Entries whose faults correspond one by one have corresponding first faults. -/
theorem Field.firstFault?_rel {relation : Fault → Fault → Prop} {declared : List Field} {fields others : Fields}
    (each : ∀ field ∈ declared,
      Option.Rel relation (field.fault? (fields.get? field.name)) (field.fault? (others.get? field.name))) :
    Option.Rel relation (firstFault? declared fields) (firstFault? declared others) := by
  induction declared with
  | nil => exact .none
  | cons field rest ih =>
    obtain ⟨first, later⟩ := List.forall_mem_cons.1 each
    rw [firstFault?, firstFault?]
    generalize field.fault? (fields.get? field.name) = found at first ⊢
    generalize field.fault? (others.get? field.name) = otherFound at first ⊢
    cases first with
    | some corresponds => exact .some corresponds
    | none => exact ih later

/-- Alike objects both have an undeclared name, or neither has. -/
theorem Schema.undeclared?_of_alike (schema : Schema) {members others : Fields}
    (alike : (Value.object members).Alike (.object others)) :
    (schema.undeclared? members = none ∧ schema.undeclared? others = none) ∨
      ∃ key otherKey, schema.undeclared? members = some key ∧ schema.undeclared? others = some otherKey := by
  have together : schema.undeclared? members = none ↔ schema.undeclared? others = none := by
    simp only [undeclared?_eq_none_iff, alike.mem_names_iff]
  cases unknown : schema.undeclared? members with
  | none => exact .inl ⟨rfl, together.1 unknown⟩
  | some key =>
    have otherUnknown : schema.undeclared? others ≠ none := by
      rw [ne_eq, ← together, unknown]
      exact Option.some_ne_none key
    obtain ⟨otherKey, otherUnknown⟩ := Option.ne_none_iff_exists'.1 otherUnknown
    exact .inr ⟨key, otherKey, rfl, otherUnknown⟩

/-- A field settles alike members to one value, if its type tidies alike values to one. -/
theorem Field.settle_of_alike {field : Field}
    (tidies : ∀ value other : Value, value.Alike other → field.type.fault? value = none →
      field.type.tidy value = field.type.tidy other)
    {preset : Value} {members others : Fields} (alike : (Value.object members).Alike (.object others))
    (content : field.fault? (members.get? field.name) = none) :
    field.settle preset (members.get? field.name) = field.settle preset (others.get? field.name) := by
  rcases alike.get? field.name with ⟨held, there⟩ | ⟨value, other, held, there, alikeMembers⟩
  · rw [held, there]
  · rw [held, there]
    rw [held] at content
    by_cases null : value = .null
    · subst null
      cases alikeMembers
      rfl
    · rw [settle_of_present null, settle_of_present (alikeMembers.ne_null null)]
      exact tidies value other alikeMembers ((fault?_of_present null).1 content)

namespace FieldType

/-- Alike values have corresponding faults. -/
def JudgesAlike (type : FieldType) : Prop :=
  ∀ value other : Value, value.Alike other →
    Option.Rel (Fault.Corresponds type value other) (type.fault? value) (type.fault? other)

theorem JudgesAlike.accepts_iff {type : FieldType} (judges : type.JudgesAlike) {value other : Value}
    (alike : value.Alike other) : type.fault? value = none ↔ type.fault? other = none := by
  have corresponds := judges value other alike
  generalize type.fault? value = found at corresponds ⊢
  generalize type.fault? other = otherFound at corresponds ⊢
  cases corresponds <;> simp

/-- Against an atomic type alike values need only pass together. -/
theorem rel_of_isAtomic {type : FieldType} (atomic : type.isAtomic = true) {value other : Value}
    (alike : value.Alike other) (together : type.fault? value = none ↔ type.fault? other = none) :
    Option.Rel (Fault.Corresponds type value other) (type.fault? value) (type.fault? other) := by
  rcases fault?_of_isAtomic atomic value with accepted | rejected
  · rw [accepted, together.1 accepted]
    exact .none
  · rcases fault?_of_isAtomic atomic other with otherAccepted | otherRejected
    · rw [together.2 otherAccepted] at rejected
      cases rejected
    · rw [rejected, otherRejected, Fault.mismatch, Fault.mismatch, alike.kind_eq]
      exact .some (.mistyped [] _ _)

/-- What alike objects hold under the name of a field has corresponding faults. -/
theorem JudgesAlike.field {field : Field} (judges : field.type.JudgesAlike) {schema : Schema}
    (mem : field ∈ schema.fields) {members others : Fields} (alike : (Value.object members).Alike (.object others)) :
    Option.Rel (Fault.Corresponds (.shape schema) (.object members) (.object others))
      (field.fault? (members.get? field.name)) (field.fault? (others.get? field.name)) := by
  have absent : ∀ value? : Option Value, value?.getD .null = .null →
      Option.Rel (Fault.Corresponds (.shape schema) (.object members) (.object others))
        (field.fault? value?) (field.fault? value?) := by
    intro value? null
    rw [Field.fault?_of_absent null]
    split
    · exact .some (.mistyped _ _ _)
    · exact .none
  rcases alike.get? field.name with ⟨held, there⟩ | ⟨value, other, held, there, alikeMembers⟩
  · rw [held, there]
    exact absent none rfl
  · rw [held, there]
    by_cases null : value = .null
    · subst null
      cases alikeMembers
      exact absent (some .null) rfl
    · rw [Field.fault?_some null, Field.fault?_some (alikeMembers.ne_null null)]
      have inside := judges value other alikeMembers
      generalize field.type.fault? value = found at inside ⊢
      generalize field.type.fault? other = otherFound at inside ⊢
      cases inside with
      | none => exact .none
      | some corresponds => exact .some (corresponds.below (.field mem) held there)

/-- **Alike values are checked alike**, whatever the type. -/
theorem fault?_of_alike (type : FieldType) : type.JudgesAlike := by
  induction type with
  | list item ih =>
    intro value other alike
    cases alike with
    | @list items others length each =>
      refine Fault.ofItems_rel 0 length fun index element otherElement held there => ?_
      have inside := ih element otherElement (each index element otherElement held there)
      rw [Nat.zero_add]
      generalize item.fault? element = found at inside ⊢
      generalize item.fault? otherElement = otherFound at inside ⊢
      cases inside with
      | none => exact .none
      | some corresponds => exact .some (corresponds.below (.item index) held there)
    | _ => exact .some (.mistyped [] _ _)
  | shape schema ih =>
    intro value other alike
    cases alike with
    | @object members others names each =>
      have whole : (Value.object members).Alike (.object others) := .object names each
      show Option.Rel _ (schema.fault? members) (schema.fault? others)
      rcases schema.undeclared?_of_alike whole with ⟨declared, otherDeclared⟩ | ⟨key, otherKey, unknown, otherUnknown⟩
      · rw [Schema.fault?_of_declared declared, Schema.fault?_of_declared otherDeclared]
        exact Field.firstFault?_rel fun field mem => (ih field mem).field mem whole
      · rw [Schema.fault?_of_undeclared unknown, Schema.fault?_of_undeclared otherUnknown]
        have here : (Value.object members).at? [] = some (.object members) := rfl
        have otherHere : (Value.object others).at? [] = some (.object others) := rfl
        have corresponds := Fault.Corresponds.unknown (.here (.shape schema)) here otherHere whole unknown otherUnknown
        exact .some corresponds
    | _ => exact .some (.mistyped [] _ _)
  | oneOf members ih =>
    intro value other alike
    refine rel_of_isAtomic rfl alike ?_
    rw [fault?_oneOf_eq_none_iff, fault?_oneOf_eq_none_iff]
    exact exists_congr fun member => and_congr_right fun mem => (ih member mem).accepts_iff alike
  | _ =>
    intro value other alike
    refine rel_of_isAtomic rfl alike ?_
    cases alike <;> simp [fault?]

/-- Alike values pass together. -/
theorem accepts_iff_of_alike (type : FieldType) {value other : Value} (alike : value.Alike other) :
    type.fault? value = none ↔ type.fault? other = none :=
  type.fault?_of_alike.accepts_iff alike

/-- **Alike values have one normal form**, if they are of the type. -/
theorem tidy_of_alike (type : FieldType) :
    ∀ value other : Value, value.Alike other → type.fault? value = none → type.tidy value = type.tidy other := by
  induction type with
  | string =>
    intro value other alike accepts
    obtain ⟨s, rfl⟩ := fault?_string_eq_none_iff.1 accepts
    cases alike
    rfl
  | integer =>
    intro value other alike accepts
    obtain ⟨n, -, rfl⟩ := fault?_integer_eq_none_iff.1 accepts
    cases alike
    rfl
  | boolean =>
    intro value other alike accepts
    obtain ⟨b, rfl⟩ := fault?_boolean_eq_none_iff.1 accepts
    cases alike
    rfl
  | list item ih =>
    intro value other alike accepts
    obtain ⟨items, rfl, each⟩ := fault?_list_eq_none_iff.1 accepts
    cases alike with
    | @list _ others length alikeItems =>
      have tidied : items.map item.tidy = others.map item.tidy := by
        refine List.ext_getElem (by simp [length]) fun i held there => ?_
        rw [List.getElem_map, List.getElem_map]
        have inItems : i < items.length := by simpa using held
        have inOthers : i < others.length := by simpa using there
        exact ih _ _ (alikeItems i _ _ (List.getElem?_eq_getElem inItems) (List.getElem?_eq_getElem inOthers))
          (each _ (List.getElem_mem inItems))
      rw [tidy_list, tidy_list, tidied]
  | shape schema ih =>
    intro value other alike accepts
    obtain ⟨members, rfl, follows⟩ := fault?_shape_eq_none_iff.1 accepts
    have content := (Schema.fault?_eq_none_iff.1 follows).2
    cases alike with
    | @object _ others names each =>
      have settled : schema.normalForm [] members = schema.normalForm [] others := by
        refine List.map_congr_left fun field mem => ?_
        rw [Field.settle_of_alike (ih field mem) (.object names each) (content field mem)]
      rw [tidy_shape, tidy_shape, settled]
  | oneOf members ih =>
    intro value other alike accepts
    obtain ⟨chosen, mem, fits, same⟩ := exists_tidyAmong (fault?_oneOf_eq_none_iff.1 accepts)
    have sameOther := same other fun member _ => member.accepts_iff_of_alike alike
    rw [tidy_oneOf, tidy_oneOf, same value fun _ _ => Iff.rfl, sameOther]
    exact ih chosen mem value other alike fits

end FieldType

end TrainingJob
