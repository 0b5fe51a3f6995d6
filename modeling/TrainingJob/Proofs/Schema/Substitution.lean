import TrainingJob.Proofs.Json.Replacement
import TrainingJob.Proofs.Schema.ReadBack

/-!
# A part in the place of another

An accepted value with another part at some place is as faulty as that part is against
the type that is declared for the place (`FieldType.fault?_put`). The fault stands below
the place. And what a value has at a place, its normal form has there in the normal form
of the declared type (`FieldType.at?_tidy`).
-/

set_option autoImplicit false

namespace TrainingJob

open Json

/-- The same fault, seen from the value that has the faulty part at `place`. -/
def Fault.under (place : Location) (fault : Fault) : Fault := place.foldr below fault

theorem Fault.under_mistyped (place location : Location) (expected found : String) :
    (mistyped location expected found).under place = mistyped (place ++ location) expected found := by
  induction place with
  | nil => rfl
  | cons step rest ih => exact congrArg (below step) ih

/-- Where the items have no fault, the first fault after a change is that of the item changed. -/
theorem Fault.ofItems_modify {fault? : Value → Option Fault} {position index : Nat} {items : List Value} {item : Value}
    (accepts : ∀ element ∈ items, fault? element = none) (held : items[index]? = some item) (change : Value → Value) :
    Fault.ofItems fault? position (items.modify index change) =
      (fault? (change item)).map (below (.index (position + index))) := by
  induction items generalizing position index with
  | nil => cases held
  | cons first rest ih =>
    obtain ⟨firstAccepts, others⟩ := List.forall_mem_cons.1 accepts
    cases index with
    | zero =>
      cases held
      rw [List.modify_zero_cons, Fault.ofItems, ofItems_eq_none_iff.2 others]
      cases fault? (change item) <;> simp
    | succ index =>
      rw [List.modify_succ_cons, Fault.ofItems, firstAccepts, Nat.add_comm index 1, ← Nat.add_assoc]
      exact ih others held

/-- What has a value at some place is not absent. -/
theorem Json.Value.ne_null_of_at? {whole part : Value} {place : Location} (held : whole.at? place = some part)
    (present : part ≠ .null) : whole ≠ .null := by
  rintro rfl
  exact present (eq_of_at?_scalar (by rintro ⟨⟩ <;> rfl) held).2.symm

namespace FieldType

/-- **An accepted value with another part at some place** is as faulty as that part is. -/
theorem fault?_put {type declared : FieldType} (clear : type.isClear = true) {place : Location}
    (expects : type.at? place = some declared) {whole old part : Value} (accepts : type.fault? whole = none)
    (held : whole.at? place = some old) (oldPresent : old ≠ .null) (present : part ≠ .null) :
    type.fault? (whole.put place part) = (declared.fault? part).map (Fault.under place) := by
  induction place generalizing type whole with
  | nil =>
    cases expects
    rw [Value.put]
    cases declared.fault? part <;> rfl
  | cons step rest ih =>
    obtain ⟨inner, expectsInner, expectsOnwards⟩ := Option.bind_eq_some_iff.1 expects
    obtain ⟨piece, here, onwards⟩ := Option.bind_eq_some_iff.1 held
    have pieceReplaced : inner.fault? piece = none → (inner.fault? (piece.put rest part)).map (Fault.below step) =
        (declared.fault? part).map (Fault.under (step :: rest)) := by
      intro acceptsPiece
      rw [ih (isPlain_of_part? clear expectsInner).2 expectsOnwards acceptsPiece onwards, Option.map_map]
      rfl
    cases type with
    | list item =>
      cases step with
      | field name => cases expectsInner
      | index position =>
        cases expectsInner
        obtain ⟨items, rfl, each⟩ := fault?_list_eq_none_iff.1 accepts
        have stands : items[position]? = some piece := here
        rw [← pieceReplaced (each piece (List.mem_of_getElem? stands)), Value.put]
        have changed : (list inner).fault? (.list (items.modify position fun item => item.put rest part)) =
            (inner.fault? (piece.put rest part)).map (Fault.below (.index (0 + position))) :=
          Fault.ofItems_modify each stands fun item => item.put rest part
        rw [changed, Nat.zero_add]
    | shape schema =>
      cases step with
      | index position => cases expectsInner
      | field name =>
        obtain ⟨field, found, rfl⟩ := Option.map_eq_some_iff.1 expectsInner
        obtain ⟨members, rfl, accepted⟩ := fault?_shape_eq_none_iff.1 accepts
        obtain ⟨distinct, -, -⟩ := isClear_shape_iff.1 clear
        have read : Fields.get? members name = some piece := here
        have mem := Schema.mem_of_field? found
        have named := Schema.name_of_field? found
        have content := (Schema.fault?_eq_none_iff.1 accepted).2 field mem
        rw [named, read, Field.fault?_of_present (Value.ne_null_of_at? onwards oldPresent)] at content
        rw [← pieceReplaced content, Value.put, read, Option.getD_some]
        have changed : (shape schema).fault? (.object (Fields.insert members name (piece.put rest part))) =
            field.fault? (some (piece.put rest part)) := Schema.fault?_insert distinct accepted found
        rw [changed, Field.fault?_some (Value.put_ne_null onwards present), named]
    | _ => cases step <;> cases expectsInner

/-- The part of a normal form is the normal form of the part. -/
theorem part?_tidy {type inner : FieldType} (clear : type.isClear = true) {step : Step}
    (expects : type.part? step = some inner) {whole piece : Value} (held : whole.part? step = some piece)
    (present : piece ≠ .null) : (type.tidy whole).part? step = some (inner.tidy piece) := by
  cases type with
  | list item =>
    cases step with
    | field name => cases expects
    | index position =>
      cases expects
      cases whole with
      | list items =>
        have stands : items[position]? = some piece := held
        rw [tidy_list, Value.part?, List.getElem?_map, stands]
        rfl
      | _ => cases held
  | shape schema =>
    cases step with
    | index position => cases expects
    | field name =>
      obtain ⟨field, found, rfl⟩ := Option.map_eq_some_iff.1 expects
      obtain ⟨distinct, -, -⟩ := isClear_shape_iff.1 clear
      cases whole with
      | object members =>
        have read : Fields.get? members name = some piece := held
        have entry : Fields.get? (schema.normalForm [] members) field.name =
            some (field.settle .null (Fields.get? members field.name)) :=
          Field.get?_map distinct _ (Schema.mem_of_field? found)
        have names : (schema.normalForm [] members).names.Nodup := by
          rw [Schema.normalForm, Fields.names, List.map_map]
          exact distinct
        have inPresent := Fields.get?_present names field.name
        rw [entry, Schema.name_of_field? found, read, Field.settle_of_present present, Option.filter_some,
          Value.isNull_eq_false_iff.2 (tidy_ne_null present)] at inPresent
        rw [tidy_shape]
        exact inPresent
      | _ => cases held
  | _ => cases step <;> cases expects

/-- **What a value has at a place, its normal form has in normal form.** -/
theorem at?_tidy {type declared : FieldType} (clear : type.isClear = true) {place : Location}
    (expects : type.at? place = some declared) {whole part : Value} (held : whole.at? place = some part)
    (present : part ≠ .null) : (type.tidy whole).at? place = some (declared.tidy part) := by
  induction place generalizing type whole with
  | nil =>
    cases expects
    cases held
    rfl
  | cons step rest ih =>
    obtain ⟨inner, expectsInner, expectsOnwards⟩ := Option.bind_eq_some_iff.1 expects
    obtain ⟨piece, here, onwards⟩ := Option.bind_eq_some_iff.1 held
    have clearInner := (isPlain_of_part? clear expectsInner).2
    rw [Value.at?, part?_tidy clear expectsInner here (Value.ne_null_of_at? onwards present)]
    exact ih clearInner expectsOnwards onwards

end FieldType

end TrainingJob
