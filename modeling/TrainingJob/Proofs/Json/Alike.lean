import TrainingJob.Json.Fields

/-!
# Values with objects read as maps

Two values are alike when they differ at most in the order of the members of
their objects. A value spells out an absence when some object in it holds `null`
under a name. Alike values agree on that (`Value.Alike.spellsAbsence`).
-/

set_option autoImplicit false

namespace TrainingJob.Json

/-- Equality of values that takes objects for maps, at every depth. -/
inductive Value.Alike : Value → Value → Prop where
  | null : Alike .null .null
  | boolean (b : Bool) : Alike (.boolean b) (.boolean b)
  | integer (n : Int) : Alike (.integer n) (.integer n)
  | decimal (d : Decimal) : Alike (.decimal d) (.decimal d)
  | string (s : String) : Alike (.string s) (.string s)
  | list {items others : List Value} (length : items.length = others.length)
      (each : ∀ (i : Nat) (item other : Value), items[i]? = some item → others[i]? = some other → Alike item other) :
      Alike (.list items) (.list others)
  | object {members others : Fields} (names : ∀ name, name ∈ members.names ↔ name ∈ others.names)
      (each : ∀ (name : String) (member other : Value), members.get? name = some member →
        others.get? name = some other → Alike member other) :
      Alike (.object members) (.object others)

/-- Some object in the value holds `null` under a name. -/
inductive Value.SpellsAbsence : Value → Prop where
  | item {items : List Value} {item : Value} (mem : item ∈ items) (inside : SpellsAbsence item) :
      SpellsAbsence (.list items)
  | here {members : Fields} {name : String} (held : members.get? name = some .null) : SpellsAbsence (.object members)
  | member {members : Fields} {name : String} {member : Value} (held : members.get? name = some member)
      (inside : SpellsAbsence member) : SpellsAbsence (.object members)

namespace Value

theorem Alike.refl (value : Value) : value.Alike value := by
  induction value with
  | null => exact .null
  | boolean b => exact .boolean b
  | integer n => exact .integer n
  | decimal d => exact .decimal d
  | string s => exact .string s
  | list items ih =>
    refine .list rfl fun i item other held there => ?_
    rw [held] at there
    cases there
    exact ih item (List.mem_of_getElem? held)
  | object members ih =>
    refine .object (fun _ => Iff.rfl) fun name member other held there => ?_
    rw [held] at there
    cases there
    exact ih (name, member) (Fields.mem_of_get? held)

/-- With distinct names, the members of an object can stand in any order. -/
theorem Alike.of_perm {members others : Fields} (distinct : members.names.Nodup) (reordered : members.Perm others) :
    (Value.object members).Alike (.object others) := by
  have names : members.names.Perm others.names := reordered.map Prod.fst
  refine .object (fun name => names.mem_iff) fun name member other held there => ?_
  have same := (Fields.mem_iff_get? distinct).1 (reordered.mem_iff.2 (Fields.mem_of_get? there))
  rw [held] at same
  cases same
  exact .refl member

theorem Alike.symm {value other : Value} (alike : value.Alike other) : other.Alike value := by
  induction alike with
  | null => exact .null
  | boolean b => exact .boolean b
  | integer n => exact .integer n
  | decimal d => exact .decimal d
  | string s => exact .string s
  | list length _ ih => exact .list length.symm fun i item other held there => ih i other item there held
  | object names _ ih =>
    exact .object (fun name => (names name).symm) fun name member other held there => ih name other member there held

theorem Alike.mem_names_iff {members others : Fields} (alike : (Value.object members).Alike (.object others))
    (name : String) : name ∈ members.names ↔ name ∈ others.names := by
  cases alike with
  | object names _ => exact names name

/-- Where one of two alike objects holds a member, so does the other. -/
theorem Alike.exists_member {members others : Fields} (names : ∀ name, name ∈ members.names ↔ name ∈ others.names)
    {name : String} {member : Value} (held : members.get? name = some member) :
    ∃ other, others.get? name = some other := by
  rw [← Option.isSome_iff_exists, Fields.get?_isSome_iff, ← names, ← Fields.get?_isSome_iff, held]
  rfl

/-- Alike objects hold alike members under a name, or nothing. -/
theorem Alike.get? {members others : Fields} (alike : (Value.object members).Alike (.object others)) (name : String) :
    (members.get? name = none ∧ others.get? name = none) ∨
      ∃ member other, members.get? name = some member ∧ others.get? name = some other ∧ member.Alike other := by
  cases alike with
  | object names each =>
    cases held : members.get? name with
    | some member =>
      obtain ⟨other, there⟩ := exists_member names held
      exact .inr ⟨member, other, rfl, there, each name member other held there⟩
    | none =>
      rw [Fields.get?_eq_none_iff, names, ← Fields.get?_eq_none_iff] at held
      exact .inl ⟨rfl, held⟩

theorem Alike.kind_eq {value other : Value} (alike : value.Alike other) : value.kind = other.kind := by
  cases alike <;> rfl

theorem Alike.ne_null {value other : Value} (alike : value.Alike other) (present : value ≠ .null) : other ≠ .null := by
  rintro rfl
  cases alike
  exact present rfl

theorem Alike.spellsAbsence {value other : Value} (alike : value.Alike other) (spells : value.SpellsAbsence) :
    other.SpellsAbsence := by
  induction alike with
  | list length each ih =>
    cases spells with
    | item mem inside =>
      obtain ⟨i, held⟩ := List.mem_iff_getElem?.1 mem
      obtain ⟨inBounds, -⟩ := List.getElem?_eq_some_iff.1 held
      have there := List.getElem?_eq_getElem (length ▸ inBounds)
      exact .item (List.mem_of_getElem? there) (ih i _ _ held there inside)
  | object names each ih =>
    cases spells with
    | here held =>
      obtain ⟨other, there⟩ := exists_member names held
      have absent := each _ _ _ held there
      cases absent
      exact .here there
    | member held inside =>
      obtain ⟨other, there⟩ := exists_member names held
      exact .member there (ih _ _ _ held there inside)
  | _ => cases spells

end Value

end TrainingJob.Json
