import TrainingJob.Proofs.Schema.Entries
import TrainingJob.Proofs.Schema.Faults
import TrainingJob.Proofs.Schema.Paths

/-!
# Places

A location can be followed in two ways: through a type, to the type that is
declared for the place (`FieldType.at?`), and through a value, to what stands there
(`Json.Value.at?`). No location leads into a choice, since a choice does not say
which of its members a value is meant for.

A fault that a check finds stands where the two disagree (`Fault.Points`). Either
the value at its location is not of the type declared there, or a field that the
schema at its place requires is absent from the object at that place, or that
object has a name that the schema does not declare. A field that is `null` is
absent, so a `null` is told as a value of another kind only as an item of a list.
The check finds no other faults, as long as names are distinct on every level
(`FieldType.points_of_fault?`): each level of the check puts its own step in front
of a fault, and following that step undoes it (`Fault.Points.below`).
-/

set_option autoImplicit false

namespace TrainingJob

open Json

namespace FieldType

/-- The type that is declared for a part of the values of a type. -/
def part? : FieldType → Step → Option FieldType
  | .list item, .index _ => some item
  | .shape schema, .field name => (schema.field? name).map Field.type
  | _, _ => none

/-- The type that a location leads to. -/
def at? (type : FieldType) : Location → Option FieldType
  | [] => some type
  | step :: rest => (type.part? step).bind fun part => part.at? rest

end FieldType

namespace Json.Value

/-- A part of a value. -/
def part? : Value → Step → Option Value
  | .list items, .index position => items[position]?
  | .object members, .field name => Fields.get? members name
  | _, _ => none

/-- The value that a location leads to. -/
def at? (value : Value) : Location → Option Value
  | [] => some value
  | step :: rest => (value.part? step).bind fun part => part.at? rest

end Json.Value

/-- The location is that of a field. -/
def Location.EndsInField (location : Location) : Prop := ∃ parent name, location = parent ++ [.field name]

theorem Location.endsInField_cons {step : Step} {rest : Location} :
    EndsInField (step :: rest) ↔ (rest = [] ∧ ∃ name, step = .field name) ∨ EndsInField rest := by
  constructor
  · rintro ⟨parent, name, same⟩
    cases parent with
    | nil =>
      cases same
      exact .inl ⟨rfl, name, rfl⟩
    | cons first parent =>
      cases same
      exact .inr ⟨parent, name, rfl⟩
  · rintro (⟨rfl, name, rfl⟩ | ⟨parent, name, rfl⟩)
    · exact ⟨[], name, rfl⟩
    · exact ⟨step :: parent, name, rfl⟩

/-- A fault that stands where it says. -/
inductive Fault.Points (type : FieldType) (value : Value) : Fault → Prop where
  /-- What stands there is not of the type declared for it, and is no absent field. -/
  | mismatch {location : Location} {declared : FieldType} {part : Value} (expects : type.at? location = some declared)
      (holds : value.at? location = some part) (rejects : declared.fault? part ≠ none)
      (present : location.EndsInField → part ≠ .null) :
      Fault.Points type value (.mistyped location declared.describe part.kind.name)
  /-- A required field is absent from the object there. -/
  | absence {location : Location} {schema : Schema} {members : Fields} {field : Field}
      (expects : type.at? location = some (.shape schema)) (holds : value.at? location = some (.object members))
      (mem : field ∈ schema.fields) (required : field.isRequired = true)
      (absent : (members.get? field.name).getD .null = .null) :
      Fault.Points type value (.mistyped (location ++ [.field field.name]) field.type.describe "nothing")
  /-- The object there has a name that its schema does not declare. -/
  | undeclared {location : Location} {schema : Schema} {members : Fields} {name : String}
      (expects : type.at? location = some (.shape schema)) (holds : value.at? location = some (.object members))
      (held : name ∈ members.names) (undeclared : schema.declares name = false) :
      Fault.Points type value (.unknown (location ++ [.field name]))

/-- A fault of a part, with the step to that part in front, is a fault of the whole. -/
theorem Fault.Points.below {type inner : FieldType} {value part : Value} {step : Step} {fault : Fault}
    (expects : type.part? step = some inner) (holds : value.part? step = some part)
    (presentPart : (∃ name, step = .field name) → part ≠ .null) (points : fault.Points inner part) :
    (fault.below step).Points type value := by
  have typed (location : Location) : type.at? (step :: location) = inner.at? location := by
    rw [FieldType.at?, expects, Option.bind_some]
  have placed (location : Location) : value.at? (step :: location) = part.at? location := by
    rw [Json.Value.at?, holds, Option.bind_some]
  cases points with
  | @mismatch location declared piece expects holds rejects present =>
    refine .mismatch ((typed _).trans expects) ((placed _).trans holds) rejects fun ends => ?_
    rcases Location.endsInField_cons.1 ends with ⟨rfl, named⟩ | inside
    · cases holds
      exact presentPart named
    · exact present inside
  | absence expects holds mem required absent =>
    exact .absence ((typed _).trans expects) ((placed _).trans holds) mem required absent
  | undeclared expects holds held undeclared =>
    exact .undeclared ((typed _).trans expects) ((placed _).trans holds) held undeclared

mutual

/-- On every level that a location can lead to, names are distinct and plain. What stands in
a choice does not matter. -/
def FieldType.isClear : FieldType → Bool
  | .list item => item.isClear
  | .shape ⟨_, declared⟩ =>
    decide (declared.map Field.name).Nodup && (declared.map Field.name).all isPlainName && Field.areClear declared
  | _ => true

def Field.areClear : List Field → Bool
  | [] => true
  | ⟨_, type, _⟩ :: rest => type.isClear && Field.areClear rest

end

theorem Field.areClear_iff {declared : List Field} :
    Field.areClear declared = true ↔ ∀ field ∈ declared, field.type.isClear = true := by
  induction declared with
  | nil => simp [areClear]
  | cons field rest ih =>
    obtain ⟨name, type, isRequired⟩ := field
    simp [areClear, ih]

theorem FieldType.isClear_shape_iff {schema : Schema} :
    (FieldType.shape schema).isClear = true ↔
      schema.fieldNames.Nodup ∧ (∀ name ∈ schema.fieldNames, isPlainName name = true) ∧
        ∀ field ∈ schema.fields, field.type.isClear = true := by
  obtain ⟨name, declared⟩ := schema
  rw [isClear, Bool.and_eq_true, Bool.and_eq_true, decide_eq_true_eq, List.all_eq_true, Field.areClear_iff, and_assoc]
  rfl

/-- A value that is of the wrong kind as a whole is the fault at its own place. -/
theorem FieldType.points_of_mismatch {type : FieldType} {value : Value} {fault : Fault}
    (whole : type.fault? value = none ∨ type.fault? value = some (.mismatch type value))
    (found : type.fault? value = some fault) : fault.Points type value := by
  have same : Fault.mismatch type value = fault := by
    rcases whole with none | mismatch
    · rw [none] at found
      cases found
    · rw [mismatch] at found
      exact Option.some.inj found
  have rejects : type.fault? value ≠ none := by
    rw [found]
    exact Option.some_ne_none fault
  rw [← same]
  refine .mismatch rfl rfl rejects ?_
  rintro ⟨parent, name, top⟩
  exact absurd top.symm (List.append_ne_nil_of_right_ne_nil _ (List.cons_ne_nil _ _))

/-- **Every fault stands where it says**, as long as names are distinct on every level. -/
theorem FieldType.points_of_fault? (type : FieldType) (clear : type.isClear = true) :
    ∀ value fault, type.fault? value = some fault → fault.Points type value := by
  induction type with
  | string =>
    intro value fault found
    exact points_of_mismatch (fault?_of_isAtomic rfl value) found
  | integer =>
    intro value fault found
    exact points_of_mismatch (fault?_of_isAtomic rfl value) found
  | boolean =>
    intro value fault found
    exact points_of_mismatch (fault?_of_isAtomic rfl value) found
  | list item ih =>
    intro value fault found
    cases value with
    | list items =>
      obtain ⟨index, element, inner, held, content, rfl⟩ := Fault.exists_of_ofItems found
      rw [Nat.zero_add]
      refine .below rfl held ?_ (ih clear element inner content)
      rintro ⟨name, ⟨⟩⟩
    | _ => exact points_of_mismatch (.inr rfl) found
  | shape schema ih =>
    intro value fault found
    cases value with
    | object members =>
      obtain ⟨distinct, -, inside⟩ := isClear_shape_iff.1 clear
      have here : (FieldType.shape schema).at? [] = some (.shape schema) := rfl
      have located : schema.fault? members = some fault := found
      cases unknown : schema.undeclared? members with
      | some name =>
        obtain ⟨held, undeclared⟩ := Schema.of_undeclared?_eq_some unknown
        rw [Schema.fault?_of_undeclared unknown] at located
        cases located
        exact .undeclared here rfl held undeclared
      | none =>
        rw [Schema.fault?_of_declared unknown] at located
        obtain ⟨field, mem, content⟩ := Field.exists_of_firstFault? located
        rcases Field.of_fault? content with ⟨required, absent, rfl⟩ | ⟨part, inner, held, present, rejected, rfl⟩
        · exact .absence here rfl mem required absent
        · have expects : (FieldType.shape schema).part? (.field field.name) = some field.type := by
            rw [part?, Schema.field?_of_mem distinct mem, Option.map_some]
          exact .below expects held (fun _ => present) (ih field mem (inside field mem) part inner rejected)
    | _ => exact points_of_mismatch (.inr rfl) found
  | oneOf members _ =>
    intro value fault found
    exact points_of_mismatch (fault?_of_isAtomic rfl value) found

theorem FieldType.at?_append (type : FieldType) (location rest : Location) :
    type.at? (location ++ rest) = (type.at? location).bind fun declared => declared.at? rest := by
  induction location generalizing type with
  | nil => rfl
  | cons step later ih =>
    rw [List.cons_append, at?, at?]
    cases type.part? step with
    | none => rfl
    | some part => exact ih part

theorem Json.Value.at?_append (value : Value) (location rest : Location) :
    value.at? (location ++ rest) = (value.at? location).bind fun part => part.at? rest := by
  induction location generalizing value with
  | nil => rfl
  | cons step later ih =>
    rw [List.cons_append, at?, at?]
    cases value.part? step with
    | none => rfl
    | some part => exact ih part

/-- A step into a clear type has a plain name, if any, and leads to a clear type. -/
theorem FieldType.isPlain_of_part? {type part : FieldType} {step : Step} (clear : type.isClear = true)
    (expects : type.part? step = some part) :
    (∀ name, step = .field name → isPlainName name = true) ∧ part.isClear = true := by
  cases type with
  | list item =>
    cases step with
    | index position =>
      cases expects
      exact ⟨nofun, clear⟩
    | field name => cases expects
  | shape schema =>
    cases step with
    | index position => cases expects
    | field name =>
      obtain ⟨field, found, rfl⟩ := Option.map_eq_some_iff.1 expects
      obtain ⟨-, plain, inside⟩ := isClear_shape_iff.1 clear
      have mem := Schema.mem_of_field? found
      refine ⟨?_, inside field mem⟩
      rintro _ ⟨⟩
      rw [← Schema.name_of_field? found]
      exact plain field.name (Schema.mem_fieldNames mem)
  | _ => cases step <;> cases expects

/-- Following a location through a clear type meets plain names only, and a clear type again. -/
theorem FieldType.isPlain_of_at? {type declared : FieldType} {location : Location} (clear : type.isClear = true)
    (reached : type.at? location = some declared) : location.IsPlain ∧ declared.isClear = true := by
  induction location generalizing type with
  | nil =>
    cases reached
    exact ⟨nofun, clear⟩
  | cons step rest ih =>
    obtain ⟨part, expects, onwards⟩ := Option.bind_eq_some_iff.1 reached
    obtain ⟨plain, clearPart⟩ := isPlain_of_part? clear expects
    obtain ⟨others, clearDeclared⟩ := ih clearPart onwards
    refine ⟨?_, clearDeclared⟩
    intro name mem
    rcases List.mem_cons.1 mem with here | later
    · exact plain name here.symm
    · exact others name later

mutual

/-- A check holds on every level that a location can lead to. -/
def FieldType.throughout (check : FieldType → Bool) : FieldType → Bool
  | .list item => check (.list item) && item.throughout check
  | .shape ⟨name, declared⟩ => check (.shape ⟨name, declared⟩) && Field.throughout check declared
  | type => check type

def Field.throughout (check : FieldType → Bool) : List Field → Bool
  | [] => true
  | ⟨_, type, _⟩ :: rest => type.throughout check && Field.throughout check rest

end

theorem Field.throughout_iff {check : FieldType → Bool} {declared : List Field} :
    Field.throughout check declared = true ↔ ∀ field ∈ declared, field.type.throughout check = true := by
  induction declared with
  | nil => simp [throughout]
  | cons field rest ih =>
    obtain ⟨name, type, isRequired⟩ := field
    simp [throughout, ih]

namespace FieldType

variable {check : FieldType → Bool}

theorem check_of_throughout {type : FieldType} (holds : type.throughout check = true) : check type = true := by
  cases type with
  | list item => exact (Bool.and_eq_true_iff.1 holds).1
  | shape schema =>
    obtain ⟨name, declared⟩ := schema
    exact (Bool.and_eq_true_iff.1 holds).1
  | _ => exact holds

theorem throughout_of_part? {type part : FieldType} {step : Step} (holds : type.throughout check = true)
    (expects : type.part? step = some part) : part.throughout check = true := by
  cases type with
  | list item =>
    cases step <;> cases expects
    exact (Bool.and_eq_true_iff.1 holds).2
  | shape schema =>
    cases step with
    | index position => cases expects
    | field name =>
      obtain ⟨_, declared⟩ := schema
      obtain ⟨field, found, rfl⟩ := Option.map_eq_some_iff.1 expects
      exact Field.throughout_iff.1 (Bool.and_eq_true_iff.1 holds).2 field (Schema.mem_of_field? found)
  | _ => cases step <;> cases expects

theorem throughout_of_at? {type declared : FieldType} {location : Location} (holds : type.throughout check = true)
    (reached : type.at? location = some declared) : declared.throughout check = true := by
  induction location generalizing type with
  | nil =>
    cases reached
    exact holds
  | cons step rest ih =>
    obtain ⟨part, expects, onwards⟩ := Option.bind_eq_some_iff.1 reached
    exact ih (throughout_of_part? holds expects) onwards

end FieldType

end TrainingJob
