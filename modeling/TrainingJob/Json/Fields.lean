import TrainingJob.Json.Value

/-!
# Field maps

The members of an object, read as a map from names to values that remembers its
order. Assigning a name that the map holds keeps its place
(`Fields.names_insert_of_mem`), any other name goes to the end
(`Fields.names_insert_of_not_mem`), and in either case only that name reads
differently (`Fields.get?_insert_self`, `Fields.get?_insert_of_ne`).

A value of `null` marks absence. `Fields.present` keeps the entries that are not
absent, and `Fields.isNormal` says that this changes nothing
(`Fields.present_eq_self_iff`).
-/

set_option autoImplicit false

namespace TrainingJob.Json

/-- Named values in document order. -/
abbrev Fields := List (String × Value)

namespace Fields

/-- The value that a map holds under a name. -/
def get? : Fields → String → Option Value
  | [], _ => none
  | (k, v) :: rest, name => if k = name then some v else get? rest name

/-- The names of a map, in order. -/
def names (fields : Fields) : List String := fields.map Prod.fst

/-- Puts a value under a name: in place if the map holds that name, otherwise at the end. -/
def insert : Fields → String → Value → Fields
  | [], name, value => [(name, value)]
  | (k, v) :: rest, name, value =>
    if k = name then (k, value) :: rest else (k, v) :: insert rest name value

/-- The entries that are not absent, in order. -/
def present (fields : Fields) : Fields := fields.filter fun entry => !entry.2.isNull

/-- No entry is absent. -/
def isNormal (fields : Fields) : Bool := fields.all fun entry => !entry.2.isNull

@[simp] theorem get?_nil (name : String) : get? [] name = none := rfl

@[simp] theorem get?_cons (k : String) (v : Value) (rest : Fields) (name : String) :
    get? ((k, v) :: rest) name = if k = name then some v else get? rest name := rfl

@[simp] theorem names_nil : names [] = [] := rfl

@[simp] theorem names_cons (entry : String × Value) (rest : Fields) :
    names (entry :: rest) = entry.1 :: names rest := rfl

theorem get?_isSome_iff {fields : Fields} {name : String} :
    (fields.get? name).isSome ↔ name ∈ names fields := by
  induction fields with
  | nil => simp
  | cons entry rest ih =>
    obtain ⟨k, v⟩ := entry
    by_cases h : k = name
    · simp [h]
    · simp [h, ih, Ne.symm h]

theorem get?_eq_none_iff {fields : Fields} {name : String} :
    fields.get? name = none ↔ name ∉ names fields := by
  rw [← get?_isSome_iff, Option.not_isSome_iff_eq_none]

@[simp] theorem get?_insert_self (fields : Fields) (name : String) (value : Value) :
    (insert fields name value).get? name = some value := by
  induction fields with
  | nil => simp [insert]
  | cons entry rest ih =>
    obtain ⟨k, v⟩ := entry
    by_cases h : k = name <;> simp [insert, h, ih]

theorem get?_insert_of_ne (fields : Fields) {name other : String} (value : Value) (h : name ≠ other) :
    (insert fields name value).get? other = fields.get? other := by
  induction fields with
  | nil => simp [insert, h]
  | cons entry rest ih =>
    obtain ⟨k, v⟩ := entry
    by_cases hk : k = name
    · simp [insert, hk, h]
    · simp [insert, hk, ih]

theorem mem_names_insert {fields : Fields} {name other : String} {value : Value} :
    other ∈ names (insert fields name value) ↔ other = name ∨ other ∈ names fields := by
  rw [← get?_isSome_iff, ← get?_isSome_iff]
  by_cases same : other = name
  · simp [same]
  · simp [get?_insert_of_ne fields value (Ne.symm same), same]

theorem mem_of_get? {fields : Fields} {name : String} {value : Value} (held : fields.get? name = some value) :
    (name, value) ∈ fields := by
  induction fields with
  | nil => cases held
  | cons entry rest ih =>
    obtain ⟨k, v⟩ := entry
    rw [get?_cons] at held
    by_cases same : k = name
    · rw [if_pos same] at held
      cases held
      rw [same]
      exact .head _
    · rw [if_neg same] at held
      exact .tail _ (ih held)

/-- What does not read as an absence is there. -/
theorem get?_of_getD {fields : Fields} {name : String} (present : (fields.get? name).getD .null ≠ .null) :
    fields.get? name = some ((fields.get? name).getD .null) := by
  cases held : fields.get? name with
  | none => exact absurd (by rw [held]; rfl) present
  | some value => rfl

theorem mem_names_of_get? {fields : Fields} {name : String} {value : Value} (held : fields.get? name = some value) :
    name ∈ fields.names :=
  List.mem_map_of_mem (mem_of_get? held)

/-- In a map of distinct names every entry is found under its name. -/
theorem mem_iff_get? {fields : Fields} (distinct : fields.names.Nodup) {name : String} {value : Value} :
    (name, value) ∈ fields ↔ fields.get? name = some value := by
  refine ⟨fun mem => ?_, mem_of_get?⟩
  induction fields with
  | nil => cases mem
  | cons entry rest ih =>
    obtain ⟨k, v⟩ := entry
    obtain ⟨fresh, distinct⟩ := List.nodup_cons.1 distinct
    rw [get?_cons]
    cases mem with
    | head => rw [if_pos rfl]
    | tail _ mem =>
      have other : k ≠ name := by
        rintro rfl
        exact fresh (List.mem_map.2 ⟨_, mem, rfl⟩)
      rw [if_neg other, ih distinct mem]

theorem get?_append (fields rest : Fields) (name : String) :
    get? (fields ++ rest) name = (fields.get? name).or (rest.get? name) := by
  induction fields with
  | nil => rfl
  | cons entry others ih =>
    obtain ⟨k, v⟩ := entry
    rw [List.cons_append, get?_cons, get?_cons, ih]
    by_cases same : k = name <;> simp [same]

/-- Read from the back, the first entry counts only where no later one has its name. -/
theorem get?_reverse_cons (entry : String × Value) (rest : Fields) (name : String) :
    get? (entry :: rest).reverse name =
      (get? rest.reverse name).or (if entry.1 = name then some entry.2 else none) := by
  rw [List.reverse_cons, get?_append]
  rfl

/-- A new name goes to the end. -/
theorem insert_of_not_mem {fields : Fields} {name : String} (value : Value) (h : name ∉ names fields) :
    insert fields name value = fields ++ [(name, value)] := by
  induction fields with
  | nil => rfl
  | cons entry rest ih =>
    obtain ⟨k, v⟩ := entry
    rw [names_cons, List.mem_cons, not_or] at h
    rw [insert, if_neg (Ne.symm h.1), ih h.2, List.cons_append]

theorem names_insert_of_mem {fields : Fields} {name : String} (value : Value)
    (h : name ∈ names fields) :
    names (insert fields name value) = names fields := by
  induction fields with
  | nil => simp at h
  | cons entry rest ih =>
    obtain ⟨k, v⟩ := entry
    by_cases hk : k = name
    · simp [insert, hk]
    · simp_all [insert, Ne.symm hk]

theorem names_insert_of_not_mem {fields : Fields} {name : String} (value : Value)
    (h : name ∉ names fields) :
    names (insert fields name value) = names fields ++ [name] := by
  rw [insert_of_not_mem value h]
  simp [names]

@[simp] theorem present_nil : present [] = [] := rfl

theorem present_cons (entry : String × Value) (rest : Fields) :
    present (entry :: rest) = if entry.2.isNull then present rest else entry :: present rest := by
  cases h : entry.2.isNull <;> simp [present, h]

theorem names_present_sublist (fields : Fields) : (names fields.present).Sublist (names fields) :=
  List.Sublist.map _ List.filter_sublist

/-- Without its absent entries a map reads the same, except that absence is no longer `null`. -/
theorem get?_present {fields : Fields} (distinct : fields.names.Nodup) (name : String) :
    fields.present.get? name = (fields.get? name).filter (!·.isNull) := by
  induction fields with
  | nil => rfl
  | cons entry rest ih =>
    obtain ⟨k, v⟩ := entry
    obtain ⟨fresh, distinct⟩ := List.nodup_cons.1 distinct
    have missing : k = name → get? (present rest) name = none := by
      rintro rfl
      exact get?_eq_none_iff.2 fun mem => fresh ((names_present_sublist rest).subset mem)
    rw [present_cons]
    by_cases same : k = name
    · rw [get?_cons, if_pos same, Option.filter_some]
      cases v.isNull with
      | true => simpa using missing same
      | false => simp [same]
    · rw [get?_cons, if_neg same, ← ih distinct]
      cases v.isNull with
      | true => rfl
      | false => simp [same]

/-- A reader to whom absence and `null` are one reads the same map. -/
theorem getD_get?_present {fields : Fields} (distinct : fields.names.Nodup) (name : String) :
    (fields.present.get? name).getD .null = (fields.get? name).getD .null := by
  rw [get?_present distinct]
  cases fields.get? name with
  | none => rfl
  | some v => cases v <;> rfl

theorem present_eq_self_iff {fields : Fields} : fields.present = fields ↔ fields.isNormal = true := by
  simp [present, isNormal, List.filter_eq_self]

theorem isNormal_present (fields : Fields) : fields.present.isNormal = true := by
  simp [present, isNormal]

end Fields

end TrainingJob.Json
