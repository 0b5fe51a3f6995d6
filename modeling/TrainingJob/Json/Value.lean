/-!
# JSON values

A value is what a JSON text denotes, with two distinctions that the schema rules
need. An integer is kept apart from every other number, and an object keeps its
members in the order of the document. Every other number is kept as the exact
decimal that was spelled, so nothing is rounded here.

`Kind` is what an error message calls a value. Equality of values is decidable
(`instDecidableEqValue`), through the Boolean comparison `Value.same` and its
law `Value.same_iff`. A value contains others in lists and in objects, and
`Value.induction` walks through both.
-/

set_option autoImplicit false

namespace TrainingJob.Json

/-- The exact number `± significand * 10 ^ exponent`. -/
structure Decimal where
  negative : Bool
  significand : Nat
  exponent : Int
deriving DecidableEq, Repr, Inhabited

/-- A JSON value. The members of an object stand in document order. -/
inductive Value where
  | null
  | boolean (b : Bool)
  | integer (n : Int)
  | decimal (d : Decimal)
  | string (s : String)
  | list (items : List Value)
  | object (members : List (String × Value))
deriving Repr, Inhabited

/-- The sorts of values that an error message tells apart. -/
inductive Kind where
  | null | boolean | integer | number | string | list | object
deriving DecidableEq, Repr

/-- The word for a kind in an error message. -/
def Kind.name : Kind → String
  | .null => "null"
  | .boolean => "boolean"
  | .integer => "integer"
  | .number => "number"
  | .string => "string"
  | .list => "list"
  | .object => "object"

namespace Value

def kind : Value → Kind
  | null => .null
  | boolean _ => .boolean
  | integer _ => .integer
  | decimal _ => .number
  | string _ => .string
  | list _ => .list
  | object _ => .object

/-- `null` is the mark of absence in a field map. -/
def isNull : Value → Bool
  | null => true
  | _ => false

theorem isNull_iff {v : Value} : v.isNull = true ↔ v = null := by
  cases v <;> simp [isNull]

theorem isNull_eq_false_iff {v : Value} : v.isNull = false ↔ v ≠ null := by
  rw [Bool.eq_false_iff, ne_eq, isNull_iff]

mutual

/-- Comparison of values, member by member in document order. -/
def same : Value → Value → Bool
  | null, null => true
  | boolean a, boolean b => a == b
  | integer a, integer b => a == b
  | decimal a, decimal b => a == b
  | string a, string b => a == b
  | list as, list bs => sameItems as bs
  | object as, object bs => sameMembers as bs
  | _, _ => false

def sameItems : List Value → List Value → Bool
  | [], [] => true
  | a :: as, b :: bs => same a b && sameItems as bs
  | _, _ => false

def sameMembers : List (String × Value) → List (String × Value) → Bool
  | [], [] => true
  | (k, a) :: as, (l, b) :: bs => k == l && same a b && sameMembers as bs
  | _, _ => false

end

mutual

theorem same_iff : ∀ a b : Value, same a b = true ↔ a = b
  | null, b => by cases b <;> simp [same]
  | boolean _, b => by cases b <;> simp [same]
  | integer _, b => by cases b <;> simp [same]
  | decimal _, b => by cases b <;> simp [same]
  | string _, b => by cases b <;> simp [same]
  | list as, b => by cases b <;> simp [same, sameItems_iff as]
  | object as, b => by cases b <;> simp [same, sameMembers_iff as]

theorem sameItems_iff : ∀ as bs : List Value, sameItems as bs = true ↔ as = bs
  | [], bs => by cases bs <;> simp [sameItems]
  | a :: as, bs => by cases bs <;> simp [sameItems, same_iff a, sameItems_iff as]

theorem sameMembers_iff : ∀ as bs : List (String × Value), sameMembers as bs = true ↔ as = bs
  | [], bs => by cases bs <;> simp [sameMembers]
  | (k, a) :: as, bs => by
    cases bs <;> simp [sameMembers, same_iff a, sameMembers_iff as, Prod.ext_iff]

end

end Value

instance instDecidableEqValue : DecidableEq Value := fun a b => decidable_of_iff _ (Value.same_iff a b)

/-- Induction over values, through the items of lists and the members of objects. -/
@[elab_as_elim, induction_eliminator]
theorem Value.induction {motive : Value → Prop}
    (null : motive .null) (boolean : ∀ b, motive (.boolean b)) (integer : ∀ n, motive (.integer n))
    (decimal : ∀ d, motive (.decimal d)) (string : ∀ s, motive (.string s))
    (list : ∀ items, (∀ item ∈ items, motive item) → motive (.list items))
    (object : ∀ members : List (String × Value), (∀ entry ∈ members, motive entry.2) → motive (.object members))
    (value : Value) : motive value := by
  refine @Value.rec motive (fun items => ∀ item ∈ items, motive item)
    (fun members => ∀ entry ∈ members, motive entry.2) (fun entry => motive entry.2)
    null boolean integer decimal string list object ?_ ?_ ?_ ?_ ?_ value
  · simp
  · intro item rest ih ihRest
    exact List.forall_mem_cons.2 ⟨ih, ihRest⟩
  · simp
  · intro entry rest ih ihRest
    exact List.forall_mem_cons.2 ⟨ih, ihRest⟩
  · intro name value ih
    exact ih

end TrainingJob.Json
