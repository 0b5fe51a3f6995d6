import TrainingJob.Proofs.Record.Lawful
import TrainingJob.Proofs.Schema.Entries
import TrainingJob.Record.Assignment

/-!
# Assignments

Assigning a field builds the whole record again, through the check, the typed
reading and the presets. Nothing of that shows. The first check of the value
decides (`Record.outcome_set`), and afterwards the assigned field reads as the
value in its normal form while every other field reads as before
(`Record.shown_of_set`). A record is known by what its fields read as
(`Record.ext_shown`).

So a run of assignments is a map in which the last accepted value of each name
counts (`Record.shown_assignEach`).
-/

set_option autoImplicit false

namespace TrainingJob

open Json

/-- Entries that are left out read as absent all the same. -/
theorem Absence.getD_get?_entries (absence : Absence) {entries : Fields} (distinct : entries.names.Nodup)
    (name : String) : ((absence.entries entries).get? name).getD .null = (entries.get? name).getD .null := by
  cases absence with
  | asNull => rfl
  | leftOut => exact Fields.getD_get?_present distinct name

namespace Record

variable {R : Type} [Record R]

/-- What a record shows for a field. -/
def shown (record : R) (name : String) : Value := ((dump record).get? name).getD .null

/-- What a record of this sort shows for a field that its map omits. -/
def preset (R : Type) [Record R] (name : String) : Value := ((layout : Layout (Row R)).presets.get? name).getD .null

/-- An entry of a dump is what the record shows. -/
theorem shown_of_mem_dump {record : R} {name : String} {value : Value} (mem : (name, value) ∈ dump record) :
    shown record name = value := by
  rw [shown, (Fields.mem_iff_get? (nodup_names_dump record)).1 mem]
  rfl

theorem mem_dump_of_shown {record : R} {name : String} (present : shown record name ≠ .null) :
    (name, shown record name) ∈ dump record :=
  Fields.mem_of_get? (Fields.get?_of_getD present)

theorem get_of_declares {record : R} {name : String} (declared : (schema R).declares name = true) :
    get record name = .ok (shown record name) := by
  rw [get, if_pos declared]
  rfl

theorem get_of_mem {record : R} {field : Field} (mem : field ∈ (schema R).fields) :
    get record field.name = .ok (shown record field.name) :=
  get_of_declares (Schema.declares_of_mem mem)

variable [Lawful R]

/-- Where absence is left out nothing has a preset. -/
theorem preset_of_leftOut (leftOut : absence R = .leftOut) (name : String) : preset R name = .null := by
  rw [preset, Lawful.presets_eq_nil leftOut]
  rfl

/-- A record shows what it was built from, settled field by field. -/
theorem shown_of_ofFields {fields : Fields} {record : R} (built : ofFields fields = .ok record) {field : Field}
    (mem : field ∈ (schema R).fields) :
    shown record field.name = field.settle (preset R field.name) (fields.get? field.name) := by
  have distinct : ((schema R).fields.map Field.name).Nodup := nodup_fieldNames
  have names : ((schema R).normalForm (layout : Layout (Row R)).presets fields).names.Nodup := by
    rw [Schema.normalForm, Fields.names, List.map_map]
    exact distinct
  rw [shown, dump_of_ofFields built, Absence.getD_get?_entries _ names, Schema.normalForm,
    Field.get?_map distinct _ mem]
  rfl

/-- Where absence is left out, what a map omits is absent, and not required. -/
theorem of_omitted (leftOut : absence R = .leftOut) {fields : Fields} {record : R}
    (built : ofFields fields = .ok record) {field : Field} (mem : field ∈ (schema R).fields)
    (omitted : field.name ∉ fields.names) : shown record field.name = .null ∧ field.isRequired = false := by
  have missing := Fields.get?_eq_none_iff.2 omitted
  constructor
  · rw [shown_of_ofFields built mem, missing, Field.settle_none, preset_of_leftOut leftOut]
  · have content := (Schema.fault?_eq_none_iff.1 (accepts_of_decode? (ofFields_eq_ok_iff.1 built))).2 field mem
    rw [missing, Field.fault?_of_missing] at content
    exact content

/-- What a record shows is settled. -/
theorem shown_eq_settle (record : R) {field : Field} (mem : field ∈ (schema R).fields) :
    shown record field.name = field.settle (preset R field.name) ((dump record).get? field.name) :=
  shown_of_ofFields (ofFields_dump record) mem

/-- The dump of a record, from what it shows for its fields. -/
theorem dump_eq_shown (record : R) :
    dump record = (absence R).entries ((schema R).fields.map fun field => (field.name, shown record field.name)) := by
  have entries : (schema R).normalForm (layout : Layout (Row R)).presets (dump record) =
      (schema R).fields.map fun field => (field.name, shown record field.name) :=
    List.map_congr_left fun field mem => by rw [shown_eq_settle record mem, preset]
  rw [← entries]
  exact dump_of_ofFields (ofFields_dump record)

/-- A record is known by what it shows for its fields. -/
theorem ext_shown {record other : R}
    (same : ∀ field ∈ (schema R).fields, shown record field.name = shown other field.name) : record = other := by
  refine dump_injective ?_
  rw [dump_eq_shown record, dump_eq_shown other]
  congr 1
  exact List.map_congr_left fun field mem => by rw [same field mem]

/-- No state of a record lacks a required field. -/
theorem shown_ne_null_of_required (record : R) {field : Field} (mem : field ∈ (schema R).fields)
    (required : field.isRequired = true) : shown record field.name ≠ .null := by
  intro absent
  have content := (Schema.fault?_eq_none_iff.1 (fault?_dump record)).2 field mem
  cases held : (dump record).get? field.name with
  | none =>
    rw [held, Field.fault?_of_missing, required] at content
    cases content
  | some value =>
    rw [shown, held] at absent
    cases absent
    rw [held, Field.fault?_of_null, required] at content
    cases content

/-- What the first check accepts the construction after it accepts. -/
theorem validate_insert_dump (record : R) {name : String} {value : Value}
    (accepted : (schema R).validateField name value = .ok ()) :
    (schema R).validate ((dump record).insert name value) = .ok () := by
  rw [Schema.validate_insert nodup_fieldNames (fault?_dump record), accepted]

/-- **The first check decides**: an assignment ends as the check of its value does,
whatever the record. -/
theorem outcome_set (record : R) (name : String) (value : Value) :
    (set record name value).map (fun _ => ()) = (schema R).validateField name value := by
  rw [set]
  cases checked : (schema R).validateField name value with
  | error error => rfl
  | ok _ =>
    show (ofFields ((dump record).insert name value) : Except Error R).map (fun _ => ()) = _
    rw [outcome_ofFields, validate_insert_dump record checked]

theorem exists_set (record : R) {name : String} {value : Value}
    (accepted : (schema R).validateField name value = .ok ()) : ∃ next, set record name value = .ok next := by
  have outcome := outcome_set record name value
  rw [accepted] at outcome
  cases done : set record name value with
  | ok next => exact ⟨next, rfl⟩
  | error error =>
    rw [done] at outcome
    cases outcome

omit [Lawful R] in
theorem ofFields_of_set {record next : R} {name : String} {value : Value} (done : set record name value = .ok next) :
    (schema R).validateField name value = .ok () ∧ ofFields ((dump record).insert name value) = .ok next := by
  rw [set] at done
  cases checked : (schema R).validateField name value with
  | error error =>
    rw [checked] at done
    cases done
  | ok _ =>
    rw [checked] at done
    exact ⟨rfl, done⟩

/-- After an assignment the assigned field shows its value in normal form, and
every other field what it showed before. -/
theorem shown_of_set {record next : R} {name : String} {value : Value} (done : set record name value = .ok next)
    {field : Field} (mem : field ∈ (schema R).fields) :
    shown next field.name =
      if field.name = name then field.settle .null (some value) else shown record field.name := by
  rw [shown_of_ofFields (ofFields_of_set done).2 mem]
  by_cases same : field.name = name
  · rw [if_pos same, same, Fields.get?_insert_self]
    cases value <;> rfl
  · rw [if_neg same, Fields.get?_insert_of_ne _ _ (Ne.symm same), ← shown_eq_settle record mem]

/-- The outcome of an assignment in place is that of the check of its value. -/
theorem outcome_assign (record : R) (name : String) (value : Value) :
    ((assign name value).run.run record).1 = (schema R).validateField name value := by
  rw [run_assign, ← outcome_set record]
  cases set record name value <;> rfl

theorem shown_assign (record : R) (name : String) (value : Value) {field : Field} (mem : field ∈ (schema R).fields) :
    shown ((assign name value).run.run record).2 field.name =
      if ((assign name value).run.run record).1.isOk ∧ field.name = name then field.settle .null (some value)
      else shown record field.name := by
  rw [run_assign]
  cases done : set record name value with
  | ok next => simp [Except.isOk, Except.toBool, shown_of_set done mem]
  | error error => simp [Except.isOk, Except.toBool]

/-- Assignments of two fields can be made in either order. -/
theorem assign_comm (record : R) {name other : String} (apart : name ≠ other) (value otherValue : Value) :
    ((assign other otherValue).run.run ((assign name value).run.run record).2).2 =
      ((assign name value).run.run ((assign other otherValue).run.run record).2).2 := by
  refine ext_shown fun field mem => ?_
  rw [shown_assign _ other otherValue mem, shown_assign _ name value mem, shown_assign _ name value mem,
    shown_assign _ other otherValue mem]
  simp only [outcome_assign]
  by_cases isFirst : field.name = name
  · have notSecond : field.name ≠ other := isFirst ▸ apart
    simp [isFirst, apart]
  · simp [isFirst]

/-- The assignments of a run that were accepted, in order. -/
def accepted (steps : List (String × Value)) (outcomes : List (Except Error Unit)) : List (String × Value) :=
  ((steps.zip outcomes).filter fun made => made.2.isOk).map Prod.fst

theorem accepted_cons (step : String × Value) (rest : List (String × Value)) (outcome : Except Error Unit)
    (others : List (Except Error Unit)) :
    accepted (step :: rest) (outcome :: others) =
      if outcome.isOk then step :: accepted rest others else accepted rest others := by
  cases ok : outcome.isOk <;> simp [accepted, ok]

omit [Lawful R] in
theorem run_assignEach_cons (record : R) (step : String × Value) (rest : List (String × Value)) :
    (assignEach (step :: rest)).run record =
      (((assign step.1 step.2).run.run record).1 ::
          ((assignEach rest).run ((assign step.1 step.2).run.run record).2).1,
        ((assignEach rest).run ((assign step.1 step.2).run.run record).2).2) := by
  rw [assignEach, List.mapM_cons]
  rfl

/-- **The last accepted value counts.** After a run of assignments a field shows
the value of the last accepted one that named it, and what it showed before the
run if there is none. -/
theorem shown_assignEach (record : R) (steps : List (String × Value)) {field : Field}
    (mem : field ∈ (schema R).fields) :
    shown ((assignEach steps).run record).2 field.name =
      match Fields.get? (accepted steps ((assignEach steps).run record).1).reverse field.name with
      | some value => field.settle .null (some value)
      | none => shown record field.name := by
  induction steps generalizing record with
  | nil => rfl
  | cons step rest ih =>
    have first := shown_assign record step.1 step.2 mem
    rw [run_assignEach_cons]
    -- the rest starts from whatever the first step left, so the induction leaves the record open
    generalize (assign step.1 step.2).run.run record = made at first ⊢
    have later := ih made.2
    generalize (assignEach rest).run made.2 = others at later ⊢
    simp only [accepted_cons, later]
    cases ok : made.1.isOk with
    | false =>
      rw [ok] at first
      rw [if_neg Bool.false_ne_true, first, if_neg (fun both => Bool.false_ne_true both.1)]
    | true =>
      rw [ok] at first
      rw [if_pos rfl, Fields.get?_reverse_cons]
      cases Fields.get? (accepted rest others.1).reverse field.name with
      | some value => rfl
      | none =>
        rw [Option.none_or, first]
        by_cases named : field.name = step.1
        · rw [if_pos ⟨rfl, named⟩, if_pos named.symm]
        · rw [if_neg (fun both => named both.2), if_neg (Ne.symm named)]

theorem mem_of_mem_accepted {steps : List (String × Value)} {outcomes : List (Except Error Unit)} {step : String × Value}
    (mem : step ∈ accepted steps outcomes) : step ∈ steps := by
  obtain ⟨made, kept, rfl⟩ := List.mem_map.1 mem
  exact (List.of_mem_zip (List.mem_filter.1 kept).1).1

/-- A run that never names a field leaves it alone. -/
theorem shown_assignEach_of_unnamed (record : R) {steps : List (String × Value)} {field : Field}
    (mem : field ∈ (schema R).fields) (unnamed : ∀ step ∈ steps, step.1 ≠ field.name) :
    shown ((assignEach steps).run record).2 field.name = shown record field.name := by
  have untouched : Fields.get? (accepted steps ((assignEach steps).run record).1).reverse field.name = none := by
    refine Fields.get?_eq_none_iff.2 fun held => ?_
    obtain ⟨step, made, named⟩ := List.mem_map.1 held
    exact unnamed step (mem_of_mem_accepted (List.mem_reverse.1 made)) named
  rw [shown_assignEach record steps mem, untouched]

omit [Lawful R] in
theorem run_assignEach_append (record : R) (steps later : List (String × Value)) :
    ((assignEach (steps ++ later)).run record).2 =
      ((assignEach later).run ((assignEach steps).run record).2).2 := by
  induction steps generalizing record with
  | nil => rfl
  | cons step rest ih => rw [List.cons_append, run_assignEach_cons, run_assignEach_cons, ih]

/-- A field that is cleared stays absent until it is assigned again. -/
theorem shown_assignEach_of_cleared (record : R) (steps later : List (String × Value)) {field : Field}
    (mem : field ∈ (schema R).fields) (clearable : field.isRequired = false)
    (unnamed : ∀ step ∈ later, step.1 ≠ field.name) :
    shown ((assignEach (steps ++ (field.name, .null) :: later)).run record).2 field.name = .null := by
  have cleared : (schema R).validateField field.name .null = .ok () :=
    Schema.validateField_eq_ok_iff.2
      ⟨field, Schema.field?_of_mem nodup_fieldNames mem, Field.fault?_of_null.2 clearable⟩
  rw [run_assignEach_append, run_assignEach_cons, shown_assignEach_of_unnamed _ mem unnamed,
    shown_assign _ _ _ mem, outcome_assign, cleared, if_pos ⟨rfl, rfl⟩, Field.settle_null]

/-- In the other order two assignments to different fields have the same outcomes
and leave the same record. -/
theorem run_assignEach_comm (record : R) {first second : String × Value} (apart : first.1 ≠ second.1) :
    (assignEach [second, first]).run record =
      (((assignEach [first, second]).run record).1.reverse, ((assignEach [first, second]).run record).2) := by
  have same := assign_comm record apart first.2 second.2
  have none (last : R) : (assignEach []).run last = ([], last) := rfl
  simp only [run_assignEach_cons, outcome_assign, none, same, List.reverse_cons, List.reverse_nil, List.nil_append,
    List.cons_append]

end Record

end TrainingJob
