import TrainingJob.Proofs.Record.Projection
import TrainingJob.Proofs.Schema.ReadBack

/-!
# Records that relax a shape

A record relaxes a shape when it declares the fields of the shape with the same
types and requires none of them (`Record.Relaxes`). Whatever such a record holds
suits the shape, so a projection can only fail for want of a required field
(`Record.Relaxes.fault?_shared`), and the shape that comes of it is the one that
shows the same (`Record.Relaxes.project_eq_some_iff`).

That makes a projection a simulation. An assignment to the record is matched by
the same assignment to the shape, or by none if the shape does not declare the
field (`Record.Relaxes.project_assign`), and so is a run of assignments
(`Record.Relaxes.project_assignEach`). In the other direction a map that builds
the shape builds the record too (`Record.Relaxes.exists_built`).
-/

set_option autoImplicit false

namespace TrainingJob

open Json

namespace Record

/-- The record has a value for the field, be it empty or zero. -/
def Has {R : Type} [Record R] (record : R) (name : String) : Prop :=
  ∃ value, get record name = .ok value ∧ value ≠ .null

section Presence

variable {R : Type} [Record R] {record : R} {name : String}

theorem get_eq_null_iff (declared : (schema R).declares name = true) :
    get record name = .ok .null ↔ shown record name = .null := by
  rw [get_of_declares declared, Except.ok.injEq]

theorem has_iff (declared : (schema R).declares name = true) : Has record name ↔ shown record name ≠ .null := by
  unfold Has
  rw [get_of_declares declared]
  constructor
  · rintro ⟨value, read, present⟩
    cases read
    exact present
  · intro present
    exact ⟨_, rfl, present⟩

end Presence

/-- A record relaxes a shape when it has the fields of the shape, with their types,
and requires nothing. The shape itself leaves out what is absent, and there is
something that it requires. -/
structure Relaxes (S T : Type) [Record S] [Record T] : Prop where
  optional : ∀ field ∈ (schema S).fields, field.isRequired = false
  covers : ∀ twin ∈ (schema T).fields, ∃ field ∈ (schema S).fields, field.name = twin.name ∧ field.type = twin.type
  leftOut : absence T = .leftOut
  demands : ∃ twin ∈ (schema T).fields, twin.isRequired = true

/-- The assignments of a run that are addressed to fields of the target. -/
def addressed (T : Type) [Record T] (steps : List (String × Value)) : List (String × Value) :=
  steps.filter fun step => (schema T).declares step.1

theorem addressed_cons {T : Type} [Record T] (step : String × Value) (rest : List (String × Value)) :
    addressed T (step :: rest) =
      if (schema T).declares step.1 then step :: addressed T rest else addressed T rest :=
  List.filter_cons

namespace Relaxes

variable {S T : Type} [Record S] [Record T] (relaxes : Relaxes S T)

include relaxes

/-- A field of the shape is of the type that the record gives it. -/
theorem type_eq {field twin : Field} (mem : field ∈ (schema S).fields) (twinMem : twin ∈ (schema T).fields)
    (same : field.name = twin.name) : field.type = twin.type := by
  obtain ⟨other, otherMem, named, typed⟩ := relaxes.covers twin twinMem
  have only : other = field := Schema.eq_of_name_eq nodup_fieldNames mem otherMem (named.trans same.symm)
  rw [← only, typed]

theorem agree : Agree S T := by
  intro field mem twin twinMem same _ _ _
  exact (relaxes.type_eq mem twinMem same.symm).symm

theorem declares_source {twin : Field} (mem : twin ∈ (schema T).fields) : (schema S).declares twin.name = true := by
  obtain ⟨field, fieldMem, named, -⟩ := relaxes.covers twin mem
  rw [← named]
  exact Schema.declares_of_mem fieldMem

/-- The record takes what a field of the shape with the same type is content with. -/
theorem content_of_twin {field twin : Field} (mem : field ∈ (schema S).fields) (typed : field.type = twin.type)
    {value : Value} (content : twin.fault? (some value) = none) : field.fault? (some value) = none := by
  by_cases present : value = .null
  · rw [present]
    exact Field.fault?_of_null.2 (relaxes.optional field mem)
  · rw [Field.fault?_of_present present] at content ⊢
    rw [typed, content]

/-- What the shape accepts for a field the record accepts. -/
theorem accepts {name : String} {value : Value} (accepted : (schema T).validateField name value = .ok ()) :
    (schema S).validateField name value = .ok () := by
  obtain ⟨twin, found, content⟩ := Schema.validateField_eq_ok_iff.1 accepted
  obtain ⟨field, mem, named, typed⟩ := relaxes.covers twin (Schema.mem_of_field? found)
  have same : field.name = name := named.trans (Schema.name_of_field? found)
  apply Schema.validateField_eq_ok_iff.2
  exact ⟨field, same ▸ Schema.field?_of_mem nodup_fieldNames mem, relaxes.content_of_twin mem typed content⟩

/-- What builds the shape builds the record. -/
theorem fault?_eq_none {fields : Fields} (accepted : (schema T).fault? fields = none) :
    (schema S).fault? fields = none := by
  obtain ⟨declared, content⟩ := Schema.fault?_eq_none_iff.1 accepted
  apply Schema.fault?_eq_none_iff.2
  constructor
  · intro name held
    obtain ⟨twin, mem, rfl⟩ := Schema.declares_iff_exists.1 (declared name held)
    exact relaxes.declares_source mem
  · intro field mem
    cases held : fields.get? field.name with
    | none => exact Field.fault?_of_missing.2 (relaxes.optional field mem)
    | some value =>
      have known := declared field.name (Fields.mem_names_of_get? held)
      obtain ⟨twin, twinMem, named⟩ := Schema.declares_iff_exists.1 known
      have typed := relaxes.type_eq mem twinMem named.symm
      have entry := content twin twinMem
      rw [named, held] at entry
      exact relaxes.content_of_twin mem typed entry

/-- What the record accepts for a field the shape accepts, unless it is an absence that
the shape does not allow. -/
theorem accepts_of_source {twin : Field} (mem : twin ∈ (schema T).fields) {value : Value}
    (accepted : (schema S).validateField twin.name value = .ok ()) :
    (schema T).validateField twin.name value = .ok () ↔ value ≠ .null ∨ twin.isRequired = false := by
  obtain ⟨field, found, content⟩ := Schema.validateField_eq_ok_iff.1 accepted
  have typed := relaxes.type_eq (Schema.mem_of_field? found) mem (Schema.name_of_field? found)
  rw [Schema.validateField_of_field? (Schema.field?_of_mem nodup_fieldNames mem), Schema.verdict_eq_ok_iff]
  by_cases present : value = .null
  · rw [present, Field.fault?_of_null]
    simp
  · rw [Field.fault?_of_present present] at content ⊢
    rw [← typed, content]
    simp [present]

variable [Lawful S]

/-- Whatever the record holds is of the type that the shape asks for. -/
theorem fits {source : S} {twin : Field} (mem : twin ∈ (schema T).fields) (present : shown source twin.name ≠ .null) :
    twin.type.fault? (shown source twin.name) = none := by
  obtain ⟨field, fieldMem, same, content, -⟩ := tidy_of_mem_dump (mem_dump_of_shown present) present
  rw [← relaxes.type_eq fieldMem mem same]
  exact content

/-- The only faults of what is shared are the required fields that are absent. -/
theorem fault?_shared (source : S) :
    (schema T).fault? (shared T source) =
      ((schema T).fields.find? fun twin => twin.isRequired && (shown source twin.name).isNull).map
        fun twin => (Fault.absence twin.type).below (.field twin.name) := by
  have each : ∀ twin ∈ (schema T).fields, twin.fault? ((shared T source).get? twin.name) =
      if twin.isRequired && (shown source twin.name).isNull then
        some ((Fault.absence twin.type).below (.field twin.name)) else none := by
    intro twin mem
    have reads : ((shared T source).get? twin.name).getD .null = shown source twin.name :=
      getD_get?_shared mem
    by_cases absent : shown source twin.name = .null
    · rw [absent] at reads ⊢
      rw [Field.fault?_of_absent reads]
      simp [Value.isNull]
    · have held : (shared T source).get? twin.name = some (shown source twin.name) := by
        rw [← reads]
        apply Fields.get?_of_getD
        rw [reads]
        exact absent
      rw [held, (Field.fault?_of_present absent).2 (relaxes.fits mem absent), Value.isNull_eq_false_iff.2 absent]
      simp
  have declared : (schema T).undeclared? (shared T source) = none :=
    Schema.undeclared?_eq_none_iff.2 fun name held => declares_of_mem_shared held
  rw [Schema.fault?_of_declared declared]
  exact Field.firstFault?_eq_find? each

variable [Lawful T]

/-- There is a result when nothing is absent that the shape requires. -/
theorem exists_project_iff {source : S} :
    (∃ target, project T source = .ok (some target)) ↔
      ∀ twin ∈ (schema T).fields, twin.isRequired = true → shown source twin.name ≠ .null := by
  have decided : (schema T).fault? (shared T source) = none ↔
      ∀ twin ∈ (schema T).fields, twin.isRequired = true → shown source twin.name ≠ .null := by
    rw [relaxes.fault?_shared]
    simp [Value.isNull_iff]
  constructor
  · rintro ⟨target, projected⟩
    exact decided.1 (accepts_of_decode? (ofFields_eq_ok_iff.1 (project_eq_some_iff.1 projected).2))
  · intro complete
    obtain ⟨target, read⟩ := Option.isSome_iff_exists.1 ((isSome_decode?_iff (R := T) _).2 (decided.2 complete))
    obtain ⟨twin, mem, required⟩ := relaxes.demands
    have shares : shared T source ≠ [] := fun empty => complete twin mem required (shared_eq_nil_iff.1 empty twin mem)
    exact ⟨target, project_eq_some_iff.2 ⟨shares, ofFields_eq_ok_iff.2 read⟩⟩

/-- **The shape that comes of a projection is the one that shows what the record shows.** -/
theorem project_eq_some_iff {source : S} {target : T} :
    project T source = .ok (some target) ↔
      ∀ twin ∈ (schema T).fields, shown target twin.name = shown source twin.name := by
  have shows {result : T} (projected : project T source = .ok (some result)) {twin : Field}
      (mem : twin ∈ (schema T).fields) : shown result twin.name = shown source twin.name := by
    rw [shown_of_project relaxes.agree projected mem, preset_of_leftOut relaxes.leftOut]
    exact getD_get?_shared mem
  constructor
  · intro projected twin mem
    exact shows projected mem
  · intro same
    obtain ⟨result, projected⟩ := relaxes.exists_project_iff.2 fun twin mem required =>
      same twin mem ▸ shown_ne_null_of_required target mem required
    have only : result = target := ext_shown fun twin mem => (shows projected mem).trans (same twin mem).symm
    rw [projected, only]

/-- A failure is for want of the first required field that is absent. -/
theorem project_eq_error_iff {source : S} {error : Error} :
    project T source = .error error ↔
      shared T source ≠ [] ∧ ∃ before twin after, (schema T).fields = before ++ twin :: after ∧
        twin.isRequired = true ∧ shown source twin.name = .null ∧
        (∀ earlier ∈ before, earlier.isRequired = true → shown source earlier.name ≠ .null) ∧
        error = .unprojectable (schema S).name (schema T).name
          (.mistyped (schema T).name [.field twin.name] twin.type.describe "nothing") := by
  rw [Record.project_eq_error_iff]
  apply and_congr_right
  intro _
  simp only [Schema.validate_eq_error_iff, relaxes.fault?_shared, Option.map_eq_some_iff, List.find?_eq_some_iff_append,
    Bool.and_eq_true, Value.isNull_iff, Bool.not_eq_true', Bool.and_eq_false_iff, Value.isNull_eq_false_iff,
    or_iff_not_imp_left, Bool.not_eq_false]
  constructor
  · rintro ⟨cause, ⟨fault, ⟨twin, ⟨⟨required, absent⟩, before, after, split, earlier⟩, rfl⟩, rfl⟩, rfl⟩
    exact ⟨before, twin, after, split, required, absent, earlier, rfl⟩
  · rintro ⟨before, twin, after, split, required, absent, earlier, rfl⟩
    exact ⟨_, ⟨_, ⟨twin, ⟨⟨required, absent⟩, before, after, split, earlier⟩, rfl⟩, rfl⟩, rfl⟩

/-- The same assignment to the record and to its shape keeps the two together. -/
theorem project_of_set {source next : S} {target result : T} {name : String} {value : Value}
    (projected : project T source = .ok (some target)) (done : set source name value = .ok next)
    (matched : set target name value = .ok result) : project T next = .ok (some result) := by
  apply relaxes.project_eq_some_iff.2
  intro twin mem
  obtain ⟨field, fieldMem, named, typed⟩ := relaxes.covers twin mem
  have before := relaxes.project_eq_some_iff.1 projected twin mem
  have after := shown_of_set done fieldMem
  rw [named, Field.settle_congr typed] at after
  rw [shown_of_set matched mem, after, before]

/-- What the shape refuses the record may take, but then there is no shape to it. -/
theorem not_project_of_set {source next : S} {target : T} {name : String} {value : Value} {error : Error}
    (declared : (schema T).declares name = true) (done : set source name value = .ok next)
    (refused : set target name value = .error error) (result : T) : project T next ≠ .ok (some result) := by
  intro projected
  obtain ⟨twin, mem, rfl⟩ := Schema.declares_iff_exists.1 declared
  obtain ⟨field, fieldMem, named, -⟩ := relaxes.covers twin mem
  have rejected : (schema T).validateField twin.name value = .error error := by
    rw [← outcome_set target, refused]
    rfl
  -- the record took the value, so it is an absence that the shape does not allow
  have either := relaxes.accepts_of_source mem (ofFields_of_set done).1
  rw [rejected] at either
  have neither : ¬ (value ≠ .null ∨ twin.isRequired = false) := fun fine => nomatch either.2 fine
  rw [not_or, not_not, Bool.not_eq_false] at neither
  obtain ⟨rfl, required⟩ := neither
  apply shown_ne_null_of_required result mem required
  rw [relaxes.project_eq_some_iff.1 projected twin mem, ← named, shown_of_set done fieldMem, if_pos named,
    Field.settle_null]

/-- An assignment in place is matched by the same one to the shape, or by none if the
shape does not declare the field. -/
theorem project_assign {source : S} {target : T} {name : String} {value : Value}
    (projected : project T source = .ok (some target))
    (taken : (schema T).declares name = true → (schema T).validateField name value = .ok ()) :
    project T ((assign name value).run.run source).2 =
      .ok (some (if (schema T).declares name then ((assign name value).run.run target).2 else target)) := by
  cases declared : (schema T).declares name with
  | true =>
    have accepted := taken declared
    obtain ⟨next, done⟩ := exists_set source (relaxes.accepts accepted)
    obtain ⟨result, matched⟩ := exists_set target accepted
    rw [run_assign, run_assign, done, matched]
    exact relaxes.project_of_set projected done matched
  | false =>
    rw [run_assign]
    cases done : set source name value with
    | ok next => exact (project_of_set_undeclared done declared).trans projected
    | error error => exact projected

/-- **A projection is a simulation.** A run of assignments to the record is matched by
a run to the shape of those that the shape declares, provided that it takes them. -/
theorem project_assignEach {source : S} {target : T} (projected : project T source = .ok (some target))
    (steps : List (String × Value))
    (taken : ∀ outcome ∈ ((assignEach (addressed T steps)).run target).1, outcome = .ok ()) :
    project T ((assignEach steps).run source).2 = .ok (some ((assignEach (addressed T steps)).run target).2) := by
  induction steps generalizing source target with
  | nil => exact projected
  | cons step rest ih =>
    obtain ⟨name, value⟩ := step
    have follows (accepted : (schema T).declares name = true → (schema T).validateField name value = .ok ()) :=
      relaxes.project_assign projected accepted
    rw [run_assignEach_cons]
    rw [addressed_cons] at taken ⊢
    cases declared : (schema T).declares name with
    | true =>
      rw [declared, if_pos rfl, run_assignEach_cons] at taken
      rw [List.forall_mem_cons, outcome_assign] at taken
      have first := follows fun _ => taken.1
      rw [declared, if_pos rfl] at first
      rw [if_pos rfl, run_assignEach_cons]
      exact ih first taken.2
    | false =>
      rw [declared, if_neg Bool.false_ne_true] at taken
      have first := follows fun known => absurd known (Bool.eq_false_iff.1 declared)
      rw [declared, if_neg Bool.false_ne_true] at first
      rw [if_neg Bool.false_ne_true]
      exact ih first taken

/-- A map that builds the shape builds the record. The shape of that record shows what
the map gives, and for what the map omits the presets of the record. -/
theorem exists_built {fields : Fields} {shape : T} (built : ofFields fields = .ok shape) :
    ∃ setting : S, ofFields fields = .ok setting ∧ ∀ target : T,
      project T setting = .ok (some target) ↔ ∀ twin ∈ (schema T).fields,
        shown target twin.name = if twin.name ∈ fields.names then shown shape twin.name else preset S twin.name := by
  have accepted := relaxes.fault?_eq_none (accepts_of_decode? (ofFields_eq_ok_iff.1 built))
  obtain ⟨setting, read⟩ := Option.isSome_iff_exists.1 ((isSome_decode?_iff (R := S) _).2 accepted)
  have rebuilt := ofFields_eq_ok_iff.2 read
  refine ⟨setting, rebuilt, fun target => ?_⟩
  rw [relaxes.project_eq_some_iff]
  apply forall₂_congr
  intro twin mem
  obtain ⟨field, fieldMem, named, typed⟩ := relaxes.covers twin mem
  have given := shown_of_ofFields rebuilt fieldMem
  rw [named, Field.settle_congr typed] at given
  rw [given, shown_of_ofFields built mem]
  cases held : fields.get? twin.name with
  | none => rw [if_neg (Fields.get?_eq_none_iff.1 held), Field.settle_none]
  | some value =>
    rw [if_pos (Fields.mem_names_of_get? held)]
    cases value <;> rfl

end Relaxes

end Record

end TrainingJob
