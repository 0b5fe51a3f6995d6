import TrainingJob.Proofs.Record.Assignment
import TrainingJob.Proofs.Schema.Faults
import TrainingJob.Record.Projection

/-!
# Narrowing

Narrowing a record comes down to building the target from the fields that the
two share. There is nothing to build when they share none
(`Record.project_eq_none_iff`). Otherwise the target is built if each shared field
suits it and nothing that it requires is missing (`Record.exists_project_iff`),
and the failure is that of its schema (`Record.project_eq_error_iff`).

Where the target types a shared field as the source does, it shows that field as
the source does, and its own preset for every field that is not shared
(`Record.shown_of_project`).
-/

set_option autoImplicit false

namespace TrainingJob

open Json

/-- The entries of a map without absences are what it reads as. -/
theorem Json.Fields.mem_iff_getD {fields : Fields} (distinct : fields.names.Nodup) (normal : fields.isNormal = true)
    {name : String} {value : Value} :
    (name, value) ∈ fields ↔ value ≠ .null ∧ (fields.get? name).getD .null = value := by
  rw [mem_iff_get? distinct]
  constructor
  · intro held
    rw [held]
    refine ⟨?_, rfl⟩
    rintro rfl
    have present := List.all_eq_true.1 normal _ (mem_of_get? held)
    cases present
  · rintro ⟨present, reads⟩
    cases held : fields.get? name with
    | none =>
      rw [held] at reads
      exact absurd reads.symm present
    | some other =>
      rw [held] at reads
      exact congrArg some reads

/-- What is left out as absent does not come back by taking a part of the entries. -/
theorem Absence.present_filter_entries (absence : Absence) (keep : String × Value → Bool) (entries : Fields) :
    Fields.present ((absence.entries entries).filter keep) = Fields.present (entries.filter keep) := by
  cases absence with
  | asNull => rfl
  | leftOut =>
    show Fields.present (entries.present.filter keep) = _
    simp only [Fields.present, List.filter_filter]
    apply List.filter_congr
    intro entry _
    cases entry.2.isNull <;> simp

namespace Record

variable {S T : Type} [Record S] [Record T]

theorem mem_shared {source : S} {name : String} {value : Value} :
    (name, value) ∈ shared T source ↔
      (name, value) ∈ dump source ∧ (schema T).declares name = true ∧ value ≠ .null := by
  rw [shared, Fields.present, List.mem_filter, List.mem_filter, and_assoc, Bool.not_eq_true',
    Value.isNull_eq_false_iff]

theorem declares_of_mem_shared {source : S} {name : String} (held : name ∈ (shared T source).names) :
    (schema T).declares name = true := by
  obtain ⟨⟨k, v⟩, mem, rfl⟩ := List.mem_map.1 held
  exact (mem_shared.1 mem).2.1

theorem nodup_names_shared (source : S) : (shared T source).names.Nodup := by
  have kept : (shared T source).Sublist (dump source) :=
    List.filter_sublist.trans List.filter_sublist
  exact (kept.map Prod.fst).nodup (nodup_names_dump source)

theorem project_of_shared {source : S} (shares : shared T source ≠ []) :
    project T source =
      match (ofFields (shared T source) : Except Error T) with
      | .ok target => .ok (some target)
      | .error cause => .error (.unprojectable (schema S).name (schema T).name cause) := by
  rw [project]
  split
  · exact absurd ‹_› shares
  · rfl

/-- There is nothing to show for the target exactly when no field is shared. -/
theorem project_eq_none_iff {source : S} : project T source = .ok none ↔ shared T source = [] := by
  constructor
  · intro nothing
    by_contra shares
    rw [project_of_shared shares] at nothing
    split at nothing <;> cases nothing
  · intro empty
    rw [project, empty]
    rfl

theorem project_eq_some_iff {source : S} {target : T} :
    project T source = .ok (some target) ↔ shared T source ≠ [] ∧ ofFields (shared T source) = .ok target := by
  constructor
  · intro projected
    have shares : shared T source ≠ [] := by
      rw [ne_eq, ← project_eq_none_iff, projected]
      exact nofun
    refine ⟨shares, ?_⟩
    rw [project_of_shared shares] at projected
    split at projected
    · cases projected
      assumption
    · cases projected
  · rintro ⟨shares, built⟩
    rw [project_of_shared shares, built]

theorem project_congr {source other : S} (same : shared T source = shared T other) :
    project T source = project T other := by
  unfold project
  rw [same]

/-- For a field of the target, what is shared reads as the source does. -/
theorem getD_get?_shared {source : S} {twin : Field} (mem : twin ∈ (schema T).fields) :
    ((shared T source).get? twin.name).getD .null = shown source twin.name := by
  have normal : (shared T source).isNormal = true := Fields.isNormal_present _
  by_cases present : shown source twin.name = .null
  · rw [present]
    cases held : (shared T source).get? twin.name with
    | none => rfl
    | some value =>
      obtain ⟨inDump, -, notNull⟩ := mem_shared.1 (Fields.mem_of_get? held)
      exact absurd ((shown_of_mem_dump inDump).symm.trans present) notNull
  · have inShared := mem_shared.2 ⟨mem_dump_of_shown present, Schema.declares_of_mem mem, present⟩
    exact ((Fields.mem_iff_getD (nodup_names_shared source) normal).1 inShared).2

/-- Nothing is shared when the source shows nothing for the fields of the target. -/
theorem shared_eq_nil_iff {source : S} :
    shared T source = [] ↔ ∀ twin ∈ (schema T).fields, shown source twin.name = .null := by
  constructor
  · intro empty twin mem
    rw [← getD_get?_shared mem, empty]
    rfl
  · intro absent
    apply List.eq_nil_iff_forall_not_mem.2
    rintro ⟨name, value⟩ mem
    obtain ⟨inDump, declared, present⟩ := mem_shared.1 mem
    obtain ⟨twin, twinMem, rfl⟩ := Schema.declares_iff_exists.1 declared
    apply present
    exact (shown_of_mem_dump inDump).symm.trans (absent twin twinMem)

/-- What is shared depends only on what the source shows for the fields of the target. -/
theorem shared_congr [Lawful S] {source other : S}
    (same : ∀ field ∈ (schema S).fields, (schema T).declares field.name = true →
      shown source field.name = shown other field.name) : shared T source = shared T other := by
  unfold shared
  rw [dump_eq_shown source, dump_eq_shown other, Absence.present_filter_entries, Absence.present_filter_entries,
    List.filter_map, List.filter_map]
  congr 1
  apply List.map_congr_left
  intro field mem
  obtain ⟨fieldMem, declared⟩ := List.mem_filter.1 mem
  rw [same field fieldMem declared]

/-- An assignment to a field that the target does not declare leaves the projection alone. -/
theorem project_of_set_undeclared [Lawful S] {source next : S} {name : String} {value : Value}
    (done : set source name value = .ok next) (undeclared : (schema T).declares name = false) :
    project T next = project T source := by
  apply project_congr
  apply shared_congr
  intro field mem declared
  have other : field.name ≠ name := by
    rintro rfl
    rw [undeclared] at declared
    cases declared
  rw [shown_of_set done mem, if_neg other]

/-- What refuses a projection is a fault below a field that the target declares. -/
theorem path_of_rejected {source : S} {cause : Error} (rejected : (schema T).validate (shared T source) = .error cause) :
    ∃ name ∈ (schema T).fieldNames, ∃ rest, cause.path = some (.field name :: rest) := by
  obtain ⟨fault, found, rfl⟩ := Schema.validate_eq_error_iff.1 rejected
  rw [Fault.path_toError]
  rcases Schema.location_of_fault? found with ⟨name, unknown, -⟩ | ⟨name, mem, rest, stands⟩
  · obtain ⟨held, undeclared⟩ := Schema.of_undeclared?_eq_some unknown
    rw [declares_of_mem_shared held] at undeclared
    cases undeclared
  · exact ⟨name, mem, rest, by rw [stands]⟩

/-- Two sorts of records agree when they type a shared name alike wherever some
value suits both. -/
def Agree (S T : Type) [Record S] [Record T] : Prop :=
  ∀ field ∈ (schema S).fields, ∀ twin ∈ (schema T).fields, twin.name = field.name →
    ∀ value, field.type.fault? value = none → twin.type.fault? value = none → twin.type = field.type

variable [Lawful T]

/-- A projection fails with the verdict of the target's schema on the shared fields. -/
theorem project_eq_error_iff {source : S} {error : Error} :
    project T source = .error error ↔
      shared T source ≠ [] ∧ ∃ cause, (schema T).validate (shared T source) = .error cause ∧
        error = .unprojectable (schema S).name (schema T).name cause := by
  constructor
  · intro failed
    have shares : shared T source ≠ [] := by
      rw [ne_eq, ← project_eq_none_iff, failed]
      exact nofun
    refine ⟨shares, ?_⟩
    rw [project_of_shared shares] at failed
    split at failed
    · cases failed
    · rename_i cause rejected
      cases failed
      exact ⟨cause, ofFields_eq_error_iff.1 rejected, rfl⟩
  · rintro ⟨shares, cause, rejected, rfl⟩
    rw [project_of_shared shares, ofFields_eq_error_iff.2 rejected]

/-- With something shared, the target is built exactly if every shared field suits
it and every field that it requires is shared. -/
theorem exists_project_iff {source : S} (shares : shared T source ≠ []) :
    (∃ target : T, project T source = .ok (some target)) ↔
      (∀ entry ∈ shared T source, (schema T).validateField entry.1 entry.2 = .ok ()) ∧
        ∀ field ∈ (schema T).fields, field.isRequired = true → field.name ∈ (shared T source).names := by
  rw [← Schema.fault?_eq_none_iff_entries nodup_fieldNames (nodup_names_shared source), ← isSome_decode?_iff (R := T),
    Option.isSome_iff_exists]
  refine exists_congr fun target => ?_
  rw [project_eq_some_iff, ofFields_eq_ok_iff]
  exact ⟨fun both => both.2, fun read => ⟨shares, read⟩⟩

/-- What a dump holds is in the normal form of the field that declares it. -/
theorem tidy_of_mem_dump [Lawful S] {source : S} {name : String} {value : Value} (mem : (name, value) ∈ dump source)
    (present : value ≠ .null) :
    ∃ field ∈ (schema S).fields, field.name = name ∧ field.type.fault? value = none ∧
      field.type.tidy value = value := by
  have declared := declares_of_mem_dump (List.mem_map.2 ⟨_, mem, rfl⟩)
  obtain ⟨field, fieldMem, rfl⟩ := Schema.declares_iff_exists.1 declared
  have held := (Fields.mem_iff_get? (nodup_names_dump source)).1 mem
  have content := (Schema.fault?_eq_none_iff.1 (fault?_dump source)).2 field fieldMem
  rw [held, Field.fault?_of_present present] at content
  have settled := shown_eq_settle source fieldMem
  rw [shown, held, Field.settle_of_present present] at settled
  exact ⟨field, fieldMem, rfl, content, settled.symm⟩

/-- **The target shows what is shared as the source does**, and its presets for the rest. -/
theorem shown_of_project [Lawful S] (agree : Agree S T) {source : S} {target : T}
    (projected : project T source = .ok (some target)) {twin : Field} (twinMem : twin ∈ (schema T).fields) :
    shown target twin.name = ((shared T source).get? twin.name).getD (preset T twin.name) := by
  have built := (project_eq_some_iff.1 projected).2
  have accepted := accepts_of_decode? (ofFields_eq_ok_iff.1 built)
  rw [shown_of_ofFields built twinMem]
  cases held : (shared T source).get? twin.name with
  | none => rfl
  | some value =>
    obtain ⟨inDump, -, present⟩ := mem_shared.1 (Fields.mem_of_get? held)
    obtain ⟨field, mem, named, fits, tidied⟩ := tidy_of_mem_dump inDump present
    have content := (Schema.fault?_eq_none_iff.1 accepted).2 twin twinMem
    rw [held, Field.fault?_of_present present] at content
    rw [Field.settle_of_present present, agree field mem twin twinMem named.symm value fits content, tidied]
    rfl

/-- A shape shows exactly what is shared, in its own order. -/
theorem dump_perm_shared [Lawful S] (agree : Agree S T) (leftOut : absence T = .leftOut) {source : S} {target : T}
    (projected : project T source = .ok (some target)) : (dump target).Perm (shared T source) := by
  have normal : (dump target).isNormal = true := by
    rw [dump_eq_entries, leftOut]
    exact Fields.isNormal_present _
  have normalShared : (shared T source).isNormal = true := Fields.isNormal_present _
  -- distinct names and no absences: each map is known by what it reads as under a name
  have distinct := nodup_names_dump target
  have distinctShared := nodup_names_shared (T := T) source
  refine (List.perm_ext_iff_of_nodup distinct.of_map distinctShared.of_map).2 fun entry => ?_
  obtain ⟨name, value⟩ := entry
  rw [Fields.mem_iff_getD distinct normal, Fields.mem_iff_getD distinctShared normalShared]
  suffices same : ((dump target).get? name).getD .null = ((shared T source).get? name).getD .null by rw [same]
  cases declared : (schema T).declares name with
  | true =>
    obtain ⟨twin, mem, rfl⟩ := Schema.declares_iff_exists.1 declared
    have shows := shown_of_project agree projected mem
    rw [preset_of_leftOut leftOut] at shows
    exact shows
  | false =>
    have notShown : (dump target).get? name = none := by
      refine Fields.get?_eq_none_iff.2 fun held => ?_
      rw [declares_of_mem_dump held] at declared
      cases declared
    have notShared : (shared T source).get? name = none := by
      refine Fields.get?_eq_none_iff.2 fun held => ?_
      rw [declares_of_mem_shared held] at declared
      cases declared
    rw [notShown, notShared]

end Record

end TrainingJob
