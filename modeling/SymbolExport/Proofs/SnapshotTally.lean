import Mathlib.Data.List.Nodup
import SymbolExport.Proofs.ExportCommand
import SymbolExport.Proofs.TwoFormats

/-! # The tally of a snapshot

A snapshot counts its descriptors as they stand in its lists. An export lists the names, asks for each
of them again and tallies the records that come of it. Both agree because no class name occurs twice:
one more class adds the same to either count, whatever its flags say. The counts of a snapshot also tell
how many rows each format has.
-/

namespace SymbolExport

/-! ## Distinct names -/

theorem nodup_of_firstRepeated {seen names : List String} (h : firstRepeated seen names = none) :
    names.Nodup ∧ ∀ name ∈ names, name ∉ seen := by
  induction names generalizing seen with
  | nil => exact ⟨.nil, List.forall_mem_nil _⟩
  | cons name names ih =>
      by_cases repeated : name ∈ seen
      · simp [firstRepeated, repeated] at h
      · rw [firstRepeated, if_neg repeated] at h
        obtain ⟨distinct, fresh⟩ := ih h
        constructor
        · rw [List.nodup_cons]
          exact ⟨fun again => fresh name again List.mem_cons_self, distinct⟩
        · rw [List.forall_mem_cons]
          exact ⟨repeated, fun other member before =>
            fresh other member (List.mem_cons_of_mem _ before)⟩

namespace RuntimeSnapshot

theorem nodup_of_validate {s : RuntimeSnapshot} (valid : s.validate = .ok ()) :
    (s.classes.map (·.name)).Nodup := by
  unfold validate at valid
  cases found : firstRepeated [] (s.classes.map (·.name)) with
  | none => exact (nodup_of_firstRepeated found).1
  | some name => simp [found] at valid

theorem findClass?_of_mem {s : RuntimeSnapshot} (distinct : (s.classes.map (·.name)).Nodup)
    {d : ClassDescriptor} (h : d ∈ s.classes) : s.findClass? d.name = some d := by
  cases found : s.findClass? d.name with
  | none =>
      have never := List.find?_eq_none.mp found d h
      simp at never
  | some first =>
      have member := List.mem_of_find?_eq_some found
      have name : first.name = d.name := by simpa using List.find?_some found
      rw [List.inj_on_of_nodup_map distinct member h name]

theorem records_of_nodup {s : RuntimeSnapshot} (distinct : (s.classes.map (·.name)).Nodup) :
    s.records = s.functions.map (fun name => .function { name }) ++
      (s.classes.flatMap fun d => d.records d.name) ++
      s.vars.map (·.record) ++ s.constants.map (·.record) := by
  have own : (s.classes.flatMap fun d => ((s.findClass? d.name).getD d).records d.name) =
      s.classes.flatMap fun d => d.records d.name := by
    apply List.flatMap_congr
    intro d member
    rw [findClass?_of_mem distinct member, Option.getD_some]
  rw [records, own]

end RuntimeSnapshot

/-! ## Counting records -/

/-- Records of one kind add as many to the tally as they are. -/
theorem RecordCounts.foldl_add_map {α : Type} (record : α → Record)
    (grow : Nat → RecordCounts → RecordCounts) (none : ∀ c, grow 0 c = c)
    (more : ∀ n c a, (grow n c).add (record a) = grow (n + 1) c) (l : List α) (c : RecordCounts) :
    (l.map record).foldl add c = grow l.length c := by
  have run : ∀ n, (l.map record).foldl add (grow n c) = grow (n + l.length) c := by
    induction l with
    | nil => simp
    | cons a l ih =>
        intro n
        rw [List.map_cons, List.foldl_cons, more, ih, List.length_cons]
        congr 1
        omega
  simpa [none] using run 0

namespace SnapshotCounts

/-- The tally of as many records; interfaces and traits are tallied as classes. -/
def tally (c : SnapshotCounts) : RecordCounts where
  functions := c.functions
  classes := c.classes + c.interfaces + c.traits
  methods := c.methods
  properties := c.properties
  vars := c.vars
  constants := c.constants

def rows (c : SnapshotCounts) : RowFormat → Nat
  | .full => c.functions + c.classes + c.interfaces + c.traits + c.methods + c.properties +
      c.vars + c.constants
  | .legacy => c.functions + c.classes + c.interfaces + c.vars + c.constants

def ofKind (c : SnapshotCounts) : ClassKind → Nat
  | .plain => c.classes
  | .interface => c.interfaces
  | .trait => c.traits

/-- The flags of a class put it with the classes of its kind; members are counted for every kind. -/
theorem add_eq (c : SnapshotCounts) (d : ClassDescriptor) :
    c.add d =
      let c := { c with
        methods := c.methods + d.methods.length
        properties := c.properties + d.properties.length }
      match ClassKind.ofFlags d.isInterface d.isTrait with
      | .interface => { c with interfaces := c.interfaces + 1 }
      | .trait => { c with traits := c.traits + 1 }
      | .plain => { c with classes := c.classes + 1 } := by
  unfold add ClassKind.ofFlags
  cases d.isInterface with
  | true => rfl
  | false => cases d.isTrait <;> rfl

theorem total_tally (c : SnapshotCounts) : c.tally.total = c.rows .full := by
  simp only [RecordCounts.total, tally, rows]
  omega

/-- The records of a class add to the tally what its descriptor adds to the counts. -/
theorem tally_add (c : SnapshotCounts) (d : ClassDescriptor) (name : String) :
    (d.records name).foldl RecordCounts.add c.tally = (c.add d).tally := by
  have methods := RecordCounts.foldl_add_map (fun m : MethodDescriptor => .method (m.record name))
    (fun n c => { c with methods := c.methods + n }) (fun _ => rfl) (fun _ _ _ => rfl) d.methods
  have properties := RecordCounts.foldl_add_map
    (fun p : PropertyDescriptor => .member (p.record name))
    (fun n c => { c with properties := c.properties + n }) (fun _ => rfl) (fun _ _ _ => rfl)
    d.properties
  rw [ClassDescriptor.records, List.foldl_cons, ClassDescriptor.memberRecords, List.foldl_append,
    methods, properties]
  simp only [RecordCounts.add, tally, add_eq]
  cases ClassKind.ofFlags d.isInterface d.isTrait <;>
    simp only [RecordCounts.mk.injEq, true_and, and_true] <;> omega

theorem tally_foldl (classes : List ClassDescriptor) (c : SnapshotCounts) :
    (classes.flatMap fun d => d.records d.name).foldl RecordCounts.add c.tally =
      (classes.foldl add c).tally := by
  induction classes generalizing c with
  | nil => rfl
  | cons d classes ih =>
      rw [List.flatMap_cons, List.foldl_append, tally_add, ih, List.foldl_cons]

/-- Classes leave the other counts as they are, and do not depend on them. -/
theorem foldl_add_frame (classes : List ClassDescriptor) (c : SnapshotCounts)
    (functions vars constants : Nat) :
    classes.foldl add { c with functions, vars, constants } =
      { classes.foldl add c with functions, vars, constants } := by
  induction classes generalizing c with
  | nil => rfl
  | cons d classes ih =>
      have step : ({ c with functions, vars, constants } : SnapshotCounts).add d =
          { c.add d with functions, vars, constants } := by
        simp only [add_eq]
        cases ClassKind.ofFlags d.isInterface d.isTrait <;> rfl
      rw [List.foldl_cons, List.foldl_cons, step, ih]

theorem ofKind_add (c : SnapshotCounts) (d : ClassDescriptor) (kind : ClassKind) :
    (c.add d).ofKind kind =
      c.ofKind kind + if ClassKind.ofFlags d.isInterface d.isTrait = kind then 1 else 0 := by
  simp only [add_eq]
  cases ClassKind.ofFlags d.isInterface d.isTrait <;> cases kind <;> simp [ofKind]

/-- A class of a kind has one row in the full format that tells of it, and its members have none. -/
theorem ofClass_records (d : ClassDescriptor) (name : String) (kind : ClassKind) :
    (((d.records name).map Record.fields).filterMap (Row.ofClass? kind.text)).length =
      if ClassKind.ofFlags d.isInterface d.isTrait = kind then 1 else 0 := by
  have members : ∀ record ∈ d.memberRecords name, record.tag ≠ "class" := by
    intro record member
    rcases List.mem_append.mp member with method | property
    · obtain ⟨m, _, rfl⟩ := List.mem_map.mp method
      simp [Record.tag]
    · obtain ⟨p, _, rfl⟩ := List.mem_map.mp property
      simp [Record.tag]
  rw [ClassDescriptor.records, List.map_cons, List.filterMap_cons,
    filterMap_ofClass_eq_nil members]
  by_cases same : ClassKind.ofFlags d.isInterface d.isTrait = kind <;>
    simp [Record.fields, Record.tag, ClassDescriptor.record, Row.ofClass?, same]

theorem ofKind_foldl (classes : List ClassDescriptor) (c : SnapshotCounts) (kind : ClassKind) :
    (classes.foldl add c).ofKind kind = c.ofKind kind +
      (((classes.flatMap fun d => d.records d.name).map Record.fields).filterMap
        (Row.ofClass? kind.text)).length := by
  induction classes generalizing c with
  | nil => rfl
  | cons d classes ih =>
      rw [List.foldl_cons, ih, ofKind_add, List.flatMap_cons, List.map_append,
        List.filterMap_append, List.length_append, ofClass_records, Nat.add_assoc]

end SnapshotCounts

namespace RuntimeSnapshot

theorem counts_eq (s : RuntimeSnapshot) :
    s.counts =
      { s.classes.foldl SnapshotCounts.add {} with
        functions := s.functions.length
        vars := s.vars.length
        constants := s.constants.length } :=
  SnapshotCounts.foldl_add_frame s.classes {} s.functions.length s.vars.length s.constants.length

theorem tally_records {s : RuntimeSnapshot} (distinct : (s.classes.map (·.name)).Nodup) :
    RecordCounts.ofRecords s.records = s.counts.tally := by
  -- Classes are added to counts that have only functions so far.
  let c : SnapshotCounts := { functions := s.functions.length }
  have functions : (s.functions.map fun name => Record.function { name }).foldl
      RecordCounts.add {} = c.tally := by
    rw [RecordCounts.foldl_add_map _ (fun n c => { c with functions := c.functions + n })
      (fun _ => rfl) (fun _ _ _ => rfl)]
    simp [SnapshotCounts.tally, c]
  have classes : s.classes.foldl SnapshotCounts.add c =
      { s.classes.foldl SnapshotCounts.add {} with
        functions := s.functions.length
        vars := 0
        constants := 0 } :=
    SnapshotCounts.foldl_add_frame s.classes {} s.functions.length 0 0
  have vars := RecordCounts.foldl_add_map (fun d : VariableDescriptor => d.record)
    (fun n c => { c with vars := c.vars + n }) (fun _ => rfl) (fun _ _ _ => rfl) s.vars
  have constants := RecordCounts.foldl_add_map (fun d : ConstantDescriptor => d.record)
    (fun n c => { c with constants := c.constants + n }) (fun _ => rfl) (fun _ _ _ => rfl)
    s.constants
  rw [records_of_nodup distinct, RecordCounts.ofRecords, List.foldl_append, List.foldl_append,
    List.foldl_append, functions, SnapshotCounts.tally_foldl, classes, vars, constants, counts_eq]
  simp [SnapshotCounts.tally]

theorem length_ofClass (s : RuntimeSnapshot) (kind : ClassKind) :
    (((s.classes.flatMap fun d => d.records d.name).map Record.fields).filterMap
      (Row.ofClass? kind.text)).length = s.counts.ofKind kind := by
  have count := SnapshotCounts.ofKind_foldl s.classes
    { functions := s.functions.length, vars := s.vars.length, constants := s.constants.length } kind
  rw [← counts] at count
  rw [count]
  cases kind <;> simp [SnapshotCounts.ofKind]

theorem length_legacyOfFull {s : RuntimeSnapshot} (distinct : (s.classes.map (·.name)).Nodup) :
    (legacyOfFull (s.records.map Record.fields)).length = s.counts.rows .legacy := by
  have parts : ∀ record ∈ s.classes.flatMap (fun d => d.records d.name), record.ofClass := by
    intro record member
    obtain ⟨d, _, own⟩ := List.mem_flatMap.mp member
    exact Reflector.ofClass_of_mem_records own
  have groups := legacyOfFull_groups (s.functions.map fun name => { name }) parts
    (s.vars.map fun d => { name := d.name, value := d.value })
    (s.constants.map fun d => { name := d.name, value := d.value })
  have classes := s.length_ofClass .plain
  have interfaces := s.length_ofClass .interface
  simp only [ClassKind.text, SnapshotCounts.ofKind] at classes interfaces
  have records : s.records =
      (s.functions.map fun name => { name }).map Record.function ++
        (s.classes.flatMap fun d => d.records d.name) ++
        (s.vars.map fun d => { name := d.name, value := d.value }).map Record.var ++
        (s.constants.map fun d => { name := d.name, value := d.value }).map Record.const := by
    rw [records_of_nodup distinct, List.map_map, List.map_map, List.map_map]
    rfl
  rw [records, groups]
  simp only [List.length_append, List.length_map, classes, interfaces, SnapshotCounts.rows,
    counts_eq]
  omega

/-- Exporting a valid snapshot into a sink without limit succeeds, and what it reports can be told
from the counts of the snapshot. -/
theorem export_matches_counts {s : RuntimeSnapshot} (valid : s.validate = .ok ())
    (format : RowFormat) (times : Times) {sink : Csv.Sink} (unlimited : sink.room = none) :
    ∃ summary after, s.reflector.exportTo format times sink = (.ok summary, after) ∧
      summary.records = s.counts.tally ∧ summary.rowsWritten = s.counts.rows format := by
  have distinct := nodup_of_validate valid
  have collected := s.collect_reflector
  obtain ⟨after, done, _⟩ := Reflector.exportTo_of_room collected format times
    (Csv.Sink.admits_of_unlimited unlimited _)
  refine ⟨_, after, done, tally_records distinct, ?_⟩
  change (s.reflector.writtenRows format).length = _
  rw [Reflector.writtenRows, List.length_map]
  cases format with
  | full =>
      rw [Reflector.rowItems_full collected, rowsBefore_map_ok, List.length_map,
        ← RecordCounts.total_ofRecords, tally_records distinct, SnapshotCounts.total_tally]
  | legacy =>
      rw [Reflector.rowItems_legacy collected, rowsBefore_map_ok, length_legacyOfFull distinct]

/-- A class, an interface that also calls itself a trait, and a trait. -/
theorem export_matches_counts_of_three_kinds :
    let s : RuntimeSnapshot :=
      { functions := ["strlen"]
        classes := [{ name := "A", methods := [{ name := "run" }] },
          { name := "I", isInterface := true, isTrait := true },
          { name := "T", isTrait := true, properties := [{ name := "x" }] }]
        vars := [{ name := "v" }]
        constants := [{ name := "MAX", value := .int 10 }] }
    let times : Times := { started := "", finished := "" }
    s.validate = .ok () ∧
      ∃ summary after, s.reflector.exportTo .legacy times {} = (.ok summary, after) ∧
        summary.records =
          { functions := 1, classes := 3, methods := 1, properties := 1, vars := 1, constants := 1 } ∧
        summary.rowsWritten = 5 := by
  intro s times
  have valid : s.validate = .ok () := rfl
  exact ⟨valid, export_matches_counts valid .legacy times rfl⟩

end RuntimeSnapshot

end SymbolExport
