import SymbolExport.Proofs.RowErrors

/-! # What the two formats share

Both formats are made from the same records, so they fail together and tally alike. The legacy rows
can even be told from the full rows alone: the records come in groups, the groups keep their order,
and the tag and the kind in a full row say what becomes of it.
-/

namespace SymbolExport

/-! ## Legacy rows from full rows -/

namespace Row

def tagged (tag : String) (row : Row) : Bool :=
  row.head? = some tag

/-- The legacy row of a full row that tells of a class of a kind. -/
def ofClass? (kind : String) : Row → Option Row
  | tag :: name :: own :: _ => if tag = "class" ∧ own = kind then some [kind, name, ""] else none
  | _ => none

end Row

/-- The legacy rows that full rows stand for: the functions, the classes, the interfaces, the
variables and the constants. -/
def legacyOfFull (rows : List Row) : List Row :=
  (rows.filter (Row.tagged "function")).map (· ++ [""]) ++
    rows.filterMap (Row.ofClass? "class") ++
    rows.filterMap (Row.ofClass? "interface") ++
    rows.filter (Row.tagged "variable") ++
    rows.filter (Row.tagged "constant")

namespace Record

def ofClass : Record → Bool
  | .classLike _ => true
  | .method _ => true
  | .member _ => true
  | _ => false

end Record

/-- Records in the order of an enumeration: functions, classes with their members, variables,
constants. -/
def Grouped (records : List Record) : Prop :=
  ∃ (functions : List FunctionRecord) (classes : List Record) (vars : List VariableRecord)
    (constants : List ConstantRecord),
    (∀ record ∈ classes, record.ofClass) ∧
      records = functions.map .function ++ classes ++ vars.map .var ++ constants.map .const

/-! ## The groups of an enumeration -/

theorem cutOff_none (records : List Record) : cutOff records none = records.map .ok := by
  simp [cutOff]

theorem error_cutOff {e : ExportError} {records : List Record} {failure : Option ExportError}
    (h : [.error e] = cutOff records failure) : records = [] := by
  cases records with
  | nil => rfl
  | cons record records => simp [cutOff] at h

/-- Records at the front of what is cut off are the first of its records. -/
theorem cutOff_split {first records : List Record} {back : List Item}
    {failure : Option ExportError} (h : first.map .ok ++ back = cutOff records failure) :
    ∃ others : List Record, records = first ++ others ∧ back = cutOff others failure := by
  induction first generalizing records with
  | nil => exact ⟨records, rfl, h⟩
  | cons record first ih =>
      cases records with
      | nil => cases failure <;> simp [cutOff] at h
      | cons other records =>
          have parts : (.ok record : Item) :: (first.map .ok ++ back) =
              .ok other :: cutOff records failure := h
          have same : record = other := by simpa using (List.cons.inj parts).1
          obtain ⟨others, rest, behind⟩ := ih (List.cons.inj parts).2
          exact ⟨others, by rw [same, rest]; rfl, behind⟩

namespace Reflector

theorem constantItems_grouped {r : Reflector} {records : List Record}
    {failure : Option ExportError} (h : r.constantItems = cutOff records failure) :
    ∃ constants : List ConstantRecord, records = constants.map .const := by
  unfold constantItems at h
  split at h
  · exact ⟨[], error_cutOff h⟩
  · rename_i constants _
    have front : (constants.map (·.record)).map .ok ++ [] = cutOff records failure := by
      simpa [Function.comp_def] using h
    obtain ⟨others, rfl, behind⟩ := cutOff_split front
    have none : others = [] := by
      cases others with
      | nil => rfl
      | cons record others => simp [cutOff] at behind
    refine ⟨constants.map fun d => { name := d.name, value := d.value }, ?_⟩
    simp [none, ConstantDescriptor.record]

theorem variableItems_grouped {r : Reflector} {captured : List VariableDescriptor}
    {records : List Record} {failure : Option ExportError}
    (h : r.variableItems captured = cutOff records failure) :
    ∃ (vars : List VariableRecord) (constants : List ConstantRecord),
      records = vars.map .var ++ constants.map .const := by
  have front : (captured.map (·.record)).map .ok ++ r.constantItems = cutOff records failure := by
    simpa [variableItems, Function.comp_def] using h
  obtain ⟨others, rfl, behind⟩ := cutOff_split front
  obtain ⟨constants, rfl⟩ := constantItems_grouped behind
  refine ⟨captured.map fun d => { name := d.name, value := d.value }, constants, ?_⟩
  simp [VariableDescriptor.record]

theorem ofClass_of_mem_records {d : ClassDescriptor} {name : String} {record : Record}
    (h : record ∈ d.records name) : record.ofClass := by
  simp only [ClassDescriptor.records, ClassDescriptor.memberRecords, List.mem_cons,
    List.mem_append, List.mem_map] at h
  rcases h with rfl | ⟨m, _, rfl⟩ | ⟨p, _, rfl⟩ <;> rfl

/-- Behind the records of classes comes what stands behind the classes, unless one of them failed. -/
theorem classItems_grouped {r : Reflector} {behind : List Item} {names : List String}
    {records : List Record} {failure : Option ExportError}
    (h : r.classItems behind names = cutOff records failure) :
    ∃ classes others : List Record, (∀ record ∈ classes, record.ofClass) ∧
      records = classes ++ others ∧ (others = [] ∨ behind = cutOff others failure) := by
  induction names generalizing records with
  | nil => exact ⟨[], records, by simp, rfl, .inr h⟩
  | cons name names ih =>
      unfold classItems at h
      split at h
      · exact ⟨[], [], by simp, error_cutOff h, .inl rfl⟩
      · rename_i d _
        obtain ⟨later, rfl, back⟩ := cutOff_split h
        obtain ⟨classes, others, parts, rfl, rest⟩ := ih back
        refine ⟨d.records name ++ classes, others, ?_, by simp, rest⟩
        intro record member
        rcases List.mem_append.mp member with here | there
        · exact ofClass_of_mem_records here
        · exact parts record there

/-- The records in front of a failure, or all of them, come in groups. -/
theorem items_grouped {r : Reflector} {records : List Record} {failure : Option ExportError}
    (h : r.items = cutOff records failure) : Grouped records := by
  have nothing : Grouped [] := ⟨[], [], [], [], by simp, rfl⟩
  unfold items at h
  split at h
  · rw [error_cutOff h]
    exact nothing
  rename_i captured _
  unfold functionItems at h
  split at h
  · rw [error_cutOff h]
    exact nothing
  rename_i names _
  let functions : List FunctionRecord := names.map fun name => { name }
  have front : (functions.map Record.function).map .ok ++ r.declaredItems captured =
      cutOff records failure := by
    rw [List.map_map, List.map_map]
    exact h
  obtain ⟨behind, rfl, back⟩ := cutOff_split front
  unfold declaredItems at back
  split at back
  · rw [error_cutOff back]
    exact ⟨functions, [], [], [], by simp, by simp⟩
  obtain ⟨classes, values, parts, rfl, rest⟩ := classItems_grouped back
  rcases rest with rfl | rest
  · exact ⟨functions, classes, [], [], parts, by simp⟩
  · obtain ⟨vars, constants, rfl⟩ := variableItems_grouped rest
    exact ⟨functions, classes, vars, constants, parts, by simp⟩

theorem collect_grouped {r : Reflector} {records : List Record}
    (h : r.collect = .ok records) : Grouped records :=
  items_grouped ((collect_eq_ok_iff.mp h).trans (cutOff_none records).symm)

end Reflector

/-! ## Legacy rows of grouped records -/

/-- Records as they stand in a source without pauses. -/
def sourceOf (records : List Record) : Source :=
  records.map fun record => some (.ok record)

theorem sourceOf_append (records others : List Record) :
    sourceOf (records ++ others) = sourceOf records ++ sourceOf others :=
  List.map_append

theorem inOnePass_functions (queue : List Row) (functions : List FunctionRecord) (rest : Source) :
    inOnePass queue (sourceOf (functions.map .function) ++ rest) =
      shown (functions.map fun f => ["function", f.name, ""]) ++ inOnePass queue rest := by
  induction functions with
  | nil => rfl
  | cons f functions ih =>
      have head : sourceOf ((f :: functions).map .function) ++ rest =
          some (.ok (.function f)) :: (sourceOf (functions.map .function) ++ rest) := rfl
      rw [head, inOnePass, ih]
      simp [Record.legacyRow?, Record.isInterface, Record.isValue]

/-- Plain classes come out in place while interfaces queue, and the full rows tell which is which. -/
theorem inOnePass_classes (queue : List Row) {classes : List Record}
    (h : ∀ record ∈ classes, record.ofClass) (rest : Source) :
    inOnePass queue (sourceOf classes ++ rest) =
      shown ((classes.map Record.fields).filterMap (Row.ofClass? "class")) ++
        inOnePass (queue ++ (classes.map Record.fields).filterMap (Row.ofClass? "interface")) rest := by
  induction classes generalizing queue with
  | nil => simp [sourceOf]
  | cons record classes ih =>
      have part := h record List.mem_cons_self
      have others := fun queue => ih queue fun r member => h r (List.mem_cons_of_mem _ member)
      have head : sourceOf (record :: classes) ++ rest =
          some (.ok record) :: (sourceOf classes ++ rest) := rfl
      rw [head, inOnePass]
      cases record with
      | function r => simp [Record.ofClass] at part
      | var r => simp [Record.ofClass] at part
      | const r => simp [Record.ofClass] at part
      | method r =>
          simp [Record.legacyRow?, Record.isInterface, Record.isValue, others, Row.ofClass?,
            Record.fields, Record.tag]
      | member r =>
          simp [Record.legacyRow?, Record.isInterface, Record.isValue, others, Row.ofClass?,
            Record.fields, Record.tag]
      | classLike r =>
          obtain ⟨name, kind⟩ := r
          cases kind <;>
            simp [Record.legacyRow?, Record.isInterface, Record.isValue, others, Row.ofClass?,
              Record.fields, Record.tag, ClassKind.text]

theorem shown_legacyRow_of_isValue {record : Record} (h : record.isValue) :
    shown record.legacyRow?.toList = shown [record.fields] := by
  cases record <;> simp_all [Record.isValue, Record.legacyRow?, Record.fields, Record.tag]

theorem inPlace_values {values : List Record} (h : ∀ record ∈ values, record.isValue) :
    inPlace (sourceOf values) = shown (values.map Record.fields) := by
  induction values with
  | nil => rfl
  | cons record values ih =>
      have value := h record List.mem_cons_self
      have head : sourceOf (record :: values) = some (.ok record) :: sourceOf values := rfl
      rw [head, inPlace_cons, shownInPlace, shown_legacyRow_of_isValue value,
        ih fun r member => h r (List.mem_cons_of_mem _ member)]
      rfl

/-- The rows held back come out in front of the values, whether there are values or not. -/
theorem inOnePass_values (queue : List Row) {values : List Record}
    (h : ∀ record ∈ values, record.isValue) :
    inOnePass queue (sourceOf values) = shown queue ++ shown (values.map Record.fields) := by
  induction values with
  | nil => simp [sourceOf, inOnePass]
  | cons record values ih =>
      have value := h record List.mem_cons_self
      have others : ∀ r ∈ values, r.isValue := fun r member => h r (List.mem_cons_of_mem _ member)
      have plain : record.isInterface = false := by
        cases record <;> simp_all [Record.isValue, Record.isInterface]
      have head : sourceOf (record :: values) = some (.ok record) :: sourceOf values := rfl
      rw [head, inOnePass, plain]
      simp only [Bool.false_eq_true, if_false, value, true_and]
      split
      · rw [shown_legacyRow_of_isValue value, inPlace_values others]
        simp
      · rename_i empty
        rw [shown_legacyRow_of_isValue value, ih others, Decidable.not_not.mp empty]
        simp

@[simp] theorem ClassKind.text_inj {a b : ClassKind} : a.text = b.text ↔ a = b := by
  cases a <;> cases b <;> simp [text]

theorem tagged_fields (tag : String) (record : Record) :
    Row.tagged tag record.fields = decide (record.tag = tag) := by
  simp [Row.tagged, Record.fields]

/-- Rows of records that all have the same tag are selected by that tag, all or none. -/
theorem filter_tagged {records : List Record} {own : String} (h : ∀ record ∈ records, record.tag = own)
    (tag : String) :
    (records.map Record.fields).filter (Row.tagged tag) =
      if own = tag then records.map Record.fields else [] := by
  split
  · rename_i same
    rw [List.filter_eq_self]
    simpa [tagged_fields, ← same] using h
  · rename_i differ
    rw [List.filter_eq_nil_iff]
    intro row member
    obtain ⟨record, here, rfl⟩ := List.mem_map.mp member
    rw [tagged_fields, h record here]
    simpa using differ

theorem filter_tagged_classes {classes : List Record} (h : ∀ record ∈ classes, record.ofClass)
    {tag : String} (other : tag ∉ ["class", "method", "member"]) :
    (classes.map Record.fields).filter (Row.tagged tag) = [] := by
  rw [List.filter_eq_nil_iff]
  intro row member
  obtain ⟨record, here, rfl⟩ := List.mem_map.mp member
  have part := h record here
  rw [tagged_fields]
  rintro same
  apply other
  rw [← of_decide_eq_true same]
  cases record <;> simp_all [Record.ofClass, Record.tag]

/-- Only classes have a kind. -/
theorem filterMap_ofClass_eq_nil {records : List Record}
    (h : ∀ record ∈ records, record.tag ≠ "class") (kind : String) :
    (records.map Record.fields).filterMap (Row.ofClass? kind) = [] := by
  rw [List.filterMap_eq_nil_iff]
  intro row member
  obtain ⟨record, here, rfl⟩ := List.mem_map.mp member
  have tag := h record here
  cases record <;> simp_all [Row.ofClass?, Record.fields, Record.tag]

/-- What grouped records stand for, group by group. -/
theorem legacyOfFull_groups (functions : List FunctionRecord) {classes : List Record}
    (parts : ∀ record ∈ classes, record.ofClass) (vars : List VariableRecord)
    (constants : List ConstantRecord) :
    legacyOfFull ((functions.map Record.function ++ classes ++ vars.map Record.var ++
        constants.map Record.const).map Record.fields) =
      functions.map (fun f => ["function", f.name, ""]) ++
        (classes.map Record.fields).filterMap (Row.ofClass? "class") ++
        (classes.map Record.fields).filterMap (Row.ofClass? "interface") ++
        (vars.map Record.var ++ constants.map Record.const).map Record.fields := by
  have function : ∀ record ∈ functions.map Record.function, record.tag = "function" := by
    simp [Record.tag]
  have var : ∀ record ∈ vars.map Record.var, record.tag = "variable" := by
    simp [Record.tag]
  have const : ∀ record ∈ constants.map Record.const, record.tag = "constant" := by
    simp [Record.tag]
  have kinds : ∀ kind : String,
      ((functions.map Record.function).map Record.fields).filterMap (Row.ofClass? kind) = [] ∧
      ((vars.map Record.var).map Record.fields).filterMap (Row.ofClass? kind) = [] ∧
      ((constants.map Record.const).map Record.fields).filterMap (Row.ofClass? kind) = [] := by
    intro kind
    exact ⟨filterMap_ofClass_eq_nil (by simp [Record.tag]) kind,
      filterMap_ofClass_eq_nil (by simp [Record.tag]) kind,
      filterMap_ofClass_eq_nil (by simp [Record.tag]) kind⟩
  simp only [legacyOfFull, List.map_append, List.filter_append, List.filterMap_append,
    filter_tagged function, filter_tagged var, filter_tagged const, kinds]
  rw [filter_tagged_classes parts (by decide), filter_tagged_classes parts (by decide),
    filter_tagged_classes parts (by decide)]
  simp [Record.fields, Record.tag]

/-- The legacy rows of grouped records are those that their full rows stand for. -/
theorem legacy_rowsInOrder {records : List Record} (h : Grouped records) :
    rowsInOrder .legacy (records.map .ok) =
      (legacyOfFull (records.map Record.fields)).map .ok := by
  obtain ⟨functions, classes, vars, constants, parts, rfl⟩ := h
  have values : ∀ record ∈ vars.map Record.var ++ constants.map Record.const, record.isValue := by
    intro record member
    rcases List.mem_append.mp member with here | here <;>
      (obtain ⟨r, _, rfl⟩ := List.mem_map.mp here; rfl)
  rw [legacyOfFull_groups functions parts vars constants, rowsInOrder, List.map_map]
  change (inOnePass [] (sourceOf _)).filterMap id = _
  rw [List.append_assoc, sourceOf_append, sourceOf_append, List.append_assoc, inOnePass_functions,
    inOnePass_classes [] parts, List.nil_append, inOnePass_values _ values, ← shown_append,
    ← shown_append, ← shown_append, filterMap_shown]
  simp only [List.append_assoc]

theorem full_rowsInOrder (records : List Record) :
    rowsInOrder .full (records.map .ok) = (records.map Record.fields).map .ok := by
  simp only [rowsInOrder, List.map_map]
  rfl

theorem Reflector.rowItems_full {r : Reflector} {records : List Record}
    (all : r.collect = .ok records) :
    rowItems .full r.enumerate.1 = (records.map Record.fields).map .ok := by
  rw [rowItems_eq_rowsInOrder, enumerate_items, collect_eq_ok_iff.mp all, full_rowsInOrder]

theorem Reflector.rowItems_legacy {r : Reflector} {records : List Record}
    (all : r.collect = .ok records) :
    rowItems .legacy r.enumerate.1 = (legacyOfFull (records.map Record.fields)).map .ok := by
  rw [rowItems_eq_rowsInOrder, enumerate_items, collect_eq_ok_iff.mp all,
    legacy_rowsInOrder (collect_grouped all)]

theorem RecordCounts.total_foldl (records : List Record) (c : RecordCounts) :
    (records.foldl RecordCounts.add c).total = c.total + records.length := by
  induction records generalizing c with
  | nil => rfl
  | cons record records ih =>
      rw [List.foldl_cons, ih, RecordCounts.total_add, List.length_cons]
      omega

theorem RecordCounts.total_ofRecords (records : List Record) :
    (RecordCounts.ofRecords records).total = records.length := by
  rw [RecordCounts.ofRecords, RecordCounts.total_foldl]
  exact Nat.zero_add _

namespace Reflector

/-- Without a limit both formats fail with the error of the runtime, or both succeed. Then they tally
the records that are collected, and the legacy rows are those that the full rows stand for. -/
theorem formats_agree (r : Reflector) (times later : Times) :
    let full := r.exportTo .full times {}
    let legacy := r.exportTo .legacy later {}
    (∃ e, r.collect = .error e ∧ full.1 = .error e ∧ legacy.1 = .error e) ∨
    ∃ (records : List Record) (rows : List Row) (summary other : ExportSummary),
      r.collect = .ok records ∧ full.1 = .ok summary ∧ legacy.1 = .ok other ∧
      summary.records = .ofRecords records ∧ other.records = .ofRecords records ∧
      rowItems .full r.enumerate.1 = rows.map .ok ∧
      rowItems .legacy r.enumerate.1 = (legacyOfFull rows).map .ok ∧
      summary.rowsWritten = rows.length ∧ summary.rowsWritten = summary.records.total ∧
      other.rowsWritten = (legacyOfFull rows).length ∧
      full.2.received = rowsText rows ∧ legacy.2.received = rowsText (legacyOfFull rows) := by
  intro full legacy
  cases collected : r.collect with
  | error e =>
      left
      exact ⟨e, rfl, exportTo_unlimited_of_failure collected .full times,
        exportTo_unlimited_of_failure collected .legacy later⟩
  | ok records =>
      right
      have whole := collect_eq_ok_iff.mp collected
      have fullItems : rowItems .full r.enumerate.1 = (records.map Record.fields).map .ok := by
        rw [rowItems_eq_rowsInOrder, enumerate_items, whole, full_rowsInOrder]
      have legacyItems : rowItems .legacy r.enumerate.1 =
          (legacyOfFull (records.map Record.fields)).map .ok := by
        rw [rowItems_eq_rowsInOrder, enumerate_items, whole,
          legacy_rowsInOrder (collect_grouped collected)]
      obtain ⟨sink, done, received⟩ := exportTo_unlimited_of_complete collected .full times
      obtain ⟨other, doneToo, receivedToo⟩ := exportTo_unlimited_of_complete collected .legacy later
      rw [writtenRows, fullItems, rowsBefore_map_ok] at done received
      rw [writtenRows, legacyItems, rowsBefore_map_ok] at doneToo receivedToo
      refine ⟨records, records.map Record.fields, _, _, rfl, congrArg Prod.fst done,
        congrArg Prod.fst doneToo, rfl, rfl, fullItems, legacyItems, ?_, ?_, ?_, ?_, ?_⟩
      · simp [summaryOf]
      · simp [summaryOf, RecordCounts.total_ofRecords]
      · simp [summaryOf]
      · rw [show full = _ from done]
        exact received
      · rw [show legacy = _ from doneToo]
        exact receivedToo

end Reflector

end SymbolExport
