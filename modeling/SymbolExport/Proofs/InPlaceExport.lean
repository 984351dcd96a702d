import SymbolExport.Proofs.ExportCommand
import SymbolExport.Proofs.TwoFormats

/-! # Exports in place

An export in place empties its file first and then lets it grow, so the old content is gone whatever
happens later. When a question fails, the rows in front of the error are still handed over whole.
Only rows of interfaces can be missing from them: those that were read but had no variable or
constant behind them yet to let them out.
-/

namespace SymbolExport

/-! ## Rows in front of an error -/

/-- The legacy rows of the records that are selected. -/
def legacyRowsOf (selected : Record → Bool) (records : List Record) : List Row :=
  (records.filter selected).filterMap Record.legacyRow?

def Record.isPlain (record : Record) : Bool :=
  !record.isInterface && !record.isValue

/-- The rows that are read but not let out when an error comes behind records. -/
def heldBack : RowFormat → List Record → List Row
  | .full, _ => []
  | .legacy, records =>
      if records.any Record.isValue then [] else legacyRowsOf Record.isInterface records

/-- The rows of records that come out before the end or the error behind them. -/
def rowsInFront (records : List Record) (failure : Option ExportError) : RowFormat → List Row
  | .full => records.map Record.fields
  | .legacy =>
      let released := failure.isNone || records.any Record.isValue
      legacyRowsOf Record.isPlain records ++
        (if released then legacyRowsOf Record.isInterface records else []) ++
        legacyRowsOf Record.isValue records

theorem legacyRowsOf_append (selected : Record → Bool) (records others : List Record) :
    legacyRowsOf selected (records ++ others) =
      legacyRowsOf selected records ++ legacyRowsOf selected others := by
  simp [legacyRowsOf]

theorem legacyRowsOf_cons (selected : Record → Bool) (record : Record) (records : List Record) :
    legacyRowsOf selected (record :: records) =
      (if selected record then record.legacyRow?.toList else []) ++ legacyRowsOf selected records := by
  by_cases here : selected record
  · cases row : record.legacyRow? <;> simp [legacyRowsOf, here, row]
  · simp [legacyRowsOf, here]

theorem legacyRowsOf_eq_nil {selected : Record → Bool} {records : List Record}
    (h : ∀ record ∈ records, selected record = false) : legacyRowsOf selected records = [] := by
  have none : records.filter selected = [] := by
    rw [List.filter_eq_nil_iff]
    intro record member
    simp [h record member]
  rw [legacyRowsOf, none]
  rfl

/-- Without variables and constants the rows of interfaces queue and all others come out in place. -/
theorem inOnePass_valueless (queue : List Row) {records : List Record}
    (h : ∀ record ∈ records, record.isValue = false) (rest : Source) :
    inOnePass queue (sourceOf records ++ rest) =
      shown (legacyRowsOf Record.isPlain records) ++
        inOnePass (queue ++ legacyRowsOf Record.isInterface records) rest := by
  induction records generalizing queue with
  | nil => simp [sourceOf, legacyRowsOf]
  | cons record records ih =>
      have plain := h record List.mem_cons_self
      have others := fun queue => ih queue fun r member => h r (List.mem_cons_of_mem _ member)
      have head : sourceOf (record :: records) ++ rest =
          some (.ok record) :: (sourceOf records ++ rest) := rfl
      rw [head, inOnePass, legacyRowsOf_cons, legacyRowsOf_cons]
      by_cases iface : record.isInterface
      · simp [Record.isPlain, iface, others]
      · simp [Record.isPlain, iface, plain, others]

theorem inPlace_sourceOf (records : List Record) (rest : Source) :
    inPlace (sourceOf records ++ rest) =
      shown (records.filterMap Record.legacyRow?) ++ inPlace rest := by
  induction records with
  | nil => rfl
  | cons record records ih =>
      have head : inPlace (sourceOf (record :: records) ++ rest) =
          shown record.legacyRow?.toList ++ inPlace (sourceOf records ++ rest) := rfl
      rw [head, ih]
      cases row : record.legacyRow? <;> simp [row]

/-- Without interfaces nothing is ever held back. -/
theorem inOnePass_of_no_interface {records : List Record}
    (h : ∀ record ∈ records, record.isInterface = false) (e : ExportError) :
    inOnePass [] (sourceOf records ++ [some (.error e)]) =
      inPlace (sourceOf records ++ [some (.error e)]) := by
  induction records with
  | nil => rfl
  | cons record records ih =>
      have plain := h record List.mem_cons_self
      have others := ih fun r member => h r (List.mem_cons_of_mem _ member)
      have head : sourceOf (record :: records) ++ [some (.error e)] =
          some (.ok record) :: (sourceOf records ++ [some (.error e)]) := rfl
      rw [head, inOnePass, plain, inPlace_cons, others]
      simp [shownInPlace]

theorem isInterface_of_isValue {record : Record} (h : record.isValue = true) :
    record.isInterface = false := by
  cases record <;> simp_all [Record.isValue, Record.isInterface]

/-- The first value lets out all rows that queue, and behind the values an error stands in place. -/
theorem inOnePass_values_error (queue : List Row) {values : List Record}
    (h : ∀ record ∈ values, record.isValue = true) (e : ExportError) :
    inOnePass queue (sourceOf values ++ [some (.error e)]) =
      if values = [] then some (.error e) :: shown queue
      else shown (queue ++ legacyRowsOf Record.isValue values) ++ [some (.error e)] := by
  have unheld : ∀ record ∈ values, record.isInterface = false := fun record member =>
    isInterface_of_isValue (h record member)
  have all : legacyRowsOf Record.isValue values = values.filterMap Record.legacyRow? := by
    rw [legacyRowsOf, List.filter_eq_self.mpr h]
  have direct := inPlace_sourceOf values [some (.error e)]
  cases values with
  | nil => rfl
  | cons record values =>
      have value := h record List.mem_cons_self
      have head : sourceOf (record :: values) ++ [some (.error e)] =
          some (.ok record) :: (sourceOf values ++ [some (.error e)]) := rfl
      rw [if_neg (List.cons_ne_nil record values), all]
      by_cases empty : queue = []
      · rw [empty, inOnePass_of_no_interface unheld, direct]
        rfl
      · rw [head, inPlace_cons, shownInPlace] at direct
        rw [head, inOnePass, unheld record List.mem_cons_self]
        simp only [Bool.false_eq_true, if_false, value, true_and, ne_eq, empty, not_false_eq_true,
          if_true, shown_append, List.append_assoc]
        rw [direct]
        rfl

/-- The records of an enumeration: first those that are no values, then the values. -/
theorem Grouped.split {records : List Record} (h : Grouped records) :
    ∃ front values : List Record, records = front ++ values ∧
      (∀ record ∈ front, record.isValue = false) ∧ ∀ record ∈ values, record.isValue = true := by
  obtain ⟨functions, classes, vars, constants, parts, rfl⟩ := h
  refine ⟨functions.map .function ++ classes, vars.map .var ++ constants.map .const, ?_, ?_, ?_⟩
  · simp only [List.append_assoc]
  · intro record member
    rcases List.mem_append.mp member with here | here
    · obtain ⟨f, _, rfl⟩ := List.mem_map.mp here
      rfl
    · have part := parts record here
      cases record <;> simp_all [Record.ofClass, Record.isValue]
  · intro record member
    rcases List.mem_append.mp member with here | here <;>
      (obtain ⟨d, _, rfl⟩ := List.mem_map.mp here; rfl)

theorem any_isValue_append {front values : List Record}
    (unvalued : ∀ record ∈ front, record.isValue = false)
    (valued : ∀ record ∈ values, record.isValue = true) :
    (front ++ values).any Record.isValue = decide (values ≠ []) := by
  have none : front.any Record.isValue = false := by simpa using unvalued
  cases values with
  | nil => simpa using unvalued
  | cons record values => simp [none, valued record List.mem_cons_self]

section

variable {front values : List Record} (unvalued : ∀ record ∈ front, record.isValue = false)
  (valued : ∀ record ∈ values, record.isValue = true)

include unvalued valued

/-- Each part of the records has its own rows. -/
theorem legacyRowsOf_parts :
    legacyRowsOf Record.isPlain (front ++ values) = legacyRowsOf Record.isPlain front ∧
      legacyRowsOf Record.isInterface (front ++ values) = legacyRowsOf Record.isInterface front ∧
      legacyRowsOf Record.isValue (front ++ values) = legacyRowsOf Record.isValue values := by
  have noPlain : legacyRowsOf Record.isPlain values = [] := legacyRowsOf_eq_nil fun record member => by
    simp [Record.isPlain, valued record member]
  have noInterface : legacyRowsOf Record.isInterface values = [] :=
    legacyRowsOf_eq_nil fun record member => isInterface_of_isValue (valued record member)
  have noValue : legacyRowsOf Record.isValue front = [] := legacyRowsOf_eq_nil unvalued
  simp [legacyRowsOf_append, noPlain, noInterface, noValue]

/-- What the legacy format makes of records with an error behind them. -/
theorem inOnePass_cut (e : ExportError) :
    inOnePass [] (sourceOf (front ++ values) ++ [some (.error e)]) =
      shown (rowsInFront (front ++ values) (some e) .legacy) ++
        some (.error e) :: shown (heldBack .legacy (front ++ values)) := by
  obtain ⟨plain, interfaces, ownValues⟩ := legacyRowsOf_parts unvalued valued
  rw [rowsInFront, heldBack, plain, interfaces, ownValues, any_isValue_append unvalued valued,
    sourceOf_append, List.append_assoc, inOnePass_valueless [] unvalued,
    inOnePass_values_error _ valued]
  by_cases empty : values = []
  · simp [empty, legacyRowsOf]
  · simp [empty]

theorem inOnePass_whole :
    inOnePass [] (sourceOf (front ++ values)) =
      shown (rowsInFront (front ++ values) none .legacy) := by
  obtain ⟨plain, interfaces, ownValues⟩ := legacyRowsOf_parts unvalued valued
  have rows : shown (values.map Record.fields) = shown (legacyRowsOf Record.isValue values) := by
    rw [← inPlace_values valued, legacyRowsOf, List.filter_eq_self.mpr valued]
    simpa using inPlace_sourceOf values []
  rw [rowsInFront, plain, interfaces, ownValues, sourceOf_append, inOnePass_valueless [] unvalued,
    inOnePass_values _ valued, rows]
  simp

end

/-- Records with an error behind them: the rows in front, the error, and what it left behind. -/
theorem rowsInOrder_cut {records : List Record} (grouped : Grouped records) (e : ExportError)
    (format : RowFormat) :
    rowsInOrder format (cutOff records (some e)) =
      (rowsInFront records (some e) format).map .ok ++
        .error e :: (heldBack format records).map .ok := by
  cases format with
  | full =>
      simp only [rowsInOrder, cutOff, rowsInFront, heldBack, List.map_append, List.map_map]
      rfl
  | legacy =>
      obtain ⟨front, values, rfl, unvalued, valued⟩ := grouped.split
      have source : (cutOff (front ++ values) (some e)).map some =
          sourceOf (front ++ values) ++ [some (.error e)] := by
        simp [cutOff, sourceOf, Function.comp_def]
      have behind : (some (.error e) :: shown (heldBack .legacy (front ++ values))).filterMap id =
          .error e :: (heldBack .legacy (front ++ values)).map .ok := by
        rw [← filterMap_shown]
        rfl
      rw [rowsInOrder, source, inOnePass_cut unvalued valued, List.filterMap_append, filterMap_shown,
        behind]

theorem rowsInOrder_whole {records : List Record} (grouped : Grouped records) (format : RowFormat) :
    rowsInOrder format (records.map .ok) = (rowsInFront records none format).map .ok := by
  cases format with
  | full => exact full_rowsInOrder records
  | legacy =>
      obtain ⟨front, values, rfl, unvalued, valued⟩ := grouped.split
      have source : ((front ++ values).map Except.ok : List Item).map some =
          sourceOf (front ++ values) := by
        simp [sourceOf, Function.comp_def]
      rw [rowsInOrder, source, inOnePass_whole unvalued valued, filterMap_shown]

theorem rowsBefore_append_error (rows : List Row) (e : ExportError) (rest : List RowItem) :
    rowsBefore (rows.map .ok ++ .error e :: rest) = rows := by
  induction rows with
  | nil => rfl
  | cons row rows ih => exact congrArg (row :: ·) ih

namespace Reflector

/-- The rows of a runtime that come out before its error, or all of them. -/
def rowsOut (r : Reflector) (format : RowFormat) : List Row :=
  rowsInFront (recordsOf r.items) r.failure? format

theorem recordsOf_cutOff (records : List Record) (failure : Option ExportError) :
    recordsOf (cutOff records failure) = records := by
  cases failure with
  | none => simp [recordsOf, cutOff, List.filterMap_map]
  | some e => simp [recordsOf, cutOff, List.filterMap_append, List.filterMap_map]

theorem rowItems_of_failure {r : Reflector} {e : ExportError} (failed : r.collect = .error e)
    (format : RowFormat) :
    rowItems format r.enumerate.1 =
      (r.rowsOut format).map .ok ++ .error e :: (heldBack format (recordsOf r.items)).map .ok := by
  obtain ⟨records, failure, shape⟩ := r.items_endsAtError
  have same : failure = some e := by
    have collected := failed
    rw [collect, enumerate_items, shape, mapM_cutOff] at collected
    cases failure with
    | none => simp at collected
    | some other => simpa using collected
  rw [rowsOut, failure?_eq_some_iff.mpr failed, rowItems_eq_rowsInOrder, enumerate_items, shape,
    recordsOf_cutOff, same, rowsInOrder_cut (items_grouped shape)]

theorem rowItems_of_success {r : Reflector} {records : List Record} (all : r.collect = .ok records)
    (format : RowFormat) : rowItems format r.enumerate.1 = (r.rowsOut format).map .ok := by
  have whole : r.items = records.map .ok := collect_eq_ok_iff.mp all
  have none : r.failure? = none := by simp [failure?, all]
  rw [rowsOut, none, rowItems_eq_rowsInOrder, enumerate_items, whole, ← cutOff_none,
    recordsOf_cutOff, cutOff_none, rowsInOrder_whole (collect_grouped all)]

/-- What is written for the rows that come out reaches the sink, with an error behind them or not. -/
theorem received_unlimited (r : Reflector) (format : RowFormat) (times : Times) :
    (r.exportTo format times {}).2.received = rowsText (r.rowsOut format) := by
  have room : ({} : Csv.Sink).Admits (Csv.encodeRows (r.writtenRows format)).length :=
    Csv.Sink.admits_of_unlimited rfl _
  obtain ⟨v, w, written, _, flushed, received⟩ := writeAll_of_room room
  have text : Csv.encodeRows (r.writtenRows format) = rowsText (r.rowsOut format) := by
    rw [writtenRows, rowsText]
    cases collected : r.collect with
    | error e => rw [rowItems_of_failure collected, rowsBefore_append_error]
    | ok records => rw [rowItems_of_success collected, rowsBefore_map_ok]
  have whole : w.sink.received = rowsText (r.rowsOut format) := by
    rw [received, text]
    rfl
  cases collected : r.collect with
  | error e =>
      have kept : v.abandon = w.sink := by rw [Csv.Writer.abandon, flushed]
      rw [exportTo_of_failure collected written, kept, whole]
  | ok records => rw [exportTo_of_flushed collected written flushed, whole]

/-! ## Whole runs -/

/-- Without faults of the disk an export in place ends with the error of the runtime, if it has one. -/
theorem exportSynced_undisturbed {s : Setting} (unlimited : s.room = none)
    (kept : s.refusals.sync = none) (r : Reflector) (format : RowFormat) :
    r.exportSynced s format = r.exportTo format s.times {} := by
  rw [exportSynced, unlimited, kept]
  split
  · rename_i failed
    exact failed.symm
  · rename_i done
    exact done.symm

theorem exportToPath_inPlace {s : Setting} {path : String} {target : Location}
    (unlimited : s.room = none) (kept : s.refusals.sync = none) (r : Reflector) (format : RowFormat)
    (created : s.createAt path = .ok target) :
    let run := r.exportToPath s path { format, atomic := false }
    let inner := r.exportTo format s.times {}
    run.toFileWork = { changes := writing target inner.2 } ∧
      (∀ e, inner.1 = .error e → run.outcome = .error e) ∧
      ∀ summary, inner.1 = .ok summary →
        run.outcome = .ok { summary with output := some path } := by
  simp only [exportToPath, exportInPlace, created, exportSynced_undisturbed unlimited kept,
    Bool.false_eq_true, if_false]
  split
  · rename_i failed
    simp [failed]
  · rename_i done
    simp [done]

/-- An export in place that cannot create its file changes nothing. Otherwise it touches no other
place, the old content is gone with the first change, and in the end the file holds the rows in front
of the first error and nothing else: all rows if the export succeeds, and without those held back if
it fails. -/
theorem in_place_export_keeps_rows_in_front (r : Reflector) (s : Setting) (path : String)
    (format : RowFormat) (unlimited : s.room = none) (kept : s.refusals.sync = none) :
    let run := r.exportToPath s path { format, atomic := false }
    let states := Effect.states s.tree run.effects
    let after := Effect.applyAll s.tree run.effects
    let records := recordsOf r.items
    let rows := rowsInFront records r.failure? format
    (∀ fault, s.createAt path = .error fault →
      run.outcome = .error (.io (.os fault)) ∧ run.effects = []) ∧
    ∀ target, s.createAt path = .ok target →
      (∀ t ∈ states, ∀ loc, loc ≠ target → t.get? loc = s.tree.get? loc) ∧
      (∀ t ∈ states.tail, ∃ part, part <+: rowsText rows ∧ t.get? target = some (.file part)) ∧
      after.get? target = some (.file (rowsText rows)) ∧
      after.find s.cwd path = .ok (.file (rowsText rows)) ∧
      (∀ e, r.collect = .error e → run.outcome = .error e ∧
        rowItems format r.enumerate.1 =
          rows.map .ok ++ .error e :: (heldBack format records).map .ok) ∧
      ∀ collected, r.collect = .ok collected →
        rowItems format r.enumerate.1 = rows.map .ok ∧
        ∃ summary, run.outcome = .ok summary ∧ summary.output = some path ∧
          summary.rowsWritten = rows.length := by
  intro run states after records rows
  constructor
  · intro fault refused
    simp [run, exportToPath, exportInPlace, refused, FileWork.effects]
  intro target created
  obtain ⟨work, failing, succeeding⟩ := exportToPath_inPlace unlimited kept r format created
  have effects : run.effects = writing target (r.exportTo format s.times {}).2 := by
    rw [show run.toFileWork = _ from work, FileWork.effects_of_unheld rfl]
  have received : (r.exportTo format s.times {}).2.received = rowsText rows :=
    r.received_unlimited format s.times
  have place : target ≠ [] := by
    obtain ⟨dir, name, _, _, ends⟩ := Tree.creationTarget_ok (Setting.createAt_ok created)
    simp [ends]
  have elsewhere : ∀ t ∈ states, ∀ loc, loc ≠ target → t.get? loc = s.tree.get? loc := by
    intro t member loc away
    dsimp only [states] at member
    rw [effects] at member
    exact get?_states_writing member away
  have there : after.get? target = some (.file (rowsText rows)) := by
    dsimp only [after]
    rw [effects, get?_writing s.tree place, received]
  refine ⟨elsewhere, ?_, there, ?_, ?_, ?_⟩
  · intro t member
    dsimp only [states] at member
    rw [effects] at member
    rw [← received]
    exact get?_states_written place member
  · exact Tree.find_created (Setting.createAt_ok created) there
      (elsewhere after (Effect.applyAll_mem_states s.tree run.effects))
  · intro e failed
    exact ⟨failing e (exportTo_unlimited_of_failure failed format s.times),
      rowItems_of_failure failed format⟩
  · intro collected all
    have items := rowItems_of_success all format
    obtain ⟨sink, done, _⟩ := exportTo_unlimited_of_complete all format s.times
    refine ⟨items, _, succeeding _ (congrArg Prod.fst done), rfl, ?_⟩
    rw [writtenRows, items, rowsBefore_map_ok]
    simp [summaryOf, rowsOut, rows, records]

/-- A class that vanishes leaves the function and the class in front of it, and the interface that
was read before it is missing. -/
theorem in_place_export_of_vanished_class :
    let s : Setting :=
      { tree := { entries := [(["w"], .directory), (["w", "out.csv"], .file [0x31, 0x0A])] }
        cwd := ["w"]
        tempName := ".tmpA1b2C3"
        times := { started := "", finished := "" } }
    let r : Reflector :=
      ({ functions := ["strlen"], declared := ["I", "A", "Ghost"]
         classes := [("A", { name := "A" }), ("I", { name := "I", isInterface := true })]
         vars := [{ name := "x", value := .null }] } : Script).reflector
    let run := r.exportToPath s "out.csv" { format := .legacy, atomic := false }
    s.room = none ∧ s.refusals.sync = none ∧ run.outcome = .error (.vanished "Ghost") ∧
      heldBack .legacy (recordsOf r.items) = [["interface", "I", ""]] ∧
      (Effect.applyAll s.tree run.effects).find s.cwd "out.csv" =
        .ok (.file (Bytes.ofString "function,strlen,\nclass,A,\n")) := by
  intro s r run
  have created : s.createAt "out.csv" = .ok ["w", "out.csv"] := by
    dsimp only [s]
    rfl
  have failed : r.collect = .error (.vanished "Ghost") := by
    rw [collect, enumerate_items]
    rfl
  have rows : rowsInFront (recordsOf r.items) r.failure? .legacy =
      [["function", "strlen", ""], ["class", "A", ""]] := by
    rw [failure?_eq_some_iff.mpr failed]
    rfl
  have text : rowsText [["function", "strlen", ""], ["class", "A", ""]] =
      Bytes.ofString "function,strlen,\nclass,A,\n" := by
    decide
  obtain ⟨_, _, _, leads, failing, _⟩ :=
    (in_place_export_keeps_rows_in_front r s "out.csv" .legacy rfl rfl).2 _ created
  refine ⟨rfl, rfl, (failing _ failed).1, rfl, ?_⟩
  rw [← text, ← rows]
  exact leads

end Reflector

end SymbolExport
