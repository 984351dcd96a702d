import SymbolExport.Proofs.ExportText

/-! # Rows in front of an error

An export writes the rows in front of the first error and then stops. In both formats that error is
the one with which the enumeration ends, and the rows in front of it are all rows if there is none.
-/

namespace SymbolExport

/-- The rows in front of the first error. -/
def rowsBefore : List RowItem → List Row
  | .ok row :: rest => row :: rowsBefore rest
  | _ => []

def firstError : List RowItem → Option ExportError
  | [] => none
  | .ok _ :: rest => firstError rest
  | .error e :: _ => some e

def Reflector.failure? (r : Reflector) : Option ExportError :=
  match r.collect with
  | .ok _ => none
  | .error e => some e

@[simp] theorem rowsBefore_map_ok (rows : List Row) : rowsBefore (rows.map .ok) = rows := by
  induction rows with
  | nil => rfl
  | cons row rows ih => simp [rowsBefore, ih]

theorem firstError_append_ok (rows : List Row) (rest : List RowItem) :
    firstError (rows.map .ok ++ rest) = firstError rest := by
  induction rows with
  | nil => rfl
  | cons row rows ih => simpa [firstError] using ih

theorem eq_map_rowsBefore {items : List RowItem} (h : firstError items = none) :
    items = (rowsBefore items).map .ok := by
  induction items with
  | nil => rfl
  | cons item items ih =>
      cases item with
      | error e => simp [firstError] at h
      | ok row =>
          rw [rowsBefore, List.map_cons, ← ih h]

/-! ## Writing up to the error -/

/-- Writing stops at a row that cannot be written or else at the first error. -/
theorem Csv.Writer.writeRows_eq (w : Csv.Writer) (items : List RowItem) :
    w.writeRows items =
      match w.writeAll ((rowsBefore items).map fun row => row.map Bytes.ofString) with
      | (.error fault, v) => (.error (.csv fault), v)
      | (.ok (), v) =>
          match firstError items with
          | some e => (.error e, v)
          | none => (.ok (), v) := by
  induction items generalizing w with
  | nil => rfl
  | cons item items ih =>
      cases item with
      | error e => rfl
      | ok row =>
          simp only [writeRows, rowsBefore, firstError, List.map_cons, writeAll]
          rcases w.writeRow (row.map Bytes.ofString) with ⟨_ | _, v⟩
          · rfl
          · exact ih v

/-! ## The error of both formats -/

theorem filterMap_shown (rows : List Row) : (shown rows).filterMap id = rows.map .ok := by
  rw [shown, List.filterMap_map]
  exact congrFun List.filterMap_eq_map rows

theorem firstError_shown_append (rows : List Row) (outcomes : List (Option RowItem)) :
    firstError ((shown rows ++ outcomes).filterMap id) = firstError (outcomes.filterMap id) := by
  rw [List.filterMap_append, filterMap_shown, firstError_append_ok]

theorem firstError_inPlace (records : List Record) (failure : Option ExportError) :
    firstError ((inPlace ((cutOff records failure).map some)).filterMap id) = failure := by
  induction records with
  | nil => cases failure <;> rfl
  | cons record records ih =>
      have head : (cutOff (record :: records) failure).map some =
          some (.ok record) :: (cutOff records failure).map some := rfl
      rw [head, inPlace_cons, shownInPlace, firstError_shown_append, ih]

theorem firstError_inOnePass (queue : List Row) (records : List Record)
    (failure : Option ExportError) :
    firstError ((inOnePass queue ((cutOff records failure).map some)).filterMap id) = failure := by
  induction records generalizing queue with
  | nil =>
      cases failure with
      | some e => rfl
      | none =>
          have all := firstError_shown_append queue []
          rw [List.append_nil] at all
          exact all
  | cons record records ih =>
      have head : (cutOff (record :: records) failure).map some =
          some (.ok record) :: (cutOff records failure).map some := rfl
      rw [head, inOnePass]
      split
      · exact ih _
      · split
        · rw [List.append_assoc, firstError_shown_append, firstError_shown_append,
            firstError_inPlace]
        · rw [firstError_shown_append, ih]

theorem firstError_rowsInOrder (format : RowFormat) (records : List Record)
    (failure : Option ExportError) :
    firstError (rowsInOrder format (cutOff records failure)) = failure := by
  cases format with
  | legacy => exact firstError_inOnePass [] records failure
  | full =>
      induction records with
      | nil => cases failure <;> rfl
      | cons record records ih => exact ih

namespace Reflector

/-- The first error among the rows of a runtime is the one that ends its enumeration. -/
theorem firstError_rowItems (r : Reflector) (format : RowFormat) :
    firstError (rowItems format r.enumerate.1) = r.failure? := by
  obtain ⟨records, failure, shape⟩ := r.items_endsAtError
  rw [rowItems_eq_rowsInOrder, failure?, collect, enumerate_items, shape, mapM_cutOff,
    firstError_rowsInOrder]
  cases failure <;> rfl

theorem failure?_eq_some_iff {r : Reflector} {e : ExportError} :
    r.failure? = some e ↔ r.collect = .error e := by
  unfold failure?
  cases r.collect <;> simp

/-- All records are collected exactly if they are all there is. -/
theorem collect_eq_ok_iff {r : Reflector} {records : List Record} :
    r.collect = .ok records ↔ r.items = records.map .ok := by
  obtain ⟨front, failure, shape⟩ := r.items_endsAtError
  rw [collect, enumerate_items, shape, mapM_cutOff]
  cases failure with
  | none =>
      simp only [cutOff, Option.toList_none, List.map_nil, List.append_nil, Except.ok.injEq]
      exact (List.map_inj_right (by simp)).symm
  | some e =>
      simp only [reduceCtorEq, false_iff]
      intro same
      have member : (.error e : Item) ∈ records.map .ok := by
        rw [← same]
        simp [cutOff]
      simp at member

/-- Without an error the rows in front of it are all rows. -/
theorem rowItems_of_complete {r : Reflector} {records : List Record} (all : r.collect = .ok records)
    (format : RowFormat) :
    rowItems format r.enumerate.1 = (rowsBefore (rowItems format r.enumerate.1)).map .ok := by
  apply eq_map_rowsBefore
  rw [firstError_rowItems]
  simp [failure?, all]

/-! ## The outcome of an export -/

section

variable {r : Reflector} {format : RowFormat} {times : Times} {sink : Csv.Sink} {v w : Csv.Writer}

/-- What is written for the rows of a runtime in front of the first error. -/
def writtenRows (r : Reflector) (format : RowFormat) : List (List Bytes) :=
  (rowsBefore (rowItems format r.enumerate.1)).map fun row => row.map Bytes.ofString

theorem exportTo_of_refused {fault : IoFault}
    (written : ({ sink } : Csv.Writer).writeAll (r.writtenRows format) = (.error fault, v)) :
    r.exportTo format times sink = (.error (.csv fault), v.abandon) := by
  have stops := Csv.Writer.writeRows_eq { sink } (rowItems format r.enumerate.1)
  rw [← writtenRows, written] at stops
  simp only [exportTo, stops]

theorem exportTo_of_failure {e : ExportError} (failed : r.collect = .error e)
    (written : ({ sink } : Csv.Writer).writeAll (r.writtenRows format) = (.ok (), v)) :
    r.exportTo format times sink = (.error e, v.abandon) := by
  have stops := Csv.Writer.writeRows_eq { sink } (rowItems format r.enumerate.1)
  rw [← writtenRows, written, firstError_rowItems, failure?_eq_some_iff.mpr failed] at stops
  simp only [exportTo, stops]

theorem writeRows_of_complete {records : List Record} (all : r.collect = .ok records)
    (written : ({ sink } : Csv.Writer).writeAll (r.writtenRows format) = (.ok (), v)) :
    ({ sink } : Csv.Writer).writeRows (rowItems format r.enumerate.1) = (.ok (), v) := by
  have none : r.failure? = none := by simp [failure?, all]
  rw [Csv.Writer.writeRows_eq, ← writtenRows, written, firstError_rowItems, none]

theorem exportTo_of_unflushed {records : List Record} {fault : IoFault}
    (all : r.collect = .ok records)
    (written : ({ sink } : Csv.Writer).writeAll (r.writtenRows format) = (.ok (), v))
    (refused : v.flush = (.error fault, w)) :
    r.exportTo format times sink = (.error (.io fault), w.abandon) := by
  simp only [exportTo, writeRows_of_complete all written, refused]

def summaryOf (format : RowFormat) (times : Times) (records : List Record) (rows : Nat) :
    ExportSummary where
  format := format
  records := .ofRecords records
  rowsWritten := rows
  startedAt := times.started
  finishedAt := times.finished

theorem exportTo_of_flushed {records : List Record} (all : r.collect = .ok records)
    (written : ({ sink } : Csv.Writer).writeAll (r.writtenRows format) = (.ok (), v))
    (flushed : v.flush = (.ok (), w)) :
    r.exportTo format times sink = (.ok (summaryOf format times records v.rows), w.sink) := by
  have kept : recordsOf r.enumerate.1 = records := by
    rw [enumerate_items, collect_eq_ok_iff.mp all, recordsOf, List.filterMap_map]
    exact List.filterMap_some
  simp only [exportTo, writeRows_of_complete all written, flushed, kept, summaryOf]

end

/-! ## Sinks with room -/

theorem writeAll_of_room {sink : Csv.Sink} {rows : List (List Bytes)}
    (room : sink.Admits (Csv.encodeRows rows).length) :
    ∃ v w : Csv.Writer, ({ sink } : Csv.Writer).writeAll rows = (.ok (), v) ∧
      v.rows = rows.length ∧ v.flush = (.ok (), w) ∧
      w.sink.received = sink.received ++ Csv.encodeRows rows := by
  have admits : ({ sink } : Csv.Writer).Admits (Csv.encodeRows rows).length := by
    simpa [Csv.Writer.Admits] using room
  obtain ⟨v, written⟩ := ({ sink } : Csv.Writer).writeAll_ok rows admits
  have adds := Csv.Writer.writeAll_adds written
  obtain ⟨w, flushed⟩ := v.flush_ok_iff.mpr ((adds.admits 0).mpr admits)
  refine ⟨v, w, written, ?_, flushed, ?_⟩
  · rw [adds.rows, Nat.zero_add]
  · rw [(Csv.Writer.flush_adds flushed).2.1, adds.taken]
    simp [Csv.Writer.taken]

theorem exportTo_of_room {r : Reflector} {records : List Record} (all : r.collect = .ok records)
    (format : RowFormat) (times : Times) {sink : Csv.Sink}
    (room : sink.Admits (Csv.encodeRows (r.writtenRows format)).length) :
    ∃ after : Csv.Sink,
      r.exportTo format times sink =
        (.ok (summaryOf format times records (r.writtenRows format).length), after) ∧
      after.received = sink.received ++ Csv.encodeRows (r.writtenRows format) := by
  obtain ⟨v, w, written, count, flushed, received⟩ := writeAll_of_room room
  refine ⟨w.sink, ?_, received⟩
  rw [exportTo_of_flushed all written flushed, count]

theorem exportTo_unlimited_of_failure {r : Reflector} {e : ExportError}
    (failed : r.collect = .error e) (format : RowFormat) (times : Times) :
    (r.exportTo format times {}).1 = .error e := by
  have room : ({} : Csv.Sink).Admits (Csv.encodeRows (r.writtenRows format)).length :=
    Csv.Sink.admits_of_unlimited rfl _
  obtain ⟨v, w, written, _⟩ := writeAll_of_room room
  rw [exportTo_of_failure failed written]

theorem exportTo_unlimited_of_complete {r : Reflector} {records : List Record}
    (all : r.collect = .ok records) (format : RowFormat) (times : Times) :
    ∃ sink : Csv.Sink,
      r.exportTo format times {} =
        (.ok (summaryOf format times records (r.writtenRows format).length), sink) ∧
      sink.received = Csv.encodeRows (r.writtenRows format) :=
  exportTo_of_room all format times (Csv.Sink.admits_of_unlimited rfl _)

end Reflector

end SymbolExport
