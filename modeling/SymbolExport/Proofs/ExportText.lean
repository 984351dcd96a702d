import SymbolExport.Proofs.Enumeration
import SymbolExport.Proofs.RowOrder
import SymbolExport.Proofs.Writing

/-! # The text of an export

The complete text of an export is what is written for all of its rows, and there is one only if no
question failed. An export succeeds exactly if its sink has room for that text, and then the sink has
received all of it.
-/

namespace SymbolExport

def rowsText (rows : List Row) : Bytes :=
  Csv.encodeRows (rows.map fun row => row.map Bytes.ofString)

/-- A text is all that is written for a runtime, of which every row could be made. -/
def Reflector.CompleteText (r : Reflector) (format : RowFormat) (text : Bytes) : Prop :=
  ∃ rows : List Row, rowsInOrder format r.items = rows.map .ok ∧ text = rowsText rows

namespace Csv.Writer

/-- Rows are written whole exactly if there is no error among them and no write fails. -/
theorem writeRows_ok_iff {w v : Writer} {items : List RowItem} :
    w.writeRows items = (.ok (), v) ↔
      ∃ rows : List Row, items = rows.map .ok ∧
        w.writeAll (rows.map fun row => row.map Bytes.ofString) = (.ok (), v) := by
  induction items generalizing w with
  | nil =>
      constructor
      · intro h
        exact ⟨[], rfl, by simpa [writeRows, writeAll] using h⟩
      · rintro ⟨rows, empty, h⟩
        cases rows with
        | nil => simpa [writeRows, writeAll] using h
        | cons row rows => simp at empty
  | cons item items ih =>
      cases item with
      | error e =>
          constructor
          · intro h
            simp [writeRows] at h
          · rintro ⟨rows, same, _⟩
            cases rows <;> simp at same
      | ok row =>
          constructor
          · intro h
            unfold writeRows at h
            split at h
            · rename_i middle written
              obtain ⟨rows, rfl, rest⟩ := ih.mp h
              exact ⟨row :: rows, rfl, by simp [writeAll, written, rest]⟩
            · simp at h
          · rintro ⟨rows, same, h⟩
            cases rows with
            | nil => simp at same
            | cons first rows =>
                simp only [List.map_cons, List.cons.injEq, Except.ok.injEq] at same
                obtain ⟨rfl, rfl⟩ := same
                simp only [List.map_cons, writeAll] at h
                split at h
                · rename_i middle written
                  simp only [writeRows, written]
                  exact ih.mpr ⟨rows, rfl, h⟩
                · simp at h

end Csv.Writer

namespace Reflector

/-- An export that succeeds has a complete text, and its sink has received it. -/
theorem exportTo_ok {r : Reflector} {format : RowFormat} {times : Times} {sink after : Csv.Sink}
    {summary : ExportSummary} (h : r.exportTo format times sink = (.ok summary, after)) :
    ∃ text, r.CompleteText format text ∧ sink.Admits text.length ∧
      after.received = sink.received ++ text := by
  unfold exportTo at h
  simp only [enumerate_items, rowItems_eq_rowsInOrder] at h
  split at h
  · simp at h
  · rename_i w written
    obtain ⟨rows, whole, all⟩ := Csv.Writer.writeRows_ok_iff.mp written
    have adds := Csv.Writer.writeAll_adds all
    split at h
    · simp at h
    · rename_i flushed ok
      simp only [Prod.mk.injEq] at h
      have received := (Csv.Writer.flush_adds ok).2.1
      have room := (adds.admits 0).mp (w.flush_ok_iff.mp ⟨flushed, ok⟩)
      refine ⟨rowsText rows, ⟨rows, whole, rfl⟩, ?_, ?_⟩
      · simpa [Csv.Writer.Admits, rowsText] using room
      · rw [← h.2, received, adds.taken]
        simp [Csv.Writer.taken, rowsText]

/-- An export with a complete text succeeds if the sink has room for it. -/
theorem exportTo_succeeds {r : Reflector} {format : RowFormat} {text : Bytes}
    (complete : r.CompleteText format text) (times : Times) {sink : Csv.Sink}
    (room : sink.Admits text.length) :
    ∃ summary after, r.exportTo format times sink = (.ok summary, after) := by
  obtain ⟨rows, whole, rfl⟩ := complete
  have admits : ({ sink } : Csv.Writer).Admits (rowsText rows).length := by
    simpa [Csv.Writer.Admits] using room
  obtain ⟨w, all⟩ := ({ sink } : Csv.Writer).writeAll_ok _ admits
  have written := Csv.Writer.writeRows_ok_iff.mpr ⟨rows, whole, all⟩
  have adds := Csv.Writer.writeAll_adds all
  obtain ⟨flushed, ok⟩ := w.flush_ok_iff.mpr ((adds.admits 0).mpr admits)
  simp only [exportTo, enumerate_items, rowItems_eq_rowsInOrder, written, ok]
  exact ⟨_, _, rfl⟩

end Reflector

end SymbolExport
