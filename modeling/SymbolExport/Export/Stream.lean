import SymbolExport.Csv.Writer
import SymbolExport.Export.Rows
import SymbolExport.Export.Tally

/-!
# Exporting into a sink

The rows of a runtime are written one after the other up to the first error. Rows that were written
before an error reach the sink all the same.
-/

namespace SymbolExport

structure Times where
  started : String
  finished : String

namespace Csv.Writer

/-- Writes rows up to the first error. -/
def writeRows (w : Writer) : List RowItem → Except ExportError Unit × Writer
  | [] => (.ok (), w)
  | .error e :: _ => (.error e, w)
  | .ok row :: rest =>
      match w.writeRow (row.map Bytes.ofString) with
      | (.ok (), w) => w.writeRows rest
      | (.error fault, w) => (.error (.csv fault), w)

end Csv.Writer

def recordsOf (items : List Item) : List Record :=
  items.filterMap fun
    | .ok record => some record
    | .error _ => none

namespace Reflector

def exportTo (r : Reflector) (format : RowFormat) (times : Times) (sink : Csv.Sink) :
    Except ExportError ExportSummary × Csv.Sink :=
  let items := r.enumerate.1
  match ({ sink } : Csv.Writer).writeRows (rowItems format items) with
  | (.error e, w) => (.error e, w.abandon)
  | (.ok (), w) =>
      match w.flush with
      | (.error fault, w) => (.error (.io fault), w.abandon)
      | (.ok (), flushed) =>
          (.ok { format
                 records := .ofRecords (recordsOf items)
                 rowsWritten := w.rows
                 startedAt := times.started
                 finishedAt := times.finished }, flushed.sink)

end Reflector

end SymbolExport
