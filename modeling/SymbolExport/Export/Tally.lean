import SymbolExport.Export.RowFormat
import SymbolExport.Model.Record

/-!
# Tallies and summaries

How many records of each kind an export met, and what it reports when it is done.
-/

namespace SymbolExport

structure RecordCounts where
  functions : Nat := 0
  classes : Nat := 0
  methods : Nat := 0
  properties : Nat := 0
  vars : Nat := 0
  constants : Nat := 0
deriving DecidableEq, Repr

instance : Shaped RecordCounts where
  shape := .struct "RecordCounts" <|
    .required "functions" .count <| .required "classes" .count <|
    .required "methods" .count <| .required "properties" .count <|
    .required "variables" .count <| .required "constants" .count .nil
  pack c := (c.functions, c.classes, c.methods, c.properties, c.vars, c.constants, ())
  unpack := fun (functions, classes, methods, properties, vars, constants, ()) =>
    { functions, classes, methods, properties, vars, constants }
  unpack_pack _ := rfl

namespace RecordCounts

def add (c : RecordCounts) : Record → RecordCounts
  | .function _ => { c with functions := c.functions + 1 }
  | .classLike _ => { c with classes := c.classes + 1 }
  | .method _ => { c with methods := c.methods + 1 }
  | .member _ => { c with properties := c.properties + 1 }
  | .var _ => { c with vars := c.vars + 1 }
  | .const _ => { c with constants := c.constants + 1 }

def total (c : RecordCounts) : Nat :=
  c.functions + c.classes + c.methods + c.properties + c.vars + c.constants

def ofRecords (records : List Record) : RecordCounts :=
  records.foldl add {}

@[simp] theorem total_add (c : RecordCounts) (r : Record) : (c.add r).total = c.total + 1 := by
  cases r <;> simp only [add, total] <;> omega

end RecordCounts

structure ExportOptions where
  format : RowFormat := .full
  /-- The file appears only when it is complete. -/
  atomic : Bool := true
deriving DecidableEq, Repr

instance : Shaped ExportOptions where
  shape := .struct "ExportOptions" <|
    .required "format" (shapeOf RowFormat) <| .required "atomic" .flag .nil
  pack o := (pack o.format, o.atomic, ())
  unpack := fun (format, atomic, ()) => { format := unpack format, atomic }
  unpack_pack _ := by simp

structure ExportSummary where
  format : RowFormat
  records : RecordCounts
  rowsWritten : Nat
  output : Option String := none
  startedAt : String
  finishedAt : String
deriving DecidableEq, Repr

instance : Shaped ExportSummary where
  shape := .struct "ExportSummary" <|
    .required "format" (shapeOf RowFormat) <| .required "records" (shapeOf RecordCounts) <|
    .required "rows_written" .count <| .defaulted "output" (.optional .text) <|
    .required "started_at" .text <| .required "finished_at" .text .nil
  pack s := (pack s.format, pack s.records, s.rowsWritten, s.output.map some, s.startedAt,
    s.finishedAt, ())
  unpack := fun (format, records, rowsWritten, output, startedAt, finishedAt, ()) =>
    { format := unpack format, records := unpack records, rowsWritten, output := output.join,
      startedAt, finishedAt }
  unpack_pack s := by cases s with | mk _ _ _ output => cases output <;> simp

end SymbolExport
