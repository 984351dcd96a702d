import SymbolExport.Export.Publish

/-!
# The log

What happens is logged in lines, each with a level, the part of the program it comes from, which is
its target, a message and fields with values.
-/

namespace SymbolExport

inductive Level where
  | error
  | warn
  | info
  | debug
  | trace
deriving DecidableEq, Repr

namespace Level

/-- The place of a level, the most important one first. -/
def rank : Level → Nat
  | .error => 1
  | .warn => 2
  | .info => 3
  | .debug => 4
  | .trace => 5

/-- The word of a level, five characters wide. -/
def text : Level → String
  | .error => "ERROR"
  | .warn => " WARN"
  | .info => " INFO"
  | .debug => "DEBUG"
  | .trace => "TRACE"

end Level

/-- One line of the log, without its time. -/
structure LogLine where
  level : Level
  target : String
  message : String
  fields : List (String × String)
deriving DecidableEq, Repr

namespace LogLine

/-- The names of what a line tells: its message, then its fields. -/
def fieldNames (line : LogLine) : List String :=
  "message" :: line.fields.map (·.1)

def text (time : String) (line : LogLine) : String :=
  " ".intercalate ([time, line.level.text, line.target ++ ":", line.message] ++
    line.fields.map fun (name, value) => name ++ "=" ++ value)

def ofEnumeration (message : String) (fields : List (String × String)) : LogLine :=
  { level := .debug, target := "internals_core::services::enumerator", message, fields }

def ofExport (level : Level) (message : String) (fields : List (String × String)) : LogLine :=
  { level, target := "internals_core::services::export", message, fields }

def opening : LogLine :=
  { level := .debug, target := "internals_export", message := "tracing initialized", fields := [] }

end LogLine

def Activity.line? : Activity → Option LogLine
  | .asked .vars => none
  | .asked .functions => some (.ofEnumeration "enumerating internal functions" [])
  | .asked .declared => some (.ofEnumeration "enumerating declared classes" [])
  | .asked (.reflect _) => none
  | .asked .constants => some (.ofEnumeration "enumerating defined constants" [])
  | .reflected name members =>
      some (.ofEnumeration "reflected class"
        [("class", name), ("members", Decimal.text members)])
  | .releasing vars =>
      some (.ofEnumeration "emitting captured variables" [("count", Decimal.text vars)])

def Event.line? : Event → Option LogLine
  | .inPlace path =>
      some (.ofExport .warn "writing export in place; a failure leaves a partial file"
        [("path", path)])
  | .temporary path =>
      some (.ofExport .debug "writing export to temporary file" [("temp", path)])
  | .enumerated activity => activity.line?
  | .finished path format rows =>
      some (.ofExport .info "export finished"
        [("path", path), ("format", format.text), ("rows", Decimal.text rows)])

end SymbolExport
