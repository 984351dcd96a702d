import SymbolExport.Command.Load

/-!
# The export and summary commands

An export loads its settings and the snapshot before anything is written, and reports the digest of
the file it has written.
-/

namespace SymbolExport

structure ExportRequest where
  snapshot : String
  output : Option String := none
  format : Option RowFormat := none
  config : Option String := none
  noAtomic : Bool := false
  json : Bool := false
deriving DecidableEq, Repr

structure ExportReport where
  snapshot : String
  summary : ExportSummary
  sha256 : String
deriving DecidableEq, Repr

namespace ExportReport

def toJson (r : ExportReport) : Json :=
  .object (("snapshot", .text r.snapshot) ::
    ((shapeOf ExportSummary).fieldsOf (pack r.summary) ++ [("sha256", .text r.sha256)]))

def lines (r : ExportReport) : List String :=
  let c := r.summary.records
  [ "Exported runtime internals:",
    "  Snapshot: " ++ r.snapshot,
    "  Output: " ++ r.summary.output.getD "",
    "  Format: " ++ r.summary.format.text,
    "  Rows written: " ++ Decimal.text r.summary.rowsWritten,
    "  Records: " ++ Decimal.text c.functions ++ " functions, " ++ Decimal.text c.classes ++
      " classes, " ++ Decimal.text c.methods ++ " methods, " ++ Decimal.text c.properties ++
      " members, " ++ Decimal.text c.vars ++ " variables, " ++ Decimal.text c.constants ++
      " constants",
    "  SHA-256: " ++ r.sha256 ]

end ExportReport

namespace SnapshotCounts

/-- The counts of the snapshot at a path as lines of text. -/
def lines (c : SnapshotCounts) (path : String) : List String :=
  [ "Snapshot: " ++ path,
    "  Functions: " ++ Decimal.text c.functions,
    "  Classes: " ++ Decimal.text c.classes,
    "  Interfaces: " ++ Decimal.text c.interfaces,
    "  Traits: " ++ Decimal.text c.traits,
    "  Methods: " ++ Decimal.text c.methods,
    "  Properties: " ++ Decimal.text c.properties,
    "  Variables: " ++ Decimal.text c.vars,
    "  Constants: " ++ Decimal.text c.constants ]

end SnapshotCounts

/-- Lines as they are printed, each with its end. -/
def printed (lines : List String) : String :=
  String.join (lines.map fun line => line ++ "\n")

structure CommandRun (α : Type) extends FileWork where
  result : Except Failure α
  stdout : String := ""
  events : List Event := []

namespace Setting

/-- The settings of an export: those of the file, if one is given, under the flags. -/
def effectiveConfig (s : Setting) (request : ExportRequest) : Except Failure ExportConfig :=
  match request.config with
  | none => .ok (({} : ExportConfig).withOverrides request.output request.format request.noAtomic)
  | some path =>
      match s.tree.loadConfig s.cwd (Path.resolve s.cwd.text path) with
      | .error failure => .error failure
      | .ok config => .ok (config.withOverrides request.output request.format request.noAtomic)

/-- Exports a snapshot with the settings in force. -/
def exportWith (s : Setting) (request : ExportRequest) (config : ExportConfig) :
    CommandRun ExportReport :=
  let snapshotPath := Path.resolve s.cwd.text request.snapshot
  match s.tree.loadSnapshot s.cwd snapshotPath with
  | .error failure => { result := .error failure }
  | .ok snapshot =>
      let output := Path.resolve s.cwd.text config.output
      let publication := snapshot.reflector.exportToPath s output config.options
      let changes := publication.changes
      let events := publication.events
      match publication.outcome with
      | .error error =>
          { result := .error (.exporting output error), changes, held := publication.held, events }
      | .ok summary =>
          match (Effect.applyAll s.tree changes).digest s.cwd output with
          | .error failure => { result := .error failure, changes, events }
          | .ok sha256 =>
              let report : ExportReport := { snapshot := snapshotPath, summary, sha256 }
              { result := .ok report
                stdout := printed (if request.json then [report.toJson.indented] else report.lines)
                changes
                events }

def exportCommand (s : Setting) (request : ExportRequest) : CommandRun ExportReport :=
  match s.effectiveConfig request with
  | .error failure => { result := .error failure }
  | .ok config => s.exportWith request config

def summaryCommand (s : Setting) (snapshot : String) (json : Bool) : CommandRun SnapshotCounts :=
  let path := Path.resolve s.cwd.text snapshot
  match s.tree.loadSnapshot s.cwd path with
  | .error failure => { result := .error failure }
  | .ok snapshot =>
      let counts := snapshot.counts
      { result := .ok counts
        stdout := printed (if json then [(toJson counts).indented] else counts.lines path) }

end Setting

end SymbolExport
