import SymbolExport.Export.Stream
import SymbolExport.Files.Tree

/-!
# Exporting into a file

A file is either written in place, so that an error leaves what was written before it, or it is
written under a temporary name in the same directory and renamed when it is complete. What happens
to the files is given as a list of changes. An error that says that the file could not be renamed
holds it, so that it goes away only when the error does.
-/

namespace SymbolExport

/-- What the system refuses although the files would allow it. -/
structure Refusals where
  creation : Option OsFault := none
  sync : Option IoFault := none
  rename : Option OsFault := none
deriving DecidableEq, Repr

/-- Where an export takes place. -/
structure Setting where
  tree : Tree
  cwd : Location
  /-- A name that no file of any directory has. -/
  tempName : String
  times : Times
  /-- How many octets can be written; unlimited if there is no number. -/
  room : Option Nat := none
  refusals : Refusals := {}

namespace Setting

/-- The place at which a file is created or overwritten. -/
def createAt (s : Setting) (path : String) : Except OsFault Location :=
  match s.refusals.creation with
  | some fault => .error fault
  | none => s.tree.creationTarget s.cwd path

def renameTo (s : Setting) (path : String) : Except OsFault Location :=
  match s.refusals.rename with
  | some fault => .error fault
  | none => s.tree.renameTarget s.cwd path

end Setting

inductive Event where
  | inPlace (path : String)
  | temporary (path : String)
  | enumerated (activity : Activity)
  | finished (path : String) (format : RowFormat) (rows : Nat)
deriving DecidableEq, Repr

/-- What is done to the files. -/
structure FileWork where
  /-- The changes up to the return. -/
  changes : List Effect := []
  /-- The temporary file of this work, if the returned error holds it. It is removed when the error is
  dropped. -/
  held : Option Location := none
deriving DecidableEq, Repr

/-- The changes up to when the error, if there is one, has been dropped. -/
def FileWork.effects (work : FileWork) : List Effect :=
  work.changes ++ work.held.toList.map .remove

structure Publication extends FileWork where
  outcome : Except ExportError ExportSummary
  events : List Event := []

namespace Reflector

def tempPath (s : Setting) (path : String) : String :=
  Path.join (Path.resolve s.cwd.text (Path.directory path)) s.tempName

def writing (loc : Location) (sink : Csv.Sink) : List Effect :=
  .create loc :: sink.writes.map (.append loc)

/-- Exports all rows of a runtime into a new file and makes sure that they are kept. -/
def exportSynced (r : Reflector) (s : Setting) (format : RowFormat) :
    Except ExportError ExportSummary × Csv.Sink :=
  match r.exportTo format s.times { room := s.room } with
  | (.error e, sink) => (.error e, sink)
  | (.ok summary, sink) =>
      match s.refusals.sync with
      | some fault => (.error (.io fault), sink)
      | none => (.ok summary, sink)

/-- Exports under a temporary name and renames the complete file. -/
def exportAtomically (r : Reflector) (s : Setting) (path : String) (format : RowFormat) :
    Publication :=
  let temp := tempPath s path
  match s.createAt temp with
  | .error fault => { outcome := .error (.io (.atPath fault temp)) }
  | .ok loc =>
      let events := .temporary temp :: r.enumerate.2.map .enumerated
      match r.exportSynced s format with
      | (.error e, sink) =>
          { outcome := .error e, changes := writing loc sink ++ [.remove loc], events }
      | (.ok summary, sink) =>
          match s.renameTo path with
          | .error fault =>
              { outcome := .error (.persist path { fault, file := loc })
                changes := writing loc sink
                held := some loc
                events }
          | .ok target =>
              { outcome := .ok summary
                changes := writing loc sink ++ [.rename loc target]
                events }

def exportInPlace (r : Reflector) (s : Setting) (path : String) (format : RowFormat) :
    Publication :=
  match s.createAt path with
  | .error fault => { outcome := .error (.io (.os fault)), events := [.inPlace path] }
  | .ok loc =>
      let (outcome, sink) := r.exportSynced s format
      { outcome
        changes := writing loc sink
        events := .inPlace path :: r.enumerate.2.map .enumerated }

def exportToPath (r : Reflector) (s : Setting) (path : String) (options : ExportOptions) :
    Publication :=
  let publication :=
    if options.atomic then r.exportAtomically s path options.format
    else r.exportInPlace s path options.format
  match publication.outcome with
  | .error _ => publication
  | .ok summary =>
      { publication with
        outcome := .ok { summary with output := some path }
        events := publication.events ++ [.finished path summary.format summary.rowsWritten] }

end Reflector

end SymbolExport
