import SymbolExport.Command.Config
import SymbolExport.Digest.Sha256
import SymbolExport.Export.Publish

/-!
# Loading files

Settings and snapshots are read from files, as YAML if the extension is one of YAML and as JSON
otherwise.
-/

namespace SymbolExport

inductive Failure where
  | readConfig (path : String) (fault : IoFault)
  | parseConfigJson (message : String)
  | parseConfigYaml (fault : Yaml.Fault)
  | readSnapshot (path : String) (fault : IoFault)
  | parseSnapshotJson (error : ExportError)
  | parseSnapshotYaml (fault : Yaml.Fault)
  | invalidSnapshot (error : ExportError)
  | exporting (path : String) (error : ExportError)
  | openForDigest (path : String) (fault : OsFault)
  | digest (path : String) (fault : OsFault)
deriving DecidableEq, Repr

namespace Failure

/-- What was being done. -/
def context : Failure → String
  | .readConfig path _ => "Failed to read export config at " ++ path
  | .parseConfigJson _ => "Failed to parse export config JSON"
  | .parseConfigYaml _ => "Failed to parse export config YAML"
  | .readSnapshot path _ => "Failed to read snapshot at " ++ path
  | .parseSnapshotJson _ => "Failed to parse snapshot JSON"
  | .parseSnapshotYaml _ => "Failed to parse snapshot YAML"
  | .invalidSnapshot _ => "Failed to parse snapshot YAML"
  | .exporting path _ => "Failed to export to " ++ path
  | .openForDigest path _ => "Failed to open " ++ path ++ " for hashing"
  | .digest path _ => "Failed to hash " ++ path

/-- Why it failed, the nearest cause first. -/
def causes : Failure → List String
  | .readConfig _ fault => [fault.message]
  | .parseConfigJson message => [message]
  | .parseConfigYaml fault => [fault.message]
  | .readSnapshot _ fault => [fault.message]
  | .parseSnapshotJson error => error.message :: error.causes
  | .parseSnapshotYaml fault => [fault.message]
  | .invalidSnapshot error => error.message :: error.causes
  | .exporting _ error => error.message :: error.causes
  | .openForDigest _ fault => [fault.message]
  | .digest _ fault => [fault.message]

end Failure

namespace Tree

def read (t : Tree) (cwd : Location) (path : String) : Except OsFault Bytes :=
  match t.find cwd path with
  | .error fault => .error fault
  | .ok .directory => .error .isDirectory
  | .ok (.file content) => .ok content

def loadConfig (t : Tree) (cwd : Location) (path : String) : Except Failure ExportConfig :=
  match t.read cwd path with
  | .error fault => .error (.readConfig path (.os fault))
  | .ok content =>
      if Path.isYaml path then
        match ofYamlBytes content with
        | .ok config => .ok config
        | .error fault => .error (.parseConfigYaml fault)
      else
        match ofJsonBytes content with
        | .ok config => .ok config
        | .error fault => .error (.parseConfigJson (fault.message content))

def snapshotOfYaml (content : Bytes) : Except Failure RuntimeSnapshot :=
  match ofYamlBytes content with
  | .error fault => .error (.parseSnapshotYaml fault)
  | .ok (snapshot : RuntimeSnapshot) =>
      match snapshot.validate with
      | .error error => .error (.invalidSnapshot error)
      | .ok () => .ok snapshot

/-- The snapshot in the file at a path, which must be a text. -/
def loadSnapshot (t : Tree) (cwd : Location) (path : String) : Except Failure RuntimeSnapshot :=
  match t.read cwd path with
  | .error fault => .error (.readSnapshot path (.os fault))
  | .ok content =>
      if content.toString?.isNone then .error (.readSnapshot path .notText)
      else if Path.isYaml path then snapshotOfYaml content
      else
        match RuntimeSnapshot.ofJsonBytes content with
        | .ok snapshot => .ok snapshot
        | .error error => .error (.parseSnapshotJson error)

def digest (t : Tree) (cwd : Location) (path : String) : Except Failure String :=
  match t.find cwd path with
  | .error fault => .error (.openForDigest path fault)
  | .ok .directory => .error (.digest path .isDirectory)
  | .ok (.file content) => .ok (Sha256.hexDigest content)

end Tree

end SymbolExport
