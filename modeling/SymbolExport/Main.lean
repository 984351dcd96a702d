import Std.Time.DateTime.Timestamp
import SymbolExport.Command.Run
import SymbolExport.Text.Instant

/-!
# The program

Looks at the files that a command line refers to, runs the command line on them and carries out what
it comes to.
-/

namespace SymbolExport.Program

def logVariable : String := "INTERNALS_LOG"

def nameChars : List Char :=
  "0123456789ABCDEFGHIJKLMNOPQRSTUVWXYZabcdefghijklmnopqrstuvwxyz".toList

def tempName (octets : Bytes) : String :=
  ".tmp" ++ String.ofList (octets.map fun b => nameChars.getD (b.toNat % nameChars.length) 'x')

/-- The places that a path passes, the last one being where it leads to. -/
def places (cwd : Location) (path : String) : List Location :=
  let start := if Path.isAbsolute path then [] else cwd
  let step := fun (visited : List Location) part =>
    let current := visited.headD start
    if part = "." then visited
    else if part = ".." then Location.above current :: visited
    else (current ++ [part]) :: visited
  ((Tree.parts path).foldl step [start]).reverse

/-- The paths that a command line refers to, as far as they are known. -/
def paths (s : Setting) : Invocation → List String
  | .exportRows request =>
      let output := match s.effectiveConfig request with
        | .ok config => [Path.resolve s.cwd.text config.output]
        | .error _ => []
      request.config.toList ++ request.snapshot :: output
  | .summary snapshot _ => [snapshot]
  | _ => []

/-- What is at a place: something that cannot be read as a file counts as a directory. -/
def look (loc : Location) : IO (Option Entry) := do
  try
    let content ← IO.FS.readBinFile loc.text
    pure (some (.file content.toList))
  catch
    | .noFileOrDirectory .. => pure none
    | _ => pure (some .directory)

/-- The tree with what is at a place and, above it, at the places that lead there. -/
def lookInto (tree : Tree) (loc : Location) : IO Tree :=
  (List.range loc.length).foldlM (fun tree n => do
    let loc := loc.take (n + 1)
    if (tree.get? loc).isSome || tree.get? loc.dropLast != some .directory then pure tree
    else
      match ← look loc with
      | some entry => pure (tree.put loc entry)
      | none => pure tree) tree

/-- The setting with all that a command line refers to. -/
def observe (s : Setting) (invocation : Invocation) : IO Setting := do
  let locations := s.cwd :: (paths s invocation).flatMap (places s.cwd)
  pure { s with tree := ← locations.foldlM lookInto s.tree }

def perform : Effect → IO Unit
  | .create loc => IO.FS.writeBinFile loc.text ByteArray.empty
  | .append loc octets => do
      let handle ← IO.FS.Handle.mk loc.text .append
      handle.write ⟨octets.toArray⟩
      handle.flush
  | .rename source target => IO.FS.rename source.text target.text
  | .remove loc => IO.FS.removeFile loc.text

def now : IO Instant := do
  let nanoseconds := (← Std.Time.Timestamp.now).toNanosecondsSinceUnixEpoch.val.toNat
  pure { seconds := nanoseconds / 1000000000, nanoseconds := nanoseconds % 1000000000 }

def run (args : List String) : IO UInt32 := do
  let time ← now
  let setting : Setting :=
    { tree := {}
      cwd := Tree.parts (toString (← IO.currentDir))
      tempName := tempName (← IO.getRandomBytes 6).toList
      times := { started := time.report, finished := time.report } }
  let setting ← match Invocation.parse false args with
    | .ok invocation => do observe (← observe setting invocation) invocation
    | .error _ => pure setting
  let outcome := setting.run time.logText (← IO.getEnv logVariable) args
  outcome.changes.forM perform
  (outcome.log ++ outcome.complaint).forM IO.eprintln
  IO.print outcome.stdout
  -- A failure is dropped after it has been told.
  outcome.held.toList.forM fun loc => perform (.remove loc)
  pure (UInt32.ofNat outcome.exitCode)

end SymbolExport.Program

def main (args : List String) : IO UInt32 :=
  SymbolExport.Program.run args
