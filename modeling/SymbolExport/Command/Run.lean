import SymbolExport.Command.Arguments
import SymbolExport.Command.LogFilter

/-!
# Running a command line

The outcome of a command line: what is printed, what is logged, what happens to the files and the
exit code.
-/

namespace SymbolExport

def version : String := "0.1.0"

def programName : String := "internals-export"

structure Outcome extends FileWork where
  exitCode : Nat := 0
  stdout : String := ""
  /-- The log, line by line. -/
  log : List String := []
  /-- What is said about an error, line by line. -/
  complaint : List String := []
  failure : Option Failure := none

namespace Failure

/-- The lines of a text, the first with one start and the others with another. -/
def indentLines (first others : String) (text : String) : List String :=
  match text.splitOn "\n" with
  | [] => []
  | line :: lines => (first ++ line) :: lines.map fun line => others ++ line

def numbered (number : Nat) : List String → List String
  | [] => []
  | cause :: causes =>
      let digits := Decimal.text number
      let start := "".pushn ' ' (5 - digits.length) ++ digits ++ ": "
      indentLines start "       " cause ++ numbered (number + 1) causes

/-- What is said about a failure; several causes are numbered. -/
def describe (context : String) (causes : List String) : List String :=
  let heading := indentLines "Error: " "" context
  match causes with
  | [] => heading
  | [cause] => heading ++ ["", "Caused by:"] ++ indentLines "    " "    " cause
  | causes => heading ++ ["", "Caused by:"] ++ numbered 0 causes

def lines (f : Failure) : List String :=
  describe f.context f.causes

end Failure

def Opt.helpLine (o : Opt) : String :=
  "      " ++ o.shown ++ "  " ++ o.purpose

def Subcommand.help (c : Subcommand) : List String :=
  [c.purpose, "", "Usage: " ++ programName ++ " " ++ c.name ++ " [OPTIONS] " ++
      Opt.snapshot.shown, "", "Options:"] ++
    c.options.map Opt.helpLine ++ ["  -h, --help  Print help"]

def generalHelp : List String :=
  ["Export runtime symbol metadata as CSV rows", "", "Usage: " ++ programName ++ " [COMMAND]", "",
    "Commands:"] ++
    Subcommand.all.map (fun c => "  " ++ c.name ++ "  " ++ c.purpose) ++
    ["  help  Print help", "", "Options:", "  -h, --help     Print help",
      "  -V, --version  Print version"]

def UsageError.lines (e : UsageError) : List String :=
  ["error: " ++ e.message] ++
    (if e = .requiredMissing then ["  " ++ Opt.snapshot.shown] else []) ++
    ["", "Usage: " ++ programName ++ " [COMMAND]", "", "For more information, try '--help'."]

def CommandRun.outcome {α : Type} (run : CommandRun α) (log : List LogLine → List String) :
    Outcome :=
  let lines := log (run.events.filterMap Event.line?)
  match run.result with
  | .ok _ => { run.toFileWork with stdout := run.stdout, log := lines }
  | .error failure =>
      { run.toFileWork with
        exitCode := 1, log := lines, complaint := failure.lines, failure := some failure }

namespace Setting

/-- The log lines that a filter lets pass, each with the same time. -/
def logged (time : String) (filter : Option LogFilter) (lines : List LogLine) : List String :=
  match filter with
  | none => []
  | some filter => (lines.filter filter.allows).map (LogLine.text time)

/-- The outcome of a command line, under the log filter that the environment gives. -/
def run (s : Setting) (time : String) (filter : Option String) (args : List String) : Outcome :=
  let filter := filter.bind LogFilter.parse?
  let log := fun lines => logged time filter (LogLine.opening :: lines)
  match Invocation.parse false args with
  | .error e => { exitCode := 2, log := log [], complaint := e.lines }
  | .ok .banner =>
      { stdout := printed [programName ++ " v" ++ version,
          "Run `" ++ programName ++ " --help` for usage."]
        log := log [] }
  | .ok .version => { stdout := printed [programName ++ " " ++ version], log := log [] }
  | .ok (.help none) => { stdout := printed generalHelp, log := log [] }
  | .ok (.help (some c)) => { stdout := printed c.help, log := log [] }
  | .ok (.exportRows request) => (s.exportCommand request).outcome log
  | .ok (.summary snapshot json) => (s.summaryCommand snapshot json).outcome log

end Setting

end SymbolExport
