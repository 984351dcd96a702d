import SymbolExport.Command.Export

/-!
# Command line arguments

A command line is a subcommand with options. The value of an option is either attached to it by an
equals sign or the next argument. Such a next argument is judged only when another option follows or
the line ends, so that an argument that is wrong in itself is reported first.
-/

namespace SymbolExport

inductive Subcommand where
  | exportRows
  | summary
deriving DecidableEq, Repr

inductive Opt where
  | snapshot
  | output
  | format
  | config
  | noAtomic
  | json
deriving DecidableEq, Repr

namespace Opt

def name : Opt → String
  | .snapshot => "snapshot"
  | .output => "output"
  | .format => "format"
  | .config => "config"
  | .noAtomic => "no-atomic"
  | .json => "json"

/-- The word that stands for an option's value, if it takes one. -/
def placeholder? : Opt → Option String
  | .snapshot => some "SNAPSHOT"
  | .output => some "OUTPUT"
  | .format => some "FORMAT"
  | .config => some "CONFIG"
  | .noAtomic => none
  | .json => none

/-- An option in a message. -/
def shown (o : Opt) : String :=
  match o.placeholder? with
  | some word => "--" ++ o.name ++ " <" ++ word ++ ">"
  | none => "--" ++ o.name

def purpose : Opt → String
  | .snapshot => "Snapshot file (JSON, or YAML with a .yaml/.yml extension)"
  | .output => "Destination CSV path"
  | .format => "Row format: full or legacy"
  | .config => "Optional export config file (JSON or YAML)"
  | .noAtomic => "Write the destination in place instead of publishing it atomically"
  | .json => "Emit a JSON report instead of human-readable text"

end Opt

namespace Subcommand

def name : Subcommand → String
  | .exportRows => "export"
  | .summary => "summary"

def options : Subcommand → List Opt
  | .exportRows => [.snapshot, .output, .format, .config, .noAtomic, .json]
  | .summary => [.snapshot, .json]

def purpose : Subcommand → String
  | .exportRows => "Export a runtime snapshot to a CSV file"
  | .summary => "Show symbol counts of a snapshot without exporting it"

def all : List Subcommand := [.exportRows, .summary]

def ofName? (word : String) : Option Subcommand :=
  all.find? fun c => c.name = word

end Subcommand

inductive UsageError where
  | unexpectedArgument (arg : String)
  | unknownSubcommand (word : String)
  | valueMissing (option : String)
  | repeated (option : String)
  | unexpectedValue (value option : String)
  | invalidFormat (value : String) (error : UnknownFormat)
  | requiredMissing
deriving DecidableEq, Repr

def UsageError.message : UsageError → String
  | .unexpectedArgument arg => "unexpected argument '" ++ arg ++ "' found"
  | .unknownSubcommand word => "unrecognized subcommand '" ++ word ++ "'"
  | .valueMissing option => "a value is required for '" ++ option ++ "' but none was supplied"
  | .repeated option => "the argument '" ++ option ++ "' cannot be used multiple times"
  | .unexpectedValue value option =>
      "unexpected value '" ++ value ++ "' for '" ++ option ++ "' found; no more were expected"
  | .invalidFormat value error =>
      "invalid value '" ++ value ++ "' for '" ++ Opt.format.shown ++ "': " ++ error.message
  | .requiredMissing => "the following required arguments were not provided:"

inductive Invocation where
  /-- Nothing in particular. -/
  | banner
  | version
  | help (subcommand : Option Subcommand)
  | exportRows (request : ExportRequest)
  | summary (snapshot : String) (json : Bool)
deriving DecidableEq, Repr

inductive ArgForm where
  /-- Two dashes: everything behind them is a value. -/
  | separator
  /-- A name behind two dashes, and what an equals sign attaches to it. -/
  | long (name : String) (value : Option String)
  /-- A letter behind one dash. -/
  | short (letter : Char)
  | value (text : String)
deriving DecidableEq, Repr

def ArgForm.of (arg : String) : ArgForm :=
  match arg.toList with
  | ['-', '-'] => .separator
  | '-' :: '-' :: rest =>
      let name := String.ofList (rest.takeWhile (· ≠ '='))
      match rest.dropWhile (· ≠ '=') with
      | [] => .long name none
      | _ :: attached => .long name (some (String.ofList attached))
  | '-' :: letter :: _ => .short letter
  | _ => .value arg

/-- The options read so far. -/
structure Given where
  /-- Options with their values; a flag has an empty one. -/
  values : List (Opt × String) := []
  /-- The last option, if it takes a value not yet judged, and the value if it was seen. -/
  pending : Option (Opt × Option String) := none

namespace Given

/-- Takes an option with its value. -/
def accept (g : Given) (o : Opt) (value : String) : Except UsageError Given :=
  if (g.values.lookup o).isSome then .error (.repeated o.shown)
  else
    match o, RowFormat.ofText value with
    | .format, .error e => .error (.invalidFormat value e)
    | _, _ => .ok { g with values := g.values ++ [(o, value)] }

/-- Judges the last option. -/
def settle (g : Given) : Except UsageError Given :=
  match g.pending with
  | none => .ok g
  | some (o, none) => .error (.valueMissing o.shown)
  | some (o, some value) => { g with pending := none }.accept o value

/-- Takes an option that stands by itself or has its value attached. -/
def option (g : Given) (o : Opt) (attached : Option String) : Except UsageError Given :=
  match o.placeholder?, attached with
  | none, some value => .error (.unexpectedValue value o.shown)
  | none, none => do (← g.settle).accept o ""
  | some _, some value => do (← g.settle).accept o value
  | some _, none => do pure { ← g.settle with pending := some (o, none) }

def value? (g : Given) (o : Opt) : Option String :=
  g.values.lookup o

def invocation (g : Given) (c : Subcommand) : Except UsageError Invocation :=
  match g.value? .snapshot with
  | none => .error .requiredMissing
  | some snapshot =>
      match c with
      | .summary => .ok (.summary snapshot (g.value? .json).isSome)
      | .exportRows => .ok (.exportRows
          { snapshot
            output := g.value? .output
            format := (g.value? .format).bind fun s => (RowFormat.ofText s).toOption
            config := g.value? .config
            noAtomic := (g.value? .noAtomic).isSome
            json := (g.value? .json).isSome })

end Given

def Subcommand.read (c : Subcommand) (trailing : Bool) (g : Given) :
    List String → Except UsageError Invocation
  | [] => do (← g.settle).invocation c
  | arg :: rest =>
      if trailing then .error (.unexpectedArgument arg)
      else
        match ArgForm.of arg with
        | .separator => c.read true g rest
        | .long "help" (some value) => .error (.unexpectedValue value "--help")
        | .long "help" none => do
            let _ ← g.settle
            pure (.help (some c))
        | .long name attached =>
            match c.options.find? fun o => o.name = name with
            | some o => do c.read false (← g.option o attached) rest
            | none => .error (.unexpectedArgument ("--" ++ name))
        | .short 'h' => do
            let _ ← g.settle
            pure (.help (some c))
        | .short letter => .error (.unexpectedArgument ("-" ++ String.ofList [letter]))
        | .value text =>
            match g.pending with
            | some (o, none) => c.read false { g with pending := some (o, some text) } rest
            | _ => .error (.unexpectedArgument text)

namespace Invocation

/-- The help that further words ask for. -/
def helpOf : List String → Except UsageError Invocation
  | [] => .ok (.help none)
  | [word] =>
      match Subcommand.ofName? word with
      | some c => .ok (.help (some c))
      | none => if word = "help" then .ok (.help none) else .error (.unknownSubcommand word)
  | word :: extra :: _ =>
      if word = "help" || (Subcommand.ofName? word).isSome then .error (.unknownSubcommand extra)
      else .error (.unknownSubcommand word)

def parse (trailing : Bool) : List String → Except UsageError Invocation
  | [] => .ok .banner
  | arg :: rest =>
      if trailing then
        if arg = "help" || (Subcommand.ofName? arg).isSome then .error (.unexpectedArgument arg)
        else .error (.unknownSubcommand arg)
      else
        match ArgForm.of arg with
        | .separator => parse true rest
        | .long "help" none => .ok (.help none)
        | .long "version" none => .ok .version
        | .long "help" (some value) => .error (.unexpectedValue value "--help")
        | .long "version" (some value) => .error (.unexpectedValue value "--version")
        | .long name _ => .error (.unexpectedArgument ("--" ++ name))
        | .short 'h' => .ok (.help none)
        | .short 'V' => .ok .version
        | .short letter => .error (.unexpectedArgument ("-" ++ String.ofList [letter]))
        | .value text =>
            if text = "help" then helpOf rest
            else
              match Subcommand.ofName? text with
              | some c => c.read false {} rest
              | none => .error (.unknownSubcommand text)

end Invocation

end SymbolExport
