import SymbolExport.Command.Log
import SymbolExport.Text.Blank
import SymbolExport.Text.Pattern

/-!
# Log filters

A filter says which lines of the log are written. It is a list of directives between commas: a level
for everything, or a target with a level for the lines whose targets begin with it. Brackets behind
the target narrow a directive down to a span or to the lines that have a field, as in
`target[{field}]=info`. The most specific of the directives that cover a line decides; a line that
none of them covers is silent.
-/

namespace SymbolExport

/-- What a directive asks of a field: that it is there, or that its value fits a pattern. -/
structure FieldTest where
  name : List Char
  pattern : Option (List Char)
deriving DecidableEq, Repr

/-- A rule of a filter: lines up to a rank are written if their target begins with a text. -/
structure LogRule where
  target : List Char
  span : Option (List Char)
  field : Option FieldTest
  rank : Nat
deriving DecidableEq, Repr

structure LogFilter where
  rules : List LogRule
deriving DecidableEq, Repr

namespace LogRule

/--
Whether a rule speaks of a line. Spans and the values of fields are those of the work in which a
line is written; no work is marked as a span here, so a rule that asks for them covers nothing.
-/
def covers (rule : LogRule) (line : LogLine) : Bool :=
  rule.target.isPrefixOf line.target.toList && rule.span.isNone &&
    rule.field.all fun test => test.pattern.isNone && String.ofList test.name ∈ line.fieldNames

/-- Whether a rule is at least as specific as another one that covers the same line: the longer
target counts first, then whether a field is named, then the later name. -/
def atLeast (rule other : LogRule) : Bool :=
  if rule.target.length = other.target.length then
    match rule.field, other.field with
    | _, none => true
    | none, some _ => false
    | some test, some other => !(String.ofList test.name < String.ofList other.name)
  else other.target.length < rule.target.length

end LogRule

namespace LogFilter

def number? (digits : List Char) : Option Nat :=
  if digits.isEmpty || !digits.all Char.isDigit then none
  else
    let n := digits.foldl (fun n c => 10 * n + (c.toNat - 48)) 0
    if n ≤ 5 then some n else none

/-- The rank that a word or a number names. -/
def rank? (word : List Char) : Option Nat :=
  match String.ofList (Text.lowerAscii word) with
  | "off" => some 0
  | "error" => some 1
  | "warn" => some 2
  | "info" => some 3
  | "debug" => some 4
  | "trace" => some 5
  | _ =>
      match word with
      | '+' :: digits => number? digits
      | digits => number? digits

/-- The rank of a directive that names no level: everything is written. -/
def fullRank : Nat := Level.trace.rank

/-- The rank behind an equals sign; it may be left out. -/
def level? (word : List Char) : Option Nat :=
  if word.isEmpty then some fullRank else rank? word

/-- Whether these are an exponent, from its mark on, or nothing. -/
def isExponent : List Char → Bool
  | [] => true
  | mark :: cs =>
      let digits := match cs with
        | '+' :: digits => digits
        | '-' :: digits => digits
        | digits => digits
      (mark == 'e' || mark == 'E') && !digits.isEmpty && digits.all Char.isDigit

def isNumeral (cs : List Char) : Bool :=
  let whole := cs.takeWhile Char.isDigit
  let rest := cs.dropWhile Char.isDigit
  let fraction := match rest with
    | '.' :: rest => rest.takeWhile Char.isDigit
    | _ => []
  let exponent := match rest with
    | '.' :: rest => rest.dropWhile Char.isDigit
    | rest => rest
  String.ofList (Text.lowerAscii cs) ∈ ["inf", "infinity", "nan"] ||
    (!(whole ++ fraction).isEmpty && isExponent exponent)

/-- Whether a text can stand for the value of a field: a number with a sign, or a pattern. -/
def isValue : List Char → Bool
  | '+' :: cs => isNumeral cs
  | cs => Text.isPattern cs

/-- What is asked of a field: its name, and its value behind an equals sign. -/
def fieldTest? (cs : List Char) : Option FieldTest :=
  let name := cs.takeWhile (· ≠ '=')
  match cs.drop name.length with
  | [] => if name.isEmpty then none else some { name, pattern := none }
  | _ :: rest =>
      let value := rest.takeWhile (· ≠ '=')
      if isValue value then some { name, pattern := some value } else none

/-- The span and the field between brackets of which the first has been read, and what follows. -/
def brackets? (cs : List Char) : Option (Option (List Char) × Option FieldTest × List Char) :=
  let name := cs.takeWhile fun c => c ≠ ']' && c ≠ '\x7b'
  match cs.drop name.length with
  | ']' :: rest => some (some name, none, rest)
  | _ :: rest =>
      let field := rest.takeWhile (· ≠ '\x7d')
      match rest.drop field.length with
      | _ :: ']' :: rest =>
          (fieldTest? field).map fun test =>
            (if name.isEmpty then none else some name, some test, rest)
      | _ => none
  | [] => none

/-- Whether a directive may begin with a character. -/
def opensDirective (c : Char) : Bool :=
  c == '[' || c == '-' || c == ':' || c == '_' || Text.isWord c

/--
A directive; a word that names no level is a target. White space in front belongs to the target and
leaves no room for a level.
-/
def directive? (cs : List Char) : Option LogRule := do
  let blanks := cs.takeWhile Text.isBlank
  let body := cs.drop blanks.length
  if !body.head?.any opensDirective then none
  let target := body.takeWhile fun c => c ≠ '=' && c ≠ '['
  match body.drop target.length with
  | [] =>
      match rank? cs with
      | some rank => some { target := [], span := none, field := none, rank }
      | none => some { target := cs, span := none, field := none, rank := fullRank }
  | '[' :: rest =>
      let (span, field, rest) ← brackets? rest
      let rank ← match rest with
        | '=' :: word => if blanks.isEmpty then level? word else none
        | rest => if rest.all Text.isBlank then some fullRank else none
      some { target := blanks ++ target, span, field, rank }
  | _ :: word =>
      let rank ← if blanks.isEmpty then level? word else none
      some { target, span := none, field := none, rank }

/-- The rule that holds where there is none: only errors are written. -/
def errorsOnly : LogRule :=
  { target := [], span := none, field := none, rank := Level.error.rank }

/-- The filter that a text describes, if it is well formed. -/
def parse? (text : String) : Option LogFilter := do
  let parts := (text.toList.splitOn ',').filter (· ≠ [])
  let rules ← parts.mapM directive?
  if rules.isEmpty then some { rules := [errorsOnly] } else some { rules }

/-- The better of two rules for the same line; of two equally specific ones the later. -/
def better (best : Option LogRule) (rule : LogRule) : Option LogRule :=
  match best with
  | none => some rule
  | some other => if rule.atLeast other then some rule else some other

def allows (f : LogFilter) (line : LogLine) : Bool :=
  match (f.rules.filter (·.covers line)).foldl better none with
  | none => false
  | some rule => line.level.rank ≤ rule.rank

end LogFilter

end SymbolExport
