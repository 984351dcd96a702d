import SymbolExport.Text.Hex
import SymbolExport.Text.Letter

/-!
# Patterns

Which texts are well-formed regular expressions: characters, classes in brackets, groups,
alternatives and the repetitions `*`, `+` and `?`. What needs a closing brace, such as a counted
repetition or the long name of a property, is not part of the format. A boundary of words is
refused, because a pattern is matched by one character after the other.
-/

namespace SymbolExport.Text.Pattern

/-- What a pattern asks for at one place. -/
inductive Item where
  | char (c : Char)
  | set
  | anchor
deriving DecidableEq, Repr

namespace Item

/-- Whether the items are the ends of a range of characters. -/
def isRange : Item → Item → Bool
  | .char a, .char b => a.toNat ≤ b.toNat
  | _, _ => false

end Item

/-- The character whose number is written in so many hexadecimal digits. -/
def codePointItem? (width : Nat) (cs : List Char) : Option (Item × List Char) :=
  (codePoint? width cs).map fun c => (.char c, cs.drop width)

/-- The item behind a backslash. -/
def escape? : List Char → Option (Item × List Char)
  | [] => none
  | c :: cs =>
      match c with
      | 'x' => codePointItem? 2 cs
      | 'u' => codePointItem? 4 cs
      | 'U' => codePointItem? 8 cs
      | 'p' | 'P' =>
          match cs with
          | kind :: cs => if kind ∈ "CLMNPSZclmnpsz".toList then some (.set, cs) else none
          | [] => none
      | 'd' | 'D' | 's' | 'S' | 'w' | 'W' => some (.set, cs)
      | 'a' => some (.char '\x07', cs)
      | 't' => some (.char '\x09', cs)
      | 'n' => some (.char '\x0A', cs)
      | 'v' => some (.char '\x0B', cs)
      | 'f' => some (.char '\x0C', cs)
      | 'r' => some (.char '\x0D', cs)
      | 'A' | 'z' => some (.anchor, cs)
      | c =>
          if c.toNat < 128 && !c.isAlphanum && c ≠ '<' && c ≠ '>' then some (.char c, cs)
          else none

def classNames : List String :=
  ["alnum", "alpha", "ascii", "blank", "cntrl", "digit", "graph", "lower", "print", "punct",
    "space", "upper", "word", "xdigit"]

/-- What follows a class given by name, whose bracket has been read. -/
def namedClass? : List Char → Option (List Char)
  | ':' :: cs =>
      let cs := match cs with
        | '^' :: cs => cs
        | cs => cs
      match cs.dropWhile (· ≠ ':') with
      | ':' :: ']' :: rest =>
          if String.ofList (cs.takeWhile (· ≠ ':')) ∈ classNames then some rest else none
      | _ => none
  | _ => none

/-- What follows the opening of a class: a negation, and signs that stand for themselves there. -/
def classStart (cs : List Char) : List Char :=
  let cs := match cs with
    | '^' :: cs => cs
    | cs => cs
  match cs with
  | ']' :: cs => cs
  | cs => cs.dropWhile (· = '-')

/-- The item of a class that comes first. -/
def classItem? : List Char → Option (Item × List Char)
  | [] => none
  | '\\' :: cs => escape? cs
  | c :: cs => some (.char c, cs)

/-- What follows the first item or range of a class. -/
def classRange? (cs : List Char) : Option (List Char) := do
  let (item, rest) ← classItem? cs
  match rest with
  | '-' :: ']' :: _ => if item = .anchor then none else some rest
  | '-' :: '-' :: _ => if item = .anchor then none else some rest
  | '-' :: rest =>
      let (last, rest) ← classItem? rest
      if item.isRange last then some rest else none
  | rest => if item = .anchor then none else some rest

/-- What follows a class that lies within `depth` others. -/
def classRest? : (fuel depth : Nat) → List Char → Option (List Char)
  | 0, _, _ => none
  | fuel + 1, depth, cs =>
      match cs with
      | [] => none
      | '[' :: rest =>
          match namedClass? rest with
          | some rest => classRest? fuel depth rest
          | none => classRest? fuel (depth + 1) (classStart rest)
      | ']' :: rest =>
          match depth with
          | 0 => some rest
          | depth + 1 => classRest? fuel depth rest
      | '&' :: '&' :: rest => classRest? fuel depth rest
      | '-' :: '-' :: rest => classRest? fuel depth rest
      | '~' :: '~' :: rest => classRest? fuel depth rest
      | cs => (classRange? cs).bind (classRest? fuel depth)

def isGroupName : List Char → Bool
  | [] => false
  | c :: cs =>
      (c == '_' || (isWord c && !c.isDigit)) &&
        cs.all fun c => c == '_' || c == '.' || c == '[' || c == ']' || isWord c

/-- Whether these are flags: letters of which none comes twice, with one sign to negate others. -/
def areFlags (cs : List Char) : Bool :=
  let letters := cs.filter (· ≠ '-')
  letters.all (· ∈ "imsURux".toList) && letters.Nodup && cs.length ≤ letters.length + 1 &&
    cs.getLast? ≠ some '-'

/-- What an opening parenthesis begins. -/
inductive Opening where
  | group (name : Option (List Char)) (rest : List Char)
  | flags (rest : List Char)

/-- A group with a name, which is read up to its closing bracket. -/
def namedGroup? (cs : List Char) : Option Opening :=
  let name := cs.takeWhile (· ≠ '>')
  match cs.dropWhile (· ≠ '>') with
  | _ :: rest => if isGroupName name then some (.group (some name) rest) else none
  | [] => none

/-- What begins behind an opening parenthesis. -/
def opening? : List Char → Option Opening
  | '?' :: 'P' :: '<' :: cs => namedGroup? cs
  | '?' :: '<' :: cs => namedGroup? cs
  | '?' :: cs =>
      let flags := cs.takeWhile fun c => c ≠ ':' && c ≠ ')'
      if !areFlags flags then none
      else
        match cs.drop flags.length with
        | ':' :: rest => some (.group none rest)
        | ')' :: rest => if flags.isEmpty then none else some (.flags rest)
        | _ => none
  | cs => some (.group none cs)

/--
Whether what remains of a pattern completes it: so many groups are open, some names of groups are
taken, and `operand` says whether there is something to repeat.
-/
def completes : (fuel opened : Nat) → (names : List (List Char)) → (operand : Bool) →
    List Char → Bool
  | 0, _, _, _, _ => false
  | fuel + 1, opened, names, operand, cs =>
      match cs with
      | [] => opened = 0
      | '(' :: rest =>
          match opening? rest with
          | some (.group none rest) => completes fuel (opened + 1) names false rest
          | some (.group (some name) rest) =>
              name ∉ names && completes fuel (opened + 1) (name :: names) false rest
          | some (.flags rest) => completes fuel opened names false rest
          | none => false
      | ')' :: rest =>
          match opened with
          | 0 => false
          | opened + 1 => completes fuel opened names true rest
      | '|' :: rest => completes fuel opened names false rest
      | '[' :: rest =>
          match classRest? (rest.length + 1) 0 (classStart rest) with
          | some rest => completes fuel opened names true rest
          | none => false
      | '\\' :: rest =>
          match escape? rest with
          | some (_, rest) => completes fuel opened names true rest
          | none => false
      | c :: rest =>
          if c == '*' || c == '+' || c == '?' then
            let rest := match rest with
              | '?' :: rest => rest
              | rest => rest
            operand && completes fuel opened names true rest
          else c ≠ '\x7b' && completes fuel opened names true rest

end Pattern

def isPattern (cs : List Char) : Bool :=
  Pattern.completes (cs.length + 1) 0 [] false cs

end SymbolExport.Text
