import SymbolExport.Text.Hex
import SymbolExport.Yaml.Source

/-!
# Scalar texts

A scalar is written plainly, between single or double quotes, or as a block of lines. Except in
literal blocks, line ends are folded: a single one becomes a space, of several ones the first is
dropped.
-/

namespace SymbolExport.Yaml

inductive Style where
  | plain
  | singleQuoted
  | doubleQuoted
  | literal
  | folded
deriving DecidableEq, Repr

/-- Blanks and line ends between two parts of a scalar. -/
structure Gap where
  /-- Blanks, as long as no line end has been met. -/
  spaces : List Char := []
  /-- The line ends. -/
  breaks : List Char := []
  /-- A line has ended, be it by an escaped line end. -/
  broken : Bool := false

/-- Line ends between two lines of text, folded. -/
def foldBreaks : List Char → List Char
  | ['\n'] => [' ']
  | '\n' :: breaks => breaks
  | breaks => breaks

def Gap.text (g : Gap) : List Char :=
  if g.broken then foldBreaks g.breaks else g.spaces

namespace Scan

/--
The blanks and line ends ahead. If `indent` is given, a tab may not stand before that column of a
new line.
-/
def gapFrom (indent : Option Int) : Nat → Gap → Scan Gap
  | 0, g => pure g
  | fuel + 1, g => do
      match ← peek with
      | none => pure g
      | some c =>
          if isBlank c then
            let column := (← here).column
            if g.broken && c == '\t' && indent.any fun n => (column : Int) < n then
              throw .indentation
            skip 1
            gapFrom indent fuel (if g.broken then g else { g with spaces := g.spaces ++ [c] })
          else
            match ← lineBreak with
            | none => pure g
            | some b => gapFrom indent fuel { breaks := g.breaks ++ [b], broken := true }

def gap (indent : Option Int) (broken : Bool) : Scan Gap := do
  gapFrom indent ((← remaining) + 1) { broken }

/-! ## Plain scalars -/

/-- The length of the run of characters ahead that belongs to a plain scalar. -/
def plainLength (flow : Bool) : List Char → Except Fault Nat
  | [] => pure 0
  | c :: rest =>
      if isBlank c || isBreak c then pure 0
      else if flow && c == ':' && rest.head?.any (",?[]\x7b\x7d".toList.contains ·) then
        throw (.misplaced ':')
      else if (c == ':' && endsWord rest.head?) || (flow && ",[]\x7b\x7d".toList.contains c) then
        pure 0
      else do pure ((← plainLength flow rest) + 1)

/--
A plain scalar from here on, behind the parts read before and a gap. Beside the text it is told
whether the scalar ends at the beginning of a line.
-/
def plainFrom (flow : Bool) (indent : Int) :
    Nat → List (List Char) → Gap → Scan (List Char × Bool)
  | 0, parts, g => pure (parts.reverse.flatten, g.broken)
  | fuel + 1, parts, g => do
      if (← atDocumentMarker) || (← peek) = some '#' then
        return (parts.reverse.flatten, g.broken)
      match ← plainLength flow (← get).rest with
      | 0 => pure (parts.reverse.flatten, g.broken)
      | n + 1 =>
          let run := (← get).rest.take (n + 1)
          skip (n + 1)
          let parts := run :: g.text :: parts
          match ← peek with
          | none => pure (parts.reverse.flatten, false)
          | some c =>
              if isBlank c || isBreak c then
                let g ← gap (some indent) false
                if !flow && ((← here).column : Int) < indent then
                  pure (parts.reverse.flatten, g.broken)
                else plainFrom flow indent fuel parts g
              else pure (parts.reverse.flatten, false)

/-- A plain scalar, and whether it ends at the beginning of a line. -/
def plain (flow : Bool) (indent : Int) : Scan (List Char × Bool) := do
  plainFrom flow indent ((← remaining) + 1) [] {}

/-! ## Quoted scalars -/

/-- The character whose number is written in the next `n` hexadecimal digits. -/
def codePoint (n : Nat) : Scan Char := do
  match Text.codePoint? n (← get).rest with
  | none => throw .escape
  | some c =>
      skip n
      pure c

/-- The character of an escape sequence behind the backslash. -/
def escape : Scan Char := do
  let c ← peek
  skip 1
  match c with
  | some '0' => pure '\x00'
  | some 'a' => pure '\x07'
  | some 'b' => pure '\x08'
  | some 't' => pure '\t'
  | some '\t' => pure '\t'
  | some 'n' => pure '\n'
  | some 'v' => pure '\x0b'
  | some 'f' => pure '\x0c'
  | some 'r' => pure '\r'
  | some 'e' => pure '\x1b'
  | some ' ' => pure ' '
  | some '"' => pure '"'
  | some '/' => pure '/'
  | some '\\' => pure '\\'
  | some 'N' => pure '\u0085'
  | some '_' => pure '\u00a0'
  | some 'L' => pure '\u2028'
  | some 'P' => pure '\u2029'
  | some 'x' => codePoint 2
  | some 'u' => codePoint 4
  | some 'U' => codePoint 8
  | _ => throw .escape

/--
The characters up to a blank, a line end or the closing quote, behind those read before, which are
in reverse. An escaped line end also stops them, and is reported.
-/
def quotedRun (double : Bool) : Nat → List Char → Scan (List Char × Bool)
  | 0, run => pure (run.reverse, false)
  | fuel + 1, run => do
      match ← peek with
      | none => pure (run.reverse, false)
      | some c =>
          if isBlank c || isBreak c then pure (run.reverse, false)
          else if double then
            if c == '"' then pure (run.reverse, false)
            else if c == '\\' then
              skip 1
              match ← lineBreak with
              | some _ => pure (run.reverse, true)
              | none => quotedRun double fuel ((← escape) :: run)
            else
              skip 1
              quotedRun double fuel (c :: run)
          else if c == '\'' then
            if (← peekAt 1) = some '\'' then
              skip 2
              quotedRun double fuel (c :: run)
            else pure (run.reverse, false)
          else
            skip 1
            quotedRun double fuel (c :: run)

/-- A quoted scalar from here on, behind the parts read before. -/
def quotedFrom (double : Bool) : Nat → List (List Char) → Scan (List Char)
  | 0, _ => throw .unclosedQuote
  | fuel + 1, parts => do
      if (← atDocumentMarker) || (← peek).isNone then throw .unclosedQuote
      let (run, escaped) ← quotedRun double ((← remaining) + 1) []
      if (← peek) = some (if double then '"' else '\'') then
        skip 1
        pure (run :: parts).reverse.flatten
      else
        let g ← gap none escaped
        let text := if escaped then g.breaks else g.text
        quotedFrom double fuel (text :: run :: parts)

/-- A quoted scalar, from its opening quote on. -/
def quoted (double : Bool) : Scan (List Char) := do
  skip 1
  quotedFrom double ((← remaining) + 1) []

/-! ## Block scalars -/

/-- What becomes of the line ends behind a block. -/
inductive Chomp where
  | strip
  | clip
  | keep
deriving DecidableEq, Repr

/-- The line ends of a block to be kept, if the next character says so. -/
def chomp? : Scan (Option Chomp) := do
  match ← peek with
  | some '+' => skip 1; pure (some .keep)
  | some '-' => skip 1; pure (some .strip)
  | _ => pure none

/-- The indentation that a block adds, if the next character gives it. -/
def increment? : Scan (Option Nat) := do
  match ← peek with
  | some c =>
      if c == '0' then throw .blockHeader
      else if c.isDigit then skip 1; pure (some (c.toNat - 48))
      else pure none
  | none => pure none

/-- What stands behind the indicator of a block, in either order. -/
def blockHeader : Scan (Chomp × Option Nat) := do
  match ← chomp? with
  | some chomp => pure (chomp, ← increment?)
  | none =>
      match ← increment? with
      | some n => pure ((← chomp?).getD .clip, some n)
      | none => pure (.clip, none)

/--
Moves over empty lines and over the indentation of the next line. Gives the line ends and the
largest column reached. Without a known indentation all spaces belong to it.
-/
def emptyLines (indent : Option Nat) : Nat → List Char → Nat → Scan (List Char × Nat)
  | 0, breaks, deepest => pure (breaks.reverse, deepest)
  | fuel + 1, breaks, deepest => do
      let s ← get
      let spaces := (s.rest.takeWhile (· == ' ')).length
      skip (match indent with
        | none => spaces
        | some n => min spaces (n - s.mark.column))
      let column := (← here).column
      if (indent.all fun n => column < n) && (← peek) = some '\t' then throw .indentation
      let deepest := max deepest column
      match ← lineBreak with
      | some b => emptyLines indent fuel (b :: breaks) deepest
      | none => pure (breaks.reverse, deepest)

structure Block where
  parts : List (List Char) := []
  /-- The end of the last line. -/
  lineEnd : List Char := []
  /-- The ends of the empty lines behind it. -/
  emptyEnds : List Char := []
  /-- The last line began with a blank. -/
  blankStart : Bool := false

def blockLines (folded : Bool) (indent : Nat) : Nat → Block → Scan Block
  | 0, block => pure block
  | fuel + 1, block => do
      match ← peek with
      | none => pure block
      | some c =>
          if (← here).column ≠ indent then return block
          let blankStart := isBlank c
          let joint :=
            if folded && block.lineEnd == ['\n'] && !block.blankStart && !blankStart then
              if block.emptyEnds.isEmpty then [' '] else []
            else block.lineEnd
          let line ← takeRun fun c => !isBreak c
          let lineEnd := (← lineBreak).toList
          let (emptyEnds, _) ← emptyLines (some indent) ((← remaining) + 1) [] 0
          blockLines folded indent fuel
            { parts := line :: block.emptyEnds :: joint :: block.parts, lineEnd, emptyEnds,
              blankStart }

/-- A block scalar, from its indicator on, inside a collection indented by `parent`. -/
def block (folded : Bool) (parent : Int) : Scan (List Char) := do
  skip 1
  let (chomp, increment) ← blockHeader
  finishLine .blockHeader
  let indent := increment.map fun n => (max parent 0).toNat + n
  let (emptyEnds, deepest) ← emptyLines indent ((← remaining) + 1) [] 0
  let indent := indent.getD (max deepest (max (parent + 1).toNat 1))
  let block ← blockLines folded indent ((← remaining) + 1) { emptyEnds }
  let text := block.parts.reverse.flatten
  match chomp with
  | .strip => pure text
  | .clip => pure (text ++ block.lineEnd)
  | .keep => pure (text ++ block.lineEnd ++ block.emptyEnds)

end Scan

end SymbolExport.Yaml
