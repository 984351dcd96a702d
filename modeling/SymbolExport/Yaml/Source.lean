import SymbolExport.Text.Bytes

/-!
# Characters of a YAML text

A text is a list of printable characters. It is read from left to right; the place in it is kept as
the number of octets read, the line and the column.
-/

namespace SymbolExport.Yaml

/-- Why a text is not the document that was wanted. -/
inductive Fault where
  | notText
  | controlCharacter
  | unexpectedCharacter
  | indentation
  | keyWithoutValue
  | misplaced (indicator : Char)
  | anchorName
  | tagName
  | directive
  | escape
  | unclosedQuote
  | blockHeader
  | nodeExpected
  | separatorExpected
  | version
  | undefinedHandle
  | unknownAlias
  | severalDocuments
  | tooDeep
  | tooManyAliases
  | wideInteger
  | unknownTag
  | mismatch (expected : String)
  | missingField (name : String)
  | duplicateField (name : String)
  | unknownName (name : String)
deriving DecidableEq, Repr

def Fault.message : Fault → String
  | .notText => "the text is not valid UTF-8"
  | .controlCharacter => "control characters are not allowed"
  | .unexpectedCharacter => "found a character that cannot start a token"
  | .indentation => "found a tab where indentation is expected"
  | .keyWithoutValue => "could not find the value of a key"
  | .misplaced indicator => "found a misplaced '" ++ String.ofList [indicator] ++ "'"
  | .anchorName => "found an invalid anchor or alias"
  | .tagName => "found an invalid tag"
  | .directive => "found an invalid directive"
  | .escape => "found an invalid escape sequence"
  | .unclosedQuote => "found a quoted scalar without its end"
  | .blockHeader => "found an invalid block scalar header"
  | .nodeExpected => "did not find expected node content"
  | .separatorExpected => "did not find the next entry or the end of a collection"
  | .version => "found an incompatible document version"
  | .undefinedHandle => "found an undefined tag handle"
  | .unknownAlias => "found an unknown alias"
  | .severalDocuments => "found more than one document"
  | .tooDeep => "recursion limit exceeded"
  | .tooManyAliases => "repetition limit exceeded"
  | .wideInteger => "found an integer of more than 64 bits"
  | .unknownTag => "found an unknown tag"
  | .mismatch expected => "expected " ++ expected
  | .missingField name => "missing field '" ++ name ++ "'"
  | .duplicateField name => "duplicate field '" ++ name ++ "'"
  | .unknownName name => "unknown name '" ++ name ++ "'"

def isBreak (c : Char) : Bool :=
  c == '\n' || c == '\r' || c == '\u0085' || c == '\u2028' || c == '\u2029'

def isBlank (c : Char) : Bool :=
  c == ' ' || c == '\t'

/-- Whether nothing, a blank or a line end follows. -/
def endsWord : Option Char → Bool
  | none => true
  | some c => isBlank c || isBreak c

/-- Whether a character may stand in an anchor or a tag handle. -/
def isWordChar (c : Char) : Bool :=
  c.isAlphanum || c == '_' || c == '-'

/-- Whether a text may hold a character. -/
def isPrintable (c : Char) : Bool :=
  let n := c.toNat
  n == 0x09 || n == 0x0A || n == 0x0D || (0x20 ≤ n && n ≤ 0x7E) || n == 0x85 ||
    (0xA0 ≤ n && n ≤ 0xFFFD) || 0x10000 ≤ n

/-- The characters of a text, if they are all printable. -/
def characters (input : Bytes) : Except Fault (List Char) :=
  match input.toString? with
  | none => .error .notText
  | some s => if s.toList.all isPrintable then .ok s.toList else .error .controlCharacter

structure Mark where
  /-- The number of octets before it. -/
  index : Nat := 0
  line : Nat := 0
  column : Nat := 0
deriving DecidableEq, Repr

/-- What has not been read yet, where it begins, and the numbers of characters read and in all. -/
structure Source where
  rest : List Char
  mark : Mark
  taken : Nat
  size : Nat
  covers : taken + rest.length = size

namespace Source

def start (text : List Char) : Source where
  rest := text
  mark := {}
  taken := 0
  size := text.length
  covers := Nat.zero_add _

def remaining (s : Source) : Nat :=
  s.size - s.taken

theorem length_rest (s : Source) : s.rest.length = s.remaining := by
  have := s.covers
  unfold remaining
  omega

/-- The source behind the next `n` characters, or at the end if there are fewer. -/
def drop (s : Source) (n line column : Nat) : Source where
  rest := s.rest.drop n
  mark :=
    { index := (s.rest.take n).foldl (fun octets c => octets + c.utf8Size) s.mark.index
      line
      column }
  taken := s.taken + min n s.remaining
  size := s.size
  covers := by
    have := s.covers
    rw [List.length_drop, ← length_rest]
    omega

end Source

abbrev Scan (α : Type) := StateT Source (Except Fault) α

namespace Scan

def here : Scan Mark :=
  return (← get).mark

def remaining : Scan Nat :=
  return (← get).remaining

def peek : Scan (Option Char) :=
  return (← get).rest.head?

/-- The character `n` places further on, if there is one. -/
def peekAt (n : Nat) : Scan (Option Char) :=
  return (← get).rest[n]?

/-- Moves over `n` characters of the current line. -/
def skip (n : Nat) : Scan Unit :=
  modify fun s => s.drop n s.mark.line (s.mark.column + n)

/-- The characters ahead that have a property, none of them a line end. -/
def takeRun (p : Char → Bool) : Scan (List Char) := do
  let run := (← get).rest.takeWhile p
  skip run.length
  pure run

/-- Moves over the characters ahead that have a property, none of them a line end. -/
def skipRun (p : Char → Bool) : Scan Unit := do
  let _ ← takeRun p

/-- Moves to the line after the next `n` characters. -/
def nextLine (n : Nat) : Scan Unit :=
  modify fun s => s.drop n (s.mark.line + 1) 0

/-- The line end ahead, if there is one; the usual forms all count as a line feed. -/
def lineBreak : Scan (Option Char) := do
  match (← get).rest with
  | '\r' :: '\n' :: _ => nextLine 2; pure (some '\n')
  | c :: _ =>
      if c == '\n' || c == '\r' || c == '\u0085' then nextLine 1; pure (some '\n')
      else if isBreak c then nextLine 1; pure (some c)
      else pure none
  | [] => pure none

/-- Whether a document marker made of three characters `c` stands at the beginning of the line. -/
def atMarker (c : Char) : Scan Bool := do
  let s ← get
  pure (s.mark.column == 0 && s.rest.take 3 == [c, c, c] && endsWord s.rest[3]?)

/-- Whether a line begins here that ends or starts a document. -/
def atDocumentMarker : Scan Bool :=
  return (← atMarker '-') || (← atMarker '.')

/-- Moves over a comment, if one begins here. -/
def skipComment : Scan Unit := do
  if (← peek) = some '#' then skipRun fun c => !isBreak c

/-- Moves to the next line; only blanks and a comment may stand before it. -/
def finishLine (otherwise : Fault) : Scan Unit := do
  skipRun isBlank
  skipComment
  match ← peek with
  | none => pure ()
  | some c => if isBreak c then let _ ← lineBreak else throw otherwise

end Scan

end SymbolExport.Yaml
