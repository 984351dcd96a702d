import SymbolExport.Yaml.Name

/-!
# Tokens

A YAML text as a list of tokens. Indentation becomes explicit: the start and the end of every block
collection has a token of its own.

A key in front of a colon is recognised only when the colon is met. Until then its place is
remembered, one place for each level of flow collections, and the tokens that announce it are
inserted there afterwards. Such a key must stay on one line and within 1024 octets.
-/

namespace SymbolExport.Yaml

inductive Token where
  | directive (d : Directive)
  | documentStart
  | documentEnd
  | streamEnd
  | sequenceStart
  | mappingStart
  | blockEnd
  | flowSequenceStart
  | flowSequenceEnd
  | flowMappingStart
  | flowMappingEnd
  | blockEntry
  | flowEntry
  | key
  | value
  | alias (name : String)
  | anchor (name : String)
  | tag (name : TagName)
  | scalar (style : Style) (text : String)
deriving DecidableEq, Repr

/-- A place where a key may have begun. -/
structure PossibleKey where
  /-- A line that begins in the column of its mapping must hold a key. -/
  required : Bool
  /-- The number of tokens before it. -/
  position : Nat
  mark : Mark

/-- A text of which some tokens have been found. -/
structure Layout where
  source : Source
  /-- The tokens found, the last one first. -/
  tokens : List Token := []
  /-- The number of tokens found. -/
  count : Nat := 0
  /-- The number of flow collections around the current place. -/
  flow : Nat := 0
  /-- The column of the innermost block collection, `-1` outside of all. -/
  indent : Int := -1
  /-- The columns of the block collections around it. -/
  outer : List Int := []
  /-- A key may begin here. -/
  keyAllowed : Bool := true
  /-- A key that may have begun, for this level of flow collections and those around it. -/
  keys : List (Option PossibleKey) := [none]

abbrev Lay (α : Type) := StateT Layout (Except Fault) α

namespace Layout

/-- The longest key that needs no indicator, in octets. -/
def longestKey : Nat := 1024

def reading {α : Type} (scan : Scan α) : Lay α := do
  let l ← get
  let (a, source) ← scan.run l.source
  set { l with source }
  pure a

def column : Lay Int :=
  return ((← get).source.mark.column : Int)

def inFlow : Lay Bool :=
  return (← get).flow != 0

def emit (t : Token) : Lay Unit :=
  modify fun l => { l with tokens := t :: l.tokens, count := l.count + 1 }

/-- Adds a token before the one at a position. -/
def insert (position : Nat) (t : Token) : Lay Unit :=
  modify fun l =>
    let behind := l.count - position
    { l with tokens := l.tokens.take behind ++ t :: l.tokens.drop behind, count := l.count + 1 }

/-- Says whether a key may begin at the next token. -/
def allowKey (allowed : Bool) : Lay Unit :=
  modify fun l => { l with keyAllowed := allowed }

/-- Gives up a key for which no colon was found; a required one is missed. -/
def dropKey : Option PossibleKey → Lay (Option PossibleKey)
  | some key => if key.required then throw .keyWithoutValue else pure none
  | none => pure none

/-- Gives up the key of this level. -/
def forgetKey : Lay Unit := do
  match (← get).keys with
  | key :: keys =>
      let key ← dropKey key
      modify fun l => { l with keys := key :: keys }
  | [] => pure ()

/-- Remembers the current place as one where a key may begin. -/
def rememberKey : Lay Unit := do
  let l ← get
  if l.keyAllowed then
    forgetKey
    let key : PossibleKey :=
      { required := l.flow == 0 && l.indent == (l.source.mark.column : Int)
        position := l.count
        mark := l.source.mark }
    modify fun l => { l with keys := some key :: l.keys.drop 1 }

/-- Gives up the keys that end on an earlier line or have become too long. -/
def forgetStaleKeys : Lay Unit := do
  let l ← get
  let mark := l.source.mark
  let keys ← l.keys.mapM fun
    | some key =>
        if key.mark.line < mark.line || key.mark.index + longestKey < mark.index then
          dropKey (some key)
        else pure (some key)
    | none => pure none
  modify fun l => { l with keys }

/-- Opens a block collection in a column, unless one is open there. -/
def openBlock (column : Int) (add : Lay Unit) : Lay Unit := do
  let l ← get
  if l.flow == 0 && l.indent < column then
    set { l with indent := column, outer := l.indent :: l.outer }
    add

/-- Closes block collections to the right of a column, at most as many as there are. -/
def closeBlocksFrom (column : Int) : Nat → Lay Unit
  | 0 => pure ()
  | n + 1 => do
      let l ← get
      if column < l.indent then
        set { l with indent := l.outer.headD (-1), outer := l.outer.drop 1 }
        emit .blockEnd
        closeBlocksFrom column n

/-- Closes the block collections to the right of a column. -/
def closeBlocks (column : Int) : Lay Unit := do
  let l ← get
  if l.flow == 0 then closeBlocksFrom column l.outer.length

/-- Moves over blanks, comments and line ends to the next token. -/
def skipToToken : Nat → Lay Unit
  | 0 => pure ()
  | fuel + 1 => do
      if (← column) == 0 && (← reading Scan.peek) == some '\ufeff' then reading (Scan.skip 1)
      let l ← get
      let tabs := l.flow != 0 || !l.keyAllowed
      reading (Scan.skipRun fun c => c == ' ' || (tabs && c == '\t'))
      reading Scan.skipComment
      match ← reading Scan.lineBreak with
      | none => pure ()
      | some _ =>
          if !(← inFlow) then allowKey true
          skipToToken fuel

/-- Moves over a single character that is a token of its own. -/
def indicator (t : Token) : Lay Unit := do
  reading (Scan.skip 1)
  emit t

def finish : Lay Unit := do
  closeBlocks (-1)
  forgetKey
  allowKey false
  emit .streamEnd

def directive : Lay Unit := do
  closeBlocks (-1)
  forgetKey
  allowKey false
  emit (.directive (← reading Scan.directive))

def documentMarker (t : Token) : Lay Unit := do
  closeBlocks (-1)
  forgetKey
  allowKey false
  reading (Scan.skip 3)
  emit t

def openFlow (t : Token) : Lay Unit := do
  rememberKey
  modify fun l => { l with flow := l.flow + 1, keys := none :: l.keys, keyAllowed := true }
  indicator t

def closeFlow (t : Token) : Lay Unit := do
  forgetKey
  modify fun l =>
    { l with
      flow := l.flow - 1
      keys := if l.flow == 0 then l.keys else l.keys.drop 1
      keyAllowed := false }
  indicator t

/-- The comma between entries of a flow collection. -/
def flowEntry : Lay Unit := do
  forgetKey
  allowKey true
  indicator .flowEntry

/-- The dash of a sequence entry. -/
def blockEntry : Lay Unit := do
  if !(← inFlow) then
    if !(← get).keyAllowed then throw (.misplaced '-')
    openBlock (← column) (emit .sequenceStart)
  forgetKey
  allowKey true
  indicator .blockEntry

/-- The question mark of an explicit key. -/
def keyIndicator : Lay Unit := do
  if !(← inFlow) then
    if !(← get).keyAllowed then throw (.misplaced '?')
    openBlock (← column) (emit .mappingStart)
  forgetKey
  allowKey (!(← inFlow))
  indicator .key

/-- The colon of a value; a key remembered before it becomes certain. -/
def valueIndicator : Lay Unit := do
  match (← get).keys.head?.join with
  | some key =>
      insert key.position .key
      openBlock key.mark.column (insert key.position .mappingStart)
      modify fun l => { l with keys := none :: l.keys.drop 1, keyAllowed := false }
  | none =>
      if !(← inFlow) then
        if !(← get).keyAllowed then throw (.misplaced ':')
        openBlock (← column) (emit .mappingStart)
      allowKey (!(← inFlow))
  indicator .value

/-- A token that may be the beginning of a key. -/
def property (scan : Scan Token) : Lay Unit := do
  rememberKey
  allowKey false
  emit (← reading scan)

def blockScalar (folded : Bool) : Lay Unit := do
  forgetKey
  allowKey true
  let text ← reading (Scan.block folded (← get).indent)
  emit (.scalar (if folded then .folded else .literal) (String.ofList text))

/-- A plain scalar; behind one that ends at the beginning of a line a key may begin. -/
def plainScalar : Lay Unit := do
  rememberKey
  allowKey false
  let (text, broken) ← reading (Scan.plain (← inFlow) ((← get).indent + 1))
  if broken then allowKey true
  emit (.scalar .plain (String.ofList text))

/-- Whether a plain scalar may begin with a character, given the one behind it. -/
def startsPlain (flow : Bool) (c : Char) (next : Option Char) : Bool :=
  if c == '-' then !next.any isBlank
  else if c == '?' || c == ':' then !flow && !endsWord next
  else !(isBlank c || isBreak c || ",[]\x7b\x7d#&*!|>'\"%@`".toList.contains c)

/-- The next token; the end of the text is the last one. -/
def token : Lay Unit := do
  skipToToken ((← get).source.remaining + 1)
  forgetStaleKeys
  closeBlocks (← column)
  match ← reading Scan.peek with
  | none => finish
  | some c =>
      let next ← reading (Scan.peekAt 1)
      let flow ← inFlow
      if (← column) == 0 && c == '%' then directive
      else if ← reading (Scan.atMarker '-') then documentMarker .documentStart
      else if ← reading (Scan.atMarker '.') then documentMarker .documentEnd
      else if c == '[' then openFlow .flowSequenceStart
      else if c == '\x7b' then openFlow .flowMappingStart
      else if c == ']' then closeFlow .flowSequenceEnd
      else if c == '\x7d' then closeFlow .flowMappingEnd
      else if c == ',' then flowEntry
      else if c == '-' && endsWord next then blockEntry
      else if c == '?' && (flow || endsWord next) then keyIndicator
      else if c == ':' && (flow || endsWord next) then valueIndicator
      else if c == '*' then property (do pure (.alias (← Scan.anchorName)))
      else if c == '&' then property (do pure (.anchor (← Scan.anchorName)))
      else if c == '!' then property (do pure (.tag (← Scan.tagName flow)))
      else if c == '|' && !flow then blockScalar false
      else if c == '>' && !flow then blockScalar true
      else if c == '\'' then
        property (do pure (.scalar .singleQuoted (String.ofList (← Scan.quoted false))))
      else if c == '"' then
        property (do pure (.scalar .doubleQuoted (String.ofList (← Scan.quoted true))))
      else if startsPlain flow c next then plainScalar
      else throw .unexpectedCharacter

/-- All tokens up to the end of the text, each of which takes at least one character. -/
def allTokens : Nat → Lay Unit
  | 0 => finish
  | fuel + 1 => do
      token
      if (← get).tokens.head? != some .streamEnd then allTokens fuel

end Layout

def tokens (text : List Char) : Except Fault (List Token) := do
  let (_, l) ← (Layout.allTokens (text.length + 1)).run { source := .start text }
  pure l.tokens.reverse

end SymbolExport.Yaml
