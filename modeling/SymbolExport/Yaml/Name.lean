import SymbolExport.Yaml.Scalar

/-!
# Anchors, tags and directives

An anchor or alias is a word. A tag is a handle, which a directive may define, and a suffix,
or in full between angle brackets. Octets of a tag may be written as percent escapes; a zero octet
ends what it stands in.
-/

namespace SymbolExport.Yaml

/-- A tag as it is written: a handle and what follows it. -/
structure TagName where
  handle : String
  suffix : Bytes
deriving DecidableEq, Repr

inductive Directive where
  | version (major minor : Nat)
  | handle (name : String) (stem : Bytes)
deriving DecidableEq, Repr

namespace Scan

/-- The name of an anchor or alias, from its indicator on. -/
def anchorName : Scan String := do
  skip 1
  let name ← takeRun isWordChar
  let next ← peek
  if name.isEmpty || !(endsWord next || next.any ("?:,]\x7d%@`".toList.contains ·)) then
    throw .anchorName
  pure (String.ofList name)

def percentOctet : Scan UInt8 := do
  match (← get).rest with
  | '%' :: a :: b :: _ =>
      match Text.hexDigit? a, Text.hexDigit? b with
      | some a, some b =>
          skip 3
          pure (UInt8.ofNat (16 * a + b))
      | _, _ => throw .tagName
  | _ => throw .tagName

/-- The number of octets of a character, from the first of them. -/
def octetCount? (b : UInt8) : Option Nat :=
  if b &&& 0x80 == 0 then some 1
  else if b &&& 0xE0 == 0xC0 then some 2
  else if b &&& 0xF0 == 0xE0 then some 3
  else if b &&& 0xF8 == 0xF0 then some 4
  else none

/-- The further octets of a character, all of them escaped. -/
def trailingOctets : Nat → Scan Bytes
  | 0 => pure []
  | n + 1 => do
      let b ← percentOctet
      if b &&& 0xC0 != 0x80 then throw .tagName
      pure (b :: (← trailingOctets n))

/-- A character whose octets are all escaped. -/
def percentCharacter : Scan Bytes := do
  let b ← percentOctet
  match octetCount? b with
  | none => throw .tagName
  | some n => pure (b :: (← trailingOctets (n - 1)))

/-- Whether a character may stand in a tag; some only do so in full tags. -/
def isTagChar (full : Bool) (c : Char) : Bool :=
  isWordChar c || ";/?:@&=+$.%!~*'()".toList.contains c || (full && ",[]".toList.contains c)

/-- The octets of the tag characters ahead. -/
def tagOctets (full : Bool) : Nat → List Bytes → Scan Bytes
  | 0, parts => pure parts.reverse.flatten
  | fuel + 1, parts => do
      match ← peek with
      | none => pure parts.reverse.flatten
      | some c =>
          if c == '%' then tagOctets full fuel ((← percentCharacter) :: parts)
          else if isTagChar full c then
            skip 1
            tagOctets full fuel (Bytes.ofString (String.ofList [c]) :: parts)
          else pure parts.reverse.flatten

/-- Tag characters, of which there must be some. -/
def someTagOctets (full : Bool) : Scan Bytes := do
  let octets ← tagOctets full ((← remaining) + 1) []
  if octets.isEmpty then throw .tagName
  pure octets

/-- The octets up to the first zero. -/
def upToZero (octets : Bytes) : Bytes :=
  octets.takeWhile (· ≠ 0)

/-- A word between exclamation marks, of which the second may be missing. -/
def handleWord : Scan (List Char) := do
  if (← peek) ≠ some '!' then throw .tagName
  skip 1
  let word ← takeRun isWordChar
  if (← peek) = some '!' then
    skip 1
    pure ('!' :: (word ++ ['!']))
  else pure ('!' :: word)

/-- A tag, from its indicator on. -/
def tagName (flow : Bool) : Scan TagName := do
  let name ←
    if (← peekAt 1) = some '<' then do
      skip 2
      let suffix ← someTagOctets true
      if (← peek) ≠ some '>' then throw .tagName
      skip 1
      pure { handle := "", suffix := upToZero suffix }
    else do
      let word ← handleWord
      if 1 < word.length && word.getLast? == some '!' then
        pure { handle := String.ofList word, suffix := upToZero (← someTagOctets false) }
      else
        let rest ← tagOctets false ((← remaining) + 1) []
        let suffix := Bytes.ofString (String.ofList (word.drop 1)) ++ upToZero rest
        if suffix.isEmpty then pure { handle := "", suffix := Bytes.ofString "!" }
        else pure { handle := "!", suffix }
  let next ← peek
  if !((flow && next == some ',') || endsWord next) then throw .tagName
  pure name

def shortNumber : Scan Nat := do
  let digits ← takeRun Char.isDigit
  if digits.isEmpty || 9 < digits.length then throw .directive
  pure (digits.foldl (fun n c => 10 * n + (c.toNat - 48)) 0)

def versionValue : Scan Directive := do
  skipRun isBlank
  let major ← shortNumber
  if (← peek) ≠ some '.' then throw .directive
  skip 1
  pure (.version major (← shortNumber))

def handleValue : Scan Directive := do
  skipRun isBlank
  let word ← handleWord
  if word ≠ ['!'] && word.getLast? ≠ some '!' then throw .directive
  if !(← peek).any isBlank then throw .directive
  skipRun isBlank
  let stem ← someTagOctets true
  if !endsWord (← peek) then throw .directive
  pure (.handle (String.ofList word) (upToZero stem))

/-- A directive with the rest of its line, from its indicator on. -/
def directive : Scan Directive := do
  skip 1
  let name ← takeRun isWordChar
  if name.isEmpty || !endsWord (← peek) then throw .directive
  let d ←
    if name = "YAML".toList then versionValue
    else if name = "TAG".toList then handleValue
    else throw .directive
  finishLine .directive
  pure d

end Scan

end SymbolExport.Yaml
