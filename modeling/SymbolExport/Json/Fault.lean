import SymbolExport.Json.Writer
import SymbolExport.Text.Bytes
import SymbolExport.Text.Quoted

/-!
# Faults of JSON texts

What can be wrong with a text, where, and how it is said. A fault of the text itself is placed at an
octet of the input; a fault of a value that was read before it was judged has no place.
-/

namespace SymbolExport.Json

/-- What stands where something else was expected. -/
inductive Found where
  | null
  | bool (b : Bool)
  | int (i : Int)
  | float (f : Float)
  | text (s : String)
  | list
  | object

inductive Cause where
  | endInValue
  | endInList
  | endInObject
  | endInText
  | expectedColon
  | expectedListNext
  | expectedObjectNext
  | expectedWord
  | expectedValue
  | keyNotText
  | trailingComma
  | trailingCharacters
  | tooDeep
  | invalidNumber
  | numberTooLarge
  | invalidEscape
  | invalidCodePoint
  | halfPair
  | loneSurrogate
  | controlCharacter
  | invalidType (found : Found) (expected : String)
  | invalidValue (found : Found) (expected : String)
  | invalidLength (length : Nat) (expected : String)
  | missingField (name : String)
  | duplicateField (name : String)
  | unknownVariant (name : String) (known : List String)

/-- A cause and the number of octets before the place it is reported at. -/
structure Fault where
  cause : Cause
  offset : Option Nat

namespace Found

def describe : Found → String
  | .null => "null"
  | .bool b => "boolean `" ++ String.ofList (boolChars b) ++ "`"
  | .int i => "integer `" ++ String.ofList (Decimal.intText i) ++ "`"
  | .float f => "floating point `" ++ String.ofList (finiteChars f) ++ "`"
  | .text s => "string " ++ Text.quoted s
  | .list => "sequence"
  | .object => "map"

end Found

/-- The known names in a message, each in backquotes. -/
def oneOf : List String → String
  | [] => "there are no variants"
  | [a] => "expected `" ++ a ++ "`"
  | [a, b] => "expected `" ++ a ++ "` or `" ++ b ++ "`"
  | names => "expected one of " ++ ", ".intercalate (names.map fun name => "`" ++ name ++ "`")

namespace Cause

def describe : Cause → String
  | .endInValue => "EOF while parsing a value"
  | .endInList => "EOF while parsing a list"
  | .endInObject => "EOF while parsing an object"
  | .endInText => "EOF while parsing a string"
  | .expectedColon => "expected `:`"
  | .expectedListNext => "expected `,` or `]`"
  | .expectedObjectNext => "expected `,` or `\x7d`"
  | .expectedWord => "expected ident"
  | .expectedValue => "expected value"
  | .keyNotText => "key must be a string"
  | .trailingComma => "trailing comma"
  | .trailingCharacters => "trailing characters"
  | .tooDeep => "recursion limit exceeded"
  | .invalidNumber => "invalid number"
  | .numberTooLarge => "number out of range"
  | .invalidEscape => "invalid escape"
  | .invalidCodePoint => "invalid unicode code point"
  | .halfPair => "unexpected end of hex escape"
  | .loneSurrogate => "lone leading surrogate in hex escape"
  | .controlCharacter => "control character (\\u0000-\\u001F) found while parsing a string"
  | .invalidType found expected => "invalid type: " ++ found.describe ++ ", expected " ++ expected
  | .invalidValue found expected => "invalid value: " ++ found.describe ++ ", expected " ++ expected
  | .invalidLength length expected =>
      "invalid length " ++ Decimal.text length ++ ", expected " ++ expected
  | .missingField name => "missing field `" ++ name ++ "`"
  | .duplicateField name => "duplicate field `" ++ name ++ "`"
  | .unknownVariant name known => "unknown variant `" ++ name ++ "`, " ++ oneOf known

end Cause

/-- A place in a text: the line, counted from one, and the octets before it on that line. -/
structure Place where
  line : Nat
  column : Nat
deriving DecidableEq, Repr

/-- The place after the first `offset` octets of a text. -/
def Place.after (input : Bytes) (offset : Nat) : Place :=
  let before := input.take offset
  { line := before.count 10 + 1
    column := (before.reverse.takeWhile (· != 10)).length }

def Fault.message (fault : Fault) (input : Bytes) : String :=
  match fault.offset with
  | none => fault.cause.describe
  | some offset =>
      let place := Place.after input offset
      fault.cause.describe ++ " at line " ++ Decimal.text place.line ++ " column " ++
        Decimal.text place.column

end SymbolExport.Json
