import SymbolExport.Decimal.Layout
import SymbolExport.Json.Value

/-!
# Writing JSON

The compact form has no white space. The indented form puts every item and field on a line of its
own, two spaces deeper than its container. Numbers that are not finite are written as `null`.
-/

namespace SymbolExport.Json

def floatLayout : Decimal.Layout where
  keepsPoint := true
  signedExponent := true
  tie := .toEven

def escapedChar (c : Char) : List Char :=
  match c with
  | '"' => ['\\', '"']
  | '\\' => ['\\', '\\']
  | '\x08' => ['\\', 'b']
  | '\t' => ['\\', 't']
  | '\n' => ['\\', 'n']
  | '\x0c' => ['\\', 'f']
  | '\r' => ['\\', 'r']
  | _ =>
      if c.toNat < 0x20 then
        ['\\', 'u', '0', '0', Nat.digitChar (c.toNat / 16), Nat.digitChar (c.toNat % 16)]
      else [c]

def literal (s : String) : List Char :=
  '"' :: (s.toList.flatMap escapedChar ++ ['"'])

/-- Digits are positional from `10^-5` up to below `10^16`. -/
def magnitudeChars (s : Decimal.Scientific) : List Char :=
  if -5 ≤ s.exponent ∧ s.exponent ≤ 15 then floatLayout.positional s else floatLayout.exponential s

def finiteChars (f : Float) : List Char :=
  floatLayout.finite magnitudeChars f

/-- A number literal, or `null` for a number that is not finite. -/
def floatChars (f : Float) : List Char :=
  if f.isFinite then finiteChars f else ['n', 'u', 'l', 'l']

def boolChars (b : Bool) : List Char :=
  if b then ['t', 'r', 'u', 'e'] else ['f', 'a', 'l', 's', 'e']

mutual

def chars : Json → List Char
  | .null => ['n', 'u', 'l', 'l']
  | .bool b => boolChars b
  | .int n => Decimal.intText n.val
  | .float f => floatChars f
  | .text s => literal s
  | .list [] => ['[', ']']
  | .list (item :: items) => '[' :: (chars item ++ itemsChars items)
  | .object [] => ['\x7b', '\x7d']
  | .object ((key, value) :: fields) =>
      '\x7b' :: (literal key ++ ':' :: (chars value ++ fieldsChars fields))

/-- The items after the first one, and the closing bracket. -/
def itemsChars : List Json → List Char
  | [] => [']']
  | item :: items => ',' :: (chars item ++ itemsChars items)

/-- The fields after the first one, and the closing brace. -/
def fieldsChars : List (String × Json) → List Char
  | [] => ['\x7d']
  | (key, value) :: fields =>
      ',' :: (literal key ++ ':' :: (chars value ++ fieldsChars fields))

end

def compact (v : Json) : String :=
  String.ofList v.chars

/-- A line break and the indentation of a depth. -/
def lineBreak (depth : Nat) : List Char :=
  '\n' :: List.replicate (2 * depth) ' '

mutual

/-- The indented text of a value at a depth. -/
def indentedChars (depth : Nat) : Json → List Char
  | .list [] => ['[', ']']
  | .list (item :: items) =>
      '[' :: (lineBreak (depth + 1) ++ indentedChars (depth + 1) item ++ indentedItems depth items)
  | .object [] => ['\x7b', '\x7d']
  | .object ((key, value) :: fields) =>
      '\x7b' :: (lineBreak (depth + 1) ++ literal key ++ ':' :: ' ' ::
        (indentedChars (depth + 1) value ++ indentedFields depth fields))
  | .null => chars .null
  | .bool b => chars (.bool b)
  | .int n => chars (.int n)
  | .float f => chars (.float f)
  | .text s => chars (.text s)

/-- The items after the first one, and the closing bracket. -/
def indentedItems (depth : Nat) : List Json → List Char
  | [] => lineBreak depth ++ [']']
  | item :: items =>
      ',' :: (lineBreak (depth + 1) ++ indentedChars (depth + 1) item ++ indentedItems depth items)

/-- The fields after the first one, and the closing brace. -/
def indentedFields (depth : Nat) : List (String × Json) → List Char
  | [] => lineBreak depth ++ ['\x7d']
  | (key, value) :: fields =>
      ',' :: (lineBreak (depth + 1) ++ literal key ++ ':' :: ' ' ::
        (indentedChars (depth + 1) value ++ indentedFields depth fields))

end

def indented (v : Json) : String :=
  String.ofList (v.indentedChars 0)

end SymbolExport.Json
