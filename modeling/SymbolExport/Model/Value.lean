import SymbolExport.Json.Reader

/-!
# Runtime values

The value of a variable or a constant. A value that comes from JSON takes the first kind it fits:
an integer is signed as long as it can be. Lists hold runtime values, maps hold plain JSON.
-/

namespace SymbolExport

inductive RuntimeValue where
  | null
  | bool (b : Bool)
  | int (n : Int64)
  | uint (n : UInt64)
  | float (f : Float)
  | text (s : String)
  | list (items : List RuntimeValue)
  | map (fields : List (String × Json))
deriving Inhabited

namespace RuntimeValue

/-- A 64-bit integer: signed if it fits, unsigned otherwise. -/
def ofWideInt (n : WideInt) : RuntimeValue :=
  if n.val < 9223372036854775808 then .int (Int64.ofInt n.val) else .uint (UInt64.ofNat n.val.toNat)

mutual

/-- The runtime value that a JSON value stands for. -/
def ofJson : Json → RuntimeValue
  | .null => .null
  | .bool b => .bool b
  | .int n => ofWideInt n
  | .float f => .float f
  | .text s => .text s
  | .list items => .list (ofItems items)
  | .object fields => .map (Json.putFields [] (Json.mergedFields fields))

def ofItems : List Json → List RuntimeValue
  | [] => []
  | item :: items => ofJson item :: ofItems items

end

mutual

/-- The JSON value that represents a runtime value. -/
def toJson : RuntimeValue → Json
  | .null => .null
  | .bool b => .bool b
  | .int n => .int (.ofInt64 n)
  | .uint n => .int (.ofUInt64 n)
  | .float f => .float f
  | .text s => .text s
  | .list items => .list (itemsToJson items)
  | .map fields => .object fields

def itemsToJson : List RuntimeValue → List Json
  | [] => []
  | item :: items => toJson item :: itemsToJson items

end

/-- In a field a whole number has no point, and a positive exponent has no sign. -/
def floatLayout : Decimal.Layout where
  keepsPoint := false
  signedExponent := false
  tie := .up

def positionalText (f : Float) : String :=
  if f.isNaN then "NaN"
  else if f.isInf then (if f < 0 then "-inf" else "inf")
  else String.ofList (floatLayout.finite floatLayout.positional f)

def exponentialText (f : Float) : String :=
  String.ofList (floatLayout.finite floatLayout.exponential f)

/-- A number in a field: very large and very small ones have an exponent. -/
def floatText (f : Float) : String :=
  let magnitude := f.abs
  if f.isFinite && magnitude != 0 && !(1e-4 ≤ magnitude && magnitude < 1e15) then exponentialText f
  else positionalText f

def flagText (b : Bool) : String :=
  if b then "true" else "false"

/-- The value as the text of one field: scalars as they are, lists and maps in compact JSON. -/
def toField : RuntimeValue → String
  | .null => ""
  | .bool b => flagText b
  | .int n => String.ofList (Decimal.intText n.toInt)
  | .uint n => String.ofList (Decimal.natText n.toNat)
  | .float f => floatText f
  | .text s => s
  | .list items => (toJson (.list items)).compact
  | .map fields => (toJson (.map fields)).compact

end RuntimeValue

end SymbolExport
