/-!
# JSON values

A value as it was written: an object keeps its fields in order, repeated keys included. `merged`
applies the rule for repeated keys, that the first position and the last value count.
-/

namespace SymbolExport

/-- An integer that fits into 64 bits, with or without a sign. -/
structure WideInt where
  val : Int
  lower : -9223372036854775808 ≤ val
  upper : val < 18446744073709551616
deriving DecidableEq

namespace WideInt

def ofInt? (i : Int) : Option WideInt :=
  if h : -9223372036854775808 ≤ i ∧ i < 18446744073709551616 then some ⟨i, h.1, h.2⟩ else none

def ofUInt64 (n : UInt64) : WideInt :=
  ⟨n.toNat, by have := n.toNat_lt; omega, by have := n.toNat_lt; omega⟩

def ofInt64 (n : Int64) : WideInt :=
  ⟨n.toInt, n.le_toInt, by have := n.toInt_lt; omega⟩

end WideInt

/-- A JSON value as it was written. -/
inductive Json where
  | null
  | bool (b : Bool)
  | int (n : WideInt)
  | float (f : Float)
  | text (s : String)
  | list (items : List Json)
  | object (fields : List (String × Json))
deriving Inhabited

namespace Json

/-- Puts a field into a list: a known key keeps its place and takes the new value. -/
def putField {α : Type} (fields : List (String × α)) (key : String) (value : α) :
    List (String × α) :=
  match fields with
  | [] => [(key, value)]
  | (k, v) :: rest =>
      if k = key then (k, value) :: rest else (k, v) :: putField rest key value

def putFields {α : Type} (fields new : List (String × α)) : List (String × α) :=
  new.foldl (fun acc field => putField acc field.1 field.2) fields

mutual

/-- The value with every repeated key merged. -/
def merged : Json → Json
  | .list items => .list (mergedItems items)
  | .object fields => .object (putFields [] (mergedFields fields))
  | .null => .null
  | .bool b => .bool b
  | .int n => .int n
  | .float f => .float f
  | .text s => .text s

def mergedItems : List Json → List Json
  | [] => []
  | item :: items => merged item :: mergedItems items

/-- The field values with every repeated key merged; the fields themselves are kept. -/
def mergedFields : List (String × Json) → List (String × Json)
  | [] => []
  | (key, value) :: fields => (key, merged value) :: mergedFields fields

end

end Json

end SymbolExport
