import SymbolExport.Shape.Basic

/-!
# Writing shaped values

A structure is written as an object with its fields in order; a field without a value is left out.
-/

namespace SymbolExport

/-- A natural number as JSON; a count always fits into 64 bits. -/
def Json.ofNat (n : Nat) : Json :=
  .int (.ofUInt64 (UInt64.ofNat n))

mutual

def Shape.toJson : (shape : Shape) → shape.Value → Json
  | .text, s => .text s
  | .flag, b => .bool b
  | .count, n => Json.ofNat n
  | .choice names, i => .text (names.get i)
  | .optional _, none => .null
  | .optional inner, some v => inner.toJson v
  | .list item, vs => .list (vs.map item.toJson)
  | .value, v => v.toJson
  | .struct _ fields, v => .object (fields.toFields v)

def Fields.toFields : (fields : Fields) → fields.Value → List (String × Json)
  | .nil, () => []
  | .required name shape others, (v, rest) => (name, shape.toJson v) :: others.toFields rest
  | .defaulted _ _ others, (none, rest) => others.toFields rest
  | .defaulted name shape others, (some v, rest) =>
      (name, shape.toJson v) :: others.toFields rest

end

/-- The fields of a value that is written as an object. -/
def Shape.fieldsOf (shape : Shape) (v : shape.Value) : List (String × Json) :=
  match shape.toJson v with
  | .object fields => fields
  | _ => []

def toJson {α : Type} [Shaped α] (a : α) : Json :=
  (shapeOf α).toJson (pack a)

def encode {α : Type} [Shaped α] (a : α) : String :=
  (toJson a).compact

end SymbolExport
