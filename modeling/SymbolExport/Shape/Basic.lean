import SymbolExport.Model.Value

/-!
# Shapes of structured data

A shape describes what a document may hold: texts, flags, counts, one of several names, lists,
runtime values, and structures with named fields. The type of the values of a shape is computed
from it, so one reader and one writer for each format serve all structured types of the library.

A field is either required, or it may be left out and its type says what holds then.
-/

namespace SymbolExport

mutual

/-- What a document may hold at some place. -/
inductive Shape where
  | text
  | flag
  | count
  | choice {n : Nat} (names : Vector String n)
  | optional (inner : Shape)
  | list (item : Shape)
  | value
  | struct (title : String) (fields : Fields)

/-- The fields of a structure, in the order in which they are declared and written. -/
inductive Fields where
  | nil
  | required (name : String) (shape : Shape) (others : Fields)
  | defaulted (name : String) (shape : Shape) (others : Fields)

end

mutual

@[reducible] def Shape.Value : Shape → Type
  | .text => String
  | .flag => Bool
  | .count => Nat
  | @Shape.choice n _ => Fin n
  | .optional inner => Option inner.Value
  | .list item => List item.Value
  | .value => RuntimeValue
  | .struct _ fields => fields.Value

/-- The values of all fields; a field that may be left out need not have one. -/
@[reducible] def Fields.Value : Fields → Type
  | .nil => Unit
  | .required _ shape others => shape.Value × others.Value
  | .defaulted _ shape others => Option shape.Value × others.Value

end

namespace Fields

def length : Fields → Nat
  | .nil => 0
  | .required _ _ others => others.length + 1
  | .defaulted _ _ others => others.length + 1

/-- The values of those fields that have been seen. -/
@[reducible] def Slots : Fields → Type
  | .nil => Unit
  | .required _ shape others => Option shape.Value × others.Slots
  | .defaulted _ shape others => Option shape.Value × others.Slots

def noSlots : (fields : Fields) → fields.Slots
  | .nil => ()
  | .required _ _ others => (none, others.noSlots)
  | .defaulted _ _ others => (none, others.noSlots)

/-- The structure of the fields seen, or the name of the first required field that is missing. -/
def complete : (fields : Fields) → fields.Slots → Except String fields.Value
  | .nil, () => .ok ()
  | .required name _ others, (slot, rest) =>
      match slot with
      | none => .error name
      | some v => (others.complete rest).map fun r => (v, r)
  | .defaulted _ _ others, (slot, rest) => (others.complete rest).map fun r => (slot, r)

end Fields

/-- A type whose values are those of a shape. -/
class Shaped (α : Type) where
  shape : Shape
  pack : α → shape.Value
  unpack : shape.Value → α
  unpack_pack : ∀ a, unpack (pack a) = a

export Shaped (pack unpack)

attribute [simp] Shaped.unpack_pack

abbrev shapeOf (α : Type) [Shaped α] : Shape := Shaped.shape α

@[simp] theorem map_unpack_map_pack {α : Type} [Shaped α] (as : List α) :
    (as.map pack).map unpack = as := by
  induction as with
  | nil => rfl
  | cons a as ih => simpa using ih

instance : Shaped RuntimeValue where
  shape := .value
  pack v := v
  unpack v := v
  unpack_pack _ := rfl

end SymbolExport
