import SymbolExport.Shape.Basic

/-!
# Reading shaped values from JSON texts

A structure is an object, whose unknown fields are skipped, or a list of its fields in order. A name
is a string or an object whose only field is that name, with the value `null`.
-/

namespace SymbolExport

open Json Json.Reader

/-- How messages name a structure with its number of fields. -/
def Fields.arity (title : String) (n : Nat) : String :=
  "struct " ++ title ++ " with " ++ Decimal.text n ++ (if n = 1 then " element" else " elements")

namespace Json.Reader

def lookupName {n : Nat} (names : Vector String n) (name : String) : Option (Fin n) :=
  names.finIdxOf? name

/-- The known name that was read last. -/
def knownName {n : Nat} (names : Vector String n) (name : String) : Reader (Fin n) :=
  match lookupName names name with
  | some i => pure i
  | none => fail (.unknownVariant name names.toList)

/-- Moves into a container, if one more level is allowed. -/
def descend {α : Type} (depth : Nat) (inside : Nat → Reader α) : Reader α :=
  match depth with
  | 0 => failAhead .tooDeep
  | d + 1 => do advance; inside d

def stringOf (expected : String) : Reader String := do
  match ← peekToken with
  | none => failAhead .endInValue
  | some 0x22 => advance; text
  | some _ => mistyped expected

def flag : Reader Bool := do
  match ← peekToken with
  | none => failAhead .endInValue
  | some 0x74 => advance; word [0x72, 0x75, 0x65]; pure true
  | some 0x66 => advance; word [0x61, 0x6C, 0x73, 0x65]; pure false
  | some _ => mistyped "a boolean"

def unit : Reader Unit := do
  match ← peekToken with
  | none => failAhead .endInValue
  | some 0x6E => advance; word [0x75, 0x6C, 0x6C]
  | some _ => mistyped "unit"

def countOf : Number → Reader Nat
  | .int n =>
      if 0 ≤ n.val then pure n.val.toNat else fail (.invalidValue (.int n.val) "usize")
  | .float f => fail (.invalidType (.float f) "usize")

def count : Reader Nat := do
  match ← peekToken with
  | none => failAhead .endInValue
  | some 0x2D => advance; countOf (← number false)
  | some b => if isDigit b then countOf (← number true) else mistyped "usize"

/-- The end of an object that holds a single name. -/
def closeName : Reader Unit := do
  match ← peekToken with
  | none => fail .endInObject
  | some 0x7D => advance
  | some _ => fail .expectedValue

def choice {n : Nat} (names : Vector String n) (depth : Nat) : Reader (Fin n) := do
  match ← peekToken with
  | none => failAhead .endInValue
  | some 0x22 => advance; knownName names (← text)
  | some 0x7B => descend depth fun _ => do
      match ← peekToken with
      | none => failAhead .endInObject
      | some 0x22 =>
          advance
          let i ← knownName names (← text)
          colon
          unit
          closeName
          pure i
      | some 0x7D => failAhead .expectedValue
      | some _ => failAhead .keyNotText
  | some _ => failAhead .expectedValue

/-- Blames a repeated field, behind its key and the white space that follows. -/
def duplicate {α : Type} (name : String) : Reader α := do
  match ← peekToken with
  | some 0x7D => advance
  | _ => pure ()
  fail (.duplicateField name)

/-- Collects the fields of an object from the next one on, up to the closing brace. -/
def collectFields {σ : Type} (field : String → σ → Reader σ) : Nat → Bool → σ → Reader σ
  | 0, _, _ => failAhead .endInObject
  | fuel + 1, first, slots => do
      match ← nextKey first with
      | none => pure slots
      | some key => collectFields field fuel false (← field key slots)

end Json.Reader

mutual

/-- Reads a value of a shape whose containers are nested at most `depth` deep. -/
def Shape.read : (shape : Shape) → (depth : Nat) → Reader shape.Value
  | .text, _ => stringOf "a string"
  | .flag, _ => flag
  | .count, _ => count
  | .choice names, depth => choice names depth
  | .optional inner, depth => do
      match ← peekToken with
      | some 0x6E => advance; word [0x75, 0x6C, 0x6C]; pure none
      | _ => pure (some (← inner.read depth))
  | .list item, depth => do
      match ← peekToken with
      | none => failAhead .endInValue
      | some 0x5B => descend depth fun d => list (item.read d)
      | some _ => mistyped "a sequence"
  | .value, depth => do pure (RuntimeValue.ofJson (← Reader.value depth))
  | .struct title fields, depth => do
      match ← peekToken with
      | none => failAhead .endInValue
      | some 0x5B => descend depth fun d => fields.readItems title fields.length d 0
      | some 0x7B => descend depth fun d => do
          let slots ← collectFields (fields.readField d) ((← remaining) + 1) true fields.noSlots
          closeObject
          match fields.complete slots with
          | .ok v => pure v
          | .error name => fail (.missingField name)
      | some _ => mistyped ("struct " ++ title)

/-- Reads the fields of a structure from a list, the first of them being the `index`-th. -/
def Fields.readItems (title : String) (total : Nat) :
    (fields : Fields) → (depth index : Nat) → Reader fields.Value
  | .nil, _, _ => do closeList
  | .required _ shape others, depth, index => do
      if ← nextItem (index = 0) then
        let v ← shape.read depth
        let rest ← others.readItems title total depth (index + 1)
        pure (v, rest)
      else
        closeList
        fail (.invalidLength index (Fields.arity title total))
  | .defaulted _ shape others, depth, index => do
      if ← nextItem (index = 0) then
        let v ← shape.read depth
        let rest ← others.readItems title total depth (index + 1)
        pure (some v, rest)
      else
        let rest ← others.readItems title total depth (index + 1)
        pure (none, rest)

/-- Reads the value of one field behind its key; an unknown field is skipped. -/
def Fields.readField :
    (fields : Fields) → (depth : Nat) → String → fields.Slots → Reader fields.Slots
  | .nil, _, _, slots => do
      colon
      skip
      pure slots
  | .required name shape others, depth, key, (slot, rest) => do
      if key = name then
        match slot with
        | some _ => duplicate name
        | none =>
            colon
            pure (some (← shape.read depth), rest)
      else pure (slot, ← others.readField depth key rest)
  | .defaulted name shape others, depth, key, (slot, rest) => do
      if key = name then
        match slot with
        | some _ => duplicate name
        | none =>
            colon
            pure (some (← shape.read depth), rest)
      else pure (slot, ← others.readField depth key rest)

end

def ofJsonBytes {α : Type} [Shaped α] (input : Bytes) : Except Fault α :=
  (Reader.run ((shapeOf α).read depthLimit) input).map unpack

end SymbolExport
