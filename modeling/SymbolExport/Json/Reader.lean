import SymbolExport.Json.Skip

/-!
# Reading JSON values

A value of any kind, with the fields of its objects as they were written. Containers may be nested
up to a limit, which the readers carry as the number of levels still allowed.
-/

namespace SymbolExport.Json

/-- The number of containers that may be nested in each other. -/
def depthLimit : Nat := 127

namespace Reader

/-- Whether a list has a further item; its comma is read. -/
def nextItem (first : Bool) : Reader Bool := do
  match ← peekToken with
  | none => failAhead .endInList
  | some 0x5D => pure false
  | some b =>
      if first then pure true
      else if b = 0x2C then
        advance
        match ← peekToken with
        | none => failAhead .endInValue
        | some 0x5D => failAhead .trailingComma
        | some _ => pure true
      else failAhead .expectedListNext

/-- The key of an object's next field, if it has one; the comma before it is read. -/
def nextKey (first : Bool) : Reader (Option String) := do
  match ← peekToken with
  | none => failAhead .endInObject
  | some 0x7D => pure none
  | some b =>
      if first then
        if b = 0x22 then key else failAhead .keyNotText
      else if b = 0x2C then
        advance
        match ← peekToken with
        | none => failAhead .endInValue
        | some 0x22 => key
        | some 0x7D => failAhead .trailingComma
        | some _ => failAhead .keyNotText
      else failAhead .expectedObjectNext
where
  key : Reader (Option String) := do
    advance
    pure (some (← text))

def closeList : Reader Unit := do
  match ← peekToken with
  | none => failAhead .endInList
  | some 0x5D => advance
  | some 0x2C =>
      advance
      match ← peekToken with
      | some 0x5D => failAhead .trailingComma
      | _ => failAhead .trailingCharacters
  | some _ => failAhead .trailingCharacters

def closeObject : Reader Unit := do
  match ← peekToken with
  | none => failAhead .endInObject
  | some 0x7D => advance
  | some 0x2C => failAhead .trailingComma
  | some _ => failAhead .trailingCharacters

/-- Items from the next one on, up to the closing bracket, which is left ahead. -/
def itemsFrom {α : Type} (item : Reader α) : Nat → Bool → Reader (List α)
  | 0, _ => failAhead .endInList
  | fuel + 1, first => do
      if ← nextItem first then
        let head ← item
        let tail ← itemsFrom item fuel false
        pure (head :: tail)
      else pure []

def list {α : Type} (item : Reader α) : Reader (List α) := do
  let items ← itemsFrom item ((← remaining) + 1) true
  closeList
  pure items

/-- Fields from the next one on, up to the closing brace, which is left ahead. -/
def fieldsFrom {α : Type} (item : Reader α) : Nat → Bool → Reader (List (String × α))
  | 0, _ => failAhead .endInObject
  | fuel + 1, first => do
      match ← nextKey first with
      | none => pure []
      | some key =>
          colon
          let head ← item
          let tail ← fieldsFrom item fuel false
          pure ((key, head) :: tail)

def object {α : Type} (item : Reader α) : Reader (List (String × α)) := do
  let fields ← fieldsFrom item ((← remaining) + 1) true
  closeObject
  pure fields

/-- A value, with readers for the containers behind their opening brackets. -/
def valueWith (list object : Reader Json) : Reader Json := do
  match ← peekToken with
  | none => failAhead .endInValue
  | some 0x6E => advance; word [0x75, 0x6C, 0x6C]; pure .null
  | some 0x74 => advance; word [0x72, 0x75, 0x65]; pure (.bool true)
  | some 0x66 => advance; word [0x61, 0x6C, 0x73, 0x65]; pure (.bool false)
  | some 0x2D => advance; pure (← number false).toJson
  | some 0x22 => advance; pure (.text (← text))
  | some 0x5B => list
  | some 0x7B => object
  | some b => if isDigit b then pure (← number true).toJson else failAhead .expectedValue

/-- A value whose containers are nested at most `depth` deep. -/
def value : Nat → Reader Json
  | 0 => valueWith (failAhead .tooDeep) (failAhead .tooDeep)
  | depth + 1 =>
      valueWith
        (do advance; pure (.list (← list (value depth))))
        (do advance; pure (.object (← object (value depth))))

/--
Blames the value ahead for its type. A scalar is read first, so a fault of its own comes before;
of a container only the opening bracket counts.
-/
def mistyped {α : Type} (expected : String) : Reader α := do
  match ← peek with
  | some 0x6E => advance; word [0x75, 0x6C, 0x6C]; fail (.invalidType .null expected)
  | some 0x74 => advance; word [0x72, 0x75, 0x65]; fail (.invalidType (.bool true) expected)
  | some 0x66 => advance; word [0x61, 0x6C, 0x73, 0x65]; fail (.invalidType (.bool false) expected)
  | some 0x2D => advance; fail (.invalidType (← number false).found expected)
  | some 0x22 => advance; fail (.invalidType (.text (← text)) expected)
  | some 0x5B => fail (.invalidType .list expected)
  | some 0x7B => fail (.invalidType .object expected)
  | some b =>
      if isDigit b then fail (.invalidType (← number true).found expected)
      else failAhead .expectedValue
  | none => failAhead .expectedValue

/-- The end of the text, white space aside. -/
def finish : Reader Unit := do
  match ← peekToken with
  | none => pure ()
  | some _ => failAhead .trailingCharacters

def run {α : Type} (reader : Reader α) (input : Bytes) : Except Fault α :=
  (do let a ← reader; finish; pure a : Reader α).run' (Cursor.start input)

end Reader

def parse (input : Bytes) : Except Fault Json :=
  Reader.run (Reader.value depthLimit) input

end SymbolExport.Json
