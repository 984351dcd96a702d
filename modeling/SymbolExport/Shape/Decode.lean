import SymbolExport.Model.Content
import SymbolExport.Shape.Read

/-!
# Shaped values from content

Content that was read before its shape was known is judged afterwards. Its faults have no place in
the text any more. An entry may name a field or one of several names by its place instead, counted
from zero.
-/

namespace SymbolExport

open Json

def itemCount (n : Nat) : String :=
  Decimal.text n ++ (if n = 1 then " element in sequence" else " elements in sequence")

/-- What content counts as in a message. -/
def Content.found : Content → Found
  | .null => .null
  | .bool b => .bool b
  | .uint n => .int n.toNat
  | .int n => .int n.toInt
  | .float f => .float f
  | .text s => .text s
  | .list _ => .list
  | .map _ => .object

/-- The known name, by itself or as the only key of a map that holds nothing. -/
def decodeChoice {n : Nat} (names : Vector String n) : Content → Except Cause (Fin n)
  | .text name => known (.text name)
  | .map [(key, v)] => do
      let i ← known key
      match v with
      | .null | .map [] => pure i
      | v => throw (.invalidType v.found "unit")
  | .map _ => throw (.invalidValue .object "map with a single key")
  | v => throw (.invalidType v.found "string or map")
where
  known : Content → Except Cause (Fin n)
    | .text name =>
        match Reader.lookupName names name with
        | some i => pure i
        | none => throw (.unknownVariant name names.toList)
    | .uint i =>
        if h : i.toNat < n then pure ⟨i.toNat, h⟩
        else throw (.invalidValue (.int i.toNat) ("variant index 0 <= i < " ++ Decimal.text n))
    | v => throw (.invalidType v.found "variant identifier")

/-- How an entry names a field: by its name or by its place. -/
inductive FieldKey where
  | name (s : String)
  | place (n : Nat)

namespace FieldKey

def ofContent : Content → Except Cause FieldKey
  | .text s => pure (.name s)
  | .uint n => pure (.place n.toNat)
  | v => throw (.invalidType v.found "field identifier")

/-- Whether a key names the first field, whose name is given. -/
def hits (field : String) : FieldKey → Bool
  | .name s => s = field
  | .place n => n = 0

/-- The key as it names one of the fields behind the first. -/
def behind : FieldKey → FieldKey
  | .name s => .name s
  | .place n => .place (n - 1)

end FieldKey

mutual

def Shape.decode : (shape : Shape) → Content → Except Cause shape.Value
  | .text, v =>
      match v with
      | .text s => pure s
      | v => throw (.invalidType v.found "a string")
  | .flag, v =>
      match v with
      | .bool b => pure b
      | v => throw (.invalidType v.found "a boolean")
  | .count, v =>
      match v with
      | .uint n => pure n.toNat
      | .int n =>
          if 0 ≤ n.toInt then pure n.toInt.toNat else throw (.invalidValue (.int n.toInt) "usize")
      | v => throw (.invalidType v.found "usize")
  | .choice names, v => decodeChoice names v
  | .optional inner, v =>
      match v with
      | .null => pure none
      | v => do pure (some (← inner.decode v))
  | .list item, v =>
      match v with
      | .list vs => vs.mapM item.decode
      | v => throw (.invalidType v.found "a sequence")
  | .value, v =>
      match v.toJson? with
      | some v => pure (RuntimeValue.ofJson v)
      | none => throw (.invalidType v.found "a value whose keys are strings")
  | .struct title fields, v =>
      match v with
      | .list vs => fields.decodeItems title fields.length 0 vs
      | .map given => do
          let slots ← given.foldlM (fun slots entry => do
            fields.decodeField (← FieldKey.ofContent entry.1) entry.2 slots) fields.noSlots
          match fields.complete slots with
          | .ok v => pure v
          | .error name => throw (.missingField name)
      | v => throw (.invalidType v.found ("struct " ++ title))

/-- The fields of a structure from a list, the first of them being the `index`-th. -/
def Fields.decodeItems (title : String) (total : Nat) :
    (fields : Fields) → Nat → List Content → Except Cause fields.Value
  | .nil, index, vs =>
      match vs with
      | [] => pure ()
      | vs => throw (.invalidLength (index + vs.length) (itemCount index))
  | .required _ shape others, index, vs =>
      match vs with
      | [] => throw (.invalidLength index (Fields.arity title total))
      | v :: vs => do
          let a ← shape.decode v
          let rest ← others.decodeItems title total (index + 1) vs
          pure (a, rest)
  | .defaulted _ shape others, index, vs =>
      match vs with
      | [] => do
          let rest ← others.decodeItems title total (index + 1) []
          pure (none, rest)
      | v :: vs => do
          let a ← shape.decode v
          let rest ← others.decodeItems title total (index + 1) vs
          pure (some a, rest)

/-- Takes one field into the slots; an unknown field is passed over. -/
def Fields.decodeField :
    (fields : Fields) → FieldKey → Content → fields.Slots → Except Cause fields.Slots
  | .nil, _, _, slots => pure slots
  | .required name shape others, key, v, (slot, rest) =>
      if key.hits name then
        match slot with
        | some _ => throw (.duplicateField name)
        | none => do pure (some (← shape.decode v), rest)
      else do pure (slot, ← others.decodeField key.behind v rest)
  | .defaulted name shape others, key, v, (slot, rest) =>
      if key.hits name then
        match slot with
        | some _ => throw (.duplicateField name)
        | none => do pure (some (← shape.decode v), rest)
      else do pure (slot, ← others.decodeField key.behind v rest)

end

namespace Json.Reader

/-- Fields from the next one on, with the tag set apart from the others. -/
def taggedFields {n : Nat} (tagName : String) (tags : Vector String n) (depth : Nat) :
    Nat → Bool → Option (Fin n) → Reader (Option (Fin n) × List (String × Json))
  | 0, _, _ => failAhead .endInObject
  | fuel + 1, first, tag => do
      match ← nextKey first with
      | none => pure (tag, [])
      | some key =>
          if key = tagName then
            if tag.isSome then duplicate tagName
            else
              colon
              let i ← knownName tags (← stringOf "variant identifier")
              taggedFields tagName tags depth fuel false (some i)
          else
            colon
            let v ← value depth
            let (tag, fields) ← taggedFields tagName tags depth fuel false tag
            pure (tag, (key, v) :: fields)

/--
A tagged value: an object with the tag among its fields, or a list with the tag as its first item.
The rest of it is given as it was written.
-/
def tagged {n : Nat} (title tagName : String) (tags : Vector String n) (depth : Nat) :
    Reader (Fin n × Content) := do
  match ← peekToken with
  | none => failAhead .endInValue
  | some 0x5B => descend depth fun d => do
      if ← nextItem true then
        let i ← knownName tags (← stringOf "variant identifier")
        let items ← itemsFrom (value d) ((← remaining) + 1) false
        closeList
        pure (i, .list (Content.ofItems items))
      else
        closeList
        fail (.missingField tagName)
  | some 0x7B => descend depth fun d => do
      let (tag, fields) ← taggedFields tagName tags d ((← remaining) + 1) true none
      closeObject
      match tag with
      | some i => pure (i, .map (Content.ofFields fields))
      | none => fail (.missingField tagName)
  | some _ => mistyped ("internally tagged enum " ++ title)

end Json.Reader

end SymbolExport
