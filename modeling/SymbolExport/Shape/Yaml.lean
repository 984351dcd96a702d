import SymbolExport.Shape.Read
import SymbolExport.Yaml.Resolve

/-!
# Shaped values from YAML texts

Where a text is wanted any scalar is taken as it is written. A structure is a mapping, a list is a
sequence, and both may be left empty. A name is a scalar or a tag. Aliases may be followed up to a
limit that grows with the document.
-/

namespace SymbolExport

namespace Yaml

/-- A computation that follows aliases and counts them. -/
abbrev Decode (α : Type) := StateT Nat (Except Fault) α

/-- The number of collections that may be nested in each other. -/
def depthLimit : Nat := 128

/-- How often aliases may be followed for each unit of a document's size. -/
def aliasFactor : Nat := 100

namespace Document

/-- The node itself, or what an alias refers to. -/
def follow (doc : Document) : Node → Decode Node
  | .alias slot => do
      let followed := (← get) + 1
      if doc.size * aliasFactor < followed then throw .tooManyAliases
      set followed
      match doc.slots.lookup slot with
      | some node => pure node
      | none => throw .unknownAlias
  | node => pure node

/-- Refuses a tag that is not of a standard type. -/
def refuseOwnTag (props : Properties) : Decode Unit :=
  if (ownTag? props.tag).isSome then throw .unknownTag else pure ()

def text (doc : Document) (node : Node) : Decode String := do
  match ← doc.follow node with
  | .scalar _ _ text => pure text
  | _ => throw (.mismatch "a string")

def known {n : Nat} (names : Vector String n) (name : String) : Decode (Fin n) :=
  match Json.Reader.lookupName names name with
  | some i => pure i
  | none => throw (.unknownName name)

/-- Moves into a collection, if one more level is allowed. -/
def descend {α : Type} (depth : Nat) (inside : Nat → Decode α) : Decode α :=
  match depth with
  | 0 => throw .tooDeep
  | d + 1 => inside d

/-- The content of a node, with functions for what collections hold. -/
def contentWith (doc : Document) (items : List Node → Decode Content)
    (entries : List (Node × Node) → Decode Content) (node : Node) : Decode Content := do
  match ← doc.follow node with
  | .alias _ => throw .unknownAlias
  | .scalar props style text =>
      refuseOwnTag props
      resolve props.tag style text
  | .sequence props children =>
      refuseOwnTag props
      items children
  | .mapping props children =>
      refuseOwnTag props
      entries children

/-- The content of a node whose collections are nested at most `depth` deep. -/
def content (doc : Document) : (depth : Nat) → Node → Decode Content
  | 0 => doc.contentWith (fun _ => throw .tooDeep) (fun _ => throw .tooDeep)
  | depth + 1 =>
      doc.contentWith
        (fun items => do pure (.list (← items.mapM (doc.content depth))))
        (fun entries => do
          let entries ← entries.mapM fun (key, value) => do
            pure (← doc.content depth key, ← doc.content depth value)
          pure (.map entries))

/-- The runtime value of a node; keys are texts. -/
def value (doc : Document) (depth : Nat) (node : Node) : Decode RuntimeValue := do
  match (← doc.content depth node).toJson? with
  | some v => pure (RuntimeValue.ofJson v)
  | none => throw (.mismatch "a string as key")

/-- The text of a plain scalar, or of a literal block with the tag of a standard type. -/
def plainText (doc : Document) (type : String) (node : Node) : Decode String := do
  match ← doc.follow node with
  | .scalar props style text =>
      if style = .plain || (style = .literal && props.tag = some (standardTag type)) then pure text
      else throw (.mismatch type)
  | _ => throw (.mismatch type)

def flag (doc : Document) (node : Node) : Decode Bool := do
  match flag? (← doc.plainText "bool" node) with
  | some b => pure b
  | none => throw (.mismatch "a boolean")

/-- The count that a text spells. -/
def count? : List Char → Option Nat
  | '+' :: cs => natural? cs
  | cs => natural? cs

def count (doc : Document) (node : Node) : Decode Nat := do
  match count? (← doc.plainText "int" node).toList with
  | some n => if n < Nat.pow 2 64 then pure n else throw (.mismatch "a count")
  | none => throw (.mismatch "a count")

/-- Whether a scalar was left out or stands for `null`. -/
def isVoid (style : Style) (text : String) : Bool :=
  style = .plain && (text.isEmpty || isNull text)

/-- One of several names, as a scalar or as the tag of an empty one. -/
def choice {n : Nat} (doc : Document) (names : Vector String n) (node : Node) :
    Decode (Fin n) := do
  match ← doc.follow node with
  | .scalar props style text =>
      match ownTag? props.tag with
      | some name => if isVoid style text then known names name else throw (.mismatch "null")
      | none => known names text
  | _ => throw (.mismatch "a name")
/-- Whether a node stands for nothing where something optional is wanted. -/
def isAbsent : Node → Decode Bool
  | .scalar props style text =>
      if style ≠ .plain then pure false
      else if props.tag = none then pure (isVoid style text)
      else if props.tag = some (standardTag "null") then
        if isNull text then pure true else throw (.mismatch "null")
      else pure false
  | _ => pure false

/-- The items of a list; an empty scalar has none. -/
def items (doc : Document) (node : Node) : Decode (Option (List Node)) := do
  match ← doc.follow node with
  | .sequence _ children => pure (some children)
  | .scalar _ .plain "" => pure none
  | _ => throw (.mismatch "a sequence")

/-- The entries of a structure; an empty scalar has none. -/
def entries (doc : Document) (title : String) (node : Node) :
    Decode (Option (List (Node × Node))) := do
  match ← doc.follow node with
  | .mapping _ children => pure (some children)
  | .scalar _ .plain "" => pure none
  | _ => throw (.mismatch ("struct " ++ title))

/-- Entries with the tag set apart from the others. -/
def taggedEntries {n : Nat} (doc : Document) (tagName : String) (tags : Vector String n)
    (depth : Nat) :
    Option (Fin n) → List (Node × Node) → Decode (Option (Fin n) × List (Content × Content))
  | tag, [] => pure (tag, [])
  | tag, (key, node) :: rest => do
      let key ← doc.content depth key
      if key.isText tagName then
        if tag.isSome then throw (.duplicateField tagName)
        else
          let i ← known tags (← doc.text node)
          doc.taggedEntries tagName tags depth (some i) rest
      else
        let v ← doc.content depth node
        let (tag, entries) ← doc.taggedEntries tagName tags depth tag rest
        pure (tag, (key, v) :: entries)

/--
A tagged value: a mapping with the tag among its entries, or a sequence with the tag as its first
item. The tag is a scalar as it is written, and the rest is given as content.
-/
def tagged {n : Nat} (doc : Document) (title tagName : String) (tags : Vector String n)
    (depth : Nat) (node : Node) : Decode (Fin n × Content) := do
  match ← doc.follow node with
  | .sequence props children => do
      refuseOwnTag props
      descend depth fun d => do
        match children with
        | [] => throw (.missingField tagName)
        | first :: rest =>
            let i ← known tags (← doc.text first)
            pure (i, .list (← rest.mapM (doc.content d)))
  | .mapping props children => do
      refuseOwnTag props
      descend depth fun d => do
        match ← doc.taggedEntries tagName tags d none children with
        | (some i, entries) => pure (i, .map entries)
        | (none, _) => throw (.missingField tagName)
  | _ => throw (.mismatch ("internally tagged enum " ++ title))

end Document

end Yaml

open Yaml

mutual

/-- The value of a shape that a node holds, with collections nested at most `depth` deep. -/
def Shape.ofNode (doc : Document) : (shape : Shape) → (depth : Nat) → Node → Decode shape.Value
  | .text, _, node => doc.text node
  | .flag, _, node => doc.flag node
  | .count, _, node => doc.count node
  | .choice names, _, node => doc.choice names node
  | .optional inner, depth, node => do
      let node ← doc.follow node
      if ← Document.isAbsent node then pure none
      else pure (some (← inner.ofNode doc depth node))
  | .list item, depth, node => do
      match ← doc.items node with
      | none => pure []
      | some children => Document.descend depth fun d => children.mapM (item.ofNode doc d)
  | .value, depth, node => doc.value depth node
  | .struct title fields, depth, node => do
      let slots ← match ← doc.entries title node with
        | none => pure fields.noSlots
        | some children => Document.descend depth fun d =>
            children.foldlM (fun slots (key, value) => do
              fields.ofEntry doc d (← doc.text key) value slots) fields.noSlots
      match fields.complete slots with
      | .ok v => pure v
      | .error name => throw (.missingField name)

/-- Takes one entry into the slots; an unknown one is passed over. -/
def Fields.ofEntry (doc : Document) :
    (fields : Fields) → (depth : Nat) → String → Node → fields.Slots → Decode fields.Slots
  | .nil, _, _, _, slots => pure slots
  | .required name shape others, depth, key, node, (slot, rest) =>
      if key = name then
        match slot with
        | some _ => throw (.duplicateField name)
        | none => do pure (some (← shape.ofNode doc depth node), rest)
      else do pure (slot, ← others.ofEntry doc depth key node rest)
  | .defaulted name shape others, depth, key, node, (slot, rest) =>
      if key = name then
        match slot with
        | some _ => throw (.duplicateField name)
        | none => do pure (some (← shape.ofNode doc depth node), rest)
      else do pure (slot, ← others.ofEntry doc depth key node rest)

end

def ofYamlBytes {α : Type} [Shaped α] (input : Bytes) : Except Yaml.Fault α := do
  let doc ← Document.ofBytes input
  let v ← ((shapeOf α).ofNode doc Yaml.depthLimit doc.root).run' 0
  pure (unpack v)

end SymbolExport
