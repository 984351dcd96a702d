import SymbolExport.Yaml.Token

/-!
# Nodes and documents

The tokens of a text as a tree. An anchored node has a slot, and an alias refers to a slot; what a
slot holds is known when the whole document has been read. A name that is anchored again takes a new
slot, whose number is that of the names known so far, so that it may be shared with a later name.
The last node of a slot counts.
-/

namespace SymbolExport.Yaml

/-- What stands before a node. -/
structure Properties where
  anchor : Option Nat := none
  tag : Option Bytes := none
deriving DecidableEq, Repr

inductive Node where
  | alias (slot : Nat)
  | scalar (props : Properties) (style : Style) (text : String)
  | sequence (props : Properties) (items : List Node)
  | mapping (props : Properties) (entries : List (Node × Node))
deriving Inhabited

namespace Node

/-- A node that was left out. -/
def empty : Node :=
  .scalar {} .plain ""

def inSlot (node : Node) (props : Properties) : List (Nat × Node) :=
  props.anchor.toList.map fun slot => (slot, node)

mutual

/-- The anchored nodes in the order in which they begin. -/
def anchored : Node → List (Nat × Node)
  | .alias _ => []
  | .scalar props style text => inSlot (.scalar props style text) props
  | .sequence props items => inSlot (.sequence props items) props ++ anchoredItems items
  | .mapping props entries => inSlot (.mapping props entries) props ++ anchoredEntries entries

def anchoredItems : List Node → List (Nat × Node)
  | [] => []
  | item :: items => anchored item ++ anchoredItems items

def anchoredEntries : List (Node × Node) → List (Nat × Node)
  | [] => []
  | (key, value) :: entries => anchored key ++ anchored value ++ anchoredEntries entries

end

mutual

/-- The size of a node; a collection has a beginning and an end. -/
def size : Node → Nat
  | .alias _ => 1
  | .scalar _ _ _ => 1
  | .sequence _ items => sizeItems items + 2
  | .mapping _ entries => sizeEntries entries + 2

def sizeItems : List Node → Nat
  | [] => 0
  | item :: items => size item + sizeItems items

def sizeEntries : List (Node × Node) → Nat
  | [] => 0
  | (key, value) :: entries => size key + size value + sizeEntries entries

end

end Node

structure Document where
  root : Node
  /-- The anchored nodes, the last one first. -/
  slots : List (Nat × Node)
  /-- The size of the document. -/
  size : Nat

def Document.ofRoot (root : Node) : Document where
  root := root
  slots := root.anchored.reverse
  size := root.size

/-- What is known while tokens are read. -/
structure Progress where
  tokens : List Token
  /-- The slots of the anchor names. -/
  names : List (String × Nat) := []
  /-- What the tag handles stand for. -/
  handles : List (String × Bytes) := []

abbrev Parse (α : Type) := StateT Progress (Except Fault) α

namespace Parse

def peek : Parse Token :=
  return (← get).tokens.headD .streamEnd

/-- Moves over a token. -/
def advance : Parse Unit :=
  modify fun p => { p with tokens := p.tokens.drop 1 }

/-- Gives a name the next slot. -/
def define (name : String) : Parse Nat := do
  let p ← get
  let slot := p.names.length
  let names :=
    if (p.names.lookup name).isSome then
      p.names.map fun (other, s) => if other = name then (other, slot) else (other, s)
    else (name, slot) :: p.names
  set { p with names }
  pure slot

/-- The tag that a written tag stands for. -/
def resolveTag (name : TagName) : Parse Bytes := do
  if name.handle = "" then pure name.suffix
  else
    match (← get).handles.lookup name.handle with
    | some stem => pure (stem ++ name.suffix)
    | none => throw .undefinedHandle

/-- The name of the anchor ahead, if there is one. -/
def anchor? : Parse (Option String) := do
  match ← peek with
  | .anchor name => advance; pure (some name)
  | _ => pure none

def tag? : Parse (Option TagName) := do
  match ← peek with
  | .tag name => advance; pure (some name)
  | _ => pure none

/-- An anchor and a tag, in either order. -/
def properties : Parse Properties := do
  let first ← anchor?
  let tag ← tag?
  let anchor ← if first.isSome then pure first else if tag.isSome then anchor? else pure none
  let tag ← tag.mapM resolveTag
  let anchor ← anchor.mapM define
  pure { anchor, tag }

mutual

/-- A node. Block collections and sequences without indentation are read only where allowed. -/
def node (inBlock unindented : Bool) : Nat → Parse Node
  | 0 => throw .nodeExpected
  | fuel + 1 => do
      match ← peek with
      | .alias name =>
          advance
          match (← get).names.lookup name with
          | some slot => pure (.alias slot)
          | none => throw .unknownAlias
      | _ =>
          let props ← properties
          match ← peek, inBlock, unindented with
          | .blockEntry, _, true => pure (.sequence props (← unindentedItems fuel))
          | .scalar style text, _, _ =>
              advance
              pure (.scalar props style text)
          | .flowSequenceStart, _, _ => advance; pure (.sequence props (← flowItems true fuel))
          | .flowMappingStart, _, _ => advance; pure (.mapping props (← flowEntries true fuel))
          | .sequenceStart, true, _ => advance; pure (.sequence props (← blockItems fuel))
          | .mappingStart, true, _ => advance; pure (.mapping props (← blockEntries fuel))
          | _, _, _ =>
              if props.anchor.isSome || props.tag.any (· ≠ []) then pure (.scalar props .plain "")
              else throw .nodeExpected

/-- A node, or an empty one in front of a token that ends its place. -/
def nodeUnless (inBlock unindented : Bool) (ends : List Token) : Nat → Parse Node
  | 0 => throw .nodeExpected
  | fuel + 1 => do
      if ends.contains (← peek) then pure .empty else node inBlock unindented fuel

def blockItems : Nat → Parse (List Node)
  | 0 => throw .separatorExpected
  | fuel + 1 => do
      match ← peek with
      | .blockEntry =>
          advance
          let item ← nodeUnless true false [.blockEntry, .blockEnd] fuel
          pure (item :: (← blockItems fuel))
      | .blockEnd => advance; pure []
      | _ => throw .separatorExpected

/-- The entries of a sequence that is not indented. -/
def unindentedItems : Nat → Parse (List Node)
  | 0 => throw .separatorExpected
  | fuel + 1 => do
      match ← peek with
      | .blockEntry =>
          advance
          let item ← nodeUnless true false [.blockEntry, .key, .value, .blockEnd] fuel
          pure (item :: (← unindentedItems fuel))
      | _ => pure []

def blockEntries : Nat → Parse (List (Node × Node))
  | 0 => throw .separatorExpected
  | fuel + 1 => do
      match ← peek with
      | .key =>
          advance
          let key ← nodeUnless true true [.key, .value, .blockEnd] fuel
          let value ←
            if (← peek) = .value then do
              advance
              nodeUnless true true [.key, .value, .blockEnd] fuel
            else pure .empty
          pure ((key, value) :: (← blockEntries fuel))
      | .blockEnd => advance; pure []
      | _ => throw .separatorExpected

def flowItems (first : Bool) : Nat → Parse (List Node)
  | 0 => throw .separatorExpected
  | fuel + 1 => do
      if (← peek) = .flowSequenceEnd then
        advance
        return []
      if !first then
        if (← peek) ≠ .flowEntry then throw .separatorExpected
        advance
      match ← peek with
      | .flowSequenceEnd => advance; pure []
      | .key =>
          advance
          let item ← flowPair fuel
          pure (item :: (← flowItems false fuel))
      | _ =>
          let item ← node false false fuel
          pure (item :: (← flowItems false fuel))

/--
A mapping with a single entry inside a flow sequence; a token in place of its key is passed over.
-/
def flowPair : Nat → Parse Node
  | 0 => throw .nodeExpected
  | fuel + 1 => do
      let key ←
        if [Token.value, .flowEntry, .flowSequenceEnd].contains (← peek) then do
          advance
          pure .empty
        else node false false fuel
      let value ←
        if (← peek) = .value then do
          advance
          nodeUnless false false [.flowEntry, .flowSequenceEnd] fuel
        else pure .empty
      pure (.mapping {} [(key, value)])

def flowEntries (first : Bool) : Nat → Parse (List (Node × Node))
  | 0 => throw .separatorExpected
  | fuel + 1 => do
      if (← peek) = .flowMappingEnd then
        advance
        return []
      if !first then
        if (← peek) ≠ .flowEntry then throw .separatorExpected
        advance
      match ← peek with
      | .flowMappingEnd => advance; pure []
      | .key =>
          advance
          let key ← nodeUnless false false [.value, .flowEntry, .flowMappingEnd] fuel
          let value ←
            if (← peek) = .value then do
              advance
              nodeUnless false false [.flowEntry, .flowMappingEnd] fuel
            else pure .empty
          pure ((key, value) :: (← flowEntries false fuel))
      | _ =>
          let key ← node false false fuel
          pure ((key, .empty) :: (← flowEntries false fuel))

end

/-- The handles that need no directive. -/
def defaultHandles : List (String × Bytes) :=
  [("!", Bytes.ofString "!"), ("!!", Bytes.ofString "tag:yaml.org,2002:")]

/-- The directives in front of a document. -/
def directives (version : Bool) : Nat → Parse Unit
  | 0 => throw .directive
  | fuel + 1 => do
      match ← peek with
      | .directive (.version major minor) =>
          if version || major ≠ 1 || !(minor = 1 || minor = 2) then throw .version
          advance
          directives true fuel
      | .directive (.handle name stem) =>
          let p ← get
          if (p.handles.lookup name).isSome then throw .directive
          set { p with handles := p.handles ++ [(name, stem)] }
          advance
          directives version fuel
      | _ => pure ()

/-- The content of a document behind its marker. -/
def content (fuel : Nat) : Parse Node := do
  match ← peek with
  | .directive _ | .documentStart | .documentEnd | .streamEnd => pure .empty
  | _ => node true false fuel

/-- Moves over markers that end a document. -/
def endMarkers : Nat → Parse Unit
  | 0 => pure ()
  | fuel + 1 => do
      if (← peek) = .documentEnd then
        advance
        endMarkers fuel

/-- The root of the only document; a text without any document has an empty one. -/
def root (fuel : Nat) : Parse Node := do
  if (← peek) = .streamEnd then return .empty
  let declared := (← get).tokens.head?.any fun
    | .directive _ => true
    | _ => false
  directives false fuel
  modify fun p => { p with handles := p.handles ++ defaultHandles }
  let root ←
    if (← peek) = .documentStart then do
      advance
      content fuel
    else if declared then throw .directive
    else node true false fuel
  endMarkers fuel
  if (← peek) ≠ .streamEnd then throw .severalDocuments
  pure root

end Parse

def Document.ofBytes (input : Bytes) : Except Fault Document := do
  let found ← tokens (← characters input)
  let (root, _) ← (Parse.root (4 * found.length + 8)).run { tokens := found }
  pure (.ofRoot root)

end SymbolExport.Yaml
