import SymbolExport.Export.Error
import SymbolExport.Symbol.Descriptor

/-!
# Runtime snapshots

A snapshot lists the symbols of a runtime. It is valid if no class name occurs twice.
-/

namespace SymbolExport

structure RuntimeSnapshot where
  functions : List String := []
  classes : List ClassDescriptor := []
  vars : List VariableDescriptor := []
  constants : List ConstantDescriptor := []

instance : Shaped RuntimeSnapshot where
  shape := .struct "RuntimeSnapshot" <|
    .defaulted "functions" (.list .text) <|
    .defaulted "classes" (.list (shapeOf ClassDescriptor)) <|
    .defaulted "variables" (.list (shapeOf VariableDescriptor)) <|
    .defaulted "constants" (.list (shapeOf ConstantDescriptor)) .nil
  pack s := (some s.functions, some (s.classes.map pack), some (s.vars.map pack),
    some (s.constants.map pack), ())
  unpack := fun (functions, classes, vars, constants, ()) =>
    { functions := functions.getD [], classes := (classes.getD []).map unpack,
      vars := (vars.getD []).map unpack, constants := (constants.getD []).map unpack }
  unpack_pack _ := by simp [-List.map_map]

structure SnapshotCounts where
  functions : Nat := 0
  classes : Nat := 0
  interfaces : Nat := 0
  traits : Nat := 0
  methods : Nat := 0
  properties : Nat := 0
  vars : Nat := 0
  constants : Nat := 0
deriving DecidableEq, Repr

instance : Shaped SnapshotCounts where
  shape := .struct "SnapshotCounts" <|
    .required "functions" .count <| .required "classes" .count <|
    .required "interfaces" .count <| .required "traits" .count <|
    .required "methods" .count <| .required "properties" .count <|
    .required "variables" .count <| .required "constants" .count .nil
  pack c := (c.functions, c.classes, c.interfaces, c.traits, c.methods, c.properties, c.vars,
    c.constants, ())
  unpack := fun (functions, classes, interfaces, traits, methods, properties, vars,
      constants, ()) =>
    { functions, classes, interfaces, traits, methods, properties, vars, constants }
  unpack_pack _ := rfl

namespace SnapshotCounts

/-- The counts with one more class and its members. -/
def add (c : SnapshotCounts) (d : ClassDescriptor) : SnapshotCounts :=
  let c :=
    if d.isInterface then { c with interfaces := c.interfaces + 1 }
    else if d.isTrait then { c with traits := c.traits + 1 }
    else { c with classes := c.classes + 1 }
  { c with
    methods := c.methods + d.methods.length
    properties := c.properties + d.properties.length }

end SnapshotCounts

/-- The first text of a list that has occurred before. -/
def firstRepeated (seen : List String) : List String → Option String
  | [] => none
  | name :: names => if name ∈ seen then some name else firstRepeated (name :: seen) names

namespace RuntimeSnapshot

/-- A snapshot must not declare a class name twice. -/
def validate (s : RuntimeSnapshot) : Except ExportError Unit :=
  match firstRepeated [] (s.classes.map (·.name)) with
  | none => .ok ()
  | some name => .error (.snapshot ("class '" ++ name ++ "' is declared more than once"))

def counts (s : RuntimeSnapshot) : SnapshotCounts :=
  s.classes.foldl SnapshotCounts.add
    { functions := s.functions.length
      vars := s.vars.length
      constants := s.constants.length }

def ofJsonBytes (input : Bytes) : Except ExportError RuntimeSnapshot :=
  match SymbolExport.ofJsonBytes input with
  | .error fault => .error (.snapshot (fault.message input))
  | .ok (s : RuntimeSnapshot) =>
      match s.validate with
      | .error e => .error e
      | .ok () => .ok s

def withFunction (s : RuntimeSnapshot) (name : String) : RuntimeSnapshot :=
  { s with functions := s.functions ++ [name] }

def withClass (s : RuntimeSnapshot) (d : ClassDescriptor) : RuntimeSnapshot :=
  { s with classes := s.classes ++ [d] }

def withVariable (s : RuntimeSnapshot) (name : String) (value : RuntimeValue) : RuntimeSnapshot :=
  { s with vars := s.vars ++ [{ name, value }] }

def withConstant (s : RuntimeSnapshot) (name : String) (value : RuntimeValue) : RuntimeSnapshot :=
  { s with constants := s.constants ++ [{ name, value }] }

end RuntimeSnapshot

end SymbolExport
