import SymbolExport.Model.Record

/-!
# Symbol descriptors

What reflection reports about the symbols of a runtime, flags included. Turning flags into kinds and
visibilities happens when records are shaped.
-/

namespace SymbolExport

/-- A keyword on a method or a member variable. -/
inductive Modifier where
  | pub
  | prot
  | priv
  | static
  | final
  | abstract
deriving DecidableEq, Repr

instance : Shaped Modifier where
  shape := .choice #v["public", "protected", "private", "static", "final", "abstract"]
  pack
    | .pub => (0 : Fin 6)
    | .prot => (1 : Fin 6)
    | .priv => (2 : Fin 6)
    | .static => (3 : Fin 6)
    | .final => (4 : Fin 6)
    | .abstract => (5 : Fin 6)
  unpack := fun (i : Fin 6) => match i with
    | 0 => .pub
    | 1 => .prot
    | 2 => .priv
    | 3 => .static
    | 4 => .final
    | 5 => .abstract
  unpack_pack m := by cases m <;> rfl

structure ParameterDescriptor where
  name : String
deriving DecidableEq

structure MethodDescriptor where
  name : String
  modifiers : List Modifier := []
  parameters : List ParameterDescriptor := []
  docComment : Option String := none
deriving DecidableEq

structure PropertyDescriptor where
  name : String
  modifiers : List Modifier := []
  docComment : Option String := none
deriving DecidableEq

structure ClassDescriptor where
  name : String
  isInterface : Bool := false
  isTrait : Bool := false
  parent : Option String := none
  interfaces : List String := []
  isFinal : Bool := false
  isAbstract : Bool := false
  docComment : Option String := none
  methods : List MethodDescriptor := []
  properties : List PropertyDescriptor := []
deriving DecidableEq

/-- A variable of the scope that is exported. -/
structure VariableDescriptor where
  name : String
  value : RuntimeValue := .null

structure ConstantDescriptor where
  name : String
  value : RuntimeValue := .null

def MethodDescriptor.has (m : MethodDescriptor) (modifier : Modifier) : Bool :=
  m.modifiers.contains modifier

def PropertyDescriptor.has (p : PropertyDescriptor) (modifier : Modifier) : Bool :=
  p.modifiers.contains modifier

instance : Shaped ParameterDescriptor where
  shape := .struct "ParameterDescriptor" (.required "name" .text .nil)
  pack d := (d.name, ())
  unpack := fun (name, ()) => { name }
  unpack_pack _ := rfl

instance : Shaped MethodDescriptor where
  shape := .struct "MethodDescriptor" <|
    .required "name" .text <| .defaulted "modifiers" (.list (shapeOf Modifier)) <|
    .defaulted "parameters" (.list (shapeOf ParameterDescriptor)) <|
    .defaulted "doc_comment" (.optional .text) .nil
  pack d := (d.name, some (d.modifiers.map pack), some (d.parameters.map pack),
    some d.docComment, ())
  unpack := fun (name, modifiers, parameters, docComment, ()) =>
    { name, modifiers := (modifiers.getD []).map unpack,
      parameters := (parameters.getD []).map unpack, docComment := docComment.join }
  unpack_pack _ := by simp [-List.map_map]

instance : Shaped PropertyDescriptor where
  shape := .struct "PropertyDescriptor" <|
    .required "name" .text <| .defaulted "modifiers" (.list (shapeOf Modifier)) <|
    .defaulted "doc_comment" (.optional .text) .nil
  pack d := (d.name, some (d.modifiers.map pack), some d.docComment, ())
  unpack := fun (name, modifiers, docComment, ()) =>
    { name, modifiers := (modifiers.getD []).map unpack, docComment := docComment.join }
  unpack_pack _ := by simp [-List.map_map]

instance : Shaped ClassDescriptor where
  shape := .struct "ClassDescriptor" <|
    .required "name" .text <| .defaulted "is_interface" .flag <| .defaulted "is_trait" .flag <|
    .defaulted "parent" (.optional .text) <| .defaulted "interfaces" (.list .text) <|
    .defaulted "is_final" .flag <| .defaulted "is_abstract" .flag <|
    .defaulted "doc_comment" (.optional .text) <|
    .defaulted "methods" (.list (shapeOf MethodDescriptor)) <|
    .defaulted "properties" (.list (shapeOf PropertyDescriptor)) .nil
  pack d := (d.name, some d.isInterface, some d.isTrait, some d.parent, some d.interfaces,
    some d.isFinal, some d.isAbstract, some d.docComment, some (d.methods.map pack),
    some (d.properties.map pack), ())
  unpack := fun (name, isInterface, isTrait, parent, interfaces, isFinal, isAbstract, docComment,
      methods, properties, ()) =>
    { name, isInterface := isInterface.getD false, isTrait := isTrait.getD false,
      parent := parent.join, interfaces := interfaces.getD [], isFinal := isFinal.getD false,
      isAbstract := isAbstract.getD false, docComment := docComment.join,
      methods := (methods.getD []).map unpack, properties := (properties.getD []).map unpack }
  unpack_pack _ := by simp [-List.map_map]

instance : Shaped VariableDescriptor where
  shape := .struct "VariableDescriptor" (.required "name" .text (.defaulted "value" .value .nil))
  pack d := (d.name, some d.value, ())
  unpack := fun (name, value, ()) => { name, value := value.getD .null }
  unpack_pack _ := rfl

instance : Shaped ConstantDescriptor where
  shape := .struct "ConstantDescriptor" (.required "name" .text (.defaulted "value" .value .nil))
  pack d := (d.name, some d.value, ())
  unpack := fun (name, value, ()) => { name, value := value.getD .null }
  unpack_pack _ := rfl

end SymbolExport
