import SymbolExport.Shape.Decode
import SymbolExport.Shape.Encode
import SymbolExport.Shape.Yaml

/-!
# Export records

One record for each exported symbol. A record is shaped once from what the runtime reports and
becomes one row; methods and members point at their class by name only.
-/

namespace SymbolExport

inductive ClassKind where
  | plain
  | interface
  | trait
deriving DecidableEq, Repr

/-- Who may use a method or a member. -/
inductive Visibility where
  | pub
  | prot
  | priv
deriving DecidableEq, Repr

namespace ClassKind

/-- An interface counts as such whatever else is said of it. -/
def ofFlags (isInterface isTrait : Bool) : ClassKind :=
  if isInterface then .interface else if isTrait then .trait else .plain

def text : ClassKind → String
  | .plain => "class"
  | .interface => "interface"
  | .trait => "trait"

instance : Shaped ClassKind where
  shape := .choice #v["class", "interface", "trait"]
  pack
    | .plain => (0 : Fin 3)
    | .interface => (1 : Fin 3)
    | .trait => (2 : Fin 3)
  unpack := fun (i : Fin 3) => match i with
    | 0 => .plain
    | 1 => .interface
    | 2 => .trait
  unpack_pack k := by cases k <;> rfl

end ClassKind

namespace Visibility

/-- Protected wins over private, and public is what remains. -/
def ofFlags (isProtected isPrivate : Bool) : Visibility :=
  if isProtected then .prot else if isPrivate then .priv else .pub

def text : Visibility → String
  | .pub => "public"
  | .prot => "protected"
  | .priv => "private"

instance : Shaped Visibility where
  shape := .choice #v["public", "protected", "private"]
  pack
    | .pub => (0 : Fin 3)
    | .prot => (1 : Fin 3)
    | .priv => (2 : Fin 3)
  unpack := fun (i : Fin 3) => match i with
    | 0 => .pub
    | 1 => .prot
    | 2 => .priv
  unpack_pack v := by cases v <;> rfl

end Visibility

structure FunctionRecord where
  name : String

structure ClassRecord where
  name : String
  kind : ClassKind
  parentName : String
  interfaceNames : List String
  isFinal : Bool
  isAbstract : Bool
  docComment : String

structure MethodRecord where
  name : String
  className : String
  isStatic : Bool
  visibility : Visibility
  parameterNames : List String
  docComment : String

structure PropertyRecord where
  name : String
  className : String
  isStatic : Bool
  visibility : Visibility
  docComment : String

structure VariableRecord where
  name : String
  value : RuntimeValue

structure ConstantRecord where
  name : String
  value : RuntimeValue

instance : Shaped FunctionRecord where
  shape := .struct "FunctionRecord" (.required "name" .text .nil)
  pack r := (r.name, ())
  unpack := fun (name, ()) => { name }
  unpack_pack _ := rfl

instance : Shaped ClassRecord where
  shape := .struct "ClassRecord" <|
    .required "name" .text <| .required "kind" (shapeOf ClassKind) <|
    .required "parent_name" .text <| .required "interface_names" (.list .text) <|
    .required "is_final" .flag <| .required "is_abstract" .flag <|
    .required "doc_comment" .text .nil
  pack r := (r.name, pack r.kind, r.parentName, r.interfaceNames, r.isFinal, r.isAbstract,
    r.docComment, ())
  unpack := fun (name, kind, parentName, interfaceNames, isFinal, isAbstract, docComment, ()) =>
    { name, kind := unpack kind, parentName, interfaceNames, isFinal, isAbstract, docComment }
  unpack_pack _ := by simp

instance : Shaped MethodRecord where
  shape := .struct "MethodRecord" <|
    .required "name" .text <| .required "class_name" .text <| .required "is_static" .flag <|
    .required "visibility" (shapeOf Visibility) <| .required "parameter_names" (.list .text) <|
    .required "doc_comment" .text .nil
  pack r := (r.name, r.className, r.isStatic, pack r.visibility, r.parameterNames,
    r.docComment, ())
  unpack := fun (name, className, isStatic, visibility, parameterNames, docComment, ()) =>
    { name, className, isStatic, visibility := unpack visibility, parameterNames, docComment }
  unpack_pack _ := by simp

instance : Shaped PropertyRecord where
  shape := .struct "PropertyRecord" <|
    .required "name" .text <| .required "class_name" .text <| .required "is_static" .flag <|
    .required "visibility" (shapeOf Visibility) <| .required "doc_comment" .text .nil
  pack r := (r.name, r.className, r.isStatic, pack r.visibility, r.docComment, ())
  unpack := fun (name, className, isStatic, visibility, docComment, ()) =>
    { name, className, isStatic, visibility := unpack visibility, docComment }
  unpack_pack _ := by simp

instance : Shaped VariableRecord where
  shape := .struct "VariableRecord" (.required "name" .text (.required "value" .value .nil))
  pack r := (r.name, r.value, ())
  unpack := fun (name, value, ()) => { name, value }
  unpack_pack _ := rfl

instance : Shaped ConstantRecord where
  shape := .struct "ConstantRecord" (.required "name" .text (.required "value" .value .nil))
  pack r := (r.name, r.value, ())
  unpack := fun (name, value, ()) => { name, value }
  unpack_pack _ := rfl

inductive Record where
  | function (r : FunctionRecord)
  | classLike (r : ClassRecord)
  | method (r : MethodRecord)
  | member (r : PropertyRecord)
  | var (r : VariableRecord)
  | const (r : ConstantRecord)

namespace Record

/-- The words by which rows and documents tell the kinds apart. -/
def tags : Vector String 6 :=
  #v["function", "class", "method", "member", "variable", "constant"]

def tag : Record → String
  | .function _ => "function"
  | .classLike _ => "class"
  | .method _ => "method"
  | .member _ => "member"
  | .var _ => "variable"
  | .const _ => "constant"

def name : Record → String
  | .function r => r.name
  | .classLike r => r.name
  | .method r => r.name
  | .member r => r.name
  | .var r => r.name
  | .const r => r.name

/-- The row of a record in the full format. Values of variables are never exported. -/
def fields (record : Record) : List String :=
  record.tag :: match record with
    | .function r => [r.name]
    | .classLike r =>
        [r.name, r.kind.text, r.parentName, ",".intercalate r.interfaceNames,
          RuntimeValue.flagText r.isFinal, RuntimeValue.flagText r.isAbstract, r.docComment]
    | .method r =>
        [r.name, r.className, RuntimeValue.flagText r.isStatic, r.visibility.text,
          ",".intercalate r.parameterNames, r.docComment]
    | .member r =>
        [r.name, r.className, RuntimeValue.flagText r.isStatic, r.visibility.text, r.docComment]
    | .var r => [r.name, ""]
    | .const r => [r.name, r.value.toField]

/-- The fields of a record as JSON, without its tag. -/
def content : Record → List (String × Json)
  | .function r => (shapeOf FunctionRecord).fieldsOf (pack r)
  | .classLike r => (shapeOf ClassRecord).fieldsOf (pack r)
  | .method r => (shapeOf MethodRecord).fieldsOf (pack r)
  | .member r => (shapeOf PropertyRecord).fieldsOf (pack r)
  | .var r => (shapeOf VariableRecord).fieldsOf (pack r)
  | .const r => (shapeOf ConstantRecord).fieldsOf (pack r)

/-- A record as JSON: the tag under the key `kind`, then the fields. -/
def toJson (r : Record) : Json :=
  .object (("kind", .text r.tag) :: r.content)

/-- The record with a given tag that content holds. -/
def ofContent (tag : Fin 6) (v : Content) : Except Json.Cause Record :=
  match tag with
  | 0 => return .function (unpack (← (shapeOf FunctionRecord).decode v))
  | 1 => return .classLike (unpack (← (shapeOf ClassRecord).decode v))
  | 2 => return .method (unpack (← (shapeOf MethodRecord).decode v))
  | 3 => return .member (unpack (← (shapeOf PropertyRecord).decode v))
  | 4 => return .var (unpack (← (shapeOf VariableRecord).decode v))
  | 5 => return .const (unpack (← (shapeOf ConstantRecord).decode v))

/-- Reads a record; what follows the tag is judged after the whole value has been read. -/
def read (depth : Nat) : Json.Reader Record := do
  let (tag, v) ← Json.Reader.tagged "Record" "kind" tags depth
  match ofContent tag v with
  | .ok r => pure r
  | .error cause => throw { cause, offset := none }

def ofYamlBytes (input : Bytes) : Except Yaml.Fault Record := do
  let doc ← Yaml.Document.ofBytes input
  let (tag, v) ← (doc.tagged "Record" "kind" tags Yaml.depthLimit doc.root).run' 0
  match ofContent tag v with
  | .ok r => pure r
  | .error cause => throw (.mismatch cause.describe)

def ofJsonBytes (input : Bytes) : Except Json.Fault Record :=
  Json.Reader.run (read Json.depthLimit) input

end Record

end SymbolExport
