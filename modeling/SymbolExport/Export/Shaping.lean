import SymbolExport.Symbol.Reflector

/-!
# Shaping records

What reflection reports becomes records. A class is shaped under the name it was listed by, whatever
its descriptor calls itself, and the doc comments of members are never exported.
-/

namespace SymbolExport

namespace MethodDescriptor

def record (m : MethodDescriptor) (className : String) : MethodRecord where
  name := m.name
  className := className
  isStatic := m.has .static
  visibility := .ofFlags (m.has .prot) (m.has .priv)
  parameterNames := m.parameters.map (·.name)
  docComment := ""

end MethodDescriptor

namespace PropertyDescriptor

def record (p : PropertyDescriptor) (className : String) : PropertyRecord where
  name := p.name
  className := className
  isStatic := p.has .static
  visibility := .ofFlags (p.has .prot) (p.has .priv)
  docComment := ""

end PropertyDescriptor

namespace ClassDescriptor

def record (d : ClassDescriptor) (name : String) : ClassRecord where
  name := name
  kind := .ofFlags d.isInterface d.isTrait
  parentName := d.parent.getD ""
  interfaceNames := d.interfaces
  isFinal := d.isFinal
  isAbstract := d.isAbstract
  docComment := d.docComment.getD ""

/-- The records of a class's members: its methods, then its member variables. -/
def memberRecords (d : ClassDescriptor) (name : String) : List Record :=
  d.methods.map (fun m => .method (m.record name)) ++
    d.properties.map (fun p => .member (p.record name))

def records (d : ClassDescriptor) (name : String) : List Record :=
  .classLike (d.record name) :: d.memberRecords name

end ClassDescriptor

def VariableDescriptor.record (d : VariableDescriptor) : Record :=
  .var { name := d.name, value := d.value }

def ConstantDescriptor.record (d : ConstantDescriptor) : Record :=
  .const { name := d.name, value := d.value }

end SymbolExport
