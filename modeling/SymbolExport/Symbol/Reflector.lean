import SymbolExport.Symbol.Snapshot

/-!
# Reflectors

A reflector answers the questions that a reflection interface would: which functions exist, which
classes are declared, what a class looks like. Any question may fail.
-/

namespace SymbolExport

/-- A question to a runtime. -/
inductive Query where
  | vars
  | functions
  | declared
  | reflect (name : String)
  | constants
deriving DecidableEq, Repr

/-- What a runtime answers to each question. -/
structure Reflector where
  vars : Except ExportError (List VariableDescriptor)
  functions : Except ExportError (List String)
  declared : Except ExportError (List String)
  reflect : String → Except ExportError ClassDescriptor
  constants : Except ExportError (List ConstantDescriptor)

def Query.text : Query → String
  | .vars => "variables"
  | .functions => "functions"
  | .declared => "declared"
  | .reflect name => "class:" ++ name
  | .constants => "constants"

namespace RuntimeSnapshot

def findClass? (s : RuntimeSnapshot) (name : String) : Option ClassDescriptor :=
  s.classes.find? fun d => d.name = name

/-- A snapshot answers from its lists; a class name that it does not list has vanished. -/
def reflector (s : RuntimeSnapshot) : Reflector where
  vars := .ok s.vars
  functions := .ok s.functions
  declared := .ok (s.classes.map (·.name))
  reflect name :=
    match s.findClass? name with
    | some d => .ok d
    | none => .error (.vanished name)
  constants := .ok s.constants

end RuntimeSnapshot

/-- A reflector written down: what each question is answered, and which questions fail. -/
structure Script where
  functions : List String := []
  declared : List String := []
  classes : List (String × ClassDescriptor) := []
  vars : List VariableDescriptor := []
  constants : List ConstantDescriptor := []
  failures : List (Query × ExportError) := []

namespace Script

/-- The answer to a question, unless it is written to fail. -/
def answer {α : Type} (s : Script) (q : Query) (a : Except ExportError α) :
    Except ExportError α :=
  match s.failures.lookup q with
  | some e => .error e
  | none => a

def reflector (s : Script) : Reflector where
  vars := s.answer .vars (.ok s.vars)
  functions := s.answer .functions (.ok s.functions)
  declared := s.answer .declared (.ok s.declared)
  reflect name := s.answer (.reflect name) <|
    match s.classes.lookup name with
    | some d => .ok d
    | none => .error (.vanished name)
  constants := s.answer .constants (.ok s.constants)

end Script

end SymbolExport
