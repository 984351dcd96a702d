import SymbolExport.Export.Shaping

/-!
# Enumerating records

The records of a runtime are produced one at a time: functions, classes each with its members,
variables, constants. Questions are asked only when their answers are needed, except that the
variables are captured before anything else. The first question that fails ends the enumeration
with its error.
-/

namespace SymbolExport

/-- A record or the error that ends the enumeration. -/
abbrev Item := Except ExportError Record

/-- What happens while the next item is looked for. -/
inductive Activity where
  | asked (query : Query)
  | reflected (name : String) (members : Nat)
  | releasing (vars : Nat)
deriving DecidableEq, Repr

/-- What remains to be produced. -/
inductive Stage where
  | start
  | functions (names : List String)
  | classes (names : List String)
  | vars (rest : List VariableDescriptor)
  | constants (rest : List ConstantDescriptor)
  | failed (error : ExportError)
  | done

namespace Stage

/-- The place of a stage in the order of stages, counted from the last. -/
def rank : Stage → Nat
  | .start => 5
  | .functions _ => 4
  | .classes _ => 3
  | .vars _ => 2
  | .constants _ => 1
  | .failed _ => 1
  | .done => 0

/-- The number of entries that a stage still has. -/
def size : Stage → Nat
  | .functions names => names.length
  | .classes names => names.length
  | .vars rest => rest.length
  | .constants rest => rest.length
  | _ => 0

end Stage

structure Enumeration where
  /-- The variables captured at the beginning. -/
  captured : List VariableDescriptor
  stage : Stage
  /-- Members of the class produced last. -/
  pending : List Record

/-- The outcome of asking for the next item. -/
structure Step where
  item : Option Item
  next : Enumeration
  activity : List Activity

namespace Enumeration

/-- Begins an enumeration: the variables are captured. -/
def start (r : Reflector) : Enumeration :=
  match r.vars with
  | .ok captured => { captured, stage := .start, pending := [] }
  | .error e => { captured := [], stage := .failed e, pending := [] }

/-- The question that beginning an enumeration asks. -/
def startActivity : List Activity := [.asked .vars]

def goto (e : Enumeration) (stage : Stage) : Enumeration :=
  { e with stage }

def halt (e : Enumeration) (error : ExportError) (activity : List Activity) : Step :=
  { item := some (.error error), next := e.goto .done, activity }

def nextConstant (e : Enumeration) (activity : List Activity) : List ConstantDescriptor → Step
  | d :: rest => { item := some (.ok d.record), next := e.goto (.constants rest), activity }
  | [] => { item := none, next := e.goto .done, activity }

/-- The next variable, or what follows the variables. -/
def nextVariable (r : Reflector) (e : Enumeration) (activity : List Activity) :
    List VariableDescriptor → Step
  | d :: rest => { item := some (.ok d.record), next := e.goto (.vars rest), activity }
  | [] =>
      let activity := activity ++ [.asked .constants]
      match r.constants with
      | .ok constants => e.nextConstant activity constants
      | .error error => e.halt error activity

/-- The next class, or what follows the classes. -/
def nextClass (r : Reflector) (e : Enumeration) (activity : List Activity) :
    List String → Step
  | name :: rest =>
      let activity := activity ++ [.asked (.reflect name)]
      match r.reflect name with
      | .ok d =>
          let members := d.memberRecords name
          { item := some (.ok (.classLike (d.record name)))
            next := { e with stage := .classes rest, pending := members }
            activity := activity ++ [.reflected name members.length] }
      | .error error => e.halt error activity
  | [] =>
      nextVariable r { e with captured := [] } (activity ++ [.releasing e.captured.length])
        e.captured

/-- The next function, or what follows the functions. -/
def nextFunction (r : Reflector) (e : Enumeration) (activity : List Activity) :
    List String → Step
  | name :: rest =>
      { item := some (.ok (.function { name })), next := e.goto (.functions rest), activity }
  | [] =>
      let activity := activity ++ [.asked .declared]
      match r.declared with
      | .ok names => nextClass r e activity names
      | .error error => e.halt error activity

def next (r : Reflector) (e : Enumeration) : Step :=
  match e.pending with
  | record :: rest =>
      { item := some (.ok record), next := { e with pending := rest }, activity := [] }
  | [] =>
      match e.stage with
      | .start =>
          match r.functions with
          | .ok names => nextFunction r e [.asked .functions] names
          | .error error => e.halt error [.asked .functions]
      | .functions names => nextFunction r e [] names
      | .classes names => nextClass r e [] names
      | .vars rest => nextVariable r e [] rest
      | .constants rest => e.nextConstant [] rest
      | .failed error => e.halt error []
      | .done => { item := none, next := e, activity := [] }

def steps (r : Reflector) : Nat → Enumeration → List Step
  | 0, _ => []
  | n + 1, e =>
      let step := e.next r
      step :: steps r n step.next

theorem nextConstant_before (e : Enumeration) (activity : List Activity)
    (rest : List ConstantDescriptor) {item : Item}
    (h : (e.nextConstant activity rest).item = some item) :
    (e.nextConstant activity rest).next.stage.rank = 1 ∧
      (e.nextConstant activity rest).next.stage.size < rest.length := by
  cases rest <;> simp_all [nextConstant, goto, Stage.rank, Stage.size]

theorem nextVariable_before (r : Reflector) (e : Enumeration) (activity : List Activity)
    (rest : List VariableDescriptor) {item : Item}
    (h : (nextVariable r e activity rest).item = some item) :
    (nextVariable r e activity rest).next.stage.rank < 2 ∨
      (nextVariable r e activity rest).next.stage.rank = 2 ∧
        (nextVariable r e activity rest).next.stage.size < rest.length := by
  cases rest with
  | cons d rest => simp [nextVariable, goto, Stage.rank, Stage.size]
  | nil =>
      cases hc : r.constants with
      | error error => simp [nextVariable, hc, halt, goto, Stage.rank]
      | ok constants =>
          simp only [nextVariable, hc] at h ⊢
          have := nextConstant_before e _ constants h
          omega

theorem nextClass_before (r : Reflector) (e : Enumeration) (activity : List Activity)
    (names : List String) {item : Item}
    (h : (nextClass r e activity names).item = some item) :
    (nextClass r e activity names).next.stage.rank < 3 ∨
      (nextClass r e activity names).next.stage.rank = 3 ∧
        (nextClass r e activity names).next.stage.size < names.length := by
  cases names with
  | cons name rest =>
      cases hr : r.reflect name <;> simp [nextClass, hr, halt, goto, Stage.rank, Stage.size]
  | nil =>
      simp only [nextClass] at h ⊢
      have := nextVariable_before r _ _ _ h
      omega

theorem nextFunction_before (r : Reflector) (e : Enumeration) (activity : List Activity)
    (names : List String) {item : Item}
    (h : (nextFunction r e activity names).item = some item) :
    (nextFunction r e activity names).next.stage.rank < 4 ∨
      (nextFunction r e activity names).next.stage.rank = 4 ∧
        (nextFunction r e activity names).next.stage.size < names.length := by
  cases names with
  | cons name rest => simp [nextFunction, goto, Stage.rank, Stage.size]
  | nil =>
      cases hd : r.declared with
      | error error => simp [nextFunction, hd, halt, goto, Stage.rank]
      | ok names =>
          simp only [nextFunction, hd] at h ⊢
          have := nextClass_before r e _ names h
          omega

/-- Each item produced brings the end closer. -/
theorem next_before (r : Reflector) (e : Enumeration) {item : Item}
    (h : (e.next r).item = some item) :
    (e.next r).next.stage.rank < e.stage.rank ∨
      (e.next r).next.stage.rank = e.stage.rank ∧
        ((e.next r).next.stage.size < e.stage.size ∨
          (e.next r).next.stage.size = e.stage.size ∧
            (e.next r).next.pending.length < e.pending.length) := by
  cases hp : e.pending with
  | cons record rest => simp [next, hp]
  | nil =>
      cases hs : e.stage with
      | start =>
          cases hf : r.functions with
          | error error => simp [next, hp, hs, hf, halt, goto, Stage.rank]
          | ok names =>
              simp only [next, hp, hs, hf] at h ⊢
              have := nextFunction_before r e _ names h
              have rank : Stage.start.rank = 5 := rfl
              omega
      | functions names =>
          simp only [next, hp, hs] at h ⊢
          have := nextFunction_before r e _ names h
          have rank : (Stage.functions names).rank = 4 := rfl
          have size : (Stage.functions names).size = names.length := rfl
          omega
      | classes names =>
          simp only [next, hp, hs] at h ⊢
          have := nextClass_before r e _ names h
          have rank : (Stage.classes names).rank = 3 := rfl
          have size : (Stage.classes names).size = names.length := rfl
          omega
      | vars rest =>
          simp only [next, hp, hs] at h ⊢
          have := nextVariable_before r e _ rest h
          have rank : (Stage.vars rest).rank = 2 := rfl
          have size : (Stage.vars rest).size = rest.length := rfl
          omega
      | constants rest =>
          simp only [next, hp, hs] at h ⊢
          have := nextConstant_before e _ rest h
          have rank : (Stage.constants rest).rank = 1 := rfl
          have size : (Stage.constants rest).size = rest.length := rfl
          omega
      | failed error => simp [next, hp, hs, halt, goto, Stage.rank]
      | done => simp [next, hp, hs] at h

/-- All items from here on, and what happens on the way. -/
def drain (r : Reflector) (e : Enumeration) : List Item × List Activity :=
  match _h : (e.next r).item with
  | none => ([], (e.next r).activity)
  | some item =>
      let (items, activity) := drain r (e.next r).next
      (item :: items, (e.next r).activity ++ activity)
termination_by (e.stage.rank, e.stage.size, e.pending.length)
decreasing_by
  have := next_before r e _h
  simp only [Prod.lex_def]
  omega

end Enumeration

/-- The questions among what happened. -/
def Activity.queries (activity : List Activity) : List Query :=
  activity.filterMap fun
    | .asked q => some q
    | _ => none

namespace Reflector

/-- All items that an enumeration produces, and what happens on the way. -/
def enumerate (r : Reflector) : List Item × List Activity :=
  let (items, activity) := (Enumeration.start r).drain r
  (items, Enumeration.startActivity ++ activity)

/-- All records, or the error that ended the enumeration. -/
def collect (r : Reflector) : Except ExportError (List Record) :=
  r.enumerate.1.mapM id

/-- The items behind the variables. -/
def constantItems (r : Reflector) : List Item :=
  match r.constants with
  | .error e => [.error e]
  | .ok constants => constants.map fun d => .ok d.record

/-- The items behind the classes: the variables captured, and what comes behind them. -/
def variableItems (r : Reflector) (captured : List VariableDescriptor) : List Item :=
  captured.map (fun d => .ok d.record) ++ r.constantItems

/-- The records of the declared classes, each with its members, and what comes behind them. A class
that cannot be reflected cuts everything off. -/
def classItems (r : Reflector) (behind : List Item) : List String → List Item
  | [] => behind
  | name :: rest =>
      match r.reflect name with
      | .error e => [.error e]
      | .ok d => (d.records name).map .ok ++ r.classItems behind rest

/-- The items behind the functions. -/
def declaredItems (r : Reflector) (captured : List VariableDescriptor) : List Item :=
  match r.declared with
  | .error e => [.error e]
  | .ok names => r.classItems (r.variableItems captured) names

def functionItem (name : String) : Item :=
  .ok (.function { name })

/-- The items of a runtime whose variables were captured. -/
def functionItems (r : Reflector) (captured : List VariableDescriptor) : List Item :=
  match r.functions with
  | .error e => [.error e]
  | .ok names => names.map functionItem ++ r.declaredItems captured

/-- All items of a runtime in order; an error can only be the last of them. -/
def items (r : Reflector) : List Item :=
  match r.vars with
  | .error e => [.error e]
  | .ok captured => r.functionItems captured

end Reflector

end SymbolExport
