import SymbolExport.Proofs.Enumeration

/-! # When questions are asked

What can be observed of an enumeration is which questions it asks and what its calls return. The trace
of a runtime is written down here without the machine: each group of records stands behind the question
it comes from, each class behind its own question, and a question that fails is followed by its error
and by nothing else. The machine follows the trace exactly, so it asks no question early, twice or in
vain. It never sees any answer but those it asked for.
-/

namespace SymbolExport

inductive Observation where
  | asked (query : Query)
  | returned (item : Option Item)

/-- A call returns an item. -/
def Observation.yielded (item : Item) : Observation :=
  .returned (some item)

namespace Step

def asked (s : Step) : List Query :=
  Activity.queries s.activity

/-- A call asks all its questions before it returns. -/
def trace (s : Step) : List Observation :=
  s.asked.map .asked ++ [.returned s.item]

/-- The same call with something that happens before it. -/
def behind (activity : List Activity) (s : Step) : Step :=
  { s with activity := activity ++ s.activity }

end Step

def Record.isMember : Record → Bool
  | .method _ => true
  | .member _ => true
  | _ => false

namespace Reflector

/-! ## The trace of a runtime -/

def constantTrace (r : Reflector) : List Observation :=
  .asked .constants :: r.constantItems.map .yielded

def variableTrace (r : Reflector) (captured : List VariableDescriptor) : List Observation :=
  captured.map (fun d => .yielded (.ok d.record)) ++ r.constantTrace

/-- Each class is asked for right before its record, and nothing is asked among its members. -/
def classTrace (r : Reflector) (behind : List Observation) : List String → List Observation
  | [] => behind
  | name :: rest =>
      .asked (.reflect name) ::
        match r.reflect name with
        | .error e => [.yielded (.error e)]
        | .ok d => (d.records name).map (fun record => .yielded (.ok record)) ++
            r.classTrace behind rest

def declaredTrace (r : Reflector) (captured : List VariableDescriptor) : List Observation :=
  .asked .declared ::
    match r.declared with
    | .error e => [.yielded (.error e)]
    | .ok names => r.classTrace (r.variableTrace captured) names

def functionTrace (r : Reflector) (captured : List VariableDescriptor) : List Observation :=
  .asked .functions ::
    match r.functions with
    | .error e => [.yielded (.error e)]
    | .ok names => names.map (fun name => .yielded (functionItem name)) ++ r.declaredTrace captured

/-- Everything that an enumeration leads to, up to its last item or question. -/
def trace (r : Reflector) : List Observation :=
  .asked .vars ::
    match r.vars with
    | .error e => [.yielded (.error e)]
    | .ok captured => r.functionTrace captured

def answers (r : Reflector) : Query → Bool
  | .vars => r.vars.isOk
  | .functions => r.functions.isOk
  | .declared => r.declared.isOk
  | .reflect name => (r.reflect name).isOk
  | .constants => r.constants.isOk

def untilFailure (r : Reflector) : List Query → List Query
  | [] => []
  | query :: rest => if r.answers query then query :: r.untilFailure rest else [query]

def declaredNames (r : Reflector) : List String :=
  r.declared.toOption.getD []

/-- All questions of an enumeration in their order. -/
def agenda (r : Reflector) : List Query :=
  r.untilFailure
    (.vars :: .functions :: .declared :: (r.declaredNames.map .reflect ++ [.constants]))

/-- Two runtimes answer a question alike. -/
def SameAnswer (r q : Reflector) : Query → Prop
  | .vars => r.vars = q.vars
  | .functions => r.functions = q.functions
  | .declared => r.declared = q.declared
  | .reflect name => r.reflect name = q.reflect name
  | .constants => r.constants = q.constants

/-- The record of a class that is asked for, or the error in its place. -/
def classItem (r : Reflector) (name : String) : Item :=
  (r.reflect name).map fun d => .classLike (d.record name)

end Reflector

open Reflector

@[simp] theorem Activity.queries_append (activity others : List Activity) :
    Activity.queries (activity ++ others) = Activity.queries activity ++ Activity.queries others :=
  List.filterMap_append

@[simp] theorem Step.asked_behind (activity : List Activity) (s : Step) :
    (s.behind activity).asked = Activity.queries activity ++ s.asked :=
  Activity.queries_append activity s.activity

namespace Enumeration

/-! ## What a call can do

A call moves from stage to stage until it can return. Each move and each way to return is written down
once; every statement about calls is then a statement about these.
-/

/-- The moves of a call, with what happens on the way. -/
inductive Moves (r : Reflector) : Enumeration → List Activity → Enumeration → Prop where
  | functions {captured : List VariableDescriptor} {names : List String}
      (answer : r.functions = .ok names) :
      Moves r ⟨captured, .start, []⟩ [.asked .functions] ⟨captured, .functions names, []⟩
  | classes {captured : List VariableDescriptor} {names : List String}
      (answer : r.declared = .ok names) :
      Moves r ⟨captured, .functions [], []⟩ [.asked .declared] ⟨captured, .classes names, []⟩
  | vars {captured : List VariableDescriptor} :
      Moves r ⟨captured, .classes [], []⟩ [.releasing captured.length] ⟨[], .vars captured, []⟩
  | constants {captured : List VariableDescriptor} {constants : List ConstantDescriptor}
      (answer : r.constants = .ok constants) :
      Moves r ⟨captured, .vars [], []⟩ [.asked .constants] ⟨captured, .constants constants, []⟩

/-- The ways to return without a move. -/
inductive Returns (r : Reflector) : Enumeration → Step → Prop where
  | pending {captured : List VariableDescriptor} {stage : Stage} {record : Record}
      {rest : List Record} :
      Returns r ⟨captured, stage, record :: rest⟩ ⟨some (.ok record), ⟨captured, stage, rest⟩, []⟩
  | function {captured : List VariableDescriptor} {name : String} {rest : List String} :
      Returns r ⟨captured, .functions (name :: rest), []⟩
        ⟨some (functionItem name), ⟨captured, .functions rest, []⟩, []⟩
  | classLike {captured : List VariableDescriptor} {name : String} {rest : List String}
      {d : ClassDescriptor} (answer : r.reflect name = .ok d) :
      Returns r ⟨captured, .classes (name :: rest), []⟩
        ⟨some (.ok (.classLike (d.record name))), ⟨captured, .classes rest, d.memberRecords name⟩,
          [.asked (.reflect name), .reflected name (d.memberRecords name).length]⟩
  | var {captured rest : List VariableDescriptor} {d : VariableDescriptor} :
      Returns r ⟨captured, .vars (d :: rest), []⟩
        ⟨some (.ok d.record), ⟨captured, .vars rest, []⟩, []⟩
  | const {captured : List VariableDescriptor} {d : ConstantDescriptor}
      {rest : List ConstantDescriptor} :
      Returns r ⟨captured, .constants (d :: rest), []⟩
        ⟨some (.ok d.record), ⟨captured, .constants rest, []⟩, []⟩
  | ended {captured : List VariableDescriptor} :
      Returns r ⟨captured, .constants [], []⟩ ⟨none, ⟨captured, .done, []⟩, []⟩
  | done {captured : List VariableDescriptor} :
      Returns r ⟨captured, .done, []⟩ ⟨none, ⟨captured, .done, []⟩, []⟩
  | failed {captured : List VariableDescriptor} {error : ExportError} :
      Returns r ⟨captured, .failed error, []⟩ ⟨some (.error error), ⟨captured, .done, []⟩, []⟩
  | noFunctions {captured : List VariableDescriptor} {error : ExportError}
      (answer : r.functions = .error error) :
      Returns r ⟨captured, .start, []⟩
        ⟨some (.error error), ⟨captured, .done, []⟩, [.asked .functions]⟩
  | noDeclared {captured : List VariableDescriptor} {error : ExportError}
      (answer : r.declared = .error error) :
      Returns r ⟨captured, .functions [], []⟩
        ⟨some (.error error), ⟨captured, .done, []⟩, [.asked .declared]⟩
  | noClass {captured : List VariableDescriptor} {name : String} {rest : List String}
      {error : ExportError} (answer : r.reflect name = .error error) :
      Returns r ⟨captured, .classes (name :: rest), []⟩
        ⟨some (.error error), ⟨captured, .done, []⟩, [.asked (.reflect name)]⟩
  | noConstants {captured : List VariableDescriptor} {error : ExportError}
      (answer : r.constants = .error error) :
      Returns r ⟨captured, .vars [], []⟩
        ⟨some (.error error), ⟨captured, .done, []⟩, [.asked .constants]⟩

/-- A call that something has happened in already. -/
inductive Calls (r : Reflector) : Enumeration → List Activity → Step → Prop where
  | returns {e : Enumeration} {step : Step} (h : Returns r e step) (activity : List Activity) :
      Calls r e activity (step.behind activity)
  | moves {e mid : Enumeration} {activity own : List Activity} {step : Step} (h : Moves r e own mid)
      (rest : Calls r mid (activity ++ own) step) : Calls r e activity step

theorem nextConstant_calls (r : Reflector) (captured : List VariableDescriptor) (stage : Stage)
    (activity : List Activity) (rest : List ConstantDescriptor) :
    Calls r ⟨captured, .constants rest, []⟩ activity
      (nextConstant ⟨captured, stage, []⟩ activity rest) := by
  cases rest with
  | nil => simpa [nextConstant, goto, Step.behind] using Calls.returns .ended activity
  | cons d rest => simpa [nextConstant, goto, Step.behind] using Calls.returns .const activity

theorem nextVariable_calls (r : Reflector) (captured : List VariableDescriptor) (stage : Stage)
    (activity : List Activity) (rest : List VariableDescriptor) :
    Calls r ⟨captured, .vars rest, []⟩ activity
      (nextVariable r ⟨captured, stage, []⟩ activity rest) := by
  cases rest with
  | cons d rest => simpa [nextVariable, goto, Step.behind] using Calls.returns .var activity
  | nil =>
      cases answer : r.constants with
      | error error =>
          simpa [nextVariable, answer, halt, goto, Step.behind] using
            Calls.returns (.noConstants answer) activity
      | ok constants =>
          simp only [nextVariable, answer]
          exact .moves (.constants answer) (nextConstant_calls r captured stage _ constants)

theorem nextClass_calls (r : Reflector) (captured : List VariableDescriptor) (stage : Stage)
    (activity : List Activity) (names : List String) :
    Calls r ⟨captured, .classes names, []⟩ activity
      (nextClass r ⟨captured, stage, []⟩ activity names) := by
  cases names with
  | nil => exact .moves .vars (nextVariable_calls r [] stage _ captured)
  | cons name rest =>
      cases answer : r.reflect name with
      | error error =>
          simpa [nextClass, answer, halt, goto, Step.behind] using
            Calls.returns (.noClass answer) activity
      | ok d =>
          simpa [nextClass, answer, Step.behind] using Calls.returns (.classLike answer) activity

theorem nextFunction_calls (r : Reflector) (captured : List VariableDescriptor) (stage : Stage)
    (activity : List Activity) (names : List String) :
    Calls r ⟨captured, .functions names, []⟩ activity
      (nextFunction r ⟨captured, stage, []⟩ activity names) := by
  cases names with
  | cons name rest =>
      simpa [nextFunction, goto, functionItem, Step.behind] using Calls.returns .function activity
  | nil =>
      cases answer : r.declared with
      | error error =>
          simpa [nextFunction, answer, halt, goto, Step.behind] using
            Calls.returns (.noDeclared answer) activity
      | ok names =>
          simp only [nextFunction, answer]
          exact .moves (.classes answer) (nextClass_calls r captured stage _ names)

theorem next_calls (r : Reflector) (e : Enumeration) : Calls r e [] (e.next r) := by
  obtain ⟨captured, stage, _ | ⟨record, rest⟩⟩ := e
  · cases stage with
    | start =>
        cases answer : r.functions with
        | error error =>
            simp only [next, answer]
            exact .returns (.noFunctions answer) []
        | ok names =>
            simp only [next, answer]
            exact .moves (.functions answer) (nextFunction_calls r captured _ _ names)
    | functions names => exact nextFunction_calls r captured _ [] names
    | classes names => exact nextClass_calls r captured _ [] names
    | vars rest => exact nextVariable_calls r captured _ [] rest
    | constants rest => exact nextConstant_calls r captured _ [] rest
    | failed error => exact .returns .failed []
    | done => exact .returns .done []
  · exact .returns .pending []

/-! ## The trace of a call -/

def toCome (r : Reflector) (e : Enumeration) : List Observation :=
  e.pending.map (fun record => .yielded (.ok record)) ++
    match e.stage with
    | .start => r.functionTrace e.captured
    | .functions names =>
        names.map (fun name => .yielded (functionItem name)) ++ r.declaredTrace e.captured
    | .classes names => r.classTrace (r.variableTrace e.captured) names
    | .vars rest => r.variableTrace rest
    | .constants rest => rest.map fun d => .yielded (.ok d.record)
    | .failed error => [.yielded (.error error)]
    | .done => []

/-- A call goes through the beginning of a trace and leaves the rest to come; without a record to
return it leaves nothing. -/
structure Performs (r : Reflector) (step : Step) (trace : List Observation) : Prop where
  split : trace = step.asked.map .asked ++ step.item.toList.map .yielded ++ step.next.toCome r
  ends : (∀ record, step.item ≠ some (.ok record)) → step.next.toCome r = []

theorem Performs.behind {r : Reflector} {step : Step} {trace : List Observation}
    (h : Performs r step trace) (activity : List Activity) :
    Performs r (step.behind activity) ((Activity.queries activity).map .asked ++ trace) where
  split := by
    rw [h.split, Step.asked_behind, List.map_append]
    simp [Step.behind]
  ends := h.ends

theorem Moves.toCome_eq {r : Reflector} {e mid : Enumeration} {own : List Activity}
    (h : Moves r e own mid) :
    e.toCome r = (Activity.queries own).map .asked ++ mid.toCome r := by
  cases h with
  | functions answer => simp [toCome, functionTrace, answer, Activity.queries]
  | classes answer => simp [toCome, declaredTrace, answer, Activity.queries]
  | vars => simp [toCome, classTrace, Activity.queries]
  | constants answer =>
      simp [toCome, variableTrace, constantTrace, constantItems, answer, Activity.queries]

theorem Returns.performs {r : Reflector} {e : Enumeration} {step : Step} (h : Returns r e step) :
    Performs r step (e.toCome r) := by
  constructor
  · cases h <;>
      simp_all [toCome, Step.asked, Activity.queries, functionTrace, declaredTrace, classTrace,
        variableTrace, constantTrace, constantItems, ClassDescriptor.records]
  · cases h <;> simp [toCome, functionItem]

theorem Calls.performs {r : Reflector} {e : Enumeration} {activity : List Activity} {step : Step}
    (h : Calls r e activity step) :
    Performs r step ((Activity.queries activity).map .asked ++ e.toCome r) := by
  induction h with
  | returns h activity => exact h.performs.behind activity
  | moves h rest ih =>
      rw [h.toCome_eq]
      simpa using ih

/-- Each call asks the questions that stand before the next item, and no others. -/
theorem next_performs (r : Reflector) (e : Enumeration) : Performs r (e.next r) (e.toCome r) :=
  (next_calls r e).performs

/-! ## Calls that ask for a class -/

/-- A class is asked for exactly where it is returned. -/
structure Paired (r : Reflector) (step : Step) : Prop where
  /-- The call that asks for a class returns its record or its error. -/
  returns : ∀ name, .reflect name ∈ step.asked → step.item = some (r.classItem name)
  /-- The call that returns a class has asked for it. -/
  asks : ∀ c, step.item = some (.ok (.classLike c)) → .reflect c.name ∈ step.asked

theorem Returns.paired {r : Reflector} {e : Enumeration} {step : Step} (h : Returns r e step)
    (idle : e.pending = []) : Paired r step := by
  constructor <;> cases h <;>
    simp_all [Step.asked, Activity.queries, classItem, Except.map, functionItem,
      VariableDescriptor.record, ConstantDescriptor.record, ClassDescriptor.record]

theorem Calls.paired {r : Reflector} {e : Enumeration} {activity : List Activity} {step : Step}
    (h : Calls r e activity step) (idle : e.pending = [])
    (other : ∀ name, .reflect name ∉ Activity.queries activity) : Paired r step := by
  induction h with
  | returns h activity =>
      have own := h.paired idle
      constructor
      · intro name asked
        rw [Step.asked_behind, List.mem_append] at asked
        exact own.returns name (asked.resolve_left (other name))
      · intro c found
        rw [Step.asked_behind, List.mem_append]
        exact .inr (own.asks c found)
  | moves h rest ih => cases h <;> exact ih rfl (by simpa [Activity.queries] using other)

theorem Calls.not_isMember {r : Reflector} {e : Enumeration} {activity : List Activity}
    {step : Step} (h : Calls r e activity step) (idle : e.pending = []) {record : Record}
    (found : step.item = some (.ok record)) : record.isMember = false := by
  induction h with
  | returns h activity =>
      cases h with
      | pending => simp at idle
      | _ => cases found <;> rfl
  | moves h rest ih => cases h <;> exact ih rfl found

/-! ## Calls on two runtimes -/

theorem Returns.unique {r : Reflector} {e : Enumeration} {s t : Step} (h : Returns r e s)
    (g : Returns r e t) : s = t := by
  cases h <;> cases g <;> simp_all

theorem Moves.unique {r : Reflector} {e m n : Enumeration} {a b : List Activity}
    (h : Moves r e a m) (g : Moves r e b n) : a = b ∧ m = n := by
  cases h <;> cases g <;> simp_all

theorem Moves.not_returns {r : Reflector} {e m : Enumeration} {a : List Activity} {s : Step}
    (h : Moves r e a m) : ¬Returns r e s := by
  intro g
  cases h <;> cases g <;> simp_all

theorem Calls.unique {r : Reflector} {e : Enumeration} {activity : List Activity} {s t : Step}
    (h : Calls r e activity s) (g : Calls r e activity t) : s = t := by
  induction h with
  | returns h activity =>
      cases g with
      | returns g => rw [h.unique g]
      | moves g _ => exact absurd h g.not_returns
  | moves h _ ih =>
      cases g with
      | returns g => exact absurd g h.not_returns
      | moves g rest =>
          obtain ⟨rfl, rfl⟩ := h.unique g
          exact ih rest

theorem Calls.asked_of_mem {r : Reflector} {e : Enumeration} {activity : List Activity}
    {step : Step} (h : Calls r e activity step) {query : Query}
    (before : query ∈ Activity.queries activity) : query ∈ step.asked := by
  induction h with
  | returns h activity =>
      rw [Step.asked_behind, List.mem_append]
      exact .inl before
  | moves h _ ih =>
      apply ih
      rw [Activity.queries_append, List.mem_append]
      exact .inl before

theorem Returns.congr {r q : Reflector} {e : Enumeration} {step : Step} (h : Returns r e step)
    (same : ∀ query ∈ step.asked, r.SameAnswer q query) : Returns q e step := by
  cases h with
  | pending => exact .pending
  | function => exact .function
  | var => exact .var
  | const => exact .const
  | ended => exact .ended
  | done => exact .done
  | failed => exact .failed
  | @classLike _ name _ _ answer =>
      have alike : r.reflect name = q.reflect name := same (.reflect name) List.mem_cons_self
      exact .classLike (alike.symm.trans answer)
  | @noClass _ name _ _ answer =>
      have alike : r.reflect name = q.reflect name := same (.reflect name) List.mem_cons_self
      exact .noClass (alike.symm.trans answer)
  | noFunctions answer =>
      have alike : r.functions = q.functions := same .functions List.mem_cons_self
      exact .noFunctions (alike.symm.trans answer)
  | noDeclared answer =>
      have alike : r.declared = q.declared := same .declared List.mem_cons_self
      exact .noDeclared (alike.symm.trans answer)
  | noConstants answer =>
      have alike : r.constants = q.constants := same .constants List.mem_cons_self
      exact .noConstants (alike.symm.trans answer)

theorem Moves.congr {r q : Reflector} {e mid : Enumeration} {own : List Activity}
    (h : Moves r e own mid) (same : ∀ query ∈ Activity.queries own, r.SameAnswer q query) :
    Moves q e own mid := by
  cases h with
  | vars => exact .vars
  | functions answer =>
      have alike : r.functions = q.functions := same .functions List.mem_cons_self
      exact .functions (alike.symm.trans answer)
  | classes answer =>
      have alike : r.declared = q.declared := same .declared List.mem_cons_self
      exact .classes (alike.symm.trans answer)
  | constants answer =>
      have alike : r.constants = q.constants := same .constants List.mem_cons_self
      exact .constants (alike.symm.trans answer)

theorem Calls.congr {r q : Reflector} {e : Enumeration} {activity : List Activity} {step : Step}
    (h : Calls r e activity step) (same : ∀ query ∈ step.asked, r.SameAnswer q query) :
    Calls q e activity step := by
  induction h with
  | returns h activity =>
      refine .returns (h.congr ?_) activity
      intro query asked
      apply same
      rw [Step.asked_behind, List.mem_append]
      exact .inr asked
  | moves h rest ih =>
      refine .moves (h.congr ?_) (ih same)
      intro query asked
      apply same
      apply rest.asked_of_mem
      rw [Activity.queries_append, List.mem_append]
      exact .inr asked

/-- A call depends on nothing but the answers to its own questions. -/
theorem next_congr {r q : Reflector} {e : Enumeration}
    (same : ∀ query ∈ (e.next r).asked, r.SameAnswer q query) : e.next q = e.next r :=
  (next_calls q e).unique ((next_calls r e).congr same)

/-! ## Runs -/

theorem steps_congr {r q : Reflector} {e : Enumeration} {calls : Nat}
    (same : ∀ query ∈ (e.steps r calls).flatMap Step.asked, r.SameAnswer q query) :
    e.steps q calls = e.steps r calls := by
  induction calls generalizing e with
  | zero => rfl
  | succ calls ih =>
      simp only [steps, List.flatMap_cons, List.mem_append] at same
      have first : e.next q = e.next r := next_congr fun query asked => same query (.inl asked)
      have others := ih fun query asked => same query (.inr asked)
      simp only [steps, first, others]

/-- So many calls follow the trace; when nothing is left to come, calls return nothing. -/
theorem steps_trace (r : Reflector) (e : Enumeration) (calls : Nat) :
    (e.steps r calls).flatMap Step.trace <+:
      e.toCome r ++ List.replicate calls (.returned none) := by
  induction calls generalizing e with
  | zero => simp [steps]
  | succ calls ih =>
      obtain ⟨split, ends⟩ := next_performs r e
      have rest := ih (e.next r).next
      rw [steps, List.flatMap_cons, split, Step.trace]
      cases item : (e.next r).item with
      | some found =>
          have more : List.replicate calls (Observation.returned none) <+:
              List.replicate (calls + 1) (.returned none) := by
            rw [List.replicate_succ']
            exact List.prefix_append _ _
          have longer := rest.trans ((List.prefix_append_right_inj _).mpr more)
          simpa [Observation.yielded] using longer
      | none =>
          rw [ends (by simp [item]), List.nil_append] at rest
          simpa [ends (by simp [item]), List.replicate_succ] using rest

/-- When nothing is left to come, nothing is asked or returned any more. -/
theorem steps_of_ended {r : Reflector} {e : Enumeration} (ended : e.toCome r = []) {calls : Nat}
    {step : Step} (h : step ∈ e.steps r calls) : step.asked = [] ∧ step.item = none := by
  induction calls generalizing e with
  | zero => simp [steps] at h
  | succ calls ih =>
      have split := (next_performs r e).split
      rw [ended, eq_comm] at split
      simp only [List.append_eq_nil_iff, List.map_eq_nil_iff, Option.toList_eq_nil_iff] at split
      obtain ⟨⟨silent, nothing⟩, finished⟩ := split
      rw [steps, List.mem_cons] at h
      rcases h with rfl | later
      · exact ⟨silent, nothing⟩
      · exact ih finished later

theorem steps_after_end (r : Reflector) (e : Enumeration) (calls : Nat) :
    (e.steps r calls).Pairwise fun earlier later =>
      (∀ record, earlier.item ≠ some (.ok record)) → later.asked = [] ∧ later.item = none := by
  induction calls generalizing e with
  | zero => exact .nil
  | succ calls ih =>
      refine .cons ?_ (ih (e.next r).next)
      intro later member noRecord
      exact steps_of_ended ((next_performs r e).ends noRecord) member

/-- Only members are ever pending. -/
def MembersPending (e : Enumeration) : Prop :=
  ∀ record ∈ e.pending, record.isMember

theorem start_membersPending (r : Reflector) : (start r).MembersPending := by
  unfold start
  cases r.vars <;> exact List.forall_mem_nil _

theorem Returns.membersPending {r : Reflector} {e : Enumeration} {step : Step}
    (h : Returns r e step) (members : e.MembersPending) : step.next.MembersPending := by
  cases h with
  | pending => exact (List.forall_mem_cons.mp members).2
  | @classLike _ name _ d answer =>
      intro record member
      rcases List.mem_append.mp member with method | property
      · obtain ⟨m, _, rfl⟩ := List.mem_map.mp method
        rfl
      · obtain ⟨p, _, rfl⟩ := List.mem_map.mp property
        rfl
  | _ => exact List.forall_mem_nil _

theorem Calls.membersPending {r : Reflector} {e : Enumeration} {activity : List Activity}
    {step : Step} (h : Calls r e activity step) (members : e.MembersPending) :
    step.next.MembersPending := by
  induction h with
  | returns h activity => exact h.membersPending members
  | moves h _ ih => cases h <;> exact ih (List.forall_mem_nil _)

/-- What a call asks has to do with what it returns. -/
structure InTurn (r : Reflector) (step : Step) : Prop extends Paired r step where
  /-- A call that returns a member asks nothing. -/
  silent : ∀ record, step.item = some (.ok record) → record.isMember → step.asked = []

theorem next_inTurn (r : Reflector) {e : Enumeration} (members : e.MembersPending) :
    InTurn r (e.next r) := by
  cases pending : e.pending with
  | nil =>
      refine ⟨(next_calls r e).paired pending fun _ => List.not_mem_nil, ?_⟩
      intro record found member
      simp [(next_calls r e).not_isMember pending found] at member
  | cons record rest =>
      have member := members record (by simp [pending])
      have item : (e.next r).item = some (.ok record) := by simp [next, pending]
      have silent : (e.next r).asked = [] := by simp [next, pending, Step.asked, Activity.queries]
      refine ⟨⟨by simp [silent], ?_⟩, ?_⟩
      · intro c found
        rw [item, Option.some.injEq, Except.ok.injEq] at found
        simp [found, Record.isMember] at member
      · intro _ _ _
        exact silent

theorem steps_inTurn {r : Reflector} {e : Enumeration} (members : e.MembersPending) {calls : Nat}
    {step : Step} (h : step ∈ e.steps r calls) : InTurn r step := by
  induction calls generalizing e with
  | zero => simp [steps] at h
  | succ calls ih =>
      rw [steps, List.mem_cons] at h
      rcases h with rfl | later
      · exact next_inTurn r members
      · exact ih ((next_calls r e).membersPending members) later

end Enumeration

/-! ## The agenda -/

def Observation.queries (trace : List Observation) : List Query :=
  trace.filterMap fun
    | .asked query => some query
    | .returned _ => none

@[simp] theorem Observation.queries_append (trace others : List Observation) :
    Observation.queries (trace ++ others) = Observation.queries trace ++ Observation.queries others :=
  List.filterMap_append

@[simp] theorem Observation.queries_asked (query : Query) (trace : List Observation) :
    Observation.queries (.asked query :: trace) = query :: Observation.queries trace := rfl

@[simp] theorem Observation.queries_yielded (item : Item) :
    Observation.queries [.yielded item] = [] := rfl

@[simp] theorem Observation.queries_map_yielded {α : Type} (item : α → Item) (l : List α) :
    Observation.queries (l.map fun a => .yielded (item a)) = [] := by
  induction l with
  | nil => rfl
  | cons a l ih => exact ih

theorem Observation.queries_replicate_none (count : Nat) :
    Observation.queries (List.replicate count (.returned none)) = [] := by
  simp [Observation.queries]

theorem Observation.queries_steps (steps : List Step) :
    Observation.queries (steps.flatMap Step.trace) = steps.flatMap Step.asked := by
  induction steps with
  | nil => rfl
  | cons step steps ih =>
      have own : Observation.queries (step.asked.map .asked) = step.asked := by
        rw [Observation.queries, List.filterMap_map]
        exact List.filterMap_some
      rw [List.flatMap_cons, List.flatMap_cons, Observation.queries_append, ih, Step.trace,
        Observation.queries_append, own]
      simp [Observation.queries]

namespace Reflector

theorem queries_variableTrace (r : Reflector) (captured : List VariableDescriptor) :
    Observation.queries (r.variableTrace captured) = r.untilFailure [.constants] := by
  have own : Observation.queries (r.constantItems.map .yielded) = [] :=
    Observation.queries_map_yielded id r.constantItems
  rw [variableTrace, constantTrace, Observation.queries_append, Observation.queries_map_yielded,
    Observation.queries_asked, own]
  simp [untilFailure]

/-- The classes are asked for one after the other, and the constants behind them unless one fails. -/
theorem queries_classTrace (r : Reflector) (captured : List VariableDescriptor)
    (names : List String) :
    Observation.queries (r.classTrace (r.variableTrace captured) names) =
      r.untilFailure (names.map .reflect ++ [.constants]) := by
  induction names with
  | nil => exact r.queries_variableTrace captured
  | cons name rest ih =>
      rw [classTrace, Observation.queries_asked, List.map_cons, List.cons_append, untilFailure]
      cases answer : r.reflect name with
      | error e => simp [answers, answer, Except.isOk, Except.toBool]
      | ok d => simp [answers, answer, Except.isOk, Except.toBool, ih]

theorem queries_declaredTrace (r : Reflector) (captured : List VariableDescriptor) :
    Observation.queries (r.declaredTrace captured) =
      r.untilFailure (.declared :: (r.declaredNames.map .reflect ++ [.constants])) := by
  rw [declaredTrace, Observation.queries_asked, untilFailure]
  cases answer : r.declared with
  | error e => simp [answers, answer, Except.isOk, Except.toBool]
  | ok names =>
      simp [answers, answer, Except.isOk, Except.toBool, declaredNames, Except.toOption,
        queries_classTrace]

theorem queries_trace (r : Reflector) : Observation.queries r.trace = r.agenda := by
  rw [trace, Observation.queries_asked, agenda, untilFailure]
  cases captures : r.vars with
  | error e => simp [answers, captures, Except.isOk, Except.toBool]
  | ok captured =>
      simp only [answers, captures, Except.isOk, Except.toBool, if_true, functionTrace,
        Observation.queries_asked, List.cons.injEq, true_and]
      rw [untilFailure]
      cases answer : r.functions with
      | error e => simp [answers, answer, Except.isOk, Except.toBool]
      | ok names =>
          simp [answers, answer, Except.isOk, Except.toBool, queries_declaredTrace]

theorem asked_start_toCome (r : Reflector) :
    .asked .vars :: (Enumeration.start r).toCome r = r.trace := by
  unfold Enumeration.start trace
  cases r.vars <;> simp [Enumeration.toCome]

/-- Beginning asks for the variables and nothing else. Behind that, calls follow the trace of the
runtime: the questions asked are the agenda up to some point, a class is asked for in the call that
returns it or its error, and no question is asked in a call that returns a method or a member variable,
nor in any call behind an error or the end. A runtime that answers alike whatever was asked takes the
same steps. -/
theorem questions_asked_in_turn (r : Reflector) (calls : Nat) :
    let steps := (Enumeration.start r).steps r calls
    Activity.queries Enumeration.startActivity = [.vars] ∧
    .vars :: steps.flatMap Step.asked <+: r.agenda ∧
    .asked .vars :: steps.flatMap Step.trace <+:
      r.trace ++ List.replicate calls (.returned none) ∧
    (∀ step ∈ steps, Enumeration.InTurn r step) ∧
    (steps.Pairwise fun earlier later =>
      (∀ record, earlier.item ≠ some (.ok record)) → later.asked = [] ∧ later.item = none) ∧
    ∀ q : Reflector, (∀ query ∈ .vars :: steps.flatMap Step.asked, r.SameAnswer q query) →
      (Enumeration.start q).steps q calls = steps := by
  intro steps
  have run : .asked .vars :: steps.flatMap Step.trace <+:
      r.trace ++ List.replicate calls (.returned none) := by
    rw [← asked_start_toCome, List.cons_append, List.cons_prefix_cons]
    exact ⟨rfl, Enumeration.steps_trace r _ calls⟩
  refine ⟨rfl, ?_, run, ?_, Enumeration.steps_after_end r _ calls, ?_⟩
  · have asked : Observation.queries (.asked .vars :: steps.flatMap Step.trace) <+:
        Observation.queries (r.trace ++ List.replicate calls (.returned none)) := run.filterMap _
    rwa [Observation.queries_asked, Observation.queries_steps, Observation.queries_append,
      queries_trace, Observation.queries_replicate_none, List.append_nil] at asked
  · intro step member
    exact Enumeration.steps_inTurn (Enumeration.start_membersPending r) member
  · intro q same
    rw [List.forall_mem_cons] at same
    have captures : r.vars = q.vars := same.1
    have begins : Enumeration.start q = Enumeration.start r := by
      rw [Enumeration.start, Enumeration.start, captures]
    rw [begins]
    exact Enumeration.steps_congr same.2

end Reflector

end SymbolExport
