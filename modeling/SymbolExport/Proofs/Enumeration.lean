import SymbolExport.Export.Enumerate

/-! # What an enumeration yields

An enumeration is a machine that looks at its pending members, its stage and the captured variables.
The invariant is the list of items that such a state still owes: each call yields the head of that
list and leaves its tail. Runs, the eager collection and the shape of the whole list are read off
from there.
-/

namespace SymbolExport

open Reflector

namespace Enumeration

/-- The items that an enumeration still owes: the pending members, then what its stage leads to. -/
def remaining (r : Reflector) (e : Enumeration) : List Item :=
  e.pending.map .ok ++
    match e.stage with
    | .start => r.functionItems e.captured
    | .functions names => names.map functionItem ++ r.declaredItems e.captured
    | .classes names => r.classItems (r.variableItems e.captured) names
    | .vars rest => r.variableItems rest
    | .constants rest => rest.map fun d => .ok d.record
    | .failed error => [.error error]
    | .done => []

/-- A step yields the first of some items and owes the others. -/
def Yields (r : Reflector) (step : Step) (items : List Item) : Prop :=
  step.item = items.head? ∧ step.next.remaining r = items.tail

/-! ## Single steps -/

theorem halt_yields (r : Reflector) (e : Enumeration) (error : ExportError)
    (activity : List Activity) (idle : e.pending = []) :
    Yields r (e.halt error activity) [.error error] := by
  simp [Yields, halt, goto, remaining, idle]

theorem nextConstant_yields (r : Reflector) (e : Enumeration) (activity : List Activity)
    (rest : List ConstantDescriptor) (idle : e.pending = []) :
    Yields r (e.nextConstant activity rest) (rest.map fun d => .ok d.record) := by
  cases rest with
  | nil => simp [Yields, nextConstant, goto, remaining, idle]
  | cons d rest => simp [Yields, nextConstant, goto, remaining, idle]

theorem nextVariable_yields (r : Reflector) (e : Enumeration) (activity : List Activity)
    (rest : List VariableDescriptor) (idle : e.pending = []) :
    Yields r (nextVariable r e activity rest) (r.variableItems rest) := by
  cases rest with
  | cons d rest => simp [Yields, nextVariable, goto, remaining, variableItems, idle]
  | nil =>
      cases answer : r.constants with
      | error error =>
          simp only [nextVariable, answer, variableItems, constantItems]
          exact halt_yields r e error _ idle
      | ok constants =>
          simp only [nextVariable, answer, variableItems, constantItems]
          exact nextConstant_yields r e _ constants idle

/-- The only step that fills the pending members. -/
theorem nextClass_yields (r : Reflector) (e : Enumeration) (activity : List Activity)
    (names : List String) (idle : e.pending = []) :
    Yields r (nextClass r e activity names) (r.classItems (r.variableItems e.captured) names) := by
  cases names with
  | nil => exact nextVariable_yields r { e with captured := [] } _ e.captured idle
  | cons name rest =>
      cases answer : r.reflect name with
      | error error =>
          simp only [nextClass, answer, classItems]
          exact halt_yields r e error _ idle
      | ok d =>
          simp [Yields, nextClass, answer, classItems, remaining, ClassDescriptor.records]

theorem nextFunction_yields (r : Reflector) (e : Enumeration) (activity : List Activity)
    (names : List String) (idle : e.pending = []) :
    Yields r (nextFunction r e activity names)
      (names.map functionItem ++ r.declaredItems e.captured) := by
  cases names with
  | cons name rest => simp [Yields, nextFunction, goto, remaining, functionItem, idle]
  | nil =>
      cases answer : r.declared with
      | error error =>
          simp only [nextFunction, answer, declaredItems]
          exact halt_yields r e error _ idle
      | ok names =>
          simp only [nextFunction, answer, declaredItems]
          exact nextClass_yields r e _ names idle

/-- Each call yields the first item that is owed, and nothing else is lost or added. -/
theorem next_yields (r : Reflector) (e : Enumeration) : Yields r (e.next r) (e.remaining r) := by
  cases pending : e.pending with
  | cons record rest => simp [Yields, next, remaining, pending]
  | nil =>
      cases stage : e.stage with
      | start =>
          cases answer : r.functions with
          | error error =>
              simp only [next, remaining, pending, stage, functionItems, answer]
              exact halt_yields r e error _ pending
          | ok names =>
              simp only [next, remaining, pending, stage, functionItems, answer]
              exact nextFunction_yields r e _ names pending
      | functions names =>
          simp only [next, remaining, pending, stage]
          exact nextFunction_yields r e _ names pending
      | classes names =>
          simp only [next, remaining, pending, stage]
          exact nextClass_yields r e _ names pending
      | vars rest =>
          simp only [next, remaining, pending, stage]
          exact nextVariable_yields r e _ rest pending
      | constants rest =>
          simp only [next, remaining, pending, stage]
          exact nextConstant_yields r e _ rest pending
      | failed error =>
          simp only [next, remaining, pending, stage]
          exact halt_yields r e error _ pending
      | done => simp [Yields, next, remaining, pending, stage]

/-! ## Runs -/

/-- The call with number `k` yields the item with number `k`, and no item when there is none. -/
theorem steps_item (r : Reflector) (e : Enumeration) (calls : Nat) :
    (e.steps r calls).map (·.item) = (List.range calls).map fun k => (e.remaining r)[k]? := by
  induction calls generalizing e with
  | zero => rfl
  | succ calls ih =>
      obtain ⟨first, others⟩ := next_yields r e
      simp only [steps, List.map_cons, List.range_succ_eq_map, List.map_map]
      rw [ih (e.next r).next, first, others]
      simp [List.head?_eq_getElem?, Function.comp_def]

theorem drain_items (r : Reflector) (e : Enumeration) : (e.drain r).1 = e.remaining r := by
  fun_induction drain r e with
  | case1 e ended =>
      have first := (next_yields r e).1
      rw [ended] at first
      exact (List.head?_eq_none_iff.mp first.symm).symm
  | case2 e item found items activity rest ih =>
      obtain ⟨first, others⟩ := next_yields r e
      rw [found] at first
      rw [rest, others] at ih
      cases owed : e.remaining r with
      | nil => simp [owed] at first
      | cons head tail => simp_all

theorem start_remaining (r : Reflector) : (start r).remaining r = r.items := by
  unfold start items
  cases r.vars <;> simp [remaining]

end Enumeration

/-! ## The whole list -/

/-- Records, and behind them the error that cuts them off if there is one. -/
def cutOff (records : List Record) (failure : Option ExportError) : List Item :=
  records.map .ok ++ failure.toList.map .error

def EndsAtError (items : List Item) : Prop :=
  ∃ records failure, items = cutOff records failure

theorem EndsAtError.of_records (records : List Record) : EndsAtError (records.map .ok) :=
  ⟨records, none, by simp [cutOff]⟩

theorem EndsAtError.of_error (error : ExportError) : EndsAtError [.error error] :=
  ⟨[], some error, rfl⟩

theorem EndsAtError.append {items : List Item} (records : List Record) (h : EndsAtError items) :
    EndsAtError (records.map .ok ++ items) := by
  obtain ⟨others, failure, rfl⟩ := h
  exact ⟨records ++ others, failure, by simp [cutOff]⟩

/-- Collecting stops at the error, and without one it keeps everything. -/
theorem mapM_cutOff (records : List Record) (failure : Option ExportError) :
    (cutOff records failure).mapM id =
      match failure with
      | none => .ok records
      | some error => .error error := by
  induction records with
  | nil => cases failure <;> rfl
  | cons record records ih =>
      have split : cutOff (record :: records) failure = .ok record :: cutOff records failure := rfl
      rw [split, List.mapM_cons, ih]
      cases failure <;> rfl

namespace Reflector

@[simp] theorem enumerate_items (r : Reflector) : r.enumerate.1 = r.items := by
  rw [← Enumeration.start_remaining, ← Enumeration.drain_items]
  rfl

theorem constantItems_endsAtError (r : Reflector) : EndsAtError r.constantItems := by
  unfold constantItems
  cases r.constants with
  | error error => exact .of_error error
  | ok constants =>
      simpa [Function.comp_def] using EndsAtError.of_records (constants.map (·.record))

theorem variableItems_endsAtError (r : Reflector) (captured : List VariableDescriptor) :
    EndsAtError (r.variableItems captured) := by
  simpa [variableItems, Function.comp_def] using
    r.constantItems_endsAtError.append (captured.map (·.record))

theorem classItems_endsAtError (r : Reflector) {behind : List Item} (h : EndsAtError behind)
    (names : List String) : EndsAtError (r.classItems behind names) := by
  induction names with
  | nil => exact h
  | cons name rest ih =>
      unfold classItems
      cases r.reflect name with
      | error error => exact .of_error error
      | ok d => exact ih.append (d.records name)

theorem declaredItems_endsAtError (r : Reflector) (captured : List VariableDescriptor) :
    EndsAtError (r.declaredItems captured) := by
  unfold declaredItems
  cases r.declared with
  | error error => exact .of_error error
  | ok names => exact r.classItems_endsAtError (r.variableItems_endsAtError captured) names

theorem functionItems_endsAtError (r : Reflector) (captured : List VariableDescriptor) :
    EndsAtError (r.functionItems captured) := by
  unfold functionItems
  cases r.functions with
  | error error => exact .of_error error
  | ok names =>
      have h := (r.declaredItems_endsAtError captured).append
        (names.map fun name => .function { name })
      rw [List.map_map] at h
      exact h

theorem items_endsAtError (r : Reflector) : EndsAtError r.items := by
  unfold items
  cases r.vars with
  | error error => exact .of_error error
  | ok captured => exact r.functionItems_endsAtError captured

/-- Asking a runtime again and again yields its items in order and then nothing for ever. An error
is yielded at most once, nothing follows it, and collecting everything fails with it or keeps all
records. -/
theorem enumeration_yields_items (r : Reflector) :
    (∀ calls, ((Enumeration.start r).steps r calls).map (·.item) =
      (List.range calls).map fun k => r.items[k]?) ∧
    ∃ records failure, r.items = cutOff records failure ∧
      r.collect =
        match failure with
        | none => .ok records
        | some error => .error error := by
  constructor
  · intro calls
    rw [Enumeration.steps_item, Enumeration.start_remaining]
  · obtain ⟨records, failure, shape⟩ := r.items_endsAtError
    refine ⟨records, failure, shape, ?_⟩
    rw [collect, enumerate_items, shape, mapM_cutOff]

end Reflector

end SymbolExport
