import SymbolExport.Export.Publish

/-! # What changes leave alone

Each change touches the places that it names and no other, so the trees before, between and after
changes agree everywhere else. A file that is written anew holds what its sink received.
-/

namespace SymbolExport

namespace Effect

/-- The places that a change names. -/
def touched : Effect → List Location
  | .create loc => [loc]
  | .append loc _ => [loc]
  | .rename source target => [source, target]
  | .remove loc => [loc]

theorem get?_apply_of_not_touched (t : Tree) (effect : Effect) {loc : Location}
    (h : loc ∉ effect.touched) : (effect.apply t).get? loc = t.get? loc := by
  cases effect with
  | create place => exact t.get?_put_of_ne _ (by simpa [touched] using h)
  | append place octets => exact t.get?_put_of_ne _ (by simpa [touched] using h)
  | remove place => exact t.get?_remove_of_ne (by simpa [touched] using h)
  | rename source target =>
      simp only [touched, List.mem_cons, List.not_mem_nil, or_false, not_or] at h
      rw [apply, Tree.get?_put_of_ne _ _ h.2, Tree.get?_remove_of_ne _ h.1]

theorem applyAll_append (t : Tree) (effects others : List Effect) :
    applyAll t (effects ++ others) = applyAll (applyAll t effects) others :=
  List.foldl_append ..

/-- The last state is the one after all changes. -/
theorem states_append_singleton (t : Tree) (effects : List Effect) (effect : Effect) :
    states t (effects ++ [effect]) = states t effects ++ [applyAll t (effects ++ [effect])] := by
  induction effects generalizing t with
  | nil => rfl
  | cons first effects ih => simp [states, applyAll, ih]

theorem applyAll_mem_states (t : Tree) (effects : List Effect) :
    applyAll t effects ∈ states t effects := by
  induction effects generalizing t with
  | nil => simp [states, applyAll]
  | cons effect effects ih => exact List.mem_cons_of_mem _ (ih (effect.apply t))

/-- A place that no change names is the same all the time. -/
theorem get?_states_of_not_touched {t u : Tree} {effects : List Effect} {loc : Location}
    (untouched : ∀ effect ∈ effects, loc ∉ effect.touched) (h : u ∈ states t effects) :
    u.get? loc = t.get? loc := by
  induction effects generalizing t with
  | nil =>
      rw [List.mem_singleton.mp h]
  | cons effect effects ih =>
      rcases List.mem_cons.mp h with rfl | later
      · rfl
      · rw [ih (fun e member => untouched e (List.mem_cons_of_mem _ member)) later,
          get?_apply_of_not_touched t effect (untouched effect List.mem_cons_self)]

theorem get?_appends (t : Tree) {loc : Location} (place : loc ≠ []) (writes : List Bytes)
    {content : Bytes} (h : t.get? loc = some (.file content)) :
    (applyAll t (writes.map (.append loc))).get? loc = some (.file (content ++ writes.flatten)) := by
  induction writes generalizing t content with
  | nil => simpa [applyAll] using h
  | cons octets writes ih =>
      have next : ((append loc octets).apply t).get? loc = some (.file (content ++ octets)) := by
        simp [apply, place, Tree.content, h]
      rw [List.flatten_cons, ← List.append_assoc]
      exact ih ((append loc octets).apply t) next

/-- A file to which octets are appended grows through beginnings of what is appended. -/
theorem get?_states_appends {t u : Tree} {loc : Location} (place : loc ≠ []) {writes : List Bytes}
    {content : Bytes} (h : t.get? loc = some (.file content))
    (later : u ∈ states t (writes.map (.append loc))) :
    ∃ part, part <+: writes.flatten ∧ u.get? loc = some (.file (content ++ part)) := by
  induction writes generalizing t content with
  | nil =>
      have same : u = t := List.mem_singleton.mp later
      exact ⟨[], List.nil_prefix, by simpa [same] using h⟩
  | cons octets writes ih =>
      rcases List.mem_cons.mp later with rfl | later
      · exact ⟨[], List.nil_prefix, by simpa using h⟩
      · have next : ((append loc octets).apply t).get? loc = some (.file (content ++ octets)) := by
          simp [apply, place, Tree.content, h]
        obtain ⟨part, begins, there⟩ := ih next later
        refine ⟨octets ++ part, ?_, by simpa using there⟩
        rw [List.flatten_cons]
        exact (List.prefix_append_right_inj octets).mpr begins

end Effect

namespace Reflector

theorem touched_writing (loc : Location) (sink : Csv.Sink) :
    ∀ effect ∈ writing loc sink, effect.touched = [loc] := by
  intro effect member
  rcases List.mem_cons.mp member with rfl | later
  · rfl
  · obtain ⟨octets, _, rfl⟩ := List.mem_map.mp later
    rfl

/-- While a file is written, everything else stays as it is. -/
theorem get?_states_writing {t u : Tree} {loc other : Location} {sink : Csv.Sink}
    (h : u ∈ Effect.states t (writing loc sink)) (ne : other ≠ loc) : u.get? other = t.get? other := by
  apply Effect.get?_states_of_not_touched _ h
  intro effect member
  rw [touched_writing loc sink effect member]
  simpa using ne

/-- A file that was written anew holds all that the sink received. -/
theorem get?_writing (t : Tree) {loc : Location} (place : loc ≠ []) (sink : Csv.Sink) :
    (Effect.applyAll t (writing loc sink)).get? loc = some (.file sink.received) := by
  have created : ((Effect.create loc).apply t).get? loc = some (.file []) := by
    simp [Effect.apply, place]
  exact Effect.get?_appends ((Effect.create loc).apply t) place sink.writes created

/-- From its first change on, a file that is written anew holds a beginning of what is written. -/
theorem get?_states_written {t u : Tree} {loc : Location} (place : loc ≠ []) {sink : Csv.Sink}
    (h : u ∈ (Effect.states t (writing loc sink)).tail) :
    ∃ part, part <+: sink.received ∧ u.get? loc = some (.file part) := by
  have created : ((Effect.create loc).apply t).get? loc = some (.file []) := by
    simp [Effect.apply, place]
  exact Effect.get?_states_appends place created h

end Reflector

end SymbolExport
