import SymbolExport.Export.Rows

/-! # The order of rows

The legacy rows of a source are given here in one pass over it, without a machine. Rows of interfaces
queue up to the first barrier: a variable, a constant or a pause that is met while the queue is not
empty, where the end of the source counts as a pause. At the barrier the whole queue comes out, and
behind it everything stays in place. The machine is shown to yield exactly these outcomes; its row
in hand is never overwritten because it is empty whenever the machine is not releasing.
-/

namespace SymbolExport

namespace Record

def legacyRow? : Record → Option Row
  | .function r => some ["function", r.name, ""]
  | .classLike r =>
      match r.kind with
      | .plain => some ["class", r.name, ""]
      | .interface => some ["interface", r.name, ""]
      | .trait => none
  | .method _ => none
  | .member _ => none
  | .var r => some ["variable", r.name, ""]
  | .const r => some ["constant", r.name, r.value.toField]

def isInterface : Record → Bool
  | .classLike r => r.kind = .interface
  | _ => false

def isValue : Record → Bool
  | .var _ => true
  | .const _ => true
  | _ => false

end Record

/-- Rows as outcomes. -/
def shown (rows : List Row) : List (Option RowItem) :=
  rows.map fun row => some (.ok row)

/-- What one item of a source shows where it stands. -/
def shownInPlace : Option Item → List (Option RowItem)
  | none => [none]
  | some (.error e) => [some (.error e)]
  | some (.ok record) => shown record.legacyRow?.toList

/-- The outcomes of a source when no row is held back. -/
def inPlace (source : Source) : List (Option RowItem) :=
  source.flatMap shownInPlace

/-- The outcomes of a source when the rows of interfaces queue up to the first barrier. -/
def inOnePass (queue : List Row) : Source → List (Option RowItem)
  | [] => shown queue
  | none :: rest =>
      if queue = [] then none :: inOnePass [] rest
      else shown queue ++ inPlace rest
  | some (.error e) :: rest => some (.error e) :: inOnePass queue rest
  | some (.ok record) :: rest =>
      let row := record.legacyRow?.toList
      if record.isInterface then inOnePass (queue ++ row) rest
      else if record.isValue ∧ queue ≠ [] then shown queue ++ shown row ++ inPlace rest
      else shown row ++ inOnePass queue rest

@[simp] theorem shown_nil : shown [] = [] := rfl

@[simp] theorem shown_cons (row : Row) (rows : List Row) :
    shown (row :: rows) = some (.ok row) :: shown rows := rfl

@[simp] theorem shown_append (rows others : List Row) :
    shown (rows ++ others) = shown rows ++ shown others :=
  List.map_append

@[simp] theorem inPlace_nil : inPlace [] = [] := rfl

@[simp] theorem inPlace_cons (item : Option Item) (rest : Source) :
    inPlace (item :: rest) = shownInPlace item ++ inPlace rest := rfl

namespace Record

/-- What the machine makes of a record, in the words of the one pass. -/
theorem placement_spec {record : Record} {placement : Placement} (h : record.placement = placement) :
    match placement with
    | .dropped =>
        record.legacyRow? = none ∧ record.isInterface = false ∧ record.isValue = false
    | .inPlace row =>
        record.legacyRow? = some row ∧ record.isInterface = false ∧ record.isValue = false
    | .heldBack row => record.legacyRow? = some row ∧ record.isInterface = true
    | .behindClasses row =>
        record.legacyRow? = some row ∧ record.isInterface = false ∧ record.isValue = true := by
  subst h
  cases record with
  | classLike r =>
      obtain ⟨name, kind⟩ := r
      cases kind <;> simp [Record.placement, legacyRow, legacyRow?, isInterface, isValue]
  | _ => simp [Record.placement, legacyRow, legacyRow?, isInterface, isValue]

end Record

namespace LegacyRows

/-- The outcomes that a machine still owes. -/
def owed (s : LegacyRows) : List (Option RowItem) :=
  if s.releasing then shown (s.interfaces ++ s.held.toList) ++ inPlace s.source
  else inOnePass s.interfaces s.source

/-- The machine has a row in hand only while it is releasing. -/
def HandFree (s : LegacyRows) : Prop :=
  s.releasing = false → s.held = none

/-- A call yields the first of some outcomes and owes the others. -/
def Yields (call : Option RowItem × LegacyRows) (outcomes : List (Option RowItem)) : Prop :=
  call.1 = outcomes.headD none ∧ call.2.owed = outcomes.tail ∧ call.2.HandFree

/-! ## Single calls -/

/-- Rows that are coming out need nothing of the source. -/
theorem release_yields {s t : LegacyRows} {row : Row} (h : s.release = some (row, t)) :
    Yields (some (.ok row), t) s.owed := by
  cases flag : s.releasing with
  | false => simp [release, flag] at h
  | true =>
      cases queue : s.interfaces with
      | cons first rest =>
          simp only [release, flag, queue, if_true, Option.some.injEq, Prod.mk.injEq] at h
          obtain ⟨rfl, rfl⟩ := h
          simp [Yields, owed, HandFree, flag, queue]
      | nil =>
          cases hand : s.held with
          | none => simp [release, flag, queue, hand] at h
          | some last =>
              simp only [release, flag, queue, hand, if_true, Option.map_some, Option.some.injEq,
                Prod.mk.injEq] at h
              obtain ⟨rfl, rfl⟩ := h
              simp [Yields, owed, HandFree, flag, queue, hand]

/-- A machine that reads its source has released everything, or has not begun to. -/
theorem reads_of_release {s : LegacyRows} (h : s.release = none) (free : s.HandFree) :
    s.held = none ∧ (s.releasing = true → s.interfaces = []) := by
  cases flag : s.releasing with
  | false => exact ⟨free flag, by simp⟩
  | true =>
      cases queue : s.interfaces with
      | cons first rest => simp [release, flag, queue] at h
      | nil => simpa [release, flag, queue] using h

/-- One call: the first outcome that is owed comes out, and the hand stays free. -/
theorem next_yields (s : LegacyRows) (free : s.HandFree) : Yields s.next s.owed := by
  fun_induction next s with
  | case1 s row t released => exact release_yields released
  | case2 s released unread empty =>
      have hand := (reads_of_release released free).1
      cases flag : s.releasing <;>
        simp [Yields, owed, HandFree, flag, empty, unread, hand, inOnePass]
  | case3 s released unread waiting ih =>
      have flag := s.not_releasing_of_release released waiting
      have hand := free flag
      have same : s.owed = { s with releasing := true }.owed := by
        simp [owed, flag, unread, hand, inOnePass]
      rw [same]
      exact ih (by simp [HandFree])
  | case4 s released rest unread empty =>
      have hand := (reads_of_release released free).1
      cases flag : s.releasing <;>
        simp [Yields, owed, HandFree, flag, empty, unread, hand, inOnePass, shownInPlace]
  | case5 s released rest unread waiting ih =>
      have flag := s.not_releasing_of_release released waiting
      have hand := free flag
      have same : s.owed = { s with source := rest, releasing := true }.owed := by
        simp [owed, flag, unread, hand, inOnePass, waiting]
      rw [same]
      exact ih (by simp [HandFree])
  | case6 s released e rest unread =>
      obtain ⟨hand, queue⟩ := reads_of_release released free
      cases flag : s.releasing with
      | false => simp [Yields, owed, HandFree, flag, unread, hand, inOnePass]
      | true => simp [Yields, owed, HandFree, flag, unread, hand, queue flag, shownInPlace]
  | case7 s released record rest unread placed ih =>
      obtain ⟨noRow, iface, value⟩ := Record.placement_spec placed
      have same : s.owed = { s with source := rest }.owed := by
        cases flag : s.releasing <;> simp [owed, flag, unread, inOnePass, shownInPlace, noRow, iface, value]
      rw [same]
      exact ih free
  | case8 s released record rest unread row placed =>
      obtain ⟨mine, iface, value⟩ := Record.placement_spec placed
      obtain ⟨hand, queue⟩ := reads_of_release released free
      cases flag : s.releasing with
      | false => simp [Yields, owed, HandFree, flag, unread, hand, inOnePass, mine, iface, value]
      | true => simp [Yields, owed, HandFree, flag, unread, hand, queue flag, shownInPlace, mine]
  | case9 s released record rest unread row placed ih =>
      obtain ⟨mine, iface⟩ := Record.placement_spec placed
      obtain ⟨hand, queue⟩ := reads_of_release released free
      have same : s.owed = { s with source := rest, interfaces := s.interfaces ++ [row] }.owed := by
        cases flag : s.releasing with
        | false => simp [owed, flag, unread, inOnePass, mine, iface]
        | true => simp [owed, flag, unread, hand, queue flag, shownInPlace, mine]
      rw [same]
      exact ih free
  | case10 s released record rest unread row placed empty =>
      obtain ⟨mine, iface, value⟩ := Record.placement_spec placed
      have hand := (reads_of_release released free).1
      cases flag : s.releasing with
      | false => simp [Yields, owed, HandFree, flag, empty, unread, hand, inOnePass, mine, iface]
      | true => simp [Yields, owed, HandFree, flag, empty, unread, hand, shownInPlace, mine]
  | case11 s released record rest unread row placed waiting ih =>
      obtain ⟨mine, iface, value⟩ := Record.placement_spec placed
      have flag := s.not_releasing_of_release released waiting
      have same : s.owed = { s with source := rest, releasing := true, held := some row }.owed := by
        simp [owed, flag, unread, inOnePass, waiting, mine, iface, value]
      rw [same]
      exact ih (by simp [HandFree])

/-! ## Runs -/

theorem outcomes_eq_owed (s : LegacyRows) (free : s.HandFree) (calls : Nat) :
    (Rows.legacy s).outcomes calls = (List.range calls).map fun k => s.owed.getD k none := by
  induction calls generalizing s with
  | zero => rfl
  | succ calls ih =>
      obtain ⟨first, others, stillFree⟩ := s.next_yields free
      have step : (Rows.legacy s).outcomes (calls + 1) =
          s.next.1 :: (Rows.legacy s.next.2).outcomes calls := rfl
      rw [step, ih s.next.2 stillFree, first, others, List.range_succ_eq_map]
      cases s.owed <;> simp [Function.comp_def]

/-- The rows before the first pause, when there is none among the outcomes owed. -/
theorem upTo_eq_owed (s : LegacyRows) (free : s.HandFree) {rows : List RowItem}
    (whole : s.owed = rows.map some) (limit : Nat) (enough : rows.length ≤ limit) :
    (Rows.legacy s).upTo limit = rows := by
  induction limit generalizing s rows with
  | zero =>
      have empty : rows = [] := List.length_eq_zero_iff.mp (by omega)
      rw [empty]
      rfl
  | succ limit ih =>
      obtain ⟨first, others, stillFree⟩ := s.next_yields free
      have step : (Rows.legacy s).next = (s.next.1, .legacy s.next.2) := rfl
      rw [whole] at first others
      cases rows with
      | nil => simp [Rows.upTo, step, first]
      | cons row rows =>
          have rest := ih s.next.2 stillFree others (by simpa using enough)
          simp [Rows.upTo, step, first, rest]

end LegacyRows

/-! ## Conservation -/

def isInterfaceRow : Option RowItem → Bool
  | some (.ok row) => row.head? = some "interface"
  | _ => false

/-- Outcomes as others, except that one pause may be missing. -/
def LosesAtMostPause (outcomes others : List (Option RowItem)) : Prop :=
  outcomes = others ∨ ∃ before after, others = before ++ none :: after ∧ outcomes = before ++ after

theorem LosesAtMostPause.append {outcomes others : List (Option RowItem)}
    (first : List (Option RowItem)) (h : LosesAtMostPause outcomes others) :
    LosesAtMostPause (first ++ outcomes) (first ++ others) := by
  rcases h with rfl | ⟨before, after, rfl, rfl⟩
  · exact .inl rfl
  · exact .inr ⟨first ++ before, after, by simp, by simp⟩

/-- The row of a record carries the tag of interfaces exactly if the record is an interface. -/
theorem Record.isInterfaceRow_legacyRow (record : Record) :
    ∀ row ∈ record.legacyRow?.toList, isInterfaceRow (some (.ok row)) = record.isInterface := by
  intro row member
  have h : record.legacyRow? = some row := by simpa using member
  cases record with
  | classLike r =>
      obtain ⟨name, kind⟩ := r
      cases kind <;> simp only [Record.legacyRow?, Option.some.injEq, reduceCtorEq] at h
      · subst h
        rfl
      · subst h
        rfl
  | method r => simp [Record.legacyRow?] at h
  | member r => simp [Record.legacyRow?] at h
  | _ =>
      simp only [Record.legacyRow?, Option.some.injEq] at h
      subst h
      rfl

def interfaceRows (outcomes : List (Option RowItem)) : List (Option RowItem) :=
  outcomes.filter isInterfaceRow

def otherOutcomes (outcomes : List (Option RowItem)) : List (Option RowItem) :=
  outcomes.filter fun outcome => !isInterfaceRow outcome

theorem interfaceRows_shown {rows : List Row}
    (h : ∀ row ∈ rows, isInterfaceRow (some (.ok row)) = true) :
    interfaceRows (shown rows) = shown rows ∧ otherOutcomes (shown rows) = [] := by
  simpa [interfaceRows, otherOutcomes, shown] using h

theorem otherOutcomes_shown {rows : List Row}
    (h : ∀ row ∈ rows, isInterfaceRow (some (.ok row)) = false) :
    interfaceRows (shown rows) = [] ∧ otherOutcomes (shown rows) = shown rows := by
  simpa [interfaceRows, otherOutcomes, shown] using h

@[simp] theorem interfaceRows_append (outcomes others : List (Option RowItem)) :
    interfaceRows (outcomes ++ others) = interfaceRows outcomes ++ interfaceRows others :=
  List.filter_append ..

@[simp] theorem otherOutcomes_append (outcomes others : List (Option RowItem)) :
    otherOutcomes (outcomes ++ others) = otherOutcomes outcomes ++ otherOutcomes others :=
  List.filter_append ..

/-- All rows of interfaces come out once and in order, those that queue already before the others,
and nothing else moves. -/
theorem inOnePass_conserves (queue : List Row) (source : Source)
    (tagged : ∀ row ∈ queue, isInterfaceRow (some (.ok row)) = true) :
    interfaceRows (inOnePass queue source) = shown queue ++ interfaceRows (inPlace source) ∧
      LosesAtMostPause (otherOutcomes (inOnePass queue source))
        (otherOutcomes (inPlace source)) := by
  fun_induction inOnePass queue source with
  | case1 queue =>
      obtain ⟨rows, others⟩ := interfaceRows_shown tagged
      exact ⟨by rw [rows]; simp [interfaceRows], .inl others⟩
  | case2 rest ih =>
      obtain ⟨rows, others⟩ := ih tagged
      exact ⟨rows, others.append [none]⟩
  | case3 queue rest waiting =>
      obtain ⟨rows, others⟩ := interfaceRows_shown tagged
      refine ⟨?_, .inr ⟨[], otherOutcomes (inPlace rest), rfl, ?_⟩⟩
      · rw [interfaceRows_append, rows]
        rfl
      · rw [otherOutcomes_append, others]
  | case4 queue e rest ih =>
      obtain ⟨rows, others⟩ := ih tagged
      exact ⟨rows, others.append [some (.error e)]⟩
  | case5 queue record rest row iface ih =>
      have tags := record.isInterfaceRow_legacyRow
      rw [iface] at tags
      obtain ⟨mine, none⟩ := interfaceRows_shown tags
      obtain ⟨rows, others⟩ := ih (by
        intro row member
        rcases List.mem_append.mp member with member | member
        · exact tagged row member
        · exact tags row member)
      rw [inPlace_cons, interfaceRows_append, otherOutcomes_append, shownInPlace, mine, none]
      exact ⟨by rw [rows]; simp [row], others⟩
  | case6 queue record rest row iface barrier =>
      have tags := record.isInterfaceRow_legacyRow
      rw [Bool.not_eq_true _ |>.mp iface] at tags
      obtain ⟨mine, same⟩ := otherOutcomes_shown tags
      obtain ⟨rows, others⟩ := interfaceRows_shown tagged
      simp only [inPlace_cons, interfaceRows_append, otherOutcomes_append, shownInPlace]
      exact ⟨by simp [rows, mine, row], .inl (by simp [others, row])⟩
  | case7 queue record rest row iface barrier ih =>
      have tags := record.isInterfaceRow_legacyRow
      rw [Bool.not_eq_true _ |>.mp iface] at tags
      obtain ⟨mine, same⟩ := otherOutcomes_shown tags
      obtain ⟨rows, others⟩ := ih tagged
      simp only [inPlace_cons, interfaceRows_append, otherOutcomes_append, shownInPlace]
      exact ⟨by simp [rows, mine, row], others.append _⟩

/-- The legacy rows of any source come out as the one pass gives them, then nothing for ever. Rows of
interfaces keep their order and so do all other outcomes, and at most a pause is lost. -/
theorem legacy_outcomes_in_one_pass (source : Source) :
    (∀ calls, (Rows.start source .legacy).outcomes calls =
      (List.range calls).map fun k => (inOnePass [] source).getD k none) ∧
    interfaceRows (inOnePass [] source) = interfaceRows (inPlace source) ∧
    LosesAtMostPause (otherOutcomes (inOnePass [] source)) (otherOutcomes (inPlace source)) := by
  obtain ⟨rows, others⟩ := inOnePass_conserves [] source (by simp)
  refine ⟨?_, rows, others⟩
  intro calls
  exact LegacyRows.outcomes_eq_owed { source } (by simp [LegacyRows.HandFree]) calls

/-! ## Sources without pauses -/

theorem length_inPlace_le (source : Source) : (inPlace source).length ≤ source.length := by
  induction source with
  | nil => simp
  | cons item rest ih =>
      have one : (shownInPlace item).length ≤ 1 := by
        rcases item with _ | _ | record
        · simp [shownInPlace]
        · simp [shownInPlace]
        · cases row : record.legacyRow? <;> simp [shownInPlace, row]
      simp only [inPlace_cons, List.length_append, List.length_cons]
      omega

theorem length_inOnePass_le (queue : List Row) (source : Source) :
    (inOnePass queue source).length ≤ queue.length + source.length := by
  have size : ∀ rows, (shown rows).length = rows.length := fun rows => List.length_map _
  fun_induction inOnePass queue source with
  | case1 queue => simp [size]
  | case2 rest ih => simpa using ih
  | case3 queue rest waiting =>
      have := length_inPlace_le rest
      simp only [List.length_append, List.length_cons, size]
      omega
  | case4 queue e rest ih =>
      simp only [List.length_cons]
      omega
  | case5 queue record rest row iface ih =>
      have : row.length ≤ 1 := Option.length_toList_le
      simp only [List.length_append, List.length_cons] at ih ⊢
      omega
  | case6 queue record rest row iface barrier =>
      have := length_inPlace_le rest
      have : row.length ≤ 1 := Option.length_toList_le
      simp only [List.length_append, List.length_cons, size]
      omega
  | case7 queue record rest row iface barrier ih =>
      have : row.length ≤ 1 := Option.length_toList_le
      simp only [List.length_append, List.length_cons, size]
      omega

theorem none_not_mem_inPlace {source : Source} (h : none ∉ source) : none ∉ inPlace source := by
  intro paused
  obtain ⟨item, member, here⟩ := List.mem_flatMap.mp paused
  rcases item with _ | _ | record
  · exact h member
  · simp [shownInPlace] at here
  · simp [shownInPlace, shown] at here

theorem none_not_mem_inOnePass {queue : List Row} {source : Source} (h : none ∉ source) :
    none ∉ inOnePass queue source := by
  have rows : ∀ rows, none ∉ shown rows := by simp [shown]
  fun_induction inOnePass queue source with
  | case1 queue => exact rows queue
  | case2 rest ih => simp at h
  | case3 queue rest waiting => simp at h
  | case4 queue e rest ih => simpa using ih (by simpa using h)
  | case5 queue record rest row iface ih => exact ih (by simpa using h)
  | case6 queue record rest row iface barrier =>
      have others : none ∉ inPlace rest := none_not_mem_inPlace (by simpa using h)
      simp [rows, others]
  | case7 queue record rest row iface barrier ih => simpa [rows] using ih (by simpa using h)

/-- The rows of a list of items in a format, without a machine. -/
def rowsInOrder : RowFormat → List Item → List RowItem
  | .full, items => items.map fun item => item.map Record.fields
  | .legacy, items => (inOnePass [] (items.map some)).filterMap id

/-- The rows of a list of items are complete: the limit on their number is never reached. -/
theorem rowItems_eq_rowsInOrder (format : RowFormat) (items : List Item) :
    rowItems format items = rowsInOrder format items := by
  cases format with
  | full =>
      simp only [rowItems, rowsInOrder, Rows.start]
      induction items with
      | nil => rfl
      | cons item items ih => simp [Rows.upTo, Rows.next, ih]
  | legacy =>
      have unpaused : none ∉ inOnePass [] (items.map some) := none_not_mem_inOnePass (by simp)
      have whole : inOnePass [] (items.map some) =
          (rowsInOrder .legacy items).map some := by
        rw [rowsInOrder, List.map_filterMap_some_eq_filter_map_isSome, List.map_id, eq_comm,
          List.filter_eq_self]
        intro outcome member
        cases outcome with
        | none => exact absurd member unpaused
        | some row => rfl
      have enough := length_inOnePass_le [] (items.map some)
      rw [whole] at enough
      exact LegacyRows.upTo_eq_owed { source := items.map some } (by simp [LegacyRows.HandFree])
        whole items.length (by simpa using enough)

end SymbolExport
