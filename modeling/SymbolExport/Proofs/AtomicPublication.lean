import SymbolExport.Proofs.ExportText
import SymbolExport.Proofs.TreeEffects
import SymbolExport.Proofs.Walking

/-! # Atomic publication

An export that goes through a temporary file either fails and leaves every place as it was, or it
succeeds and changes the destination only, which then holds the complete text. Seen through the path,
the destination never holds anything else than what it held before or that text, at no moment of the
run and whatever is refused: creating the file, writing it, keeping it or renaming it.

If renaming is refused, the complete temporary file is handed over to the error, so it is still there
when the export returns, and it goes away with the error.
-/

namespace SymbolExport

namespace FileWork

variable {work : FileWork} {temp : Location}

theorem effects_of_unheld (h : work.held = none) : work.effects = work.changes := by
  simp [effects, h]

theorem effects_of_held (h : work.held = some temp) :
    work.effects = work.changes ++ [.remove temp] := by
  simp [effects, h]

end FileWork

namespace Setting

/-- Nothing is held, and every place is as it was. -/
structure Untouched (s : Setting) (work : FileWork) : Prop where
  held : work.held = none
  same : ∀ loc, (Effect.applyAll s.tree work.changes).get? loc = s.tree.get? loc

/-- A new file with a text is held, and every other place is as it was. -/
structure Holds (s : Setting) (work : FileWork) (temp : Location) (text : Bytes) : Prop where
  held : work.held = some temp
  absent : s.tree.get? temp = none
  there : (Effect.applyAll s.tree work.changes).get? temp = some (.file text)
  elsewhere : ∀ loc, loc ≠ temp →
    (Effect.applyAll s.tree work.changes).get? loc = s.tree.get? loc

theorem untouched_nothing (s : Setting) : s.Untouched {} :=
  ⟨rfl, fun _ => rfl⟩

variable {s : Setting} {work : FileWork}

theorem Untouched.dropped (h : s.Untouched work) (loc : Location) :
    (Effect.applyAll s.tree work.effects).get? loc = s.tree.get? loc := by
  rw [work.effects_of_unheld h.held]
  exact h.same loc

/-- What is held goes away with the error. -/
theorem Holds.dropped {temp : Location} {text : Bytes} (h : s.Holds work temp text)
    (loc : Location) : (Effect.applyAll s.tree work.effects).get? loc = s.tree.get? loc := by
  have place : temp ≠ [] := by
    rintro rfl
    exact absurd h.absent (by simp [Tree.get?])
  rw [work.effects_of_held h.held, Effect.applyAll_append]
  show ((Effect.applyAll s.tree work.changes).remove temp).get? loc = _
  by_cases same : loc = temp
  · rw [same, Tree.get?_remove_self _ _ place, h.absent]
  · rw [Tree.get?_remove_of_ne _ same, h.elsewhere loc same]

end Setting

namespace Setting

theorem createAt_ok {s : Setting} {path : String} {loc : Location}
    (h : s.createAt path = .ok loc) : s.tree.creationTarget s.cwd path = .ok loc := by
  unfold createAt at h
  split at h
  · simp at h
  · exact h

theorem renameTo_ok {s : Setting} {path : String} {loc : Location}
    (h : s.renameTo path = .ok loc) : s.tree.renameTarget s.cwd path = .ok loc := by
  unfold renameTo at h
  split at h
  · simp at h
  · exact h

end Setting

/-- The temporary name is fresh: it is a name, nothing is at the place where the temporary file is
created, and the path of the destination does not mention it. -/
structure Setting.FreshName (s : Setting) (path : String) : Prop where
  isName : Path.IsName s.tempName
  absent : ∀ loc, s.createAt (Reflector.tempPath s path) = .ok loc → s.tree.get? loc = none
  unmentioned : s.tempName ∉ Tree.parts path

namespace Reflector

/-- The temporary file is a new entry of the temporary name if nothing is there before. -/
theorem temp_place_of_absent {s : Setting} {path : String} {loc : Location}
    (isName : Path.IsName s.tempName) (absent : s.tree.get? loc = none)
    (h : s.createAt (tempPath s path) = .ok loc) :
    ∃ dir, loc = dir ++ [s.tempName] ∧ s.tree.get? (dir ++ [s.tempName]) = none := by
  obtain ⟨dir, name, slash, last, place⟩ := Tree.creationTarget_ok (Setting.createAt_ok h)
  obtain ⟨slash', mine⟩ :=
    Tree.lastPart_join (Path.resolve s.cwd.text (Path.directory path)) isName
  rw [tempPath, mine, LastPart.name.injEq] at last
  rw [← last.1] at place
  exact ⟨dir, place, place ▸ absent⟩

theorem temp_place {s : Setting} {path : String} {loc : Location} (fresh : s.FreshName path)
    (h : s.createAt (tempPath s path) = .ok loc) :
    ∃ dir, loc = dir ++ [s.tempName] ∧ s.tree.get? (dir ++ [s.tempName]) = none :=
  temp_place_of_absent fresh.isName (fresh.absent loc h) h

/-- A synced export that succeeds has its complete text in the sink, which had room for it. -/
theorem exportSynced_ok {r : Reflector} {s : Setting} {format : RowFormat} {sink : Csv.Sink}
    {summary : ExportSummary} (h : r.exportSynced s format = (.ok summary, sink)) :
    r.CompleteText format sink.received ∧
      ({ room := s.room } : Csv.Sink).Admits sink.received.length ∧ s.refusals.sync = none := by
  unfold exportSynced at h
  split at h
  · simp at h
  · rename_i exported
    split at h
    · simp at h
    · rename_i synced
      simp only [Prod.mk.injEq] at h
      obtain ⟨text, complete, room, received⟩ := exportTo_ok exported
      have whole : sink.received = text := by
        rw [← h.2, received]
        rfl
      rw [whole]
      exact ⟨complete, room, synced⟩

/-- What an atomic export comes to: nothing was begun, or the temporary file was written and removed
again, or it was written whole and handed over or renamed. -/
theorem exportAtomically_cases (r : Reflector) (s : Setting) (path : String) (format : RowFormat) :
    let run := r.exportAtomically s path format
    (∃ fault, s.createAt (tempPath s path) = .error fault ∧
      run.outcome = .error (.io (.atPath fault (tempPath s path))) ∧ run.toFileWork = {}) ∨
    ∃ loc, s.createAt (tempPath s path) = .ok loc ∧
      ((∃ e sink, run.outcome = .error e ∧ r.exportSynced s format = (.error e, sink) ∧
          run.toFileWork = { changes := writing loc sink ++ [.remove loc] }) ∨
        (∃ fault summary sink, run.outcome = .error (.persist path ⟨fault, loc⟩) ∧
          r.exportSynced s format = (.ok summary, sink) ∧ s.renameTo path = .error fault ∧
          run.toFileWork = { changes := writing loc sink, held := some loc }) ∨
        ∃ summary sink target, run.outcome = .ok summary ∧
          r.exportSynced s format = (.ok summary, sink) ∧ s.renameTo path = .ok target ∧
          run.toFileWork = { changes := writing loc sink ++ [.rename loc target] }) := by
  dsimp only
  cases created : s.createAt (tempPath s path) with
  | error fault =>
      refine .inl ⟨fault, rfl, ?_, ?_⟩
      · simp [exportAtomically, created]
      · simp [exportAtomically, created]
  | ok loc =>
      refine .inr ⟨loc, rfl, ?_⟩
      rcases exported : r.exportSynced s format with ⟨e | summary, sink⟩
      · refine .inl ⟨e, sink, ?_, rfl, ?_⟩
        · simp [exportAtomically, created, exported]
        · simp [exportAtomically, created, exported]
      · cases renamed : s.renameTo path with
        | error fault =>
            refine .inr (.inl ⟨fault, summary, sink, ?_, rfl, rfl, ?_⟩)
            · simp [exportAtomically, created, exported, renamed]
            · simp [exportAtomically, created, exported, renamed]
        | ok target =>
            refine .inr (.inr ⟨summary, sink, target, ?_, rfl, rfl, ?_⟩)
            · simp [exportAtomically, created, exported, renamed]
            · simp [exportAtomically, created, exported, renamed]

/-! ## The temporary file -/

section

variable {t u : Tree} {dir target : Location} {name : String} {sink : Csv.Sink}

/-- While the temporary file is written, the tree differs in entries of its name only. -/
theorem agreesOff_of_writing (h : u ∈ Effect.states t (writing (dir ++ [name]) sink)) :
    Tree.AgreesOff name u t := by
  intro other part ne
  apply get?_states_writing h
  intro same
  have last := congrArg List.getLast? same
  simp only [List.getLast?_append, List.getLast?_singleton, Option.some_or, Option.some.injEq] at last
  exact ne last

theorem get?_remove_written (absent : t.get? (dir ++ [name]) = none) (loc : Location) :
    ((Effect.applyAll t (writing (dir ++ [name]) sink)).remove (dir ++ [name])).get? loc =
      t.get? loc := by
  by_cases same : loc = dir ++ [name]
  · rw [same, Tree.get?_remove_self _ _ (by simp), absent]
  · rw [Tree.get?_remove_of_ne _ same]
    exact get?_states_writing (Effect.applyAll_mem_states _ _) same

theorem get?_discarded (absent : t.get? (dir ++ [name]) = none) (loc : Location) :
    (Effect.applyAll t (writing (dir ++ [name]) sink ++ [.remove (dir ++ [name])])).get? loc =
      t.get? loc := by
  rw [Effect.applyAll_append]
  exact get?_remove_written absent loc

/-- A temporary file that is renamed leaves its content at the target and no other trace. -/
theorem get?_published (absent : t.get? (dir ++ [name]) = none) (place : target ≠ []) :
    let after := Effect.applyAll t
      (writing (dir ++ [name]) sink ++ [.rename (dir ++ [name]) target])
    after.get? target = some (.file sink.received) ∧
      ∀ loc, loc ≠ target → after.get? loc = t.get? loc := by
  have written := get?_writing t (show dir ++ [name] ≠ [] by simp) sink
  have content : (Effect.applyAll t (writing (dir ++ [name]) sink)).content (dir ++ [name]) =
      sink.received := by
    simp [Tree.content, written]
  dsimp only
  rw [Effect.applyAll_append]
  change (Tree.put _ _ _).get? target = _ ∧ ∀ loc, loc ≠ target → (Tree.put _ _ _).get? loc = _
  rw [content]
  refine ⟨Tree.get?_put_self _ _ _ place, ?_⟩
  intro loc other
  rw [Tree.get?_put_of_ne _ _ other]
  exact get?_remove_written absent loc

end

/-! ## Whole runs -/

/-- Exporting to a path atomically does to the files what the atomic export does, and succeeds if that
does. -/
theorem exportToPath_atomic (r : Reflector) (s : Setting) (path : String) (format : RowFormat) :
    let run := r.exportToPath s path { format, atomic := true }
    let inner := r.exportAtomically s path format
    run.toFileWork = inner.toFileWork ∧
      (∀ e, inner.outcome = .error e → run.outcome = .error e) ∧
      ∀ summary, inner.outcome = .ok summary →
        run.outcome = .ok { summary with output := some path } := by
  simp only [exportToPath, if_true]
  split
  · rename_i failed
    simp [failed]
  · rename_i done
    simp [done]

/-- An atomic export succeeds exactly if the temporary file can be created, every row can be made and
fits, and neither keeping nor renaming the file is refused. -/
theorem exportToPath_atomic_ok_iff (r : Reflector) (s : Setting) (path : String)
    (format : RowFormat) :
    (∃ summary, (r.exportToPath s path { format, atomic := true }).outcome = .ok summary) ↔
      (∃ loc, s.createAt (tempPath s path) = .ok loc) ∧
      (∃ text, r.CompleteText format text ∧ ({ room := s.room } : Csv.Sink).Admits text.length) ∧
      s.refusals.sync = none ∧ ∃ target, s.renameTo path = .ok target := by
  obtain ⟨-, failing, succeeding⟩ := exportToPath_atomic r s path format
  constructor
  · rintro ⟨summary, done⟩
    rcases exportAtomically_cases r s path format with
      ⟨fault, _, failed, _⟩ | ⟨loc, created, ⟨e, sink, failed, _⟩ | ⟨fault, _, sink, failed, _⟩ |
        ⟨_, sink, target, _, exported, renamed, _⟩⟩
    · cases done.symm.trans (failing _ failed)
    · cases done.symm.trans (failing _ failed)
    · cases done.symm.trans (failing _ failed)
    · obtain ⟨complete, room, synced⟩ := exportSynced_ok exported
      exact ⟨⟨loc, created⟩, ⟨sink.received, complete, room⟩, synced, target, renamed⟩
  · rintro ⟨⟨loc, created⟩, ⟨text, complete, room⟩, synced, target, renamed⟩
    obtain ⟨summary, sink, written⟩ := exportTo_succeeds complete s.times room
    refine ⟨_, succeeding summary ?_⟩
    simp [exportAtomically, exportSynced, created, written, synced, renamed]

section

variable {s : Setting} {path : String} {dir target : Location} {sink : Csv.Sink}

theorem holds_of_writing (sink : Csv.Sink) (absent : s.tree.get? (dir ++ [s.tempName]) = none) :
    s.Holds { changes := writing (dir ++ [s.tempName]) sink, held := some (dir ++ [s.tempName]) }
      (dir ++ [s.tempName]) sink.received where
  held := rfl
  absent := absent
  there := get?_writing s.tree (by simp) sink
  elsewhere _ away := get?_states_writing (Effect.applyAll_mem_states _ _) away

theorem find_discarded (absent : s.tree.get? (dir ++ [s.tempName]) = none)
    (unmentioned : s.tempName ∉ Tree.parts path) {t : Tree}
    (h : t ∈ Effect.states s.tree
      (writing (dir ++ [s.tempName]) sink ++ [.remove (dir ++ [s.tempName])])) :
    t.find s.cwd path = s.tree.find s.cwd path := by
  rw [Effect.states_append_singleton] at h
  rcases List.mem_append.mp h with before | last
  · exact Tree.find_congr (agreesOff_of_writing before) s.cwd unmentioned
  · rw [List.mem_singleton.mp last]
    exact Tree.find_congr (fun other part _ => get?_discarded absent (other ++ [part]))
      s.cwd unmentioned

/-- A run whose temporary file is renamed changes the destination and nothing else, and the path then
leads to the file. -/
theorem published (absent : s.tree.get? (dir ++ [s.tempName]) = none)
    (renamed : s.renameTo path = .ok target) :
    let after := Effect.applyAll s.tree
      (writing (dir ++ [s.tempName]) sink ++ [.rename (dir ++ [s.tempName]) target])
    after.get? target = some (.file sink.received) ∧
      after.find s.cwd path = .ok (.file sink.received) ∧
      ∀ loc, loc ≠ target → after.get? loc = s.tree.get? loc := by
  obtain ⟨noDirectory, ⟨above, name, _, place⟩, leads⟩ :=
    Tree.renameTarget_ok (Setting.renameTo_ok renamed)
  obtain ⟨there, elsewhere⟩ := get?_published absent (show target ≠ [] by simp [place])
  refine ⟨there, leads _ _ ?_ there, elsewhere⟩
  intro loc directory
  have other : loc ≠ target := by
    rintro rfl
    exact noDirectory directory
  rw [elsewhere loc other, directory]

theorem find_published (absent : s.tree.get? (dir ++ [s.tempName]) = none)
    (unmentioned : s.tempName ∉ Tree.parts path) (renamed : s.renameTo path = .ok target) {t : Tree}
    (h : t ∈ Effect.states s.tree
      (writing (dir ++ [s.tempName]) sink ++ [.rename (dir ++ [s.tempName]) target])) :
    t.find s.cwd path = s.tree.find s.cwd path ∨ t.find s.cwd path = .ok (.file sink.received) := by
  rw [Effect.states_append_singleton] at h
  rcases List.mem_append.mp h with before | last
  · exact .inl (Tree.find_congr (agreesOff_of_writing before) s.cwd unmentioned)
  · rw [List.mem_singleton.mp last]
    exact .inr (published absent renamed).2.1

end

/-- An atomic export that fails leaves every place as it was once its error has been dropped; before
that, the complete temporary file is there if the error holds it, and nothing else. An atomic export that
succeeds changes the destination only, which then holds the complete text. At every moment the path of
the destination leads to what it led to before or to that text. -/
theorem atomic_export_all_or_nothing (r : Reflector) (s : Setting) (path : String)
    (format : RowFormat) (fresh : s.FreshName path) :
    let run := r.exportToPath s path { format, atomic := true }
    let after := Effect.applyAll s.tree run.effects
    ((∃ e, run.outcome = .error e ∧
        (s.Untouched run.toFileWork ∨
          ∃ fault temp text, e = .persist path ⟨fault, temp⟩ ∧ s.renameTo path = .error fault ∧
            r.CompleteText format text ∧ s.Holds run.toFileWork temp text) ∧
        ∀ loc, after.get? loc = s.tree.get? loc) ∨
      ∃ summary target text, run.outcome = .ok summary ∧ run.held = none ∧
        r.CompleteText format text ∧ s.tree.renameTarget s.cwd path = .ok target ∧
        after.get? target = some (.file text) ∧ after.find s.cwd path = .ok (.file text) ∧
        ∀ loc, loc ≠ target → after.get? loc = s.tree.get? loc) ∧
    (∀ t ∈ Effect.states s.tree run.effects,
      t.find s.cwd path = s.tree.find s.cwd path ∨
        ∃ text, r.CompleteText format text ∧ t.find s.cwd path = .ok (.file text)) ∧
    ((∃ summary, run.outcome = .ok summary) ↔
      (∃ loc, s.createAt (tempPath s path) = .ok loc) ∧
      (∃ text, r.CompleteText format text ∧ ({ room := s.room } : Csv.Sink).Admits text.length) ∧
      s.refusals.sync = none ∧ ∃ target, s.renameTo path = .ok target) := by
  obtain ⟨work, failing, succeeding⟩ := exportToPath_atomic r s path format
  dsimp only at work failing succeeding ⊢
  rw [work, exportToPath_atomic_ok_iff]
  rcases exportAtomically_cases r s path format with
    ⟨fault, _, failed, nothing⟩ | ⟨loc, created, ⟨e, sink, failed, _, discarding⟩ |
      ⟨fault, summary, sink, failed, exported, renamed, holding⟩ |
      ⟨summary, sink, target, done, exported, renamed, publishing⟩⟩
  · -- Nothing was begun.
    have untouched := s.untouched_nothing
    rw [← nothing] at untouched
    refine ⟨.inl ⟨_, failing _ failed, .inl untouched, untouched.dropped⟩, ?_, Iff.rfl⟩
    intro t member
    rw [nothing] at member
    rw [List.mem_singleton.mp member]
    exact .inl rfl
  · -- The temporary file was removed.
    obtain ⟨dir, rfl, absent⟩ := temp_place fresh created
    have untouched : s.Untouched (r.exportAtomically s path format).toFileWork := by
      rw [discarding]
      exact ⟨rfl, get?_discarded absent⟩
    refine ⟨.inl ⟨e, failing e failed, .inl untouched, untouched.dropped⟩, ?_, Iff.rfl⟩
    intro t member
    rw [discarding, FileWork.effects_of_unheld rfl] at member
    exact .inl (find_discarded absent fresh.unmentioned member)
  · -- The temporary file was handed over.
    obtain ⟨dir, rfl, absent⟩ := temp_place fresh created
    have complete := (exportSynced_ok exported).1
    have holds := holds_of_writing sink absent
    rw [← holding] at holds
    refine ⟨.inl ⟨_, failing _ failed, .inr ⟨fault, _, _, rfl, renamed, complete, holds⟩,
      holds.dropped⟩, ?_, Iff.rfl⟩
    intro t member
    rw [holding, FileWork.effects_of_held rfl] at member
    exact .inl (find_discarded absent fresh.unmentioned member)
  · -- The temporary file was renamed.
    obtain ⟨dir, rfl, absent⟩ := temp_place fresh created
    have complete := (exportSynced_ok exported).1
    obtain ⟨there, leads, elsewhere⟩ := published absent renamed
    rw [publishing, FileWork.effects_of_unheld rfl]
    refine ⟨.inr ⟨_, target, sink.received, succeeding summary done, rfl, complete,
      Setting.renameTo_ok renamed, there, leads, elsewhere⟩, ?_, Iff.rfl⟩
    intro t member
    rcases find_published absent fresh.unmentioned renamed member with old | new
    · exact .inl old
    · exact .inr ⟨_, complete, new⟩

/-- An old file gives way to the complete text. A directory does not: the file that was to replace it is
there until the error is dropped. -/
theorem atomic_export_over_file_and_directory :
    let s : Setting :=
      { tree := { entries := [(["w"], .directory), (["w", "out.csv"], .file [0x31, 0x0A])] }
        cwd := ["w"]
        tempName := ".tmpA1b2C3"
        times := { started := "", finished := "" } }
    let blocked : Setting :=
      { s with tree := { entries := [(["w"], .directory), (["w", "out.csv"], .directory)] } }
    let r : Reflector := ({ functions := ["strlen"] } : Script).reflector
    let options : ExportOptions := { format := .full, atomic := true }
    let run := r.exportToPath s "out.csv" options
    let failed := r.exportToPath blocked "out.csv" options
    let text := Bytes.ofString "function,strlen\n"
    s.FreshName "out.csv" ∧ (∃ summary, run.outcome = .ok summary) ∧
      (Effect.applyAll s.tree run.effects).find s.cwd "out.csv" = .ok (.file text) ∧
      blocked.FreshName "out.csv" ∧
      failed.outcome = .error (.persist "out.csv" ⟨.isDirectory, ["w", ".tmpA1b2C3"]⟩) ∧
      (Effect.applyAll blocked.tree failed.changes).get? ["w", ".tmpA1b2C3"] =
        some (.file text) ∧
      (Effect.applyAll blocked.tree failed.effects).get? ["w", ".tmpA1b2C3"] = none := by
  intro s blocked r options run failed text
  have created : s.createAt (tempPath s "out.csv") = .ok ["w", ".tmpA1b2C3"] := by
    dsimp only [s]
    rfl
  have created' : blocked.createAt (tempPath blocked "out.csv") = .ok ["w", ".tmpA1b2C3"] := by
    dsimp only [blocked, s]
    rfl
  have renamed : s.renameTo "out.csv" = .ok ["w", "out.csv"] := by
    dsimp only [s]
    rfl
  have refused : blocked.renameTo "out.csv" = .error .isDirectory := by
    dsimp only [blocked, s]
    rfl
  have isName : Path.IsName ".tmpA1b2C3" := ⟨by decide, by decide, by decide, by decide⟩
  have unmentioned : ".tmpA1b2C3" ∉ Tree.parts "out.csv" := by decide +kernel
  have fresh : s.FreshName "out.csv" := by
    refine ⟨isName, ?_, unmentioned⟩
    intro loc place
    cases created.symm.trans place
    rfl
  have fresh' : blocked.FreshName "out.csv" := by
    refine ⟨isName, ?_, unmentioned⟩
    intro loc place
    cases created'.symm.trans place
    rfl
  have whole : rowsInOrder .full r.items = [["function", "strlen"]].map .ok := rfl
  have written : rowsText [["function", "strlen"]] = text := by decide
  have complete : r.CompleteText .full text := ⟨_, whole, written.symm⟩
  have only : ∀ content, r.CompleteText .full content → content = text := by
    rintro content ⟨rows, same, rfl⟩
    rw [whole] at same
    rw [← (List.map_inj_right (by simp)).mp same, written]
  obtain ⟨ends, _, condition⟩ := atomic_export_all_or_nothing r s "out.csv" .full fresh
  have done : ∃ summary, run.outcome = .ok summary :=
    condition.mpr ⟨⟨["w", ".tmpA1b2C3"], created⟩,
      ⟨text, complete, by simp [Csv.Sink.Admits, s]⟩, rfl, ["w", "out.csv"], renamed⟩
  have found : (Effect.applyAll s.tree run.effects).find s.cwd "out.csv" = .ok (.file text) := by
    rcases ends with ⟨e, stopped, _⟩ | ⟨_, _, content, _, _, whole, _, _, leads, _⟩
    · obtain ⟨summary, ok⟩ := done
      cases ok.symm.trans stopped
    · rw [← only content whole]
      exact leads
  have handed : failed.outcome = .error (.persist "out.csv" ⟨.isDirectory, ["w", ".tmpA1b2C3"]⟩) ∧
      failed.held = some ["w", ".tmpA1b2C3"] := by
    have room : ({ room := blocked.room } : Csv.Sink).Admits text.length := by
      simp [Csv.Sink.Admits, blocked, s]
    obtain ⟨summary, sink, exported⟩ := exportTo_succeeds complete blocked.times room
    have synced : r.exportSynced blocked .full = (.ok summary, sink) := by
      simp only [exportSynced, exported]
      rfl
    simp only [failed, exportToPath, exportAtomically, options, if_true, created', synced, refused,
      and_self]
  obtain ⟨⟨e, _, untouched | ⟨_, temp, content, _, _, whole, holds⟩, dropped⟩ |
    ⟨summary, _, _, ok, _⟩, _⟩ := atomic_export_all_or_nothing r blocked "out.csv" .full fresh'
  · cases handed.2.symm.trans untouched.held
  · cases handed.2.symm.trans holds.held
    rw [only content whole] at holds
    exact ⟨fresh, done, found, fresh', handed.1, holds.there, dropped ["w", ".tmpA1b2C3"]⟩
  · cases handed.1.symm.trans ok

end Reflector

end SymbolExport
