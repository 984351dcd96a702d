import SymbolExport.Command.Export
import SymbolExport.Proofs.AtomicPublication
import SymbolExport.Proofs.RowErrors
import SymbolExport.Proofs.SnapshotDecoding

/-! # The export command

A snapshot answers every question that an enumeration asks, so an export of a snapshot can only fail
before anything is written or, under a temporary name, when the file is to be renamed. The command is
therefore all or nothing, in place too, and what it reports is about the file it has left.
-/

namespace SymbolExport

/-! ## Snapshots never fail -/

namespace RuntimeSnapshot

/-- The records of a snapshot; a class that is listed repeatedly is shaped as the first of its name. -/
def records (s : RuntimeSnapshot) : List Record :=
  s.functions.map (fun name => .function { name }) ++
    (s.classes.flatMap fun d => ((s.findClass? d.name).getD d).records d.name) ++
    s.vars.map (·.record) ++ s.constants.map (·.record)

theorem reflect_listed {s : RuntimeSnapshot} {d : ClassDescriptor} (h : d ∈ s.classes) :
    s.reflector.reflect d.name = .ok ((s.findClass? d.name).getD d) := by
  cases found : s.findClass? d.name with
  | some first => simp [reflector, found]
  | none =>
      have never := List.find?_eq_none.mp found d h
      simp at never

theorem classItems_listed {s : RuntimeSnapshot} (behind : List Record) {classes : List ClassDescriptor}
    (h : ∀ d ∈ classes, d ∈ s.classes) :
    s.reflector.classItems (behind.map .ok) (classes.map (·.name)) =
      ((classes.flatMap fun d => ((s.findClass? d.name).getD d).records d.name) ++ behind).map .ok := by
  induction classes with
  | nil => rfl
  | cons d classes ih =>
      have listed := reflect_listed (h d List.mem_cons_self)
      have others := ih fun c member => h c (List.mem_cons_of_mem _ member)
      simp only [List.map_cons, Reflector.classItems, listed, others, List.flatMap_cons,
        List.map_append, List.append_assoc]

theorem collect_reflector (s : RuntimeSnapshot) : s.reflector.collect = .ok s.records := by
  have values : s.reflector.variableItems s.vars =
      (s.vars.map (·.record) ++ s.constants.map (·.record)).map .ok := by
    simp [Reflector.variableItems, Reflector.constantItems, reflector, Function.comp_def]
  have classes := classItems_listed (s.vars.map (·.record) ++ s.constants.map (·.record))
    (fun d (member : d ∈ s.classes) => member)
  rw [Reflector.collect_eq_ok_iff]
  change s.functions.map Reflector.functionItem ++
    s.reflector.classItems (s.reflector.variableItems s.vars) (s.classes.map (·.name)) = _
  rw [values, classes]
  simp [records, Reflector.functionItem]

end RuntimeSnapshot

/-! ## The place of an output -/

namespace Tree

/-- A file can be renamed to where it can be created. -/
theorem renameTarget_eq_ok_iff {t : Tree} {cwd loc : Location} {path : String} :
    t.renameTarget cwd path = .ok loc ↔ t.creationTarget cwd path = .ok loc := by
  unfold renameTarget creationTarget
  rcases t.walk cwd path with fault | ⟨dir, name | up | _⟩
  · cases fault <;> simp
  · rename_i slash
    by_cases long : longestName < name.utf8ByteSize
    · cases slash <;> simp [child, long]
    · rcases entry : t.get? (dir ++ [name]) with _ | _ | _ <;>
        cases slash <;> simp [child, long, entry]
  · simp
  · simp

/-- A path at which a file can be created leads to the file that is there in the end. -/
theorem find_created {t u : Tree} {cwd loc : Location} {path : String} {content : Bytes}
    (h : t.creationTarget cwd path = .ok loc) (there : u.get? loc = some (.file content))
    (elsewhere : ∀ other, other ≠ loc → u.get? other = t.get? other) :
    u.find cwd path = .ok (.file content) := by
  obtain ⟨noDirectory, _, leads⟩ := renameTarget_ok (renameTarget_eq_ok_iff.mpr h)
  refine leads u content ?_ there
  intro other directory
  have away : other ≠ loc := by
    rintro rfl
    exact noDirectory directory
  rw [elsewhere other away, directory]

end Tree

/-! ## Exports of complete runtimes -/

/-- Nothing is refused that the files allow, and everything that is written fits. -/
structure Setting.Undisturbed (s : Setting) : Prop where
  room : s.room = none
  refusals : s.refusals = {}

/-- The temporary name is one that a file beside a path can be given and that none has. -/
structure Setting.UnusedBeside (s : Setting) (path : String) : Prop where
  isName : Path.IsName s.tempName
  absent : ∀ loc, s.tree.creationTarget s.cwd (Reflector.tempPath s path) = .ok loc →
    s.tree.get? loc = none

/-- The files let an export be written to a path. -/
def Setting.Writable (s : Setting) (path : String) (atomic : Bool) : Prop :=
  (∃ loc, s.tree.creationTarget s.cwd path = .ok loc) ∧
    (atomic = true → ∃ loc, s.tree.creationTarget s.cwd (Reflector.tempPath s path) = .ok loc)

/-- A tree is that of a setting with a text as the file at the place of a path. -/
structure Setting.Leaves (s : Setting) (path : String) (text : Bytes) (after : Tree)
    (loc : Location) : Prop where
  place : s.tree.creationTarget s.cwd path = .ok loc
  there : after.get? loc = some (.file text)
  elsewhere : ∀ other, other ≠ loc → after.get? other = s.tree.get? other

/-- An export that can be written succeeds and leaves a text. Any other one changes nothing, but for
the file that its error may hold. -/
def Setting.AllOrNothing (s : Setting) (path : String) (atomic : Bool) (summary : ExportSummary)
    (text : Bytes) (run : Publication) : Prop :=
  (¬s.Writable path atomic ∧ ∃ e, run.outcome = .error e ∧
      (s.Untouched run.toFileWork ∨
        ∃ fault temp, e = .persist path ⟨fault, temp⟩ ∧ s.Holds run.toFileWork temp text)) ∨
    (s.Writable path atomic ∧ run.outcome = .ok summary ∧ run.held = none ∧
      ∃ loc, s.Leaves path text (Effect.applyAll s.tree run.changes) loc)

namespace Reflector

section

variable {r : Reflector} {s : Setting} {records : List Record}

theorem exportSynced_of_complete (calm : s.Undisturbed) (all : r.collect = .ok records)
    (format : RowFormat) :
    ∃ sink : Csv.Sink,
      r.exportSynced s format =
        (.ok (summaryOf format s.times records (r.writtenRows format).length), sink) ∧
      sink.received = Csv.encodeRows (r.writtenRows format) := by
  obtain ⟨sink, done, received⟩ := exportTo_unlimited_of_complete all format s.times
  refine ⟨sink, ?_, received⟩
  simp only [exportSynced, calm.room, calm.refusals, done]

theorem exportInPlace_of_complete (calm : s.Undisturbed) (all : r.collect = .ok records)
    (path : String) (format : RowFormat) :
    s.AllOrNothing path false (summaryOf format s.times records (r.writtenRows format).length)
      (Csv.encodeRows (r.writtenRows format)) (r.exportInPlace s path format) := by
  have creation : s.createAt path = s.tree.creationTarget s.cwd path := by
    simp only [Setting.createAt, calm.refusals]
  obtain ⟨sink, done, received⟩ := exportSynced_of_complete calm all format
  cases target : s.tree.creationTarget s.cwd path with
  | error fault =>
      refine .inl ⟨?_, .io (.os fault), ?_, .inl ?_⟩
      · simp [Setting.Writable, target]
      · simp only [exportInPlace, creation, target]
      · simp only [exportInPlace, creation, target]
        exact s.untouched_nothing
  | ok loc =>
      have work : (r.exportInPlace s path format).toFileWork = { changes := writing loc sink } := by
        simp only [exportInPlace, creation, target, done]
      obtain ⟨dir, name, _, _, place⟩ := Tree.creationTarget_ok target
      rw [Setting.AllOrNothing, work]
      refine .inr ⟨?_, ?_, rfl, loc, target, ?_, ?_⟩
      · simp [Setting.Writable, target]
      · simp only [exportInPlace, creation, target, done]
      · rw [get?_writing s.tree (by simp [place]) sink, received]
      · intro other away
        exact get?_states_writing (Effect.applyAll_mem_states _ _) away

theorem exportAtomically_of_complete (calm : s.Undisturbed) (all : r.collect = .ok records)
    {path : String} (unused : s.UnusedBeside path) (format : RowFormat) :
    s.AllOrNothing path true (summaryOf format s.times records (r.writtenRows format).length)
      (Csv.encodeRows (r.writtenRows format)) (r.exportAtomically s path format) := by
  have creation : s.createAt (tempPath s path) = s.tree.creationTarget s.cwd (tempPath s path) := by
    simp only [Setting.createAt, calm.refusals]
  have moving : s.renameTo path = s.tree.renameTarget s.cwd path := by
    simp only [Setting.renameTo, calm.refusals]
  obtain ⟨sink, done, received⟩ := exportSynced_of_complete calm all format
  rcases exportAtomically_cases r s path format with
    ⟨fault, unmade, failed, nothing⟩ | ⟨loc, made, ⟨e, _, _, stopped, _⟩ |
      ⟨fault, _, _, failed, exported, refused, holding⟩ |
      ⟨_, _, place, ok, exported, renamed, publishing⟩⟩
  · refine .inl ⟨?_, _, failed, .inl ?_⟩
    · rintro ⟨_, beside⟩
      obtain ⟨loc, created⟩ := beside rfl
      rw [← creation, unmade] at created
      cases created
    · rw [nothing]
      exact s.untouched_nothing
  · cases done.symm.trans stopped
  · cases done.symm.trans exported
    obtain ⟨dir, rfl, absent⟩ :=
      temp_place_of_absent unused.isName (unused.absent loc (creation.symm.trans made)) made
    refine .inl ⟨?_, _, failed, .inr ⟨fault, _, rfl, ?_⟩⟩
    · rintro ⟨⟨other, created⟩, _⟩
      rw [← Tree.renameTarget_eq_ok_iff, ← moving, refused] at created
      cases created
    · rw [holding, ← received]
      exact holds_of_writing sink absent
  · cases done.symm.trans exported
    obtain ⟨dir, rfl, absent⟩ :=
      temp_place_of_absent unused.isName (unused.absent loc (creation.symm.trans made)) made
    have target := Tree.renameTarget_eq_ok_iff.mp (moving.symm.trans renamed)
    have writable : s.Writable path true :=
      ⟨⟨place, target⟩, fun _ => ⟨_, creation.symm.trans made⟩⟩
    obtain ⟨there, _, elsewhere⟩ := published absent renamed
    rw [Setting.AllOrNothing, publishing, ← received]
    exact .inr ⟨writable, ok, rfl, place, target, there, elsewhere⟩

/-- In either mode, the summary names the path that was written. -/
theorem exportToPath_of_complete (calm : s.Undisturbed) (all : r.collect = .ok records)
    {path : String} (unused : s.UnusedBeside path) (options : ExportOptions) :
    s.AllOrNothing path options.atomic
      { summaryOf options.format s.times records (r.writtenRows options.format).length with
        output := some path }
      (Csv.encodeRows (r.writtenRows options.format)) (r.exportToPath s path options) := by
  have inner : s.AllOrNothing path options.atomic
      (summaryOf options.format s.times records (r.writtenRows options.format).length)
      (Csv.encodeRows (r.writtenRows options.format))
      (if options.atomic then r.exportAtomically s path options.format
        else r.exportInPlace s path options.format) := by
    cases options.atomic with
    | true => exact exportAtomically_of_complete calm all unused options.format
    | false => exact exportInPlace_of_complete calm all path options.format
  rcases inner with ⟨closed, e, failed, undone⟩ | ⟨writable, done, leaves⟩
  · refine .inl ⟨closed, e, ?_, ?_⟩
    · simp only [exportToPath, failed]
    · simp only [exportToPath, failed]
      exact undone
  · refine .inr ⟨writable, ?_, ?_⟩
    · simp only [exportToPath, done]
    · simp only [exportToPath, done]
      exact leaves

end

end Reflector

/-! ## The command -/

namespace Setting

/-- The settings that a request starts from: those of the file that it names, or the defaults. -/
def fileConfig (s : Setting) (request : ExportRequest) : Except Failure ExportConfig :=
  match request.config with
  | none => .ok {}
  | some path => s.tree.loadConfig s.cwd (Path.resolve s.cwd.text path)

/-- The path of the output: a flag wins over the file. -/
def outputPath (s : Setting) (request : ExportRequest) (config : ExportConfig) : String :=
  Path.resolve s.cwd.text (request.output.getD config.output)

section

variable {s : Setting} {request : ExportRequest} {config : ExportConfig}

theorem exportCommand_of_unset {failure : Failure} (h : s.fileConfig request = .error failure) :
    s.exportCommand request = { result := .error failure } := by
  unfold fileConfig at h
  split at h
  · simp at h
  · rename_i path named
    simp only [exportCommand, effectiveConfig, named, h]

theorem exportCommand_of_set (h : s.fileConfig request = .ok config) :
    s.exportCommand request =
      s.exportWith request
        (config.withOverrides request.output request.format request.noAtomic) := by
  unfold fileConfig at h
  split at h
  · rename_i unnamed
    cases h
    simp only [exportCommand, effectiveConfig, unnamed]
  · rename_i path named
    simp only [exportCommand, effectiveConfig, named, h]

theorem exportWith_of_unread {failure : Failure}
    (h : s.tree.loadSnapshot s.cwd (Path.resolve s.cwd.text request.snapshot) = .error failure) :
    s.exportWith request config = { result := .error failure } := by
  delta exportWith
  simp only [h]

theorem exportWith_of_unpublished {snapshot : RuntimeSnapshot} {e : ExportError} {output : String}
    {publication : Publication}
    (h : s.tree.loadSnapshot s.cwd (Path.resolve s.cwd.text request.snapshot) = .ok snapshot)
    (resolved : Path.resolve s.cwd.text config.output = output)
    (made : snapshot.reflector.exportToPath s output config.options = publication)
    (failed : publication.outcome = .error e) :
    s.exportWith request config =
      { publication.toFileWork with
        result := .error (.exporting output e)
        events := publication.events } := by
  delta exportWith
  simp only [h, resolved, made, failed]

theorem exportWith_of_published {snapshot : RuntimeSnapshot} {summary : ExportSummary}
    {output sha256 : String} {publication : Publication}
    (h : s.tree.loadSnapshot s.cwd (Path.resolve s.cwd.text request.snapshot) = .ok snapshot)
    (resolved : Path.resolve s.cwd.text config.output = output)
    (made : snapshot.reflector.exportToPath s output config.options = publication)
    (done : publication.outcome = .ok summary)
    (hashed : (Effect.applyAll s.tree publication.changes).digest s.cwd output = .ok sha256) :
    (s.exportWith request config).result =
        .ok { snapshot := Path.resolve s.cwd.text request.snapshot, summary, sha256 } ∧
      (s.exportWith request config).toFileWork = { changes := publication.changes } := by
  delta exportWith
  simp only [h, resolved, made, done, hashed, and_self]

end

theorem digest_of_leaves {s : Setting} {path : String} {text : Bytes} {after : Tree} {loc : Location}
    (h : s.Leaves path text after loc) : after.digest s.cwd path = .ok (Sha256.hexDigest text) := by
  simp only [Tree.digest, Tree.find_created h.place h.there h.elsewhere]

/-- The export command fails, prints nothing and changes nothing once its failure has been dropped;
before that, a temporary file is there if the failure holds it, and nothing else. Or it succeeds and
changes the output only. Then the output holds what is written for the snapshot that was read before, and the
report tells its digest, its rows and the records that they were made from. -/
theorem export_command_all_or_nothing (s : Setting) (request : ExportRequest)
    (calm : s.Undisturbed)
    (unused : ∀ config, s.fileConfig request = .ok config →
      s.UnusedBeside (s.outputPath request config)) :
    let run := s.exportCommand request
    let after := Effect.applyAll s.tree run.effects
    let source := Path.resolve s.cwd.text request.snapshot
    ((∃ failure, run.result = .error failure ∧ run.stdout = "" ∧
        (s.Untouched run.toFileWork ∨
          ∃ config fault temp text, s.fileConfig request = .ok config ∧
            failure = .exporting (s.outputPath request config)
              (.persist (s.outputPath request config) ⟨fault, temp⟩) ∧
            s.Holds run.toFileWork temp text) ∧
        ∀ loc, after.get? loc = s.tree.get? loc) ∨
      ∃ (config : ExportConfig) (snapshot : RuntimeSnapshot) (report : ExportReport)
        (rows : List Row) (loc : Location),
        s.fileConfig request = .ok config ∧ s.tree.loadSnapshot s.cwd source = .ok snapshot ∧
        run.result = .ok report ∧ run.held = none ∧
        s.tree.creationTarget s.cwd (s.outputPath request config) = .ok loc ∧
        (∀ other, other ≠ loc → after.get? other = s.tree.get? other) ∧
        after.get? loc = some (.file (rowsText rows)) ∧
        after.find s.cwd (s.outputPath request config) = .ok (.file (rowsText rows)) ∧
        rowItems (request.format.getD config.format) snapshot.reflector.enumerate.1 =
          rows.map .ok ∧
        report.sha256 = Sha256.hexDigest (rowsText rows) ∧
        report.summary.rowsWritten = rows.length ∧
        report.summary.records = .ofRecords snapshot.records ∧
        snapshot.reflector.collect = .ok snapshot.records ∧
        report.summary.format = request.format.getD config.format ∧
        report.summary.output = some (s.outputPath request config) ∧ report.snapshot = source) ∧
    ((∃ report, run.result = .ok report) ↔
      ∃ config snapshot, s.fileConfig request = .ok config ∧
        s.tree.loadSnapshot s.cwd source = .ok snapshot ∧
        s.Writable (s.outputPath request config) (config.atomic && !request.noAtomic)) := by
  intro run after source
  cases set : s.fileConfig request with
  | error failure =>
      have ends : run = { result := .error failure } := exportCommand_of_unset set
      simp only [after, ends]
      exact ⟨.inl ⟨failure, by simp, by simp, .inl s.untouched_nothing, fun loc => rfl⟩, by simp⟩
  | ok config =>
      have begins := exportCommand_of_set set
      cases loaded : s.tree.loadSnapshot s.cwd source with
      | error failure =>
          have ends : run = { result := .error failure } :=
            begins.trans (exportWith_of_unread loaded)
          simp only [after, ends]
          exact ⟨.inl ⟨failure, by simp, by simp, .inl s.untouched_nothing, fun loc => rfl⟩, by simp⟩
      | ok snapshot =>
          -- From here on only the files decide.
          let overridden := config.withOverrides request.output request.format request.noAtomic
          have resolved : Path.resolve s.cwd.text overridden.output =
              s.outputPath request config := rfl
          obtain ⟨publication, made⟩ : ∃ publication, snapshot.reflector.exportToPath s
            (s.outputPath request config) overridden.options = publication := ⟨_, rfl⟩
          have comes := Reflector.exportToPath_of_complete calm snapshot.collect_reflector
            (unused config set) overridden.options
          rw [made] at comes
          rcases comes with ⟨closed, e, failed, undone⟩ | ⟨writable, done, _, loc, leaves⟩
          · have ends := begins.trans (exportWith_of_unpublished loaded resolved made failed)
            have result : run.result = .error _ := congrArg CommandRun.result ends
            have work : run.toFileWork = publication.toFileWork :=
              congrArg CommandRun.toFileWork ends
            rw [← work] at undone
            refine ⟨.inl ⟨_, result, congrArg CommandRun.stdout ends, ?_, ?_⟩, ?_⟩
            · rcases undone with untouched | ⟨fault, temp, rfl, holds⟩
              · exact .inl untouched
              · exact .inr ⟨config, fault, temp, _, rfl, rfl, holds⟩
            · rcases undone with untouched | ⟨fault, temp, rfl, holds⟩
              · exact untouched.dropped
              · exact holds.dropped
            · rw [result]
              simp only [reduceCtorEq, exists_false, false_iff]
              rintro ⟨other, _, same, _, writable⟩
              cases same
              exact closed writable
          · obtain ⟨result, work⟩ :=
              exportWith_of_published loaded resolved made done (digest_of_leaves leaves)
            rw [← begins] at result work
            have effects : run.effects = publication.changes := by
              rw [show run.toFileWork = _ from work, FileWork.effects_of_unheld rfl]
            have found := Tree.find_created leaves.place leaves.there leaves.elsewhere
            have rows := Reflector.rowItems_of_complete snapshot.collect_reflector overridden.format
            simp only [after, effects]
            refine ⟨.inr ⟨config, snapshot, _, _, loc, rfl, rfl, result, ?_, leaves.place,
              leaves.elsewhere, leaves.there, found, rows, rfl, ?_, rfl, snapshot.collect_reflector,
              rfl, rfl, rfl⟩, ?_⟩
            · exact congrArg FileWork.held work
            · exact List.length_map _
            · exact ⟨fun _ => ⟨config, snapshot, rfl, rfl, writable⟩, fun _ => ⟨_, result⟩⟩

/-- A snapshot can be overwritten in place by its own export. A directory cannot: the file that was to
replace it is there until the failure is dropped. -/
theorem export_command_over_snapshot_and_directory :
    let text := Bytes.ofString "\x7b\"functions\":[\"strlen\"]\x7d"
    let s : Setting :=
      { tree := { entries :=
          [(["w"], .directory), (["w", "d"], .directory), (["w", "s.json"], .file text)] }
        cwd := ["w"]
        tempName := ".tmpA1b2C3"
        times := { started := "", finished := "" } }
    let request : ExportRequest :=
      { snapshot := "s.json", output := some "s.json", noAtomic := true }
    let blocked : ExportRequest := { snapshot := "s.json", output := some "d" }
    let run := s.exportCommand request
    let failed := s.exportCommand blocked
    s.Undisturbed ∧ s.UnusedBeside (s.outputPath request {}) ∧
      s.UnusedBeside (s.outputPath blocked {}) ∧
      (∃ report, run.result = .ok report) ∧
      (Effect.applyAll s.tree run.effects).find s.cwd (s.outputPath request {}) =
        .ok (.file (Bytes.ofString "function,strlen\n")) ∧
      failed.result = .error (.exporting "/w/d" (.persist "/w/d" ⟨.isDirectory, ["w", ".tmpA1b2C3"]⟩)) ∧
      ((Effect.applyAll s.tree failed.changes).get? ["w", ".tmpA1b2C3"]).isSome ∧
      ∀ loc, (Effect.applyAll s.tree failed.effects).get? loc = s.tree.get? loc := by
  intro text s request blocked run failed
  have calm : s.Undisturbed := ⟨rfl, rfl⟩
  have output : s.outputPath request {} = "/w/s.json" := by decide +kernel
  have output' : s.outputPath blocked {} = "/w/d" := by decide +kernel
  have place : s.tree.creationTarget s.cwd "/w/s.json" = .ok ["w", "s.json"] := by
    dsimp only [s]
    rfl
  have isName : Path.IsName ".tmpA1b2C3" := ⟨by decide, by decide, by decide, by decide⟩
  have temp : s.tree.creationTarget s.cwd "/w/.tmpA1b2C3" = .ok ["w", ".tmpA1b2C3"] := by
    dsimp only [s]
    rfl
  have unused : ∀ path, Reflector.tempPath s path = "/w/.tmpA1b2C3" → s.UnusedBeside path := by
    intro path beside
    refine ⟨isName, ?_⟩
    intro loc found
    rw [beside, temp, Except.ok.injEq] at found
    rw [← found]
    rfl
  have beside : Reflector.tempPath s "/w/s.json" = "/w/.tmpA1b2C3" := by decide +kernel
  have beside' : Reflector.tempPath s "/w/d" = "/w/.tmpA1b2C3" := by decide +kernel
  have read : s.tree.read s.cwd "/w/s.json" = .ok text := by
    dsimp only [s]
    rfl
  have canonical : ({ functions := ["strlen"] } : RuntimeSnapshot).Canonical :=
    ⟨.nil, List.forall_mem_nil _, List.forall_mem_nil _, by decide +kernel⟩
  have decoded : RuntimeSnapshot.ofJsonBytes text = .ok { functions := ["strlen"] } := by
    refine RuntimeSnapshot.ofJsonBytes_of_presents canonical ?_
    refine ⟨_, [], _, ⟨_, _, rfl, .kept ⟨_, .cons rfl .nil, rfl⟩, _, _, rfl, .omitted rfl, _, _, rfl,
      .omitted rfl, _, _, rfl, .omitted rfl, rfl⟩, List.forall_mem_nil _, .refl _, ?_⟩
    decide +kernel
  have loaded : s.tree.loadSnapshot s.cwd "/w/s.json" = .ok { functions := ["strlen"] } := by
    have json : Path.isYaml "/w/s.json" = false := by decide +kernel
    simp [Tree.loadSnapshot, read, json, decoded, text]
  obtain ⟨ends, condition⟩ := export_command_all_or_nothing s request calm (by
    intro config set
    cases set
    rw [output]
    exact unused _ beside)
  obtain ⟨ends', -⟩ := export_command_all_or_nothing s blocked calm (by
    intro config set
    cases set
    rw [output']
    exact unused _ beside')
  rw [← output] at loaded place
  have done : ∃ report, run.result = .ok report :=
    condition.mpr ⟨{}, _, rfl, loaded, ⟨_, place⟩, by simp [request]⟩
  have found : (Effect.applyAll s.tree run.effects).find s.cwd (s.outputPath request {}) =
      .ok (.file (Bytes.ofString "function,strlen\n")) := by
    rcases ends with ⟨failure, stopped, _⟩ |
      ⟨config, snapshot, report, rows, loc, set, again, _, _, _, _, _, found, items, _⟩
    · obtain ⟨report, ok⟩ := done
      cases ok.symm.trans stopped
    · cases set
      cases loaded.symm.trans again
      rw [rowItems_eq_rowsInOrder, Reflector.enumerate_items] at items
      have whole : ([["function", "strlen"]].map .ok : List RowItem) = rows.map .ok := items
      have same : rows = [["function", "strlen"]] :=
        (List.map_inj_right (by simp)).mp whole.symm
      have written : rowsText [["function", "strlen"]] = Bytes.ofString "function,strlen\n" := by
        decide
      rw [found, same, written]
  have handed : failed.result =
        .error (.exporting "/w/d" (.persist "/w/d" ⟨.isDirectory, ["w", ".tmpA1b2C3"]⟩)) ∧
      failed.held = some ["w", ".tmpA1b2C3"] := by
    let snapshot : RuntimeSnapshot := { functions := ["strlen"] }
    obtain ⟨sink, synced, _⟩ :=
      Reflector.exportSynced_of_complete calm snapshot.collect_reflector .full
    have created : s.createAt (Reflector.tempPath s "/w/d") = .ok ["w", ".tmpA1b2C3"] := by
      rw [beside']
      exact temp
    have refused : s.renameTo "/w/d" = .error .isDirectory := by
      dsimp only [s]
      rfl
    have unpublished : ∃ publication,
        snapshot.reflector.exportToPath s "/w/d" {} = publication ∧
        publication.outcome = .error (.persist "/w/d" ⟨.isDirectory, ["w", ".tmpA1b2C3"]⟩) ∧
        publication.held = some ["w", ".tmpA1b2C3"] := by
      refine ⟨_, rfl, ?_⟩
      simp only [Reflector.exportToPath, Reflector.exportAtomically, if_true, created, synced,
        refused, and_self]
    obtain ⟨publication, made, outcome, held⟩ := unpublished
    have set : s.fileConfig blocked = .ok {} := rfl
    have whole := (exportCommand_of_set set).trans
      (exportWith_of_unpublished loaded output' made outcome)
    refine ⟨congrArg CommandRun.result whole, ?_⟩
    rw [← held]
    exact congrArg (fun run => run.held) whole
  rcases ends' with ⟨failure, _, _, untouched | ⟨_, _, _, _, _, _, holds⟩, dropped⟩ |
    ⟨_, _, report, _, _, _, _, ok, _⟩
  · cases handed.2.symm.trans untouched.held
  · cases handed.2.symm.trans holds.held
    refine ⟨calm, ?_, ?_, done, found, handed.1, ?_, dropped⟩
    · rw [output]
      exact unused _ beside
    · rw [output']
      exact unused _ beside'
    · rw [holds.there]
      rfl
  · cases handed.1.symm.trans ok

end Setting

end SymbolExport
