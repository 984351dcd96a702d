import SymbolExport.Command.Load
import SymbolExport.Proofs.LooseWords
import SymbolExport.Proofs.Walking

/-! # Components of paths

A path is a row of components: perhaps the root or a dot in front, then its parts without those that
are empty or a dot. Whether a file is YAML is told by the last component alone, and a relative path keeps
its last component when it is put behind a working directory. So a file is read by the same rules under
its relative and its absolute path.
-/

namespace SymbolExport

namespace Path

open Text

/-- The components of a path: the root or a dot in front, then the parts that count. -/
def components (path : String) : List (List Char) :=
  [lead path.toList].filter (· ≠ []) ++
    (path.toList.splitOn '/').filter fun part => part ≠ [] ∧ part ≠ ['.']

def countedParts (path : String) : List (List Char) :=
  (path.toList.splitOn '/').filter fun part => !isIdle part

theorem components_eq (path : String) :
    components path = [lead path.toList].filter (· ≠ []) ++ countedParts path := by
  have counted : (fun part : List Char => decide (part ≠ [] ∧ part ≠ ['.'])) =
      fun part => !isIdle part := by
    funext part
    simp [isIdle, Bool.decide_and]
  rw [components, countedParts, counted]

theorem length_lead_le (cs : List Char) : (lead cs).length ≤ 1 := by
  unfold lead
  split <;> simp

theorem lead_append_slash {cs : List Char} (nonempty : cs ≠ []) (rest : List Char) :
    lead (cs ++ '/' :: rest) = lead cs := by
  fun_cases lead cs with
  | case1 => rfl
  | case2 => rfl
  | case3 => rfl
  | case4 =>
      -- No lead: the first characters decide, and the slash comes behind at least one of them.
      cases cs with
      | nil => exact absurd rfl nonempty
      | cons c cs =>
          unfold lead
          split
          · simp_all
          · cases cs <;> simp_all
          · cases cs <;> simp_all
          · rfl

theorem components_append_idle {path idle : String} (nonempty : path ≠ "")
    (skipped : countedParts idle = []) : components (path ++ "/" ++ idle) = components path := by
  have divided : (path ++ "/" ++ idle).toList = path.toList ++ '/' :: idle.toList := by simp
  have counted : countedParts (path ++ "/" ++ idle) = countedParts path := by
    rw [countedParts, divided, List.splitOn_append_cons_self, List.filter_append]
    change countedParts path ++ countedParts idle = countedParts path
    rw [skipped, List.append_nil]
  have same : lead (path ++ "/" ++ idle).toList = lead path.toList := by
    rw [divided, lead_append_slash (by simpa using nonempty)]
  rw [components_eq, components_eq, counted, same]

/-! ## The last component -/

theorem head?_dropWhile_isIdle (parts : List (List Char)) :
    (parts.dropWhile isIdle).head? = parts.find? fun part => !isIdle part := by
  induction parts with
  | nil => rfl
  | cons part parts ih =>
      by_cases idle : isIdle part = true
      · simp [idle, ih]
      · simp [idle]

/-- A file name is the last part that counts, unless that leads upwards. -/
theorem fileName?_eq_some_iff {path : String} {name : List Char} :
    fileName? path = some name ↔
      (countedParts path).getLast? = some name ∧ name ≠ ['.', '.'] := by
  have last : ((path.toList.splitOn '/').reverse.dropWhile isIdle).head? =
      (countedParts path).getLast? := by
    rw [head?_dropWhile_isIdle, countedParts, List.getLast?_filter]
  rw [fileName?, last]
  cases (countedParts path).getLast? with
  | none => simp
  | some part =>
      by_cases up : part = ['.', '.']
      · simp only [if_pos up, Option.some.injEq]
        constructor
        · intro h
          cases h
        · rintro ⟨rfl, named⟩
          exact absurd up named
      · simp only [if_neg up, Option.some.injEq]
        constructor
        · rintro rfl
          exact ⟨rfl, up⟩
        · exact And.left

theorem getLast?_components_of_counted {path : String} (counts : countedParts path ≠ []) :
    (components path).getLast? = (countedParts path).getLast? := by
  obtain ⟨last, found⟩ := Option.ne_none_iff_exists'.mp (mt List.getLast?_eq_none_iff.mp counts)
  rw [components_eq, List.getLast?_append, found, Option.some_or]

/-- A last component of several characters is a file name unless it leads upwards. -/
theorem fileName?_eq_some_iff_last {path : String} {name : List Char} (long : 1 < name.length) :
    fileName? path = some name ↔
      (components path).getLast? = some name ∧ name ≠ ['.', '.'] := by
  rw [fileName?_eq_some_iff]
  by_cases counts : countedParts path = []
  -- Then the only component can be the lead, which has one character at most.
  · have noLead : lead path.toList ≠ name := by
      rintro rfl
      have short := length_lead_le path.toList
      omega
    rw [components_eq, counts, List.append_nil]
    by_cases none : lead path.toList = []
    · simp [none]
    · simp [none, noLead]
  · rw [getLast?_components_of_counted counts]

/-! ## Extensions -/

theorem ne_dot_of_mem_reverse {cs : List Char} (dotless : '.' ∉ cs) :
    ∀ c ∈ cs.reverse, decide (c ≠ '.') = true := by
  intro c member
  rw [decide_eq_true_eq]
  intro dot
  rw [List.mem_reverse, dot] at member
  exact dotless member

/-- What stands behind the last dot of a file name is its extension, if something stands before it. -/
theorem extension?_of_dot {path : String} {stem ext : List Char}
    (named : fileName? path = some (stem ++ '.' :: ext)) (dotless : '.' ∉ ext) :
    extension? path = if stem = [] then none else some ext := by
  have turned : (stem ++ '.' :: ext).reverse = ext.reverse ++ '.' :: stem.reverse := by simp
  have kept : (stem ++ '.' :: ext).reverse.dropWhile (· ≠ '.') = '.' :: stem.reverse := by
    rw [turned, List.dropWhile_append_of_pos (ne_dot_of_mem_reverse dotless),
      List.dropWhile_cons_of_neg (by decide)]
  have passed : (stem ++ '.' :: ext).reverse.takeWhile (· ≠ '.') = ext.reverse := by
    rw [turned, List.takeWhile_append_of_pos (ne_dot_of_mem_reverse dotless),
      List.takeWhile_cons_of_neg (by decide), List.append_nil]
  rw [extension?, named]
  dsimp only
  rw [kept, passed]
  cases before : stem.reverse with
  | nil =>
      have empty : stem = [] := List.reverse_eq_nil_iff.mp before
      rw [if_pos empty]
  | cons c cs =>
      have nonempty : stem ≠ [] := by
        intro empty
        rw [empty] at before
        cases before
      rw [if_neg nonempty, List.reverse_reverse]

theorem extension?_of_dotless {path : String} {name : List Char}
    (named : fileName? path = some name) (dotless : '.' ∉ name) : extension? path = none := by
  have gone : name.reverse.dropWhile (· ≠ '.') = [] :=
    List.dropWhile_eq_nil_iff.mpr (ne_dot_of_mem_reverse dotless)
  rw [extension?, named]
  dsimp only
  rw [gone]

theorem exists_last_dot {name : List Char} (h : '.' ∈ name) :
    ∃ stem ext, name = stem ++ '.' :: ext ∧ '.' ∉ ext := by
  obtain ⟨front, back, turned, first⟩ := List.eq_append_cons_of_mem (List.mem_reverse.mpr h)
  refine ⟨back.reverse, front.reverse, ?_, ?_⟩
  · rw [← List.reverse_reverse name, turned]
    simp
  · rwa [List.mem_reverse]

theorem extension?_eq_some_iff {path : String} {ext : List Char} :
    extension? path = some ext ↔
      ∃ stem, fileName? path = some (stem ++ '.' :: ext) ∧ stem ≠ [] ∧ '.' ∉ ext := by
  constructor
  · intro h
    cases named : fileName? path with
    | none =>
        rw [extension?, named] at h
        cases h
    | some name =>
        by_cases dot : '.' ∈ name
        · obtain ⟨stem, ext', rfl, dotless⟩ := exists_last_dot dot
          rw [extension?_of_dot named dotless] at h
          by_cases empty : stem = []
          · rw [if_pos empty] at h
            cases h
          · rw [if_neg empty, Option.some.injEq] at h
            subst h
            exact ⟨stem, rfl, empty, dotless⟩
        · rw [extension?_of_dotless named dot] at h
          cases h
  · rintro ⟨stem, named, nonempty, dotless⟩
    rw [extension?_of_dot named dotless, if_neg nonempty]

/-- The words that mark a file as YAML, in any case. -/
def IsYamlExtension (ext : List Char) : Prop :=
  SameButCase ext "yaml".toList ∨ SameButCase ext "yml".toList

theorem isYaml_iff_extension {path : String} :
    isYaml path = true ↔ ∃ ext, extension? path = some ext ∧ IsYamlExtension ext := by
  have yaml : lowerAscii "yaml".toList = "yaml".toList := by decide
  have yml : lowerAscii "yml".toList = "yml".toList := by decide
  unfold isYaml IsYamlExtension
  cases extension? path with
  | none => simp
  | some ext =>
      simp only [← lowerAscii_eq_iff, yaml, yml]
      simp [lowerAscii]

def NamesYaml (component : List Char) : Prop :=
  component ≠ ['.', '.'] ∧ ∃ stem ext, component = stem ++ '.' :: ext ∧ stem ≠ [] ∧ '.' ∉ ext ∧
    IsYamlExtension ext

theorem one_lt_length_dotted {stem : List Char} (ext : List Char) (nonempty : stem ≠ []) :
    1 < (stem ++ '.' :: ext).length := by
  have pos : 0 < stem.length := List.length_pos_iff.mpr nonempty
  rw [List.length_append, List.length_cons]
  omega

/-- Only the last component is asked whether a file is YAML. -/
theorem isYaml_iff {path : String} :
    isYaml path = true ↔ ∃ last, (components path).getLast? = some last ∧ NamesYaml last := by
  rw [isYaml_iff_extension]
  constructor
  · rintro ⟨ext, found, yaml⟩
    obtain ⟨stem, named, nonempty, dotless⟩ := extension?_eq_some_iff.mp found
    have long := one_lt_length_dotted ext nonempty
    obtain ⟨last, notUp⟩ := (fileName?_eq_some_iff_last long).mp named
    exact ⟨_, last, notUp, stem, ext, rfl, nonempty, dotless, yaml⟩
  · rintro ⟨_, last, notUp, stem, ext, rfl, nonempty, dotless, yaml⟩
    have long := one_lt_length_dotted ext nonempty
    have named := (fileName?_eq_some_iff_last long).mpr ⟨last, notUp⟩
    exact ⟨ext, extension?_eq_some_iff.mpr ⟨stem, named, nonempty, dotless⟩, yaml⟩

/-! ## Paths behind a working directory -/

theorem resolve_of_absolute (cwd : String) {path : String} (rooted : isAbsolute path = true) :
    resolve cwd path = path := if_pos rooted

theorem isAbsolute_resolve {cwd : String} (rooted : isAbsolute cwd = true) (path : String) :
    isAbsolute (resolve cwd path) = true := by
  have first : cwd.toList.head? = some '/' := by simpa [isAbsolute] using rooted
  have begins : ∀ rest : String, isAbsolute (cwd ++ rest) = true := by
    intro rest
    simp [isAbsolute, first]
  rw [resolve, join]
  by_cases absolute : isAbsolute path = true
  · rwa [if_pos absolute]
  · rw [if_neg absolute]
    split
    · exact begins path
    · rw [String.append_assoc]
      exact begins _

theorem countedParts_resolve (cwd : String) {path : String} (relative : isAbsolute path = false) :
    countedParts (resolve cwd path) = countedParts cwd ++ countedParts path :=
  filter_splitOn_join cwd relative rfl

theorem lead_of_relative {path : String} (relative : isAbsolute path = false) :
    lead path.toList = [] ∨ lead path.toList = ['.'] := by
  unfold isAbsolute at relative
  unfold lead
  split <;> simp_all

theorem countedParts_of_component {path : String} (relative : isAbsolute path = false)
    (counts : ∃ component ∈ components path, component ≠ ['.']) : countedParts path ≠ [] := by
  obtain ⟨component, member, other⟩ := counts
  rw [components_eq, List.mem_append] at member
  rcases member with first | counted
  · have nonempty : component = lead path.toList ∧ component ≠ [] := by simpa using first
    rcases lead_of_relative relative with none | dot <;> simp_all
  · exact List.ne_nil_of_mem counted

theorem getLast?_components_resolve (cwd : String) {path : String}
    (counts : ∃ component ∈ components path, component ≠ ['.']) :
    (components (resolve cwd path)).getLast? = (components path).getLast? := by
  by_cases absolute : isAbsolute path = true
  · rw [resolve_of_absolute cwd absolute]
  · have relative : isAbsolute path = false := by simpa using absolute
    have counted := countedParts_of_component relative counts
    have together := countedParts_resolve cwd relative
    have counted' : countedParts (resolve cwd path) ≠ [] := by simp [together, counted]
    rw [getLast?_components_of_counted counted, getLast?_components_of_counted counted', together,
      List.getLast?_append_of_ne_nil _ counted]

/-- A relative path keeps its own last component, so it must have one that is not the dot in front. -/
theorem isYaml_resolve (cwd : String) {path : String}
    (counts : ∃ component ∈ components path, component ≠ ['.']) :
    isYaml (resolve cwd path) = isYaml path := by
  rw [Bool.eq_iff_iff, isYaml_iff, isYaml_iff, getLast?_components_resolve cwd counts]

example : isYaml (resolve "/w.yaml" ".") = true ∧ isYaml "." = false := by decide

end Path

namespace Tree

/-- A text that was read is parsed alike under paths that agree in being YAML or not. -/
theorem load_eq_of_isYaml_eq {t : Tree} {cwd : Location} {path other : String} {content : Bytes}
    (here : t.read cwd path = .ok content) (there : t.read cwd other = .ok content)
    (readable : content.toString?.isSome = true) (same : Path.isYaml other = Path.isYaml path) :
    t.loadSnapshot cwd other = t.loadSnapshot cwd path ∧
      t.loadConfig cwd other = t.loadConfig cwd path := by
  have isText : content.toString?.isNone = false := by simpa using readable
  constructor
  · simp only [loadSnapshot, here, there, isText, same, Bool.false_eq_true, if_false]
  · simp only [loadConfig, here, there, same]

end Tree

namespace Path

/-- A path behind an absolute working directory is absolute and stays as it is from then on. It is read
as YAML if and only if the path itself is, and that is told by the last component; slashes and dots
behind it do not count. -/
theorem yaml_choice_survives_resolving {cwd : String} (rooted : isAbsolute cwd = true) (path : String) :
    isAbsolute (resolve cwd path) = true ∧
      resolve cwd (resolve cwd path) = resolve cwd path ∧
      ((∃ component ∈ components path, component ≠ ['.']) →
        isYaml (resolve cwd path) = isYaml path ∧
          ∀ (t : Tree) (loc : Location) (content : Bytes), t.read loc path = .ok content →
            t.read loc (resolve cwd path) = .ok content → content.toString?.isSome = true →
            t.loadSnapshot loc (resolve cwd path) = t.loadSnapshot loc path ∧
              t.loadConfig loc (resolve cwd path) = t.loadConfig loc path) ∧
      (isYaml path = true ↔
        ∃ last, (components path).getLast? = some last ∧ NamesYaml last) ∧
      (path ≠ "" → components (path ++ "/") = components path ∧
        components (path ++ "/.") = components path) := by
  have absolute := isAbsolute_resolve rooted path
  refine ⟨absolute, resolve_of_absolute cwd absolute, ?_, isYaml_iff, ?_⟩
  · intro counts
    have same := isYaml_resolve cwd counts
    refine ⟨same, ?_⟩
    intro t loc content here there readable
    exact Tree.load_eq_of_isYaml_eq here there readable same
  · intro nonempty
    have slash : path ++ "/" = path ++ "/" ++ "" := by simp
    have dot : path ++ "/." = path ++ "/" ++ "." := by rw [String.append_assoc]; rfl
    rw [slash, dot]
    exact ⟨components_append_idle nonempty (by decide), components_append_idle nonempty (by decide)⟩

/-- A path that goes down and up again to a file with two dots in its name. -/
theorem yaml_choice_survives_for_dotted_name :
    let t : Tree := { entries := [(["w"], .directory), (["w", "old"], .directory),
      (["w", "a.b.YmL"], .file (Bytes.ofString "functions: [f]"))] }
    isAbsolute "/w" = true ∧
      components "./old/../a.b.YmL" =
        [".".toList, "old".toList, "..".toList, "a.b.YmL".toList] ∧
      resolve "/w" "./old/../a.b.YmL" = "/w/./old/../a.b.YmL" ∧
      isYaml "./old/../a.b.YmL" = true ∧ isYaml "/w/./old/../a.b.YmL" = true ∧
      t.read ["w"] "./old/../a.b.YmL" = .ok (Bytes.ofString "functions: [f]") ∧
      t.loadSnapshot ["w"] "/w/./old/../a.b.YmL" = t.loadSnapshot ["w"] "./old/../a.b.YmL" := by
  intro t
  have rooted : isAbsolute "/w" = true := by decide
  have parts : components "./old/../a.b.YmL" =
      [".".toList, "old".toList, "..".toList, "a.b.YmL".toList] := by decide
  have counts : ∃ component ∈ components "./old/../a.b.YmL", component ≠ ['.'] := by
    rw [parts]
    exact ⟨"old".toList, by decide, by decide⟩
  have resolved : resolve "/w" "./old/../a.b.YmL" = "/w/./old/../a.b.YmL" := by decide
  have here : t.read ["w"] "./old/../a.b.YmL" = .ok (Bytes.ofString "functions: [f]") := rfl
  have there : t.read ["w"] "/w/./old/../a.b.YmL" = .ok (Bytes.ofString "functions: [f]") := rfl
  have readable : (Bytes.ofString "functions: [f]").toString?.isSome = true := by
    rw [Bytes.toString?_ofString]
    rfl
  obtain ⟨_, _, keeps, told, _⟩ := yaml_choice_survives_resolving rooted "./old/../a.b.YmL"
  rw [resolved] at keeps
  obtain ⟨same, loads⟩ := keeps counts
  have yaml : isYaml "./old/../a.b.YmL" = true := by
    rw [told, parts]
    exact ⟨"a.b.YmL".toList, rfl, by decide, "a.b".toList, "YmL".toList, by decide, by decide,
      by decide, .inr (by decide)⟩
  have loaded := (loads t ["w"] _ here there readable).1
  exact ⟨rooted, parts, resolved, yaml, same.trans yaml, here, loaded⟩

end Path

end SymbolExport
