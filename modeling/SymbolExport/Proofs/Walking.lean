import SymbolExport.Files.Tree

/-! # Where paths lead

A path is followed through directories only, and each part of it is looked up under its own name. So
what a path leads to does not depend on entries whose names it does not mention, and a path that could
be followed still can when no directory has gone.
-/

namespace SymbolExport

namespace Path

/-- A text that can be the name of an entry in a directory. -/
structure IsName (name : String) : Prop where
  nonempty : name ≠ ""
  noSlash : '/' ∉ name.toList
  notHere : name ≠ "."
  notAbove : name ≠ ".."

/-- A relative path adds its parts behind those of the path it is joined to, but for empty ones. -/
theorem filter_splitOn_join (base : String) {path : String} (relative : isAbsolute path = false)
    {keep : List Char → Bool} (skips : keep [] = false) :
    ((join base path).toList.splitOn '/').filter keep =
      (base.toList.splitOn '/').filter keep ++ (path.toList.splitOn '/').filter keep := by
  have none : (List.splitOn '/' []).filter keep = [] := by simp [skips]
  simp only [join, relative, Bool.false_eq_true, if_false]
  by_cases short : base.toList.getLast? = some '/' ∨ base = ""
  · rw [if_pos (by simpa using short), String.toList_append]
    rcases short with slash | empty
    · obtain ⟨front, last⟩ := List.getLast?_eq_some_iff.mp slash
      have joined : front ++ ['/'] ++ path.toList = front ++ '/' :: path.toList := by simp
      rw [last, joined, List.splitOn_append_cons_self, List.splitOn_append_cons_self,
        List.filter_append, List.filter_append, none, List.append_nil]
    · rw [empty, String.toList_empty, none]
      rfl
  · have divided : (base ++ "/" ++ path).toList = base.toList ++ '/' :: path.toList := by simp
    rw [if_neg (by simpa using short), divided, List.splitOn_append_cons_self,
      List.filter_append]

end Path

namespace Tree

open SymbolExport.Path

/-! ## The parts of a path -/

theorem parts_join (base : String) {name : String} (h : IsName name) :
    parts (join base name) = parts base ++ [name] := by
  have mine : name.toList.splitOn '/' = [name.toList] := List.splitOn_eq_singleton h.noSlash
  have counts : name.toList ≠ [] := by simpa using h.nonempty
  have relative : isAbsolute name = false := by
    cases first : name.toList with
    | nil => exact absurd first counts
    | cons c cs =>
        have other : c ≠ '/' := by
          rintro rfl
          exact h.noSlash (by simp [first])
        simp [isAbsolute, first, other]
  rw [parts, filter_splitOn_join base relative (by simp), mine]
  simp [parts, counts]

theorem lastPart_join (base : String) {name : String} (h : IsName name) :
    ∃ slash, lastPart (join base name) = .name name slash := by
  unfold lastPart
  rw [parts_join base h, List.getLast?_append, List.getLast?_singleton]
  have notHere := h.notHere
  have notAbove := h.notAbove
  simp only [Option.some_or]
  exact ⟨_, rfl⟩

theorem mem_parts_of_lastPart {path name : String} {slash : Bool}
    (h : lastPart path = .name name slash) : name ∈ parts path := by
  unfold lastPart at h
  split at h
  · simp at h
  · simp at h
  · simp at h
  · rename_i last _ _ found
    simp only [LastPart.name.injEq] at h
    rw [← h.1]
    exact List.mem_of_getLast? found

/-- Following a path is entering one directory after the other, for a text that is a path at all. -/
theorem walk_ok_iff {t : Tree} {cwd dir : Location} {path : String} {last : LastPart} :
    t.walk cwd path = .ok (dir, last) ↔
      path ≠ "" ∧ path.toList.contains '\x00' = false ∧ path.utf8ByteSize < pathLimit ∧
        (parts path).dropLast.foldlM (fun dir part => t.enter dir part)
          (if isAbsolute path then [] else cwd) = .ok dir ∧ last = lastPart path := by
  unfold walk
  dsimp only
  split
  · rename_i empty
    simp [empty]
  split
  · rename_i zero
    rw [zero]
    simp
  split
  · rename_i long
    simp only [reduceCtorEq, false_iff]
    omega
  rename_i nonempty noZero short
  rw [Bool.not_eq_true] at noZero
  rw [Nat.not_le] at short
  split
  · rename_i entered
    simp [entered]
  · rename_i place entered
    rw [entered]
    simp only [Except.ok.injEq, Prod.mk.injEq, ne_eq, nonempty, not_false_eq_true, noZero, short,
      true_and]
    exact and_congr_right fun _ => eq_comm

theorem walk_last {t : Tree} {cwd dir : Location} {path : String} {last : LastPart}
    (h : t.walk cwd path = .ok (dir, last)) : last = lastPart path :=
  (walk_ok_iff.mp h).2.2.2.2

/-! ## Entries that a path does not mention -/

/-- Two trees differ at most in entries of one name. -/
def AgreesOff (name : String) (t u : Tree) : Prop :=
  ∀ dir other, other ≠ name → t.get? (dir ++ [other]) = u.get? (dir ++ [other])

theorem child_congr {name : String} {t u : Tree} (agrees : AgreesOff name t u) (dir : Location)
    {part : String} (h : part ≠ name) : t.child dir part = u.child dir part := by
  simp [child, agrees dir part h]

theorem enter_congr {name : String} {t u : Tree} (agrees : AgreesOff name t u) (dir : Location)
    {part : String} (h : part ≠ name) : t.enter dir part = u.enter dir part := by
  simp [enter, child_congr agrees dir h]

theorem entering_congr {name : String} {t u : Tree} (agrees : AgreesOff name t u)
    (parts : List String) (h : name ∉ parts) (dir : Location) :
    parts.foldlM (fun dir part => t.enter dir part) dir =
      parts.foldlM (fun dir part => u.enter dir part) dir := by
  induction parts generalizing dir with
  | nil => rfl
  | cons part parts ih =>
      simp only [List.mem_cons, not_or] at h
      simp only [List.foldlM_cons, enter_congr agrees dir (Ne.symm h.1)]
      congr 1
      funext next
      exact ih h.2 next

theorem walk_congr {name : String} {t u : Tree} (agrees : AgreesOff name t u) (cwd : Location)
    {path : String} (h : name ∉ parts path) : t.walk cwd path = u.walk cwd path := by
  have inner : name ∉ (parts path).dropLast := fun member => h (List.dropLast_subset _ member)
  simp only [walk, entering_congr agrees _ inner]

/-- What a path leads to does not depend on entries of a name that it does not mention. -/
theorem find_congr {name : String} {t u : Tree} (agrees : AgreesOff name t u) (cwd : Location)
    {path : String} (h : name ∉ parts path) : t.find cwd path = u.find cwd path := by
  unfold find
  rw [walk_congr agrees cwd h]
  cases walked : u.walk cwd path with
  | error fault => rfl
  | ok place =>
      obtain ⟨dir, last⟩ := place
      cases last with
      | dots up => rfl
      | root => rfl
      | name part slash =>
          have other : part ≠ name := by
            rintro rfl
            exact h (mem_parts_of_lastPart (walk_last walked).symm)
          simp only [child_congr agrees dir other]

/-! ## Directories that stay -/

/-- All directories of a tree are directories of another one. -/
def KeepsDirectories (t u : Tree) : Prop :=
  ∀ loc, t.get? loc = some .directory → u.get? loc = some .directory

theorem enter_mono {t u : Tree} (keeps : KeepsDirectories t u) {dir next : Location}
    {part : String} (h : t.enter dir part = .ok next) : u.enter dir part = .ok next := by
  by_cases here : part = "."
  · simpa [enter, here] using h
  by_cases above : part = ".."
  · simpa [enter, here, above] using h
  by_cases long : longestName < part.utf8ByteSize
  · simp [enter, child, here, above, long] at h
  rcases entry : t.get? (dir ++ [part]) with _ | _ | _
  · simp [enter, child, here, above, long, entry] at h
  · simp [enter, child, here, above, long, entry] at h
  · simpa [enter, child, here, above, long, entry, keeps _ entry] using h

theorem entering_mono {t u : Tree} (keeps : KeepsDirectories t u) {parts : List String}
    {dir last : Location} (h : parts.foldlM (fun dir part => t.enter dir part) dir = .ok last) :
    parts.foldlM (fun dir part => u.enter dir part) dir = .ok last := by
  induction parts generalizing dir with
  | nil => exact h
  | cons part parts ih =>
      rw [List.foldlM_cons] at h ⊢
      cases first : t.enter dir part with
      | error fault => simp [first, bind, Except.bind] at h
      | ok next =>
          rw [first] at h
          rw [enter_mono keeps first]
          exact ih h

/-- A path that could be followed still can when no directory has gone. -/
theorem walk_mono {t u : Tree} (keeps : KeepsDirectories t u) {cwd dir : Location}
    {path : String} {last : LastPart} (h : t.walk cwd path = .ok (dir, last)) :
    u.walk cwd path = .ok (dir, last) := by
  obtain ⟨nonempty, noZero, short, entered, ends⟩ := walk_ok_iff.mp h
  exact walk_ok_iff.mpr ⟨nonempty, noZero, short, entering_mono keeps entered, ends⟩

/-! ## Places -/

theorem child_ok {t : Tree} {dir loc : Location} {name : String} {entry : Option Entry}
    (h : t.child dir name = .ok (loc, entry)) :
    ¬longestName < name.utf8ByteSize ∧ loc = dir ++ [name] ∧ entry = t.get? loc := by
  unfold child at h
  split at h
  · simp at h
  · rename_i short
    simp only [Except.ok.injEq, Prod.mk.injEq] at h
    obtain ⟨rfl, rfl⟩ := h
    exact ⟨short, rfl, rfl⟩

/-- A place where a file can be created is named by the last part of the path. -/
theorem creationTarget_ok {t : Tree} {cwd loc : Location} {path : String}
    (h : t.creationTarget cwd path = .ok loc) :
    ∃ dir name slash, lastPart path = .name name slash ∧ loc = dir ++ [name] := by
  unfold creationTarget at h
  split at h
  · simp at h
  · rename_i dir name slash walked
    refine ⟨dir, name, slash, (walk_last walked).symm, ?_⟩
    split at h
    · simp at h
    · split at h
      · simp at h
      · simp at h
      · rename_i found
        simp only [Except.ok.injEq] at h
        rw [← h]
        exact (child_ok found).2.1
  · simp at h
  · simp at h

/-- A place to which a file can be renamed is named by a part of the path and is no directory. The
path leads there as soon as a file is there. -/
theorem renameTarget_ok {t : Tree} {cwd loc : Location} {path : String}
    (h : t.renameTarget cwd path = .ok loc) :
    t.get? loc ≠ some .directory ∧ (∃ dir name, name ∈ parts path ∧ loc = dir ++ [name]) ∧
      ∀ u content, KeepsDirectories t u → u.get? loc = some (.file content) →
        u.find cwd path = .ok (.file content) := by
  unfold renameTarget at h
  split at h
  · simp at h
  · simp at h
  · rename_i dir name slash walked
    split at h
    · simp at h
    · rename_i found
      obtain ⟨short, rfl, rfl⟩ := child_ok found
      split at h
      · simp at h
      · rename_i noSlash
        split at h
        · simp at h
        · rename_i noDirectory
          simp only [Except.ok.injEq] at h
          subst h
          refine ⟨noDirectory, ⟨dir, name, mem_parts_of_lastPart (walk_last walked).symm, rfl⟩, ?_⟩
          intro u content keeps file
          simp [find, walk_mono keeps walked, child, short, file, noSlash]
  · simp at h
  · simp at h

end Tree

end SymbolExport
