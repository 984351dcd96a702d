import SymbolExport.Command.Load
import SymbolExport.Proofs.SnapshotTally

/-! # Looking classes up by name

A snapshot lists its classes by place and finds them by name. The two agree where no name is
declared twice, which is what validation checks and every way of loading a snapshot enforces. Where
names repeat, an enumeration goes on all the same: each place is shaped from the first class of its
name.
-/

namespace SymbolExport

/-! ## The first repetition -/

/-- The name at a place of a list stands at an earlier place too. -/
def RepeatsAt (names : List String) (i : Nat) : Prop :=
  ∃ name ∈ names[i]?, ∃ j < i, names[j]? = some name

theorem not_repeatsAt_of_nodup {names : List String} (distinct : names.Nodup) (i : Nat) :
    ¬RepeatsAt names i := by
  rintro ⟨name, here, j, earlier, there⟩
  have inside : j < names.length := (List.getElem?_eq_some_iff.mp there).1
  have same : j = i := (List.getElem?_inj inside distinct).mp (there.trans here.symm)
  omega

/-- Whether a name repeats an earlier one can be told from the list up to it. -/
theorem RepeatsAt.of_append {before after : List String} {i : Nat} (inside : i < before.length)
    (h : RepeatsAt (before ++ after) i) : RepeatsAt before i := by
  obtain ⟨name, here, j, earlier, there⟩ := h
  rw [List.getElem?_append_left inside] at here
  rw [List.getElem?_append_left (by omega)] at there
  exact ⟨name, here, j, earlier, there⟩

/-- The name that is found has occurred before, and no name in front of it has. -/
theorem firstRepeated_split {seen names : List String} {name : String}
    (h : firstRepeated seen names = some name) :
    ∃ before after, names = before ++ name :: after ∧ (name ∈ seen ∨ name ∈ before) ∧
      before.Nodup ∧ ∀ other ∈ before, other ∉ seen := by
  induction names generalizing seen with
  | nil => simp [firstRepeated] at h
  | cons head names ih =>
      by_cases repeated : head ∈ seen
      · rw [firstRepeated, if_pos repeated, Option.some.injEq] at h
        subst h
        exact ⟨[], names, rfl, .inl repeated, .nil, List.forall_mem_nil _⟩
      · rw [firstRepeated, if_neg repeated] at h
        obtain ⟨before, after, rfl, found, distinct, fresh⟩ := ih h
        have new : head ∉ before := fun again => fresh head again List.mem_cons_self
        refine ⟨head :: before, after, rfl, ?_, List.nodup_cons.mpr ⟨new, distinct⟩, ?_⟩
        · rw [List.mem_cons] at found ⊢
          tauto
        · rw [List.forall_mem_cons]
          exact ⟨repeated, fun other member earlier =>
            fresh other member (List.mem_cons_of_mem head earlier)⟩

theorem exists_least_repeatsAt {names : List String} {name : String}
    (h : firstRepeated [] names = some name) :
    ∃ i, names[i]? = some name ∧ RepeatsAt names i ∧ ∀ j < i, ¬RepeatsAt names j := by
  obtain ⟨before, after, rfl, found, distinct, -⟩ := firstRepeated_split h
  have earlier : name ∈ before := found.resolve_left List.not_mem_nil
  have here : (before ++ name :: after)[before.length]? = some name := by simp
  refine ⟨before.length, here, ⟨name, here, ?_⟩, ?_⟩
  · obtain ⟨j, inside, there⟩ := List.mem_iff_getElem.mp earlier
    refine ⟨j, inside, ?_⟩
    rw [List.getElem?_append_left inside, List.getElem?_eq_getElem inside, there]
  · intro j inside again
    exact not_repeatsAt_of_nodup distinct j (again.of_append inside)

namespace RuntimeSnapshot

theorem validate_eq_ok_iff (s : RuntimeSnapshot) :
    s.validate = .ok () ↔ (s.classes.map (·.name)).Nodup :=
  ⟨nodup_of_validate, validate_of_nodup⟩

/-- What validation blames is the first class whose name a class in front of it has. -/
theorem validate_of_repeated {s : RuntimeSnapshot} (repeated : ¬(s.classes.map (·.name)).Nodup) :
    ∃ i d, s.classes[i]? = some d ∧ RepeatsAt (s.classes.map (·.name)) i ∧
      (∀ j < i, ¬RepeatsAt (s.classes.map (·.name)) j) ∧
      s.validate = .error (.snapshot ("class '" ++ d.name ++ "' is declared more than once")) := by
  cases found : firstRepeated [] (s.classes.map (·.name)) with
  | none => exact absurd (nodup_of_firstRepeated found).1 repeated
  | some name =>
      obtain ⟨i, here, repeats, least⟩ := exists_least_repeatsAt found
      rw [List.getElem?_map, Option.map_eq_some_iff] at here
      obtain ⟨d, place, rfl⟩ := here
      exact ⟨i, d, place, repeats, least, by simp only [validate, found]⟩

/-- Nothing is decoded that is not validated. -/
theorem valid_of_ofJsonBytes {input : Bytes} {s : RuntimeSnapshot}
    (decoded : ofJsonBytes input = .ok s) :
    SymbolExport.ofJsonBytes input = .ok s ∧ s.validate = .ok () := by
  unfold ofJsonBytes at decoded
  split at decoded
  · cases decoded
  · next read =>
      split at decoded
      · cases decoded
      · next valid =>
          cases decoded
          exact ⟨read, valid⟩

end RuntimeSnapshot

namespace Tree

theorem validate_of_snapshotOfYaml {content : Bytes} {s : RuntimeSnapshot}
    (decoded : snapshotOfYaml content = .ok s) : s.validate = .ok () := by
  unfold snapshotOfYaml at decoded
  split at decoded
  · cases decoded
  · split at decoded
    · cases decoded
    · next valid =>
        cases decoded
        exact valid

/-- Either format is validated on a path of its own. -/
theorem validate_of_loadSnapshot {t : Tree} {cwd : Location} {path : String} {s : RuntimeSnapshot}
    (loaded : t.loadSnapshot cwd path = .ok s) : s.validate = .ok () := by
  unfold loadSnapshot at loaded
  split at loaded
  · cases loaded
  · split at loaded
    · cases loaded
    · split at loaded
      · exact validate_of_snapshotOfYaml loaded
      · split at loaded
        · next decoded =>
            cases loaded
            exact (RuntimeSnapshot.valid_of_ofJsonBytes decoded).2
        · cases loaded

end Tree

/-! ## The first class of a name -/

/-- The first of the classes that bears a name. -/
def IsFirstOfName (classes : List ClassDescriptor) (name : String) (d : ClassDescriptor) : Prop :=
  ∃ before after, classes = before ++ d :: after ∧ d.name = name ∧
    ∀ other ∈ before, other.name ≠ name

namespace RuntimeSnapshot

theorem isFirstOfName_of_findClass? {s : RuntimeSnapshot} {name : String} {d : ClassDescriptor}
    (found : s.findClass? name = some d) : IsFirstOfName s.classes name d := by
  obtain ⟨named, before, after, split, others⟩ := List.find?_eq_some_iff_append.mp found
  refine ⟨before, after, split, by simpa using named, fun other member => ?_⟩
  simpa using others other member

theorem exists_findClass? {s : RuntimeSnapshot} {d : ClassDescriptor} (h : d ∈ s.classes) :
    ∃ first, s.findClass? d.name = some first := by
  rw [← Option.isSome_iff_exists, findClass?, List.find?_isSome]
  exact ⟨d, h, by simp⟩

/-- The records of a snapshot whose classes are described otherwise, each under its own name. -/
def recordsWith (s : RuntimeSnapshot) (classes : List ClassDescriptor) : List Record :=
  s.functions.map (fun name => .function { name }) ++
    (classes.flatMap fun d => d.records d.name) ++
    s.vars.map (·.record) ++ s.constants.map (·.record)

/-- Each class of a snapshot is shaped from the first one of its name. -/
theorem records_eq_recordsWith (s : RuntimeSnapshot) :
    ∃ firsts, List.Forall₂ (fun d first => IsFirstOfName s.classes d.name first) s.classes firsts ∧
      s.records = s.recordsWith firsts := by
  let first (d : ClassDescriptor) : ClassDescriptor := (s.findClass? d.name).getD d
  have isFirst : ∀ d ∈ s.classes, IsFirstOfName s.classes d.name (first d) := by
    intro d member
    obtain ⟨found, there⟩ := exists_findClass? member
    have same : first d = found := by simp [first, there]
    rw [same]
    exact isFirstOfName_of_findClass? there
  refine ⟨s.classes.map first, ?_, ?_⟩
  · rw [List.forall₂_map_right_iff, List.forall₂_same]
    exact isFirst
  · have blocks : (s.classes.flatMap fun d => (first d).records d.name) =
        (s.classes.map first).flatMap fun d => d.records d.name := by
      rw [List.flatMap_map]
      apply List.flatMap_congr
      intro d member
      obtain ⟨_, _, _, named, _⟩ := isFirst d member
      rw [named]
    rw [recordsWith, ← blocks]
    rfl

theorem enumerate_reflector (s : RuntimeSnapshot) :
    s.reflector.enumerate.1 = s.records.map .ok := by
  rw [Reflector.enumerate_items]
  exact Reflector.collect_eq_ok_iff.mp s.collect_reflector

theorem reflect_getElem {s : RuntimeSnapshot} (distinct : (s.classes.map (·.name)).Nodup)
    {i : Nat} {d : ClassDescriptor} (place : s.classes[i]? = some d) :
    s.reflector.reflect d.name = .ok d := by
  have member : d ∈ s.classes := List.mem_of_getElem? place
  rw [reflect_listed member, findClass?_of_mem distinct member, Option.getD_some]

/-- Validation accepts exactly the snapshots whose class names are distinct, and otherwise blames
the first class that repeats a name. Whatever is loaded is valid. A valid snapshot gives each of its
classes back by name and is flattened as it stands; any other one is enumerated without an error
too, each class shaped from the first of its name. -/
theorem names_find_their_classes (s : RuntimeSnapshot) :
    (s.validate = .ok () ↔ (s.classes.map (·.name)).Nodup) ∧
    (s.validate ≠ .ok () → ∃ i d, s.classes[i]? = some d ∧
      RepeatsAt (s.classes.map (·.name)) i ∧ (∀ j < i, ¬RepeatsAt (s.classes.map (·.name)) j) ∧
      s.validate = .error (.snapshot ("class '" ++ d.name ++ "' is declared more than once"))) ∧
    (∀ input, ofJsonBytes input = .ok s → s.validate = .ok ()) ∧
    (∀ (t : Tree) (cwd : Location) (path : String), t.loadSnapshot cwd path = .ok s →
      s.validate = .ok ()) ∧
    (s.validate = .ok () →
      (∀ (i : Nat) (d : ClassDescriptor), s.classes[i]? = some d →
        s.reflector.reflect d.name = .ok d) ∧
      s.reflector.collect = .ok (s.recordsWith s.classes)) ∧
    ∃ firsts, List.Forall₂ (fun d first => IsFirstOfName s.classes d.name first) s.classes firsts ∧
      s.reflector.enumerate.1 = (s.recordsWith firsts).map .ok ∧
      s.reflector.collect = .ok (s.recordsWith firsts) := by
  refine ⟨s.validate_eq_ok_iff, ?_, fun _ decoded => (valid_of_ofJsonBytes decoded).2,
    fun _ _ _ => Tree.validate_of_loadSnapshot, ?_, ?_⟩
  · intro invalid
    exact validate_of_repeated fun distinct => invalid (validate_of_nodup distinct)
  · intro valid
    have distinct := nodup_of_validate valid
    refine ⟨fun _ _ place => reflect_getElem distinct place, ?_⟩
    rw [collect_reflector, records_of_nodup distinct]
    rfl
  · obtain ⟨firsts, isFirst, same⟩ := s.records_eq_recordsWith
    refine ⟨firsts, isFirst, ?_, ?_⟩
    · rw [enumerate_reflector, same]
    · rw [collect_reflector, same]

end RuntimeSnapshot

end SymbolExport
