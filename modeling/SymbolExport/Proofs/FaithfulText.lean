import SymbolExport.Proofs.AlikeRecords
import SymbolExport.Proofs.CsvRoundTrip
import SymbolExport.Proofs.TwoFormats

/-! # What a full text tells

The text of an export in the full format tells the records apart that it was made from, up to what is
left out of variables and constants on purpose. Three layers have to be undone: rows are found again in
the text by reading it, a row shows the kind of its record and all of its fields, and a field that holds
a list of names can be taken apart if no name is empty or holds a comma.
-/

namespace SymbolExport

/-! ## Lists of names -/

/-- A name that can be told apart in a list of names. -/
def Separable (name : String) : Prop :=
  name ≠ "" ∧ ',' ∉ name.toList

theorem splitOn_joined {names : List String} (separable : ∀ name ∈ names, Separable name)
    (nonempty : names ≠ []) :
    (",".intercalate names).toList.splitOn ',' = names.map String.toList := by
  rw [String.toList_intercalate]
  apply List.splitOn_intercalate
  · intro chars member
    obtain ⟨name, listed, rfl⟩ := List.mem_map.mp member
    exact (separable name listed).2
  · simpa using nonempty

/-- Only no names at all are joined to nothing. -/
theorem eq_nil_of_joined_empty {names : List String}
    (separable : ∀ name ∈ names, Separable name) (h : ",".intercalate names = "") : names = [] := by
  by_contra nonempty
  have parts := splitOn_joined separable nonempty
  rw [h] at parts
  obtain ⟨name, rfl, empty⟩ := List.map_eq_singleton_iff.mp parts.symm
  have named := (separable name (by simp)).1
  exact named (String.toList_eq_nil_iff.mp empty)

theorem joined_injective {names others : List String}
    (separable : ∀ name ∈ names, Separable name) (separable' : ∀ name ∈ others, Separable name)
    (same : ",".intercalate names = ",".intercalate others) : names = others := by
  by_cases none : names = []
  · subst none
    exact (eq_nil_of_joined_empty separable' same.symm).symm
  by_cases none' : others = []
  · subst none'
    exact eq_nil_of_joined_empty separable same
  have parts := splitOn_joined separable none
  rw [same, splitOn_joined separable' none'] at parts
  exact (List.map_inj_right (fun _ _ => String.toList_inj.mp)).mp parts.symm

/-! ## Fields -/

@[simp] theorem RuntimeValue.flagText_inj {a b : Bool} : flagText a = flagText b ↔ a = b := by
  cases a <;> cases b <;> simp [flagText]

@[simp] theorem Visibility.text_inj {a b : Visibility} : a.text = b.text ↔ a = b := by
  cases a <;> cases b <;> simp [text]

namespace Record

def SeparableNames : Record → Prop
  | .classLike r => ∀ name ∈ r.interfaceNames, Separable name
  | .method r => ∀ name ∈ r.parameterNames, Separable name
  | _ => True

/-- The first field shows the kind, and the others all that is not left out. -/
theorem alike_of_fields_eq {a b : Record} (separable : a.SeparableNames)
    (separable' : b.SeparableNames) (same : a.fields = b.fields) : a.Alike b := by
  cases a with
  | function r =>
      cases b with
      | function s =>
          obtain ⟨name⟩ := r
          simp only [fields, List.cons.injEq] at same
          obtain ⟨_, rfl, _⟩ := same
          exact .function _
      | _ => simp [fields, tag] at same
  | classLike r =>
      cases b with
      | classLike s =>
          obtain ⟨name, kind, parent, interfaces, final, abstract, doc⟩ := r
          simp only [fields, List.cons.injEq, ClassKind.text_inj, RuntimeValue.flagText_inj] at same
          obtain ⟨_, rfl, rfl, rfl, joined, rfl, rfl, rfl, _⟩ := same
          cases joined_injective separable separable' joined
          exact .classLike s
      | _ => simp [fields, tag] at same
  | method r =>
      cases b with
      | method s =>
          obtain ⟨name, className, static, visibility, parameters, doc⟩ := r
          simp only [fields, List.cons.injEq, Visibility.text_inj, RuntimeValue.flagText_inj] at same
          obtain ⟨_, rfl, rfl, rfl, rfl, joined, rfl, _⟩ := same
          cases joined_injective separable separable' joined
          exact .method s
      | _ => simp [fields, tag] at same
  | member r =>
      cases b with
      | member s =>
          obtain ⟨name, className, static, visibility, doc⟩ := r
          simp only [fields, List.cons.injEq, Visibility.text_inj, RuntimeValue.flagText_inj] at same
          obtain ⟨_, rfl, rfl, rfl, rfl, rfl, _⟩ := same
          exact .member s
      | _ => simp [fields, tag] at same
  | var r =>
      cases b with
      | var s =>
          simp only [fields, List.cons.injEq] at same
          exact .var same.2.1
      | _ => simp [fields, tag] at same
  | const r =>
      cases b with
      | const s =>
          simp only [fields, List.cons.injEq] at same
          exact .const same.2.1 same.2.2.1
      | _ => simp [fields, tag] at same

theorem forall₂_alike_of_fields_eq {records others : List Record}
    (separable : ∀ record ∈ records, record.SeparableNames)
    (separable' : ∀ record ∈ others, record.SeparableNames)
    (same : records.map fields = others.map fields) : List.Forall₂ Alike records others := by
  induction records generalizing others with
  | nil =>
      cases others with
      | nil => exact .nil
      | cons other others => simp at same
  | cons record records ih =>
      cases others with
      | nil => simp at same
      | cons other others =>
          rw [List.forall_mem_cons] at separable separable'
          rw [List.map_cons, List.map_cons, List.cons.injEq] at same
          exact .cons (alike_of_fields_eq separable.1 separable'.1 same.1)
            (ih separable.2 separable'.2 same.2)

end Record

/-! ## Rows -/

theorem Bytes.ofString_injective {s t : String} (h : Bytes.ofString s = Bytes.ofString t) : s = t := by
  have texts := congrArg Bytes.toString? h
  simpa using texts

theorem Csv.map_legible {rows : List (List Bytes)} (h : ∀ row ∈ rows, row ≠ []) :
    rows.map legible = rows := by
  have own : ∀ row ∈ rows, legible row = row := fun row member => if_neg (h row member)
  rw [List.map_congr_left own, List.map_id']

/-- Rows with at least one field each are found again in their text. -/
theorem Csv.encodeRows_injective {rows others : List (List Bytes)} (h : ∀ row ∈ rows, row ≠ [])
    (h' : ∀ row ∈ others, row ≠ []) (same : encodeRows rows = encodeRows others) :
    rows = others := by
  have found := readRows_encodeRows true rows
  rw [same, readRows_encodeRows, Option.some.injEq, map_legible h, map_legible h'] at found
  exact found.symm

theorem fields_eq_of_text_eq {records others : List Record}
    (same : rowsText (records.map Record.fields) = rowsText (others.map Record.fields)) :
    records.map Record.fields = others.map Record.fields := by
  have filled : ∀ records : List Record,
      ∀ row ∈ (records.map Record.fields).map fun row => row.map Bytes.ofString, row ≠ [] := by
    intro records row member
    simp only [List.map_map, List.mem_map, Function.comp_apply] at member
    obtain ⟨record, _, rfl⟩ := member
    simp [Record.fields]
  have rows := Csv.encodeRows_injective (filled records) (filled others) same
  have octets : Function.Injective fun row : Row => row.map Bytes.ofString :=
    List.map_injective_iff.mpr fun _ _ => Bytes.ofString_injective
  exact List.map_injective_iff.mpr octets rows

/-! ## Records of a runtime -/

namespace Reflector

/-- All names of interfaces and parameters that a runtime reports of its declared classes can be told
apart. -/
def SeparableNames (r : Reflector) : Prop :=
  ∀ names, r.declared = .ok names → ∀ name ∈ names, ∀ d, r.reflect name = .ok d →
    (∀ interface ∈ d.interfaces, Separable interface) ∧
      ∀ m ∈ d.methods, ∀ p ∈ m.parameters, Separable p.name

theorem separableNames_of_mem_records {d : ClassDescriptor} {name : String}
    (interfaces : ∀ interface ∈ d.interfaces, Separable interface)
    (parameters : ∀ m ∈ d.methods, ∀ p ∈ m.parameters, Separable p.name) {record : Record}
    (h : record ∈ d.records name) : record.SeparableNames := by
  simp only [ClassDescriptor.records, ClassDescriptor.memberRecords, List.mem_cons,
    List.mem_append, List.mem_map] at h
  rcases h with rfl | ⟨m, member, rfl⟩ | ⟨p, _, rfl⟩
  · exact interfaces
  · intro parameter listed
    obtain ⟨p, own, rfl⟩ := List.mem_map.mp listed
    exact parameters m member p own
  · trivial

theorem ofClass_of_mem_variableItems {r : Reflector} {captured : List VariableDescriptor}
    {record : Record} (h : .ok record ∈ r.variableItems captured) : record.ofClass = false := by
  rw [variableItems, List.mem_append, List.mem_map] at h
  rcases h with ⟨d, _, same⟩ | constant
  · cases same
    rfl
  · unfold constantItems at constant
    cases answer : r.constants with
    | error e => simp [answer] at constant
    | ok constants =>
        simp only [answer, List.mem_map] at constant
        obtain ⟨d, _, same⟩ := constant
        cases same
        rfl

theorem origin_of_mem_classItems {r : Reflector} {behind : List Item} {names : List String}
    {record : Record} (h : .ok record ∈ r.classItems behind names) :
    .ok record ∈ behind ∨
      ∃ name ∈ names, ∃ d, r.reflect name = .ok d ∧ record ∈ d.records name := by
  induction names with
  | nil => exact .inl h
  | cons name names ih =>
      unfold classItems at h
      cases answer : r.reflect name with
      | error e => simp [answer] at h
      | ok d =>
          simp only [answer, List.mem_append, List.mem_map] at h
          rcases h with ⟨own, member, same⟩ | later
          · cases same
            exact .inr ⟨name, List.mem_cons_self, d, answer, member⟩
          · rcases ih later with here | ⟨other, listed, e, found, member⟩
            · exact .inl here
            · exact .inr ⟨other, List.mem_cons_of_mem _ listed, e, found, member⟩

/-- A record belongs to a declared class, or it is a function, a variable or a constant. -/
theorem origin_of_mem_items {r : Reflector} {record : Record} (h : .ok record ∈ r.items) :
    record.ofClass = false ∨ ∃ names, r.declared = .ok names ∧
      ∃ name ∈ names, ∃ d, r.reflect name = .ok d ∧ record ∈ d.records name := by
  unfold items at h
  split at h
  · simp at h
  unfold functionItems at h
  split at h
  · simp at h
  rw [List.mem_append, List.mem_map] at h
  rcases h with ⟨name, _, same⟩ | declared
  · cases same
    exact .inl rfl
  unfold declaredItems at declared
  split at declared
  · simp at declared
  rename_i names answer
  rcases origin_of_mem_classItems declared with value | origin
  · exact .inl (ofClass_of_mem_variableItems value)
  · exact .inr ⟨names, answer, origin⟩

theorem SeparableNames.collected {r : Reflector} (h : r.SeparableNames) {records : List Record}
    (all : r.collect = .ok records) : ∀ record ∈ records, record.SeparableNames := by
  intro record member
  have item : .ok record ∈ r.items := by
    rw [collect_eq_ok_iff.mp all]
    exact List.mem_map_of_mem member
  rcases origin_of_mem_items item with plain | ⟨names, answer, name, listed, d, found, own⟩
  · cases record with
    | classLike c => simp [Record.ofClass] at plain
    | method m => simp [Record.ofClass] at plain
    | _ => trivial
  · obtain ⟨interfaces, parameters⟩ := h names answer name listed d found
    exact separableNames_of_mem_records interfaces parameters own

theorem received_of_full_export {r : Reflector} {times : Times} {summary : ExportSummary}
    (h : (r.exportTo .full times {}).1 = .ok summary) :
    ∃ records, r.collect = .ok records ∧
      (r.exportTo .full times {}).2.received = rowsText (records.map Record.fields) := by
  cases collected : r.collect with
  | error e =>
      rw [exportTo_unlimited_of_failure collected] at h
      simp at h
  | ok records =>
      obtain ⟨sink, done, received⟩ := exportTo_unlimited_of_complete collected .full times
      refine ⟨records, rfl, ?_⟩
      rw [done, received, writtenRows, rowItems_full collected, rowsBefore_map_ok]
      rfl

/-- Two full exports that succeed without a limit leave the same text exactly if the records behind
them are as many, and each is like the other at its place: all is the same but the values of variables
and what the text of a constant's field does not show of its value. -/
theorem full_text_determines_records {r q : Reflector} (separable : r.SeparableNames)
    (separable' : q.SeparableNames) {times later : Times} {summary other : ExportSummary}
    (exported : (r.exportTo .full times {}).1 = .ok summary)
    (exported' : (q.exportTo .full later {}).1 = .ok other) :
    ∃ records others, r.collect = .ok records ∧ q.collect = .ok others ∧
      ((r.exportTo .full times {}).2.received = (q.exportTo .full later {}).2.received ↔
        List.Forall₂ Record.Alike records others) := by
  obtain ⟨records, collected, received⟩ := received_of_full_export exported
  obtain ⟨others, collected', received'⟩ := received_of_full_export exported'
  refine ⟨records, others, collected, collected', ?_⟩
  rw [received, received']
  constructor
  · intro same
    exact Record.forall₂_alike_of_fields_eq (separable.collected collected)
      (separable'.collected collected') (fields_eq_of_text_eq same)
  · intro alike
    rw [map_eq_of_forall₂ (fun _ _ same => Record.Alike.fields_eq same) alike]

/-- The text tells all of a class, but not the secret behind it: texts are alike for different values. -/
theorem full_text_determines_class :
    let runtime (value : RuntimeValue) : Reflector :=
      { vars := .ok [{ name := "token", value }]
        functions := .ok []
        declared := .ok ["A"]
        reflect := fun name => .ok
          { name, interfaces := ["I", "J"],
            methods := [{ name := "run", parameters := [{ name := "a" }, { name := "b" }] }] }
        constants := .ok [] }
    let times : Times := { started := "", finished := "" }
    let text (value : RuntimeValue) := ((runtime value).exportTo .full times {}).2.received
    (∀ value, (runtime value).SeparableNames) ∧
      ∃ records others, (runtime (.text "s3cret")).collect = .ok records ∧
        (runtime .null).collect = .ok others ∧
        (text (.text "s3cret") = text .null ↔ List.Forall₂ Record.Alike records others) ∧
        records ≠ others ∧ text (.text "s3cret") = text .null := by
  intro runtime times text
  have separable : ∀ value, (runtime value).SeparableNames := by
    intro value names _ name _ d found
    cases found
    simp [Separable]
  have collected : ∀ value, (runtime value).collect = .ok
      [.classLike _, .method _, .var { name := "token", value }] :=
    fun value => collect_eq_ok_iff.mpr rfl
  have exported : ∀ value, ∃ summary, ((runtime value).exportTo .full times {}).1 = .ok summary := by
    intro value
    obtain ⟨sink, done, _⟩ := exportTo_unlimited_of_complete (collected value) .full times
    exact ⟨_, congrArg Prod.fst done⟩
  obtain ⟨summary, secret⟩ := exported (.text "s3cret")
  obtain ⟨other, plain⟩ := exported .null
  obtain ⟨records, others, all, all', told⟩ :=
    full_text_determines_records (separable _) (separable _) secret plain
  cases (collected _).symm.trans all
  cases (collected _).symm.trans all'
  have same := told.mpr (.cons (.classLike _) (.cons (.method _) (.cons (.var rfl) .nil)))
  exact ⟨separable, _, _, collected _, collected _, told, by simp, same⟩

end Reflector

end SymbolExport
