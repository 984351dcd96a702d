import Mathlib.Data.List.Forall2
import SymbolExport.Proofs.RowErrors

/-! # Records that are exported alike

An export leaves out the values of variables, and of the value of a constant it keeps only the text of
its field. Records that differ in nothing else have the same row in both formats and are tallied alike,
so items that differ in nothing else give the same export.
-/

namespace SymbolExport

/-- Two results are the same error, or values that belong together. -/
inductive SameUpTo {ε α β : Type} (related : α → β → Prop) : Except ε α → Except ε β → Prop where
  | error (e : ε) : SameUpTo related (.error e) (.error e)
  | ok {a : α} {b : β} (h : related a b) : SameUpTo related (.ok a) (.ok b)

theorem SameUpTo.refl {ε α : Type} {related : α → α → Prop} (h : ∀ a, related a a)
    (x : Except ε α) : SameUpTo related x x := by
  cases x with
  | error e => exact .error e
  | ok a => exact .ok (h a)

theorem map_eq_of_forall₂ {α β γ : Type} {related : α → β → Prop} {f : α → γ} {g : β → γ}
    (same : ∀ a b, related a b → f a = g b) {as : List α} {bs : List β}
    (h : List.Forall₂ related as bs) : as.map f = bs.map g := by
  induction h with
  | nil => rfl
  | cons first _ ih => rw [List.map_cons, List.map_cons, same _ _ first, ih]

namespace Record

/-- Two records differ at most in what is not exported of variables and constants. -/
inductive Alike : Record → Record → Prop where
  | function (r : FunctionRecord) : Alike (.function r) (.function r)
  | classLike (r : ClassRecord) : Alike (.classLike r) (.classLike r)
  | method (r : MethodRecord) : Alike (.method r) (.method r)
  | member (r : PropertyRecord) : Alike (.member r) (.member r)
  | var {r s : VariableRecord} (name : r.name = s.name) : Alike (.var r) (.var s)
  | const {r s : ConstantRecord} (name : r.name = s.name)
      (field : r.value.toField = s.value.toField) : Alike (.const r) (.const s)

theorem Alike.refl (record : Record) : Alike record record := by
  cases record with
  | function r => exact .function r
  | classLike r => exact .classLike r
  | method r => exact .method r
  | member r => exact .member r
  | var r => exact .var rfl
  | const r => exact .const rfl rfl

theorem Alike.fields_eq {a b : Record} (h : Alike a b) : a.fields = b.fields := by
  cases h with
  | var name => simp [fields, tag, name]
  | const name field => simp [fields, tag, name, field]
  | _ => rfl

/-- Everything that decides about the legacy row of a record. -/
theorem Alike.legacy_eq {a b : Record} (h : Alike a b) :
    a.legacyRow? = b.legacyRow? ∧ a.isInterface = b.isInterface ∧ a.isValue = b.isValue := by
  cases h with
  | var name => simp [legacyRow?, isInterface, isValue, name]
  | const name field => simp [legacyRow?, isInterface, isValue, name, field]
  | _ => exact ⟨rfl, rfl, rfl⟩

theorem Alike.add_eq {a b : Record} (h : Alike a b) (c : RecordCounts) : c.add a = c.add b := by
  cases h <;> rfl

end Record

abbrev AlikeItems : List Item → List Item → Prop :=
  List.Forall₂ (SameUpTo Record.Alike)

theorem AlikeItems.refl (items : List Item) : AlikeItems items items :=
  List.forall₂_same.mpr fun item _ => .refl Record.Alike.refl item

theorem AlikeItems.append_left {items others : List Item} (front : List Item)
    (h : AlikeItems items others) : AlikeItems (front ++ items) (front ++ others) :=
  List.rel_append (AlikeItems.refl front) h

/-! ## Rows -/

theorem AlikeItems.inPlace_eq {items others : List Item} (h : AlikeItems items others) :
    inPlace (items.map some) = inPlace (others.map some) := by
  induction h with
  | nil => rfl
  | cons first _ ih =>
      cases first with
      | error e => simp only [List.map_cons, inPlace_cons, ih, shownInPlace]
      | ok alike => simp only [List.map_cons, inPlace_cons, ih, shownInPlace, alike.legacy_eq]

theorem AlikeItems.inOnePass_eq {items others : List Item} (h : AlikeItems items others)
    (queue : List Row) :
    inOnePass queue (items.map some) = inOnePass queue (others.map some) := by
  induction h generalizing queue with
  | nil => rfl
  | cons first rest ih =>
      cases first with
      | error e => simp only [List.map_cons, inOnePass, ih]
      | ok alike =>
          simp only [List.map_cons, inOnePass, ih, alike.legacy_eq, AlikeItems.inPlace_eq rest]

theorem AlikeItems.rowItems_eq {items others : List Item} (h : AlikeItems items others)
    (format : RowFormat) : rowItems format items = rowItems format others := by
  rw [rowItems_eq_rowsInOrder, rowItems_eq_rowsInOrder]
  cases format with
  | legacy => exact congrArg (List.filterMap id) (h.inOnePass_eq [])
  | full =>
      induction h with
      | nil => rfl
      | cons first _ ih =>
          cases first with
          | error e => exact congrArg (_ :: ·) ih
          | ok alike => exact congrArg₂ (fun row rows => .ok row :: rows) alike.fields_eq ih

/-! ## Tallies -/

theorem AlikeItems.foldl_add_eq {items others : List Item} (h : AlikeItems items others)
    (c : RecordCounts) :
    (recordsOf items).foldl RecordCounts.add c = (recordsOf others).foldl RecordCounts.add c := by
  induction h generalizing c with
  | nil => rfl
  | cons first _ ih =>
      cases first with
      | error e => exact ih c
      | ok alike =>
          simp only [recordsOf, List.filterMap_cons, List.foldl_cons, alike.add_eq]
          exact ih _

theorem AlikeItems.tally_eq {items others : List Item} (h : AlikeItems items others) :
    RecordCounts.ofRecords (recordsOf items) = RecordCounts.ofRecords (recordsOf others) :=
  h.foldl_add_eq {}

end SymbolExport
