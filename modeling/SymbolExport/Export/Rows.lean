import SymbolExport.Export.Enumerate
import SymbolExport.Export.RowFormat

/-!
# Rows

Records become rows one at a time. In the full format each record is a row. In the legacy format
interfaces come behind the classes: their rows are held back until something follows the classes,
and traits and members have no rows.

A source may pause, that is, say that it has nothing and then go on. A pause passes through, unless
rows are held back: then these come out in its place.
-/

namespace SymbolExport

/-- The fields of one line of an export. -/
abbrev Row := List String

/-- A row or the error that was found in its place. -/
abbrev RowItem := Except ExportError Row

/-- What rows are made from: items, and pauses between them. -/
abbrev Source := List (Option Item)

/-- What the legacy format makes of a record. -/
inductive Placement where
  /-- No row. -/
  | dropped
  /-- A row where the record stands. -/
  | inPlace (row : Row)
  /-- A row that is held back behind the classes. -/
  | heldBack (row : Row)
  /-- A row where the record stands, which shows that the classes are over. -/
  | behindClasses (row : Row)

namespace Record

def legacyRow (tag name value : String) : Row :=
  [tag, name, value]

def placement : Record → Placement
  | .function r => .inPlace (legacyRow "function" r.name "")
  | .classLike r =>
      match r.kind with
      | .plain => .inPlace (legacyRow "class" r.name "")
      | .interface => .heldBack (legacyRow "interface" r.name "")
      | .trait => .dropped
  | .method _ => .dropped
  | .member _ => .dropped
  | .var r => .behindClasses (legacyRow "variable" r.name "")
  | .const r => .behindClasses (legacyRow "constant" r.name r.value.toField)

end Record

structure LegacyRows where
  source : Source
  /-- The rows held back. -/
  interfaces : List Row := []
  /-- The row that showed that the classes are over, while the rows held back come out. -/
  held : Option Row := none
  /-- Whether the rows held back come out before anything else is read. -/
  releasing : Bool := false

namespace LegacyRows

/-- The next of the rows held back, if they are coming out; the one that ended the wait is last. -/
def release (s : LegacyRows) : Option (Row × LegacyRows) :=
  if s.releasing then
    match s.interfaces with
    | row :: rest => some (row, { s with interfaces := rest })
    | [] => s.held.map fun row => (row, { s with held := none })
  else none

theorem not_releasing_of_release (s : LegacyRows) (h : s.release = none)
    (waiting : s.interfaces ≠ []) : s.releasing = false := by
  cases flag : s.releasing with
  | false => rfl
  | true =>
      cases queue : s.interfaces with
      | nil => exact absurd queue waiting
      | cons row rest => simp [release, flag, queue] at h

/-- The next row. What the source says is read until it gives a row, an error or a pause. -/
def next (s : LegacyRows) : Option RowItem × LegacyRows :=
  match _released : s.release with
  | some (row, s) => (some (.ok row), s)
  | none =>
      match _unread : s.source with
      | [] => if s.interfaces = [] then (none, s) else next { s with releasing := true }
      | none :: rest =>
          if s.interfaces = [] then (none, { s with source := rest })
          else next { s with source := rest, releasing := true }
      | some (.error e) :: rest => (some (.error e), { s with source := rest })
      | some (.ok record) :: rest =>
          match record.placement with
          | .dropped => next { s with source := rest }
          | .inPlace row => (some (.ok row), { s with source := rest })
          | .heldBack row => next { s with source := rest, interfaces := s.interfaces ++ [row] }
          | .behindClasses row =>
              if s.interfaces = [] then (some (.ok row), { s with source := rest })
              else next { s with source := rest, releasing := true, held := some row }
termination_by (s.source.length, if s.releasing then 0 else 1)
decreasing_by
  · have := s.not_releasing_of_release _released (by assumption)
    simp only [Prod.lex_def, this]
    simp
  all_goals
    simp only [Prod.lex_def, _unread, List.length_cons]
    omega

end LegacyRows

inductive Rows where
  | full (source : Source)
  | legacy (rows : LegacyRows)

namespace Rows

def start (source : Source) : RowFormat → Rows
  | .full => .full source
  | .legacy => .legacy { source }

/-- The next row; the end of the source is a pause that lasts. -/
def next : Rows → Option RowItem × Rows
  | .full [] => (none, .full [])
  | .full (none :: rest) => (none, .full rest)
  | .full (some item :: rest) => (some (item.map Record.fields), .full rest)
  | .legacy rows =>
      let (row, rows) := rows.next
      (row, .legacy rows)

/-- The outcomes of asking `n` times for the next row. -/
def outcomes : Nat → Rows → List (Option RowItem)
  | 0, _ => []
  | n + 1, rows => rows.next.1 :: outcomes n rows.next.2

/-- The rows before the first pause, at most `n` of them. -/
def upTo : Nat → Rows → List RowItem
  | 0, _ => []
  | n + 1, rows =>
      match rows.next with
      | (some row, rows) => row :: upTo n rows
      | (none, _) => []

end Rows

/-- The rows of a list of items, which are never more than the items. -/
def rowItems (format : RowFormat) (items : List Item) : List RowItem :=
  (Rows.start (items.map some) format).upTo items.length

end SymbolExport
