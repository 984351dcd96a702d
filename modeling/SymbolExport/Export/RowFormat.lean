import SymbolExport.Shape.Encode
import SymbolExport.Shape.Read
import SymbolExport.Text.Blank

/-!
# Row formats

Rows come in two formats. A format is named by a word that may stand between white space and in any
ASCII case.
-/

namespace SymbolExport

inductive RowFormat where
  /-- One row for each record, with everything that is known of it. -/
  | full
  /-- Three fields for each row, without traits and members. -/
  | legacy
deriving DecidableEq, Repr

/-- A word that names no format, as it was looked up. -/
structure UnknownFormat where
  word : String
deriving DecidableEq, Repr

def UnknownFormat.message (e : UnknownFormat) : String :=
  "Unknown row format '" ++ e.word ++ "' (expected full or legacy)"

namespace RowFormat

def text : RowFormat → String
  | .full => "full"
  | .legacy => "legacy"

def ofText (s : String) : Except UnknownFormat RowFormat :=
  let word := String.ofList (Text.lowerAscii (Text.trimBlanks s.toList))
  if word = "full" then .ok .full
  else if word = "legacy" then .ok .legacy
  else .error { word }

instance : Shaped RowFormat where
  shape := .choice #v["full", "legacy"]
  pack
    | .full => (0 : Fin 2)
    | .legacy => (1 : Fin 2)
  unpack := fun (i : Fin 2) => match i with
    | 0 => .full
    | 1 => .legacy
  unpack_pack f := by cases f <;> rfl

end RowFormat

end SymbolExport
