import SymbolExport.Text.Bytes

/-!
# Rows as CSV

Fields are separated by commas and rows end in a line feed. A field is quoted if it holds a comma, a
quote or a line break, and quotes inside it are doubled. A row without any octet of its own is
written as a pair of quotes, so that it does not read as an empty line.

A row is written in pieces. A single octet is a piece, and so is a pair of quotes that may not be
torn apart.
-/

namespace SymbolExport.Csv

def comma : UInt8 := 0x2C

def quote : UInt8 := 0x22

def lineFeed : UInt8 := 0x0A

/-- The other octet that can end a line. -/
def carriageReturn : UInt8 := 0x0D

/-- What is written at once. -/
inductive Piece where
  | octet (b : UInt8)
  | quotePair
deriving DecidableEq, Repr

def Piece.octets : Piece → Bytes
  | .octet b => [b]
  | .quotePair => [quote, quote]

/-- Whether an octet makes a field need quotes. -/
def isSpecial (b : UInt8) : Bool :=
  b == comma || b == quote || b == carriageReturn || b == lineFeed

/-- An octet between quotes. -/
def quotedPiece (b : UInt8) : Piece :=
  if b = quote then .quotePair else .octet b

def fieldPieces (field : Bytes) : List Piece :=
  if field.any isSpecial then
    .octet quote :: (field.map quotedPiece ++ [.octet quote])
  else field.map .octet

/-- The pieces of fields with the commas between them. -/
def fieldsPieces : List Bytes → List Piece
  | [] => []
  | [field] => fieldPieces field
  | field :: fields => fieldPieces field ++ .octet comma :: fieldsPieces fields

def rowPieces (fields : List Bytes) : List Piece :=
  match fieldsPieces fields with
  | [] => [.quotePair, .octet lineFeed]
  | pieces => pieces ++ [.octet lineFeed]

def encodeRow (fields : List Bytes) : Bytes :=
  (rowPieces fields).flatMap Piece.octets

def encodeRows (rows : List (List Bytes)) : Bytes :=
  rows.flatMap encodeRow

theorem Piece.octets_length_le (p : Piece) : p.octets.length ≤ 2 := by
  cases p <;> simp [octets]

@[simp] theorem encodeRows_nil : encodeRows [] = [] := rfl

@[simp] theorem encodeRows_cons (row : List Bytes) (rows : List (List Bytes)) :
    encodeRows (row :: rows) = encodeRow row ++ encodeRows rows := rfl

end SymbolExport.Csv
