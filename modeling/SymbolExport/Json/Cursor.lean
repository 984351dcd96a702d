import SymbolExport.Json.Fault

/-!
# Reading octets

A reader moves a cursor over the octets of a text. A fault is placed either at the cursor or, if it
blames the octet ahead, just behind that octet.
-/

namespace SymbolExport.Json

/-- The octets still to be read, the number of those already read, and the number of all. -/
structure Cursor where
  rest : Bytes
  offset : Nat
  size : Nat
  covers : offset + rest.length = size
deriving DecidableEq, Repr

/-- A computation that reads octets and may find a fault. -/
abbrev Reader (α : Type) := StateT Cursor (Except Fault) α

namespace Cursor

def start (input : Bytes) : Cursor where
  rest := input
  offset := 0
  size := input.length
  covers := Nat.zero_add _

def remaining (c : Cursor) : Nat :=
  c.size - c.offset

theorem length_rest (c : Cursor) : c.rest.length = c.remaining := by
  have := c.covers
  unfold remaining
  omega

/-- The cursor behind the next `n` octets, or at the end if there are fewer. -/
def drop (c : Cursor) (n : Nat) : Cursor where
  rest := c.rest.drop n
  offset := c.offset + min n c.remaining
  size := c.size
  covers := by
    have := c.covers
    rw [List.length_drop, ← length_rest]
    omega

/-- Whether an octet separates tokens: space, tab, line feed, carriage return. -/
def isSpace (b : UInt8) : Bool :=
  b == 0x20 || b == 0x09 || b == 0x0A || b == 0x0D

def skipSpace (c : Cursor) : Cursor :=
  c.drop (c.rest.takeWhile isSpace).length

/-- The place of a fault that blames the octet ahead. -/
def ahead (c : Cursor) : Nat :=
  if c.rest.isEmpty then c.offset else c.offset + 1

end Cursor

namespace Reader

def fail {α : Type} (cause : Cause) : Reader α :=
  fun c => .error { cause, offset := some c.offset }

/-- A fault of the octet ahead. -/
def failAhead {α : Type} (cause : Cause) : Reader α :=
  fun c => .error { cause, offset := some c.ahead }

def peek : Reader (Option UInt8) :=
  fun c => .ok (c.rest.head?, c)

/-- Moves over the octet ahead. -/
def advance : Reader Unit :=
  fun c => .ok ((), c.drop 1)

/-- Moves over the octet ahead and gives it. -/
def next : Reader (Option UInt8) :=
  fun c => .ok (c.rest.head?, c.drop 1)

/-- Moves over white space and looks at the octet behind it. -/
def peekToken : Reader (Option UInt8) :=
  fun c => .ok (c.skipSpace.rest.head?, c.skipSpace)

def remaining : Reader Nat :=
  fun c => .ok (c.remaining, c)

end Reader

end SymbolExport.Json
