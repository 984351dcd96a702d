import SymbolExport.Csv.Row
import SymbolExport.Csv.Sink

/-!
# Writing rows through a buffer

Octets are gathered in a buffer and reach the sink when the next piece does not fit any more, or at
the end. A buffer that the sink refuses is kept.
-/

namespace SymbolExport.Csv

def capacity : Nat := 8192

/-- Octets on their way to the sink. -/
structure Buffer where
  /-- The octets, the newest first. -/
  newest : Bytes
  /-- How many more fit. -/
  space : Nat
  filled : newest.length + space = capacity

namespace Buffer

def empty : Buffer where
  newest := []
  space := capacity
  filled := Nat.zero_add capacity

def octets (b : Buffer) : Bytes :=
  b.newest.reverse

@[simp] theorem octets_empty : empty.octets = [] := rfl

def put (b : Buffer) (p : Piece) (h : p.octets.length ≤ b.space) : Buffer where
  newest := p.octets.reverse ++ b.newest
  space := b.space - p.octets.length
  filled := by
    have := b.filled
    simp only [List.length_append, List.length_reverse]
    omega

@[simp] theorem octets_put (b : Buffer) (p : Piece) (h : p.octets.length ≤ b.space) :
    (b.put p h).octets = b.octets ++ p.octets := by
  simp [put, octets]

def ofPiece (p : Piece) : Buffer :=
  empty.put p (Nat.le_trans p.octets_length_le (by decide))

@[simp] theorem octets_ofPiece (p : Piece) : (ofPiece p).octets = p.octets := by
  rw [ofPiece, octets_put]
  rfl

end Buffer

structure Writer where
  sink : Sink := {}
  buffer : Buffer := .empty
  /-- How many rows have been written. -/
  rows : Nat := 0

namespace Writer

def flush (w : Writer) : Except IoFault Unit × Writer :=
  match w.sink.write w.buffer.octets with
  | (.ok (), sink) => (.ok (), { w with sink, buffer := .empty })
  | (.error fault, sink) => (.error fault, { w with sink })

def push (w : Writer) (p : Piece) : Except IoFault Unit × Writer :=
  if h : p.octets.length ≤ w.buffer.space then
    (.ok (), { w with buffer := w.buffer.put p h })
  else
    match w.flush with
    | (.ok (), w) => (.ok (), { w with buffer := .ofPiece p })
    | (.error fault, w) => (.error fault, w)

def pushAll (w : Writer) : List Piece → Except IoFault Unit × Writer
  | [] => (.ok (), w)
  | p :: ps =>
      match w.push p with
      | (.ok (), w) => w.pushAll ps
      | (.error fault, w) => (.error fault, w)

/-- Writes a row; only a row that was written whole is counted. -/
def writeRow (w : Writer) (fields : List Bytes) : Except IoFault Unit × Writer :=
  match w.pushAll (rowPieces fields) with
  | (.ok (), w) => (.ok (), { w with rows := w.rows + 1 })
  | (.error fault, w) => (.error fault, w)

def writeAll (w : Writer) : List (List Bytes) → Except IoFault Unit × Writer
  | [] => (.ok (), w)
  | row :: rows =>
      match w.writeRow row with
      | (.ok (), w) => w.writeAll rows
      | (.error fault, w) => (.error fault, w)

/-- The sink behind a writer that is given up: what the buffer holds is still handed over. -/
def abandon (w : Writer) : Sink :=
  w.flush.2.sink

end Writer

end SymbolExport.Csv
