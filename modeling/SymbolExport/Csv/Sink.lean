import SymbolExport.Export.Error
import SymbolExport.Text.Bytes

/-!
# Sinks

A sink takes octets until its room is used up. A write that does not fit is taken as far as it fits
and then fails, and so does every write after it.
-/

namespace SymbolExport.Csv

/-- What a sink has received and how much more it takes. -/
structure Sink where
  /-- What each write left, in order. -/
  writes : List Bytes := []
  /-- The octets that still fit; unlimited if there is no number. -/
  room : Option Nat := none
deriving DecidableEq, Repr

namespace Sink

def received (s : Sink) : Bytes :=
  s.writes.flatten

def write (s : Sink) (octets : Bytes) : Except IoFault Unit × Sink :=
  match s.room with
  | none => (.ok (), { s with writes := s.writes ++ [octets] })
  | some n =>
      if octets.length ≤ n then
        (.ok (), { writes := s.writes ++ [octets], room := some (n - octets.length) })
      else
        (.error .diskFull, { writes := s.writes ++ [octets.take n], room := some 0 })

@[simp] theorem received_write_some (s : Sink) (octets : Bytes) {n : Nat} (h : s.room = some n) :
    (s.write octets).2.received = s.received ++ octets.take n := by
  by_cases hn : octets.length ≤ n
  · simp [write, h, received, hn, List.take_of_length_le hn]
  · simp [write, h, received, hn]

end Sink

end SymbolExport.Csv
