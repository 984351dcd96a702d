import SymbolExport.Proofs.RowErrors

/-! # Exports into limited room

A sink that takes a limited number of octets ends up with exactly that many of the octets meant for
it, however they were gathered in the buffer on their way. A buffer that the sink refuses is kept and
offered again later, but then the sink is full and takes nothing of it.
-/

namespace SymbolExport.Csv

namespace Sink

/-- What a sink received and what it still takes add up to its limit. -/
def Limited (s : Sink) (limit : Nat) : Prop :=
  ∃ room, s.room = some room ∧ s.received.length + room = limit

theorem limited_new (limit : Nat) : ({ room := some limit } : Sink).Limited limit :=
  ⟨limit, rfl, by simp [received]⟩

theorem Limited.length_le {s : Sink} {limit : Nat} (h : s.Limited limit) :
    s.received.length ≤ limit := by
  obtain ⟨room, _, total⟩ := h
  omega

/-- A write adds what the limit allows, and succeeds exactly if that is all of it. -/
theorem write_limited {s : Sink} {limit : Nat} (h : s.Limited limit) (octets : Bytes) :
    (s.write octets).2.Limited limit ∧
      (s.write octets).2.received = (s.received ++ octets).take limit ∧
      (s.write octets).1 =
        if (s.received ++ octets).length ≤ limit then .ok () else .error .diskFull := by
  have bound := h.length_le
  obtain ⟨room, some_room, total⟩ := h
  have cut : (s.received ++ octets).take limit = s.received ++ octets.take room := by
    rw [List.take_append, List.take_of_length_le bound]
    congr 2
    omega
  have received := s.received_write_some octets some_room
  rw [cut, List.length_append]
  by_cases fits : octets.length ≤ room
  · have within : s.received.length + octets.length ≤ limit := by omega
    refine ⟨⟨room - octets.length, by simp [write, some_room, fits], ?_⟩, received, ?_⟩
    · rw [received, List.length_append, List.length_take]
      omega
    · simp [write, some_room, fits, within]
  · have beyond : ¬s.received.length + octets.length ≤ limit := by omega
    refine ⟨⟨0, by simp [write, some_room, fits], ?_⟩, received, ?_⟩
    · rw [received, List.length_append, List.length_take]
      omega
    · simp [write, some_room, fits, beyond]

end Sink

namespace Writer

/-- The sink has received as much of a text as it takes, which is not all of it. -/
structure Overfull (w : Writer) (limit : Nat) (text : Bytes) : Prop where
  limited : w.sink.Limited limit
  received : w.sink.received = text.take limit
  beyond : limit < text.length

theorem Overfull.append {w : Writer} {limit : Nat} {text : Bytes} (h : w.Overfull limit text)
    (more : Bytes) : w.Overfull limit (text ++ more) where
  limited := h.limited
  received := by rw [List.take_append_of_le_length (Nat.le_of_lt h.beyond), h.received]
  beyond := by
    rw [List.length_append]
    exact Nat.lt_of_lt_of_le h.beyond (Nat.le_add_right ..)

/-- The outcome of writing up to a text: the writer has taken all of it, or it is overfull. -/
def Reaches (limit : Nat) (text : Bytes) (outcome : Except IoFault Unit × Writer) : Prop :=
  (outcome.1 = .ok () ∧ outcome.2.sink.Limited limit ∧ outcome.2.taken = text) ∨
    (outcome.1 = .error .diskFull ∧ outcome.2.Overfull limit text)

/-- What a writer has taken reaches the sink as far as the limit allows when it is flushed. -/
theorem flush_limited {w : Writer} {limit : Nat} (h : w.sink.Limited limit) :
    w.flush.2.sink.Limited limit ∧ w.flush.2.sink.received = w.taken.take limit ∧
      w.flush.1 = if w.taken.length ≤ limit then .ok () else .error .diskFull := by
  obtain ⟨limited, received, result⟩ := Sink.write_limited h w.buffer.octets
  change _ = if w.taken.length ≤ limit then _ else _ at result
  change _ = w.taken.take limit at received
  unfold flush
  split
  · rename_i sink written
    rw [written] at limited received result
    exact ⟨limited, received, result⟩
  · rename_i fault sink refused
    rw [refused] at limited received result
    exact ⟨limited, received, result⟩

theorem flush_overfull {w : Writer} {limit : Nat} {text : Bytes} (h : w.Overfull limit text) :
    w.flush.2.sink.received = text.take limit := by
  have full : w.sink.received.length = limit := by
    rw [h.received, List.length_take]
    exact Nat.min_eq_left (Nat.le_of_lt h.beyond)
  rw [(flush_limited h.limited).2.1, taken, List.take_append_of_le_length (Nat.le_of_eq full.symm),
    ← full, List.take_length, full, h.received]

/-! ## Pieces and rows -/

/-- One step after the other: a step that fails is the last, and what it spilled stays spilled. -/
theorem Reaches.andThen {limit : Nat} {text more : Bytes} {outcome : Except IoFault Unit × Writer}
    {next : Writer → Except IoFault Unit × Writer}
    (second : ∀ v : Writer, v.sink.Limited limit → v.taken = text →
      Reaches limit (text ++ more) (next v)) :
    Reaches limit text outcome →
      Reaches limit (text ++ more)
        (match outcome with
        | (.ok (), v) => next v
        | (.error fault, v) => (.error fault, v)) := by
  obtain ⟨result, v⟩ := outcome
  rintro (⟨ok, limited, taken⟩ | ⟨refused, full⟩)
  · cases ok
    exact second v limited taken
  · cases refused
    exact .inr ⟨rfl, full.append more⟩

theorem push_reaches {w : Writer} {limit : Nat} (h : w.sink.Limited limit) (p : Piece) :
    Reaches limit (w.taken ++ p.octets) (w.push p) := by
  obtain ⟨limited, received, result⟩ := flush_limited h
  unfold push
  split
  · refine .inl ⟨rfl, h, ?_⟩
    simp [taken]
  · split
    · rename_i flushed ok
      rw [ok] at limited
      refine .inl ⟨rfl, limited, ?_⟩
      simp [taken, (flush_adds ok).2.1]
    · rename_i fault flushed refused
      rw [refused] at limited received result
      by_cases fits : w.taken.length ≤ limit
      · simp [fits] at result
      · have full : flushed.Overfull limit w.taken := ⟨limited, received, by omega⟩
        rw [if_neg fits] at result
        exact .inr ⟨result, full.append p.octets⟩

theorem pushAll_reaches {w : Writer} {limit : Nat} (h : w.sink.Limited limit) (ps : List Piece) :
    Reaches limit (w.taken ++ ps.flatMap Piece.octets) (w.pushAll ps) := by
  induction ps generalizing w with
  | nil => exact .inl ⟨rfl, h, by simp [pushAll]⟩
  | cons p ps ih =>
      rw [List.flatMap_cons, ← List.append_assoc]
      refine Reaches.andThen ?_ (push_reaches h p)
      intro v limited taken
      rw [← taken]
      exact ih limited

theorem writeRow_reaches {w : Writer} {limit : Nat} (h : w.sink.Limited limit)
    (fields : List Bytes) :
    Reaches limit (w.taken ++ encodeRow fields) (w.writeRow fields) := by
  have pieces := pushAll_reaches h (rowPieces fields)
  unfold writeRow
  generalize w.pushAll (rowPieces fields) = outcome at pieces ⊢
  obtain ⟨result, v⟩ := outcome
  rcases pieces with ⟨ok, limited, taken⟩ | ⟨refused, full⟩
  · cases ok
    exact .inl ⟨rfl, limited, taken⟩
  · cases refused
    exact .inr ⟨rfl, full⟩

/-- However many rows are written, the sink gets no octet out of order and none beyond its limit. -/
theorem writeAll_reaches {w : Writer} {limit : Nat} (h : w.sink.Limited limit)
    (rows : List (List Bytes)) :
    Reaches limit (w.taken ++ encodeRows rows) (w.writeAll rows) := by
  induction rows generalizing w with
  | nil => exact .inl ⟨rfl, h, by simp [writeAll]⟩
  | cons row rows ih =>
      rw [encodeRows_cons, ← List.append_assoc]
      refine Reaches.andThen ?_ (writeRow_reaches h row)
      intro v limited taken
      rw [← taken]
      exact ih limited

end Writer

end SymbolExport.Csv

namespace SymbolExport.Reflector

/-- An export into a sink with limited room leaves there as much as fits of what is written for the
rows in front of the first error. It succeeds exactly if there is no such error and everything fits;
an error is the one of the runtime unless a row or, in the end, the rest of the buffer was refused. -/
theorem export_into_limited_room (r : Reflector) (format : RowFormat) (times : Times) (room : Nat) :
    let rows := rowsBefore (rowItems format r.enumerate.1)
    let text := rowsText rows
    let sink : Csv.Sink := { room := some room }
    let written := ({ sink } : Csv.Writer).writeAll (rows.map fun row => row.map Bytes.ofString)
    let run := r.exportTo format times sink
    run.2.received = text.take room ∧
    ((∃ summary, run.1 = .ok summary) ↔
      (∃ records, r.collect = .ok records) ∧ text.length ≤ room) ∧
    (text.length ≤ room → ∀ e, run.1 = .error e ↔ r.collect = .error e) ∧
    (room < text.length → ∃ e, run.1 = .error e ∧
      ((written.1 = .error .diskFull ∧ e = .csv .diskFull) ∨
        (written.1 = .ok () ∧
          (r.collect = .error e ∨ (∃ records, r.collect = .ok records) ∧ e = .io .diskFull)))) := by
  intro rows text sink written run
  have reaches : Csv.Writer.Reaches room text written :=
    Csv.Writer.writeAll_reaches (Csv.Sink.limited_new room) _
  have same : ({ sink } : Csv.Writer).writeAll (r.writtenRows format) = written := rfl
  generalize written = outcome at reaches same ⊢
  obtain ⟨result, v⟩ := outcome
  rcases reaches with ⟨ok, limited, taken⟩ | ⟨refused, full⟩
  · -- All rows were taken; what the buffer holds is still to be handed over.
    cases ok
    change v.taken = text at taken
    obtain ⟨limited', received, flushed⟩ := Csv.Writer.flush_limited limited
    change v.flush.2.sink.received = v.taken.take room at received
    change v.flush.1 = if v.taken.length ≤ room then .ok () else .error .diskFull at flushed
    rw [taken] at received flushed
    cases collected : r.collect with
    | error e =>
        have ends : run = (.error e, v.abandon) := exportTo_of_failure collected same
        rw [ends]
        refine ⟨received, by simp, by simp, ?_⟩
        intro beyond
        exact ⟨e, rfl, .inr ⟨rfl, .inl rfl⟩⟩
    | ok records =>
        by_cases fits : text.length ≤ room
        · rw [if_pos fits] at flushed
          have ends : run = (.ok (summaryOf format times records v.rows), v.flush.2.sink) :=
            exportTo_of_flushed collected same (Prod.ext flushed rfl)
          rw [ends]
          refine ⟨received, by simp [fits], by simp, ?_⟩
          intro beyond
          omega
        · rw [if_neg fits] at flushed
          have ends : run = (.error (.io .diskFull), v.flush.2.abandon) :=
            exportTo_of_unflushed collected same (Prod.ext flushed rfl)
          have full : v.flush.2.Overfull room text := ⟨limited', received, by omega⟩
          rw [ends]
          refine ⟨Csv.Writer.flush_overfull full, by simp [fits], by simp [fits], ?_⟩
          intro _
          exact ⟨_, rfl, .inr ⟨rfl, .inr ⟨⟨records, rfl⟩, rfl⟩⟩⟩
  · -- A row was refused.
    cases refused
    have ends : run = (.error (.csv .diskFull), v.abandon) := exportTo_of_refused same
    have beyond := full.beyond
    rw [ends]
    refine ⟨Csv.Writer.flush_overfull full, ?_, ?_, ?_⟩
    · simp only [reduceCtorEq, exists_false, false_iff]
      omega
    · intro fits
      omega
    · intro _
      exact ⟨_, rfl, .inl ⟨rfl, rfl⟩⟩

end SymbolExport.Reflector
