import SymbolExport.Export.Stream

/-! # Writing through the buffer

What a writer has taken is what its sink received followed by what its buffer holds. Every operation
that succeeds adds its octets to that, whenever the buffer happens to be handed over, and an operation
succeeds as long as the sink has room for all that was taken and for what is added.
-/

namespace SymbolExport.Csv

namespace Sink

/-- A sink has room for so many more octets. -/
def Admits (s : Sink) (count : Nat) : Prop :=
  ∀ room, s.room = some room → count ≤ room

theorem Admits.mono {s : Sink} {count more : Nat} (h : s.Admits more) (le : count ≤ more) :
    s.Admits count :=
  fun room limited => Nat.le_trans le (h room limited)

theorem admits_of_unlimited {s : Sink} (h : s.room = none) (count : Nat) : s.Admits count := by
  intro room limited
  simp [h] at limited

/-- A write that succeeds is received whole and uses up its part of the room. -/
theorem write_ok {s t : Sink} {octets : Bytes} (h : s.write octets = (.ok (), t)) :
    t.received = s.received ++ octets ∧
      ∀ count, t.Admits count ↔ s.Admits (octets.length + count) := by
  unfold write at h
  cases limit : s.room with
  | none =>
      simp only [limit, Prod.mk.injEq, true_and] at h
      subst h
      simp [received, Admits, limit]
  | some room =>
      simp only [limit] at h
      split at h
      · simp only [Prod.mk.injEq, true_and] at h
        subst h
        simp only [received, List.flatten_append, List.flatten_singleton, Admits, limit,
          Option.some.injEq, forall_eq', true_and]
        omega
      · simp at h

theorem write_ok_iff (s : Sink) (octets : Bytes) :
    (∃ t, s.write octets = (.ok (), t)) ↔ s.Admits octets.length := by
  unfold write
  cases limit : s.room with
  | none => simp [Admits, limit]
  | some room => by_cases fits : octets.length ≤ room <;> simp [Admits, limit, fits]

end Sink

namespace Writer

def taken (w : Writer) : Bytes :=
  w.sink.received ++ w.buffer.octets

/-- The sink has room for what the buffer holds and so many more octets. -/
def Admits (w : Writer) (count : Nat) : Prop :=
  w.sink.Admits (w.buffer.octets.length + count)

/-- One writer is another one that took octets and counted rows. -/
structure Adds (before after : Writer) (octets : Bytes) (rows : Nat) : Prop where
  taken : after.taken = before.taken ++ octets
  admits : ∀ count, after.Admits count ↔ before.Admits (octets.length + count)
  rows : after.rows = before.rows + rows

theorem Adds.refl (w : Writer) : Adds w w [] 0 :=
  ⟨by simp, by simp, rfl⟩

theorem Adds.trans {first second third : Writer} {octets others : Bytes} {rows more : Nat}
    (h : Adds first second octets rows) (g : Adds second third others more) :
    Adds first third (octets ++ others) (rows + more) where
  taken := by rw [g.taken, h.taken, List.append_assoc]
  admits count := by rw [g.admits, h.admits, List.length_append, Nat.add_assoc]
  rows := by rw [g.rows, h.rows, Nat.add_assoc]

/-! ## Flushing -/

theorem flush_adds {w v : Writer} (h : w.flush = (.ok (), v)) :
    Adds w v [] 0 ∧ v.sink.received = w.taken ∧ v.buffer = .empty := by
  unfold flush at h
  split at h
  · rename_i sink written
    obtain ⟨received, room⟩ := Sink.write_ok written
    simp only [Prod.mk.injEq, true_and] at h
    subst h
    refine ⟨⟨?_, ?_, rfl⟩, received, rfl⟩
    · simp [taken, received]
    · intro count
      simp [Admits, room]
  · simp at h

theorem flush_ok_iff (w : Writer) : (∃ v, w.flush = (.ok (), v)) ↔ w.Admits 0 := by
  have written := w.sink.write_ok_iff w.buffer.octets
  unfold flush Admits
  rw [Nat.add_zero, ← written]
  rcases h : w.sink.write w.buffer.octets with ⟨_ | _, sink⟩ <;> simp

/-! ## Pieces -/

theorem push_adds {w v : Writer} {p : Piece} (h : w.push p = (.ok (), v)) :
    Adds w v p.octets 0 := by
  unfold push at h
  split at h
  · simp only [Prod.mk.injEq, true_and] at h
    subst h
    refine ⟨by simp [taken], ?_, rfl⟩
    intro count
    simp [Admits, Nat.add_assoc]
  · split at h
    · rename_i flushed ok
      obtain ⟨nothing, received, empty⟩ := flush_adds ok
      simp only [Prod.mk.injEq, true_and] at h
      subst h
      refine ⟨by simp [taken, received], ?_, by simpa using nothing.rows⟩
      intro count
      have room := nothing.admits (p.octets.length + count)
      simpa [Admits, empty] using room
    · simp at h

theorem push_ok (w : Writer) (p : Piece) (room : w.Admits p.octets.length) :
    ∃ v, w.push p = (.ok (), v) := by
  unfold push
  by_cases fits : p.octets.length ≤ w.buffer.space
  · simp [fits]
  · obtain ⟨flushed, ok⟩ := w.flush_ok_iff.mpr (room.mono (by omega))
    simp [fits, ok]

theorem pushAll_adds {w v : Writer} {ps : List Piece} (h : w.pushAll ps = (.ok (), v)) :
    Adds w v (ps.flatMap Piece.octets) 0 := by
  induction ps generalizing w with
  | nil =>
      simp only [pushAll, Prod.mk.injEq, true_and] at h
      subst h
      exact .refl w
  | cons p ps ih =>
      unfold pushAll at h
      split at h
      · rename_i middle pushed
        exact (push_adds pushed).trans (ih h)
      · simp at h

theorem pushAll_ok (w : Writer) (ps : List Piece)
    (room : w.Admits (ps.flatMap Piece.octets).length) : ∃ v, w.pushAll ps = (.ok (), v) := by
  induction ps generalizing w with
  | nil => exact ⟨w, rfl⟩
  | cons p ps ih =>
      simp only [List.flatMap_cons, List.length_append] at room
      obtain ⟨middle, pushed⟩ := w.push_ok p (room.mono (by omega))
      obtain ⟨v, rest⟩ := ih middle (((push_adds pushed).admits _).mpr room)
      exact ⟨v, by simp [pushAll, pushed, rest]⟩

/-! ## Rows -/

theorem writeRow_adds {w v : Writer} {fields : List Bytes} (h : w.writeRow fields = (.ok (), v)) :
    Adds w v (encodeRow fields) 1 := by
  unfold writeRow at h
  split at h
  · rename_i pushed ok
    simp only [Prod.mk.injEq, true_and] at h
    subst h
    have step := pushAll_adds ok
    exact ⟨step.taken, step.admits, congrArg (· + 1) step.rows⟩
  · simp at h

theorem writeRow_ok (w : Writer) (fields : List Bytes) (room : w.Admits (encodeRow fields).length) :
    ∃ v, w.writeRow fields = (.ok (), v) := by
  obtain ⟨pushed, ok⟩ := w.pushAll_ok (rowPieces fields) room
  exact ⟨{ pushed with rows := pushed.rows + 1 }, by simp [writeRow, ok]⟩

theorem writeAll_adds {w v : Writer} {rows : List (List Bytes)}
    (h : w.writeAll rows = (.ok (), v)) : Adds w v (encodeRows rows) rows.length := by
  induction rows generalizing w with
  | nil =>
      simp only [writeAll, Prod.mk.injEq, true_and] at h
      subst h
      exact .refl w
  | cons row rows ih =>
      unfold writeAll at h
      split at h
      · rename_i middle written
        rw [List.length_cons, Nat.add_comm]
        exact (writeRow_adds written).trans (ih h)
      · simp at h

theorem writeAll_ok (w : Writer) (rows : List (List Bytes))
    (room : w.Admits (encodeRows rows).length) : ∃ v, w.writeAll rows = (.ok (), v) := by
  induction rows generalizing w with
  | nil => exact ⟨w, rfl⟩
  | cons row rows ih =>
      simp only [encodeRows_cons, List.length_append] at room
      obtain ⟨middle, written⟩ := w.writeRow_ok row (room.mono (by omega))
      obtain ⟨v, rest⟩ := ih middle (((writeRow_adds written).admits _).mpr room)
      exact ⟨v, by simp [writeAll, written, rest]⟩

end Writer

end SymbolExport.Csv
