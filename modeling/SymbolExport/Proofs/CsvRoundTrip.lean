import SymbolExport.Proofs.Writing

/-! # Reading rows back

A reader of comma-separated rows, octet by octet: fields may stand between quotes, a quote inside such
a field is doubled, and outside quotes a row ends in a carriage return, a line feed or both. Rows may
have any number of fields, and there is no header. Text that breaks these rules is refused. Whether a
line without any octet is a row is left to the reader's caller, and no written text depends on it.

The main statement is that whatever rows are written, the reader finds the same rows again.
-/

namespace SymbolExport.Csv

/-- What an octet means to the reader. -/
inductive Sign where
  | quote
  | comma
  | lineFeed
  | carriageReturn
  | plain
deriving DecidableEq

def Sign.of (b : UInt8) : Sign :=
  if b = Csv.quote then .quote
  else if b = Csv.comma then .comma
  else if b = Csv.lineFeed then .lineFeed
  else if b = Csv.carriageReturn then .carriageReturn
  else .plain

/-- Where the reader is. -/
inductive Mode where
  /-- In front of a row. -/
  | rowStart
  /-- In front of a row, behind a carriage return: a line feed still belongs to the last end. -/
  | returned
  /-- Behind a comma. -/
  | fieldStart
  /-- In a field without quotes. -/
  | bare
  /-- Between quotes. -/
  | quoted
  /-- Behind a quote that ends a field, unless it is the first of two. -/
  | closing
deriving DecidableEq

structure Reader where
  mode : Mode := .rowStart
  /-- The octets of the present field. -/
  field : Bytes := []
  /-- The fields in front of it in its row. -/
  fields : List Bytes := []
  rows : List (List Bytes) := []

namespace Reader

def keep (s : Reader) (mode : Mode) (b : UInt8) : Reader :=
  { s with mode, field := s.field ++ [b] }

def endField (s : Reader) : Reader :=
  { s with mode := .fieldStart, field := [], fields := s.fields ++ [s.field] }

def endRow (s : Reader) (mode : Mode) : Reader where
  mode := mode
  rows := s.rows ++ [s.fields ++ [s.field]]

/-- The end of a line that has nothing on it. -/
def endBlank (blankIsRow : Bool) (s : Reader) (mode : Mode) : Reader :=
  if blankIsRow then s.endRow mode else { s with mode }

def step (blankIsRow : Bool) (s : Reader) (b : UInt8) : Option Reader :=
  match s.mode, Sign.of b with
  | .quoted, .quote => some { s with mode := .closing }
  | .quoted, _ => some (s.keep .quoted b)
  | .closing, .quote => some (s.keep .quoted b)
  | .closing, .plain => none
  | .bare, .quote => none
  | _, .quote => some { s with mode := .quoted }
  | _, .plain => some (s.keep .bare b)
  | _, .comma => some s.endField
  | .returned, .lineFeed => some { s with mode := .rowStart }
  | .rowStart, .lineFeed => some (s.endBlank blankIsRow .rowStart)
  | .rowStart, .carriageReturn => some (s.endBlank blankIsRow .returned)
  | .returned, .carriageReturn => some (s.endBlank blankIsRow .returned)
  | _, .lineFeed => some (s.endRow .rowStart)
  | _, .carriageReturn => some (s.endRow .returned)

/-- The rows at the end of a text; a last row needs no end of its own. -/
def finish (s : Reader) : Option (List (List Bytes)) :=
  match s.mode with
  | .rowStart => some s.rows
  | .returned => some s.rows
  | .quoted => none
  | _ => some (s.endRow .rowStart).rows

end Reader

def readRows (blankIsRow : Bool) (text : Bytes) : Option (List (List Bytes)) :=
  (text.foldlM (Reader.step blankIsRow) {}).bind Reader.finish

/-- The number of rows and the octets that writing rows and finishing gives. -/
def document (rows : List (List Bytes)) : Except IoFault (Nat × Bytes) :=
  match ({} : Writer).writeAll rows with
  | (.error fault, _) => .error fault
  | (.ok (), w) =>
      match w.flush with
      | (.error fault, _) => .error fault
      | (.ok (), flushed) => .ok (w.rows, flushed.sink.received)

/-- The row that a written row reads as: a row has at least one field. -/
def legible (row : List Bytes) : List Bytes :=
  if row = [] then [[]] else row

/-! ## Octets -/

@[simp] theorem Sign.of_quote : Sign.of Csv.quote = .quote := by decide

@[simp] theorem Sign.of_comma : Sign.of Csv.comma = .comma := by decide

@[simp] theorem Sign.of_lineFeed : Sign.of Csv.lineFeed = .lineFeed := by decide

theorem Sign.of_plain {b : UInt8} (h : isSpecial b = false) : Sign.of b = .plain := by
  simp only [isSpecial, Bool.or_eq_false_iff, beq_eq_false_iff_ne, ne_eq] at h
  obtain ⟨⟨⟨comma, quote⟩, carriageReturn⟩, lineFeed⟩ := h
  simp [Sign.of, quote, comma, lineFeed, carriageReturn]

theorem Sign.of_ne_quote {b : UInt8} (h : b ≠ Csv.quote) : Sign.of b ≠ .quote := by
  unfold Sign.of
  rw [if_neg h]
  split
  · simp
  · split
    · simp
    · split <;> simp

namespace Reader

/-- A text takes the reader from one state to another. -/
def Reads (blankIsRow : Bool) (s t : Reader) (text : Bytes) : Prop :=
  text.foldlM (step blankIsRow) s = some t

variable {blankIsRow : Bool}

theorem Reads.refl (s : Reader) : Reads blankIsRow s s [] := rfl

theorem Reads.cons {s t u : Reader} {b : UInt8} {text : Bytes}
    (first : s.step blankIsRow b = some t) (rest : Reads blankIsRow t u text) :
    Reads blankIsRow s u (b :: text) := by
  simpa [Reads, List.foldlM_cons, first] using rest

theorem Reads.append {s t u : Reader} {text more : Bytes}
    (first : Reads blankIsRow s t text) (rest : Reads blankIsRow t u more) :
    Reads blankIsRow s u (text ++ more) := by
  unfold Reads at first rest ⊢
  rw [List.foldlM_append, first]
  exact rest

/-! ## Fields -/

variable (blankIsRow)

def Opening (s : Reader) : Prop :=
  (s.mode = .rowStart ∨ s.mode = .fieldStart) ∧ s.field = []

/-- A field without special octets leaves the reader in it, or where it was if it is empty. -/
theorem reads_bare (s : Reader) (field : Bytes) (plain : ∀ b ∈ field, isSpecial b = false)
    (mode : s.mode = .rowStart ∨ s.mode = .fieldStart ∨ s.mode = .bare) :
    Reads blankIsRow s
      { s with mode := if field = [] then s.mode else .bare, field := s.field ++ field } field := by
  induction field generalizing s with
  | nil => simpa using Reads.refl s
  | cons b field ih =>
      have sign := Sign.of_plain (plain b (by simp))
      have first : s.step blankIsRow b = some (s.keep .bare b) := by
        rcases mode with mode | mode | mode <;> simp [step, mode, sign]
      have rest := ih (s.keep .bare b) (fun c member => plain c (by simp [member]))
        (.inr (.inr rfl))
      refine Reads.cons first ?_
      simpa [keep] using rest

/-- Between quotes every octet of the field is found again, its quotes doubled. -/
theorem reads_quoted (s : Reader) (field : Bytes) (mode : s.mode = .quoted) :
    Reads blankIsRow s { s with field := s.field ++ field }
      ((field.map quotedPiece).flatMap Piece.octets) := by
  induction field generalizing s with
  | nil => simpa using Reads.refl s
  | cons b field ih =>
      have rest := ih (s.keep .quoted b) rfl
      simp only [List.map_cons, List.flatMap_cons]
      by_cases doubled : b = Csv.quote
      · have first : s.step blankIsRow Csv.quote = some { s with mode := .closing } := by
          simp [step, mode]
        have second : { s with mode := .closing }.step blankIsRow Csv.quote =
            some (s.keep .quoted b) := by
          simp [step, keep, doubled]
        simp only [quotedPiece, doubled, if_true, Piece.octets]
        refine Reads.cons first (Reads.cons second ?_)
        simpa [keep, mode, doubled] using rest
      · have sign := Sign.of_ne_quote doubled
        have first : s.step blankIsRow b = some (s.keep .quoted b) := by
          simp only [step, mode]
        simp only [quotedPiece, doubled, if_false, Piece.octets]
        refine Reads.cons first ?_
        simpa [keep, mode] using rest

/-- What is written for a field leaves the reader behind that field. Only an empty field that is
written as nothing leaves it where it was. -/
theorem reads_field (s : Reader) (field : Bytes) (opening : s.Opening) :
    ∃ mode, Reads blankIsRow s { s with mode, field } ((fieldPieces field).flatMap Piece.octets) ∧
      (mode = .closing ∨ mode = .bare ∨ field = [] ∧ mode = s.mode) := by
  obtain ⟨mode, empty⟩ := opening
  by_cases special : field.any isSpecial = true
  · refine ⟨.closing, ?_, .inl rfl⟩
    have opened : s.step blankIsRow Csv.quote = some { s with mode := .quoted } := by
      rcases mode with mode | mode <;> simp [step, mode]
    have inside := reads_quoted blankIsRow { s with mode := .quoted } field rfl
    have closed : ({ s with mode := .quoted, field } : Reader).step blankIsRow Csv.quote =
        some { s with mode := .closing, field } := by
      simp [step]
    simp only [fieldPieces, special, if_true, List.flatMap_cons, List.flatMap_append,
      List.flatMap_nil, List.append_nil, Piece.octets, List.cons_append, List.nil_append]
    refine Reads.cons opened (Reads.append ?_ (Reads.cons closed (.refl _)))
    simpa [empty] using inside
  · have plain : ∀ b ∈ field, isSpecial b = false := by simpa using special
    refine ⟨if field = [] then s.mode else .bare, ?_, ?_⟩
    · have bare := reads_bare blankIsRow s field plain (mode.imp_right .inl)
      simpa [fieldPieces, special, List.flatMap_map, Piece.octets, empty] using bare
    · by_cases none : field = [] <;> simp [none]

/-! ## Rows -/

theorem fieldPieces_ne_nil {field : Bytes} (h : field ≠ []) : fieldPieces field ≠ [] := by
  unfold fieldPieces
  split <;> simp [h]

theorem fieldsPieces_ne_nil {fields : List Bytes} (nonempty : fields ≠ []) (trace : fields ≠ [[]]) :
    fieldsPieces fields ≠ [] := by
  match fields with
  | [] => exact absurd rfl nonempty
  | [field] => exact fieldPieces_ne_nil (by simpa using trace)
  | field :: other :: others => simp [fieldsPieces]

theorem step_comma {s : Reader} (h : s.mode ≠ .quoted) :
    s.step blankIsRow Csv.comma = some s.endField := by
  cases mode : s.mode <;> simp_all [step]

theorem step_lineFeed {s : Reader}
    (h : s.mode = .closing ∨ s.mode = .bare ∨ s.mode = .fieldStart) :
    s.step blankIsRow Csv.lineFeed = some (s.endRow .rowStart) := by
  rcases h with mode | mode | mode <;> simp [step, mode]

/-- Fields that leave a trace are read up to the end of their line. -/
theorem reads_fields (s : Reader) (fields : List Bytes) (opening : s.Opening) (nonempty : fields ≠ [])
    (trace : s.mode = .fieldStart ∨ fields ≠ [[]]) :
    Reads blankIsRow s { rows := s.rows ++ [s.fields ++ fields] }
      ((fieldsPieces fields).flatMap Piece.octets ++ [Csv.lineFeed]) := by
  -- One field at a time: behind a comma the reader is in front of the next field again.
  induction fields generalizing s with
  | nil => exact absurd rfl nonempty
  | cons field others ih =>
      obtain ⟨mode, first, place⟩ := reads_field blankIsRow s field opening
      cases others with
      | nil =>
          have ends : mode = .closing ∨ mode = .bare ∨ mode = .fieldStart := by
            rcases place with closing | bare | ⟨rfl, same⟩
            · exact .inl closing
            · exact .inr (.inl bare)
            · exact .inr (.inr (same.trans (trace.resolve_right (by simp))))
          exact first.append (Reads.cons (step_lineFeed blankIsRow ends) (.refl _))
      | cons other others =>
          have unquoted : mode ≠ .quoted := by
            rcases place with rfl | rfl | ⟨_, rfl⟩
            · simp
            · simp
            · rcases opening.1 with same | same <;> simp [same]
          have rest := ih { s with mode, field }.endField ⟨.inr rfl, rfl⟩ (by simp) (.inl rfl)
          have comma := step_comma blankIsRow (s := { s with mode, field }) unquoted
          simp only [fieldsPieces, List.flatMap_append, List.flatMap_cons, Piece.octets,
            List.append_assoc, List.cons_append, List.nil_append]
          refine first.append (Reads.cons comma ?_)
          simpa [endField] using rest

/-- Each written row is read as one row, wherever it stands. -/
theorem reads_row (s : Reader) (row : List Bytes) (atStart : s.mode = .rowStart)
    (empty : s.field = []) (first : s.fields = []) :
    Reads blankIsRow s { rows := s.rows ++ [legible row] } (encodeRow row) := by
  by_cases traceless : row = [] ∨ row = [[]]
  · -- Nothing would be written for such a row, so it is a pair of quotes.
    have opened : s.step blankIsRow Csv.quote = some { s with mode := .quoted } := by
      simp [step, atStart]
    have closed : { s with mode := .quoted }.step blankIsRow Csv.quote =
        some { s with mode := .closing } := by
      simp [step]
    have ended := step_lineFeed blankIsRow (s := { s with mode := .closing }) (.inl rfl)
    have text : encodeRow row = [Csv.quote, Csv.quote, Csv.lineFeed] := by
      rcases traceless with rfl | rfl <;> rfl
    have same : legible row = [[]] := by rcases traceless with rfl | rfl <;> rfl
    rw [text, same]
    refine Reads.cons opened (Reads.cons closed (Reads.cons ended ?_))
    simp [Reads, endRow, empty, first]
  · obtain ⟨nonempty, trace⟩ := not_or.mp traceless
    have text : encodeRow row =
        (fieldsPieces row).flatMap Piece.octets ++ [Csv.lineFeed] := by
      have written := fieldsPieces_ne_nil nonempty trace
      unfold encodeRow rowPieces
      split
      · contradiction
      · simp [Piece.octets]
    rw [text, legible, if_neg nonempty]
    simpa [first] using reads_fields blankIsRow s row ⟨.inl atStart, empty⟩ nonempty (.inr trace)

theorem reads_rows (s : Reader) (rows : List (List Bytes)) (atStart : s.mode = .rowStart)
    (empty : s.field = []) (first : s.fields = []) :
    Reads blankIsRow s { rows := s.rows ++ rows.map legible } (encodeRows rows) := by
  induction rows generalizing s with
  | nil =>
      cases s
      simp_all [Reads]
  | cons row rows ih =>
      have rest := ih { rows := s.rows ++ [legible row] } rfl rfl rfl
      rw [encodeRows_cons]
      refine (reads_row blankIsRow s row atStart empty first).append ?_
      simpa using rest

end Reader

theorem readRows_encodeRows (blankIsRow : Bool) (rows : List (List Bytes)) :
    readRows blankIsRow (encodeRows rows) = some (rows.map legible) := by
  have run := Reader.reads_rows blankIsRow {} rows rfl rfl rfl
  unfold Reader.Reads at run
  simp [readRows, run, Reader.finish]

@[simp] theorem encodeRow_legible (row : List Bytes) : encodeRow (legible row) = encodeRow row := by
  unfold legible
  split
  · rename_i none
    rw [none]
    rfl
  · rfl

@[simp] theorem encodeRows_legible (rows : List (List Bytes)) :
    encodeRows (rows.map legible) = encodeRows rows := by
  induction rows with
  | nil => rfl
  | cons row rows ih => simp [ih]

/-- Writing rows into a sink without limit succeeds and gives the octets of the rows. -/
theorem document_eq (rows : List (List Bytes)) :
    document rows = .ok (rows.length, encodeRows rows) := by
  have room : ({} : Writer).Admits (encodeRows rows).length := by
    simp [Writer.Admits, Sink.Admits]
  obtain ⟨w, written⟩ := ({} : Writer).writeAll_ok rows room
  have adds := Writer.writeAll_adds written
  obtain ⟨flushed, ok⟩ := w.flush_ok_iff.mpr ((adds.admits 0).mpr room)
  have received := (Writer.flush_adds ok).2.1
  have taken : w.taken = encodeRows rows := by
    simpa [Writer.taken, Sink.received] using adds.taken
  have count : w.rows = rows.length := by simpa using adds.rows
  simp [document, written, ok, received, taken, count]

/-- Whatever rows are written, the text is well formed and holds the same rows, as many as were
counted, and writing what was read gives the same text again. -/
theorem written_rows_read_back (blankIsRow : Bool) (rows : List (List Bytes)) :
    ∃ count text found, document rows = .ok (count, text) ∧
      readRows blankIsRow text = some found ∧ found = rows.map legible ∧
      found.length = count ∧ document found = .ok (count, text) := by
  refine ⟨rows.length, encodeRows rows, rows.map legible, document_eq rows,
    readRows_encodeRows blankIsRow rows, rfl, List.length_map _, ?_⟩
  rw [document_eq, encodeRows_legible, List.length_map]

end SymbolExport.Csv
