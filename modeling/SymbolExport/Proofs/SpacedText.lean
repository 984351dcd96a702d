import SymbolExport.Proofs.ReadingPresentations
import SymbolExport.Proofs.ReadingResults

/-!
# Texts with white space

JSON texts as people write them, with white space wherever it may stand. All of them can be skipped.
A reader that looks for a value of one kind may find one of another, so it need not give anything;
what is said here is what it gives and leaves if it does.
-/

namespace SymbolExport.Json

/-- A JSON text with white space between its tokens. -/
inductive Spaced where
  | null
  | bool (b : Bool)
  | number (n : NumberText)
  | text (ps : List Piece)
  | emptyList (inside : Gap)
  | list (items : List (Gap × Spaced × Gap))
  | emptyObject (inside : Gap)
  | object (fields : List (Gap × List Piece × Gap × Gap × Spaced × Gap))

mutual

def Spaced.chars : Spaced → List Char
  | .null => Json.chars .null
  | .bool b => boolChars b
  | .number n => n.chars
  | .text ps => quoted ps
  | .emptyList inside => '[' :: (inside.chars ++ [']'])
  | .list items => enclosed '[' ']' (Spaced.itemTexts items)
  | .emptyObject inside => '\x7b' :: (inside.chars ++ ['\x7d'])
  | .object fields => enclosed '\x7b' '\x7d' (Spaced.fieldTexts fields)

def Spaced.itemTexts : List (Gap × Spaced × Gap) → List (List Char)
  | [] => []
  | (before, value, after) :: items =>
      (before.chars ++ (value.chars ++ after.chars)) :: Spaced.itemTexts items

def Spaced.fieldTexts : List (Gap × List Piece × Gap × Gap × Spaced × Gap) → List (List Char)
  | [] => []
  | (before, key, behind, front, value, after) :: fields =>
      (before.chars ++ (quoted key ++ (behind.chars ++
        ':' :: (front.chars ++ (value.chars ++ after.chars))))) :: Spaced.fieldTexts fields

end

namespace Spaced

mutual

theorem skippable : (v : Spaced) → Skippable v.chars
  | .null => .null
  | .bool b => .bool b
  | .number n => .number n
  | .text ps => .text ps
  | .emptyList inside => .empty inside (.inl rfl)
  | .list items => .list (skippable_items items)
  | .emptyObject inside => .empty inside (.inr rfl)
  | .object fields => .object (skippable_fields fields)

theorem skippable_items :
    (items : List (Gap × Spaced × Gap)) → ∀ text ∈ itemTexts items, SkippableItem text
  | [], _, within => by cases within
  | (before, value, after) :: items, chars, within => by
      rw [itemTexts, List.mem_cons] at within
      rcases within with rfl | within
      · exact ⟨before, after, value.chars, rfl, skippable value⟩
      · exact skippable_items items chars within

theorem skippable_fields : (fields : List (Gap × List Piece × Gap × Gap × Spaced × Gap)) →
    ∀ text ∈ fieldTexts fields, SkippableField text
  | [], _, within => by cases within
  | (before, key, behind, front, value, after) :: fields, chars, within => by
      rw [fieldTexts, List.mem_cons] at within
      rcases within with rfl | within
      · exact ⟨before, behind, key, _, rfl, front, after, value.chars, rfl, skippable value⟩
      · exact skippable_fields fields chars within

end

end Spaced

/-- Over the input, whatever the reader gives and leaves has a property. -/
def Allows {α : Type} (reader : Reader α) (input : Bytes) (post : α → Bytes → Prop) : Prop :=
  ∀ c : Cursor, c.rest = input → ∀ a c', reader c = .ok (a, c') → post a c'.rest

namespace Allows

variable {α β : Type} {input middle rest : Bytes} {post : α → Bytes → Prop}

theorem pure {a : α} (holds : post a input) : Allows (Pure.pure a) input post := by
  intro c here a' c' same
  cases same
  rw [here]
  exact holds

theorem fail (cause : Cause) : Allows (Reader.fail cause) input post :=
  fun _ _ _ _ same => nomatch same

theorem failAhead (cause : Cause) : Allows (Reader.failAhead cause) input post :=
  fun _ _ _ _ same => nomatch same

theorem bind {reader : Reader β} {next : β → Reader α} {between : β → Bytes → Prop}
    (first : Allows reader input between)
    (second : ∀ b middle, between b middle → Allows (next b) middle post) :
    Allows (reader >>= next) input post := by
  intro c here a c' same
  change (reader c >>= fun p => next p.1 p.2) = .ok (a, c') at same
  cases read : reader c with
  | error fault => rw [read] at same; cases same
  | ok p =>
      rw [read] at same
      exact second p.1 p.2.rest (first c here p.1 p.2 read) p.2 rfl a c' same

/-- Where nothing is known of the first step. -/
theorem skip {reader : Reader β} {next : β → Reader α}
    (second : ∀ b middle, Allows (next b) middle post) : Allows (reader >>= next) input post := by
  have any : Allows reader input fun _ _ => True := fun _ _ _ _ _ => trivial
  exact bind any fun b middle _ => second b middle

/-- Where the first step never succeeds. -/
theorem stop {reader : Reader β} (first : Allows reader input fun _ _ => False)
    (next : β → Reader α) : Allows (reader >>= next) input post :=
  bind first fun _ _ never => never.elim

theorem mono {reader : Reader α} {before : α → Bytes → Prop} (allows : Allows reader input before)
    (weaker : ∀ a rest, before a rest → post a rest) : Allows reader input post :=
  fun c here a c' same => weaker a c'.rest (allows c here a c' same)

theorem of_reads {reader : Reader α} {a : α} (reads : Reads reader input a rest)
    (holds : post a rest) : Allows reader input post := by
  intro c here a' c' same
  obtain ⟨c₁, read, behind⟩ := reads c here
  rw [read] at same
  cases same
  rw [behind]
  exact holds

/-- Where the first step is known. -/
theorem after {reader : Reader β} {next : β → Reader α} {b : β} (first : Reads reader input b middle)
    (second : Allows (next b) middle post) : Allows (reader >>= next) input post := by
  have known : Allows reader input fun b' left => b' = b ∧ left = middle :=
    of_reads first ⟨rfl, rfl⟩
  refine bind known ?_
  rintro _ _ ⟨rfl, rfl⟩
  exact second

theorem of_continues {reader last : Reader α} (continues : Continues reader last input rest)
    (allows : Allows last rest post) : Allows reader input post := by
  intro c here a c' same
  obtain ⟨c₁, there, equal⟩ := continues c here
  rw [equal] at same
  exact allows c₁ there a c' same

theorem of_ensures {reader : Reader α} (never : Ensures reader fun _ => False) :
    Allows reader input post :=
  fun c _ a c' same => (never.holds c a c' same).elim

theorem run {reader : Reader α} (allows : Allows reader input post) {a : α}
    (same : Reader.run reader input = .ok a) : ∃ rest, post a rest := by
  have whole : Allows (do let a ← reader; Reader.finish; Pure.pure a : Reader α) input
      fun a _ => ∃ rest, post a rest :=
    bind allows fun _ rest holds => skip fun _ _ => pure ⟨rest, holds⟩
  obtain ⟨c, read⟩ := Reader.run_eq_ok_iff.mp same
  exact whole _ rfl a c read

end Allows

/-! ## Strings of any pieces -/

theorem ShortEscape.octets_letter (e : ShortEscape) :
    ∃ b, octets [e.letter] = [b] ∧ b ≠ 0x75 := by
  cases e <;> exact ⟨_, rfl, by decide⟩

namespace Allows

variable {input middle : Bytes} {post : Bytes → Bytes → Prop}

theorem pairOctet_other {expected b : UInt8} (other : b ≠ expected) {rest : Bytes}
    {post : Unit → Bytes → Prop} : Allows (Reader.pairOctet expected) (b :: rest) post := by
  refine after (.bind (.peek (b :: rest)) (.pure b _)) (after (.advance b rest) ?_)
  rw [if_neg other]
  exact fail _

theorem codePoint_low {q : Quad} (isLow : q.IsLow) (rest : Bytes) :
    Allows Reader.codePoint (octets q.chars ++ rest) post := by
  unfold Quad.IsLow at isLow
  refine after (.hexQuad q rest) ?_
  rw [if_pos isLow]
  exact fail _

/-- Behind the first half of a surrogate pair only the second half is read. -/
theorem codePoint_high {q : Quad} (isHigh : q.IsHigh) {rest : Bytes}
    (second : Allows (do
      Reader.pairOctet 0x5C
      Reader.pairOctet 0x75
      let m ← Reader.hexQuad
      if m < 0xDC00 ∨ 0xDFFF < m then Reader.fail .loneSurrogate
      else Pure.pure (Reader.encoded ((q.value - 0xD800) * 0x400 + (m - 0xDC00) + 0x10000)))
      rest post) : Allows Reader.codePoint (octets q.chars ++ rest) post := by
  unfold Quad.IsHigh at isHigh
  refine after (.hexQuad q rest) ?_
  rw [if_neg (by omega), if_neg (by omega)]
  exact second

theorem textOctets_escape {first : Bytes} (escape : Reads Reader.escape input first middle)
    (others : ∀ fuel,
      Allows (Reader.textOctets fuel) middle fun more left => post (first ++ more) left)
    (fuel : Nat) : Allows (Reader.textOctets fuel) (0x5C :: input) post := by
  cases fuel with
  | zero => exact fail _
  | succ fuel =>
      refine after (.peek _) (after (.advance 0x5C input) (after escape ?_))
      exact bind (others fuel) fun more left holds => pure holds

theorem textOctets_badCode (code : Allows Reader.codePoint input fun _ _ => False) (fuel : Nat) :
    Allows (Reader.textOctets fuel) (0x5C :: 0x75 :: input) post := by
  cases fuel with
  | zero => exact fail _
  | succ fuel =>
      refine after (.peek _) (after (.advance 0x5C _) (stop ?_ _))
      exact after (.next 0x75 input) code

theorem textOctets_plain {bs : Bytes} (plain : ∀ b ∈ bs, b ≠ 0x22 ∧ b ≠ 0x5C ∧ ¬b < 0x20)
    {post : Bytes → Bytes → Prop}
    (others : ∀ fuel, Allows (Reader.textOctets fuel) input fun more left => post (bs ++ more) left)
    (fuel : Nat) : Allows (Reader.textOctets fuel) (bs ++ input) post := by
  induction bs generalizing fuel post with
  | nil => exact others fuel
  | cons b bs ih =>
      rw [List.forall_mem_cons] at plain
      obtain ⟨⟨notQuote, notBackslash, printable⟩, plain⟩ := plain
      cases fuel with
      | zero => exact fail _
      | succ fuel =>
          refine after (.peek (b :: (bs ++ input))) ?_
          show Allows (if b = 0x22 then _ else _) _ _
          rw [if_neg notQuote]
          refine after (.advance b (bs ++ input)) ?_
          rw [if_neg notBackslash, if_neg printable]
          exact bind (ih plain others fuel) fun more left holds => pure holds

/-- What is read from pieces spells a text with its octets. -/
def TextOf (ps : List Piece) (rest out left : Bytes) : Prop :=
  left = 0x22 :: rest ∧ ∃ cs, Spells ps cs ∧ out = octets cs

theorem TextOf.cons {ps qs : List Piece} {rest out left : Bytes} {c : Char}
    (piece : ∀ cs, Spells ps cs → Spells qs (c :: cs)) (text : TextOf ps rest out left) :
    TextOf qs rest (String.utf8EncodeChar c ++ out) left := by
  obtain ⟨behind, cs, spells, rfl⟩ := text
  exact ⟨behind, c :: cs, piece cs spells, (octets_cons c cs).symm⟩

/-- The first half of a surrogate pair is not read where the second half is missing. -/
theorem codePoint_alone {high : Quad} (isHigh : high.IsHigh) {ps : List Piece}
    (alone : ∀ low qs, ps = .code low :: qs → ¬low.IsLow) (rest : Bytes) :
    Allows Reader.codePoint
      (octets high.chars ++ (octets (ps.flatMap Piece.chars) ++ 0x22 :: rest)) post := by
  refine codePoint_high isHigh ?_
  cases ps with
  | nil => exact stop (pairOctet_other (by decide)) _
  | cons p ps =>
      rw [List.flatMap_cons, octets_append, List.append_assoc]
      cases p with
      | plain c plain =>
          rw [Piece.chars, octets_cons, octets_nil, List.append_nil]
          have octets := octets_of_plain plain
          cases start : String.utf8EncodeChar c with
          | nil => exact absurd start String.utf8EncodeChar_ne_nil
          | cons b more =>
              have notBackslash := (octets b (by rw [start]; exact List.mem_cons_self)).2.1
              exact stop (pairOctet_other notBackslash) _
      | short e =>
          obtain ⟨b, letter, other⟩ := e.octets_letter
          have escape : octets (Piece.short e).chars = 0x5C :: [b] := by
            rw [← letter]
            rfl
          rw [escape]
          exact after (.pairOctet 0x5C _) (stop (pairOctet_other other) _)
      | code low =>
          have notLow := alone low ps rfl
          unfold Quad.IsLow at notLow
          refine after (.pairOctet 0x5C _) (after (.pairOctet 0x75 _) (after (.hexQuad low _) ?_))
          rw [if_pos (by omega)]
          exact fail _

/-- Pieces whose octets are read spell a text, and the octets are those of the text. -/
theorem textOctets : (ps : List Piece) → (rest : Bytes) → (fuel : Nat) →
    Allows (Reader.textOctets fuel) (octets (ps.flatMap Piece.chars) ++ 0x22 :: rest)
      (TextOf ps rest)
  | [], rest, 0 => fail _
  | [], rest, fuel + 1 => of_reads (.textOctets_end fuel rest) ⟨rfl, [], .nil, rfl⟩
  | .plain c plain :: ps, rest, fuel => by
      rw [List.flatMap_cons, octets_append, List.append_assoc, Piece.chars, octets_cons, octets_nil,
        List.append_nil]
      refine textOctets_plain (octets_of_plain plain) (fun fuel => ?_) fuel
      exact (textOctets ps rest fuel).mono fun _ _ => .cons fun _ => .plain c plain
  | .short e :: ps, rest, fuel => by
      rw [List.flatMap_cons, octets_append, List.append_assoc]
      refine textOctets_escape (.escape_short e _) (fun fuel => ?_) fuel
      exact (textOctets ps rest fuel).mono fun _ _ => .cons fun _ => .short e
  | .code q :: ps, rest, fuel => by
      rw [List.flatMap_cons, octets_append, List.append_assoc]
      by_cases isLow : q.IsLow
      · exact textOctets_badCode (codePoint_low isLow _) fuel
      by_cases isHigh : q.IsHigh
      · -- The other half of a pair can only be the next piece.
        cases ps with
        | nil => exact textOctets_badCode (codePoint_alone isHigh (by rintro _ _ ⟨⟩) rest) fuel
        | cons p ps =>
            cases p with
            | plain c plain =>
                exact textOctets_badCode (codePoint_alone isHigh (by rintro _ _ ⟨⟩) rest) fuel
            | short e =>
                exact textOctets_badCode (codePoint_alone isHigh (by rintro _ _ ⟨⟩) rest) fuel
            | code low =>
                by_cases second : low.IsLow
                · rw [List.flatMap_cons, octets_append, List.append_assoc]
                  refine textOctets_escape (.escape_code (.codePoint_pair isHigh second _))
                    (fun fuel => ?_) fuel
                  exact (textOctets ps rest fuel).mono fun _ _ =>
                    .cons fun _ => .pair q low isHigh second
                · have alone : ∀ low' qs, Piece.code low :: ps = .code low' :: qs → ¬low'.IsLow := by
                    rintro _ _ ⟨⟩
                    exact second
                  exact textOctets_badCode (codePoint_alone isHigh alone rest) fuel
      · refine textOctets_escape (.escape_code (.codePoint isHigh isLow _)) (fun fuel => ?_) fuel
        exact (textOctets ps rest fuel).mono fun _ _ => .cons fun _ => .code q isHigh isLow

/-- A string is read only if its pieces spell it, and up to its closing quote. -/
theorem text (ps : List Piece) (rest : Bytes) :
    Allows Reader.text (octets (ps.flatMap Piece.chars) ++ 0x22 :: rest)
      fun s left => left = rest ∧ Spells ps s.toList := by
  refine after (.remaining _) (bind (textOctets ps rest _) ?_)
  rintro _ _ ⟨rfl, cs, spells, rfl⟩
  have whole : Bytes.toString? (octets cs) = some (.ofList cs) := by
    rw [← ofString_ofList, Bytes.toString?_ofString]
  rw [whole]
  refine after (.advance 0x22 rest) (pure ⟨rfl, ?_⟩)
  rw [String.toList_ofList]
  exact spells

end Allows

/-! ## Values of any kind -/

theorem octets_quoted (ps : List Piece) (rest : Bytes) :
    octets (quoted ps) ++ rest = 0x22 :: (octets (ps.flatMap Piece.chars) ++ 0x22 :: rest) := by
  rw [quoted, octets_cons, octets_append, List.append_assoc, List.append_assoc]
  rfl

/-- A number starts with a sign or a digit, unlike any other value. -/
theorem NumberText.octets_chars (n : NumberText) : ∃ b more, octets n.chars = b :: more ∧
    (b = 0x2D ∨ Reader.isDigit b = true) := by
  unfold NumberText.chars
  split
  · exact ⟨0x2D, octets n.unsignedChars, rfl, .inl rfl⟩
  · rw [NumberText.unsignedChars, octets_append, n.whole.octets_chars, List.cons_append]
    exact ⟨_, _, rfl, .inr n.whole.first.isDigit_octet⟩

theorem NumberText.not_special (n : NumberText) : ∃ b more, octets n.chars = b :: more ∧
    Cursor.isSpace b = false ∧ b ≠ 0x22 ∧ b ≠ 0x74 ∧ b ≠ 0x66 ∧ b ≠ 0x6E ∧ b ≠ 0x7B := by
  obtain ⟨b, more, starts, sign⟩ := n.octets_chars
  refine ⟨b, more, starts, ?_⟩
  rcases sign with rfl | digit
  · decide
  · have visible : Cursor.isSpace b = false := Opens.visible (by simp [Opens, digit])
    refine ⟨visible, ?_, ?_, ?_, ?_, ?_⟩ <;> (rintro rfl; contradiction)

theorem Reader.get_of_lookupName {n : Nat} {names : Vector String n} {name : String} {i : Fin n}
    (found : Reader.lookupName names name = some i) : names.get i = name := by
  unfold Reader.lookupName Vector.finIdxOf? at found
  obtain ⟨j, index, rfl⟩ := Option.map_eq_some_iff.mp found
  exact (Array.finIdxOf?_eq_some_iff.mp index).1

namespace Allows

variable {rest : Bytes}

theorem mistyped {α : Type} {input : Bytes} {post : α → Bytes → Prop} (expected : String) :
    Allows (Reader.mistyped expected : Reader α) input post :=
  of_ensures (.mistyped expected)

theorem stringOf_other {b : UInt8} (visible : Cursor.isSpace b = false) (other : b ≠ 0x22)
    {expected : String} {more : Bytes} {post : String → Bytes → Prop} :
    Allows (Reader.stringOf expected) (b :: more) post := by
  refine after (.peekToken visible more) ?_
  split
  · contradiction
  · next quote => exact absurd (Option.some.inj quote) other
  · exact mistyped _

/-- A string is asked for: if there is one, it is what its pieces spell. -/
theorem stringOf (expected : String) (v : Spaced) :
    Allows (Reader.stringOf expected) (octets v.chars ++ rest)
      fun s left => left = rest ∧ ∃ ps, v = .text ps ∧ Spells ps s.toList := by
  cases v with
  | text ps =>
      rw [Spaced.chars, octets_quoted]
      refine after (.peekToken rfl _) (after (.advance 0x22 _) ?_)
      exact (Allows.text ps rest).mono fun s left holds => ⟨holds.1, ps, rfl, holds.2⟩
  | number n =>
      obtain ⟨b, more, starts, visible, notQuote, _⟩ := n.not_special
      rw [Spaced.chars, starts]
      exact stringOf_other visible notQuote
  | null => exact stringOf_other rfl (by decide)
  | bool b => cases b <;> exact stringOf_other rfl (by decide)
  | emptyList inside => exact stringOf_other rfl (by decide)
  | list items => exact stringOf_other rfl (by decide)
  | emptyObject inside => exact stringOf_other rfl (by decide)
  | object fields => exact stringOf_other rfl (by decide)

theorem flag_other {b : UInt8} (visible : Cursor.isSpace b = false) (notTrue : b ≠ 0x74)
    (notFalse : b ≠ 0x66) {more : Bytes} {post : Bool → Bytes → Prop} :
    Allows Reader.flag (b :: more) post := by
  refine after (.peekToken visible more) ?_
  split
  · contradiction
  · next same => exact absurd (Option.some.inj same) notTrue
  · next same => exact absurd (Option.some.inj same) notFalse
  · exact mistyped _

theorem flag (v : Spaced) :
    Allows Reader.flag (octets v.chars ++ rest) fun b left => left = rest ∧ v = .bool b := by
  cases v with
  | bool b =>
      cases b with
      | true => exact of_reads (.bind (.peekToken rfl _) (.bind (.advance _ _)
          (.bind (.word _ rest) (.pure _ rest)))) ⟨rfl, rfl⟩
      | false => exact of_reads (.bind (.peekToken rfl _) (.bind (.advance _ _)
          (.bind (.word _ rest) (.pure _ rest)))) ⟨rfl, rfl⟩
  | number n =>
      obtain ⟨b, more, starts, visible, _, notTrue, notFalse, _⟩ := n.not_special
      rw [Spaced.chars, starts]
      exact flag_other visible notTrue notFalse
  | null => exact flag_other rfl (by decide) (by decide)
  | text ps => exact flag_other rfl (by decide) (by decide)
  | emptyList inside => exact flag_other rfl (by decide) (by decide)
  | list items => exact flag_other rfl (by decide) (by decide)
  | emptyObject inside => exact flag_other rfl (by decide) (by decide)
  | object fields => exact flag_other rfl (by decide) (by decide)

theorem unit_other {b : UInt8} (visible : Cursor.isSpace b = false) (notNull : b ≠ 0x6E)
    {more : Bytes} {post : Unit → Bytes → Prop} : Allows Reader.unit (b :: more) post := by
  refine after (.peekToken visible more) ?_
  split
  · contradiction
  · next same => exact absurd (Option.some.inj same) notNull
  · exact mistyped _

theorem unit (v : Spaced) : Allows Reader.unit (octets v.chars ++ rest) fun _ left => left = rest := by
  cases v with
  | null => exact of_reads (.bind (.peekToken rfl _) (.bind (.advance _ _) (.word _ rest))) rfl
  | number n =>
      obtain ⟨b, more, starts, visible, _, _, _, notNull, _⟩ := n.not_special
      rw [Spaced.chars, starts]
      exact unit_other visible notNull
  | bool b => cases b <;> exact unit_other rfl (by decide)
  | text ps => exact unit_other rfl (by decide)
  | emptyList inside => exact unit_other rfl (by decide)
  | list items => exact unit_other rfl (by decide)
  | emptyObject inside => exact unit_other rfl (by decide)
  | object fields => exact unit_other rfl (by decide)

variable {n : Nat} {names : Vector String n}

theorem knownName (name : String) (left : Bytes) :
    Allows (Reader.knownName names name) left fun i left' => left' = left ∧ names.get i = name := by
  rw [Reader.knownName]
  split
  · next i found =>
      exact pure ⟨rfl, Reader.get_of_lookupName found⟩
  · exact fail _

theorem choice_other {b : UInt8} (visible : Cursor.isSpace b = false) (notText : b ≠ 0x22)
    (notObject : b ≠ 0x7B) {depth : Nat} {more : Bytes} {post : Fin n → Bytes → Prop} :
    Allows (Reader.choice names depth) (b :: more) post := by
  refine after (.peekToken visible more) ?_
  split
  · contradiction
  · next same => exact absurd (Option.some.inj same) notText
  · next same => exact absurd (Option.some.inj same) notObject
  · exact failAhead _

theorem closeName (after : Gap) (texts : List (List Char)) :
    Allows Reader.closeName
      (octets after.chars ++ (octets (joined false texts) ++ 0x7D :: rest)) fun _ left =>
        left = rest := by
  refine of_continues (Continues.gap after _ _) ?_
  cases texts with
  | nil => exact of_reads (.bind (.peekToken rfl _) (.advance 0x7D rest)) rfl
  | cons next texts =>
      rw [octets_joined_next]
      exact Allows.after (.peekToken rfl _) (fail _)

theorem descend {α : Type} {b : UInt8} {more : Bytes} {post : α → Bytes → Prop}
    {inside : Nat → Reader α} (within : ∀ d, Allows (inside d) more post) {depth : Nat} :
    Allows (Reader.descend depth inside) (b :: more) post := by
  cases depth with
  | zero => exact failAhead _
  | succ d => exact Allows.after (.advance b more) (within d)

/-- A name is asked for: it is a string, or the only key of an object. -/
theorem choice (depth : Nat) (v : Spaced) :
    Allows (Reader.choice names depth) (octets v.chars ++ rest) fun i left => left = rest ∧
      ∀ ps, v = .text ps → Spells ps (names.get i).toList := by
  cases v with
  | text ps =>
      rw [Spaced.chars, octets_quoted]
      refine after (.peekToken rfl _) (after (.advance 0x22 _) (bind (Allows.text ps rest) ?_))
      rintro name _ ⟨rfl, spells⟩
      refine (knownName name _).mono ?_
      rintro i _ ⟨rfl, rfl⟩
      refine ⟨rfl, ?_⟩
      rintro _ ⟨⟩
      exact spells
  | object fields =>
      rw [Spaced.chars, octets_object]
      refine after (.peekToken rfl _) (descend fun d => ?_)
      cases fields with
      | nil => exact after (.peekToken rfl _) (failAhead _)
      | cons field fields =>
          obtain ⟨before, key, behind, front, value, last⟩ := field
          rw [Spaced.fieldTexts, octets_joined_first, octets_append, List.append_assoc, octets_colon,
            octets_quoted]
          refine of_continues (Continues.gap before _ _) ?_
          refine after (.peekToken rfl _) (after (.advance 0x22 _) (bind (Allows.text key _) ?_))
          rintro name _ ⟨rfl, _⟩
          refine bind (knownName name _) ?_
          rintro i _ ⟨rfl, _⟩
          refine after ((Continues.gap behind _ _).reads (.colon _)) ?_
          rw [octets_append, octets_append, List.append_assoc, List.append_assoc]
          refine bind (of_continues (Continues.gap front _ _) (unit value)) ?_
          rintro _ _ rfl
          refine bind (closeName last _) ?_
          rintro _ _ rfl
          refine pure ⟨rfl, ?_⟩
          rintro _ ⟨⟩
  | emptyObject inside =>
      rw [Spaced.chars, octets_cons, octets_append, List.append_assoc, List.append_assoc]
      refine after (.peekToken rfl _) (descend fun d => of_continues (Continues.gap inside _ _) ?_)
      exact after (.peekToken rfl _) (failAhead _)
  | number n =>
      obtain ⟨b, more, starts, visible, notText, _, _, _, notObject⟩ := n.not_special
      rw [Spaced.chars, starts]
      exact choice_other visible notText notObject
  | null => exact choice_other rfl (by decide) (by decide)
  | bool b => cases b <;> exact choice_other rfl (by decide) (by decide)
  | emptyList inside => exact choice_other rfl (by decide) (by decide)
  | list items => exact choice_other rfl (by decide) (by decide)

end Allows

end SymbolExport.Json

namespace SymbolExport.Fields

open Json

/-! ## Objects of any members -/

/-- Whether the slot of a name holds a value. -/
def Holds : (fields : Fields) → fields.Slots → String → Prop
  | .nil, _, _ => False
  | .required name _ others, (slot, slots), key =>
      if key = name then slot.isSome = true else others.Holds slots key
  | .defaulted name _ others, (slot, slots), key =>
      if key = name then slot.isSome = true else others.Holds slots key

/-- A value is read into the field of its key only up to its end, and only if a condition holds. -/
def Settles (depth : Nat) (key : String) (input rest : Bytes) (condition : Prop) : Fields → Prop
  | .nil => Allows Reader.skip input fun _ left => left = rest ∧ condition
  | .required name shape others =>
      if key = name then Allows (shape.read depth) input fun _ left => left = rest ∧ condition
      else others.Settles depth key input rest condition
  | .defaulted name shape others =>
      if key = name then Allows (shape.read depth) input fun _ left => left = rest ∧ condition
      else others.Settles depth key input rest condition

/-- A key was not read before, and its slot is the only one that changes. -/
structure Stores (fields : Fields) (key : String) (slots slots' : fields.Slots) : Prop where
  fresh : ¬fields.Holds slots key
  stored : key ∈ fields.names → fields.Holds slots' key
  kept : ∀ k, fields.Holds slots k → fields.Holds slots' k

section Stores

variable {name key : String} {shape : Shape} {others : Fields} {slots slots' : others.Slots}

theorem stores_own (v : shape.Value) :
    (Fields.defaulted name shape others).Stores name (none, slots) (some v, slots) where
  fresh := by simp [Holds]
  stored := by simp [Holds]
  kept k holds := by
    unfold Holds at holds ⊢
    split
    · rfl
    · next other => rwa [if_neg other] at holds

theorem Stores.behind {slot : Option shape.Value} (other : key ≠ name)
    (stores : others.Stores key slots slots') :
    (Fields.defaulted name shape others).Stores key (slot, slots) (slot, slots') where
  fresh holds := by
    unfold Holds at holds
    rw [if_neg other] at holds
    exact stores.fresh holds
  stored within := by
    unfold Holds
    rw [if_neg other]
    exact stores.stored ((List.mem_cons.mp within).resolve_left other)
  kept k holds := by
    unfold Holds at holds ⊢
    split
    · next same => rwa [if_pos same] at holds
    · next differs =>
        rw [if_neg differs] at holds
        exact stores.kept k holds

theorem Stores.required {slot slot' : Option shape.Value}
    (stores : (Fields.defaulted name shape others).Stores key (slot, slots) (slot', slots')) :
    (Fields.required name shape others).Stores key (slot, slots) (slot', slots') :=
  ⟨stores.fresh, stores.stored, stores.kept⟩

end Stores

variable {depth : Nat} {key : String} {input rest : Bytes} {condition : Prop}

/-- What reading the field of a key gives, if its value settles. -/
def Reading (fields : Fields) (key : String) (slots : fields.Slots) (rest : Bytes)
    (condition : Prop) (slots' : fields.Slots) (left : Bytes) : Prop :=
  left = rest ∧ condition ∧ fields.Stores key slots slots'

theorem allows_defaulted {name : String} {shape : Shape} {others : Fields}
    (slot : Option shape.Value) {slots : others.Slots}
    (behind : others.Settles depth key input rest condition →
      Allows (others.readField depth key slots) (0x3A :: input)
        (others.Reading key slots rest condition))
    (settles : (Fields.defaulted name shape others).Settles depth key input rest condition) :
    Allows ((Fields.defaulted name shape others).readField depth key (slot, slots)) (0x3A :: input)
      ((Fields.defaulted name shape others).Reading key (slot, slots) rest condition) := by
  show Allows (if key = name then _ else _) _ _
  unfold Settles at settles
  by_cases own : key = name
  · subst own
    rw [if_pos rfl] at settles ⊢
    cases slot with
    | some v => exact .of_ensures (.duplicate key)
    | none =>
        refine .after (.colon _) (.bind settles ?_)
        rintro v _ ⟨rfl, holds⟩
        exact .pure ⟨rfl, holds, stores_own v⟩
  · rw [if_neg own] at settles ⊢
    refine .bind (behind settles) ?_
    rintro slots' _ ⟨rfl, holds, stores⟩
    exact .pure ⟨rfl, holds, stores.behind own⟩

theorem allows_readField : (fields : Fields) → (slots : fields.Slots) →
    fields.Settles depth key input rest condition →
    Allows (fields.readField depth key slots) (0x3A :: input)
      (fields.Reading key slots rest condition)
  | .nil, (), settles => by
      refine .after (.colon _) (.bind settles ?_)
      rintro _ _ ⟨rfl, holds⟩
      exact .pure ⟨rfl, holds, not_false, fun within => absurd within List.not_mem_nil, fun _ => id⟩
  | .required _ _ others, (slot, slots), settles => by
      have read := allows_defaulted slot (allows_readField others slots) settles
      exact read.mono fun _ _ reading => ⟨reading.1, reading.2.1, reading.2.2.required⟩
  | .defaulted _ _ others, (slot, slots), settles =>
      allows_defaulted slot (allows_readField others slots) settles

section Loop

variable {fields : Fields} {α : Type} {items : List α} {member : α → SpacedMember}
  {condition : α → Prop}

/-- Members that are all read meet their conditions, and no key of the structure repeats. -/
theorem allows_collectFields
    (settles : ∀ i ∈ items, ∀ rest, Ends rest → fields.Settles depth (member i).key
      (octets (member i).member.valueText ++ rest) rest (condition i))
    (slots : fields.Slots) (front : Gap) (first : Bool) (fuel : Nat) (rest : Bytes) :
    Allows (Reader.collectFields (fields.readField depth) fuel first slots)
      (octets front.chars ++
        (octets (joined first ((items.map member).map SpacedMember.text)) ++ 0x7D :: rest))
      fun _ left => left = 0x7D :: rest ∧ (∀ i ∈ items, condition i) ∧
        (∀ i ∈ items, ¬fields.Holds slots (member i).key) ∧
        items.Pairwise fun i j => (member i).key = (member j).key →
          (member i).key ∉ fields.names := by
  induction items generalizing slots front first fuel with
  | nil =>
      cases fuel with
      | zero => exact .failAhead _
      | succ fuel =>
          refine .of_continues ((Continues.gap front _ _).andThen _) ?_
          refine .after (.nextKey_end first rest) (.pure ?_)
          exact ⟨rfl, List.forall_mem_nil _, List.forall_mem_nil _, .nil⟩
  | cons i items ih =>
      cases fuel with
      | zero => exact .failAhead _
      | succ fuel =>
          rw [List.forall_mem_cons] at settles
          rw [List.map_cons, List.map_cons, joined, octets_append, octets_append, List.append_assoc,
            List.append_assoc, SpacedMember.octets_text]
          have ends := (member i).after.ends
            (ends_joined ((items.map member).map SpacedMember.text) (.brace rest))
          have step := allows_readField fields slots (settles.1 _ ends)
          refine .of_continues ((Continues.gap front _ _).andThen _) ?_
          refine .after (.nextKey_gap first (member i).before (member i).member.quotes _) ?_
          refine .bind (.of_continues (continues_readField (member i).behind _ _ _ _) step) ?_
          rintro slots' _ ⟨rfl, holds, stores⟩
          refine (ih settles.2 slots' (member i).after false fuel).mono ?_
          rintro _ _ ⟨rfl, all, fresh, once⟩
          refine ⟨rfl, List.forall_mem_cons.mpr ⟨holds, all⟩, ?_, List.pairwise_cons.mpr ⟨?_, once⟩⟩
          · exact List.forall_mem_cons.mpr
              ⟨stores.fresh, fun j within filled => fresh j within (stores.kept _ filled)⟩
          · intro j within same own
            exact fresh j within (same ▸ stores.stored own)

theorem allows_object (title : String)
    (settles : ∀ i ∈ items, ∀ rest, Ends rest → fields.Settles depth (member i).key
      (octets (member i).member.valueText ++ rest) rest (condition i))
    (inside : Gap) (rest : Bytes) :
    Allows ((Shape.struct title fields).read (depth + 1)) (0x7B :: (octets inside.chars ++
      (octets (joined true ((items.map member).map SpacedMember.text)) ++ 0x7D :: rest)))
      fun _ _ => (∀ i ∈ items, condition i) ∧
        items.Pairwise fun i j => (member i).key = (member j).key →
          (member i).key ∉ fields.names := by
  refine .after (.peekToken rfl _) (.after (.advance _ _) (.after (.remaining _) ?_))
  refine .bind (allows_collectFields settles fields.noSlots inside true _ rest) ?_
  rintro slots _ ⟨_, all, _, once⟩
  refine .skip fun _ _ => ?_
  split
  · exact .pure ⟨all, once⟩
  · exact .fail _

end Loop

end SymbolExport.Fields
