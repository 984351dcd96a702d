import SymbolExport.Json.Writer
import SymbolExport.Proofs.ReadingRules

/-!
# Spelled strings

A string literal is a row of pieces: characters that stand for themselves, letters behind a
backslash, and code points in hexadecimal, of which two may form a surrogate pair. Whatever pieces
spell a text, reading their literal gives that text; the written literal is one of them.
-/

namespace SymbolExport.Json

def Plain (c : Char) : Prop :=
  0x20 ≤ c.toNat ∧ c ≠ '"' ∧ c ≠ '\\'

instance (c : Char) : Decidable (Plain c) :=
  inferInstanceAs (Decidable (0x20 ≤ c.toNat ∧ c ≠ '"' ∧ c ≠ '\\'))

inductive ShortEscape where
  | quote
  | backslash
  | slash
  | backspace
  | formFeed
  | lineFeed
  | carriageReturn
  | tab

def ShortEscape.letter : ShortEscape → Char
  | .quote => '"'
  | .backslash => '\\'
  | .slash => '/'
  | .backspace => 'b'
  | .formFeed => 'f'
  | .lineFeed => 'n'
  | .carriageReturn => 'r'
  | .tab => 't'

def ShortEscape.char : ShortEscape → Char
  | .quote => '"'
  | .backslash => '\\'
  | .slash => '/'
  | .backspace => '\x08'
  | .formFeed => '\x0c'
  | .lineFeed => '\n'
  | .carriageReturn => '\r'
  | .tab => '\t'

structure HexDigit where
  value : Fin 16
  upper : Bool := false

def HexDigit.char (d : HexDigit) : Char :=
  if d.upper then (Nat.digitChar d.value).toUpper else Nat.digitChar d.value

structure Quad where
  first : HexDigit
  second : HexDigit
  third : HexDigit
  fourth : HexDigit

namespace Quad

def chars (q : Quad) : List Char :=
  [q.first.char, q.second.char, q.third.char, q.fourth.char]

def value (q : Quad) : Nat :=
  ((q.first.value.val * 16 + q.second.value) * 16 + q.third.value) * 16 + q.fourth.value

def IsHigh (q : Quad) : Prop :=
  0xD800 ≤ q.value ∧ q.value ≤ 0xDBFF

def IsLow (q : Quad) : Prop :=
  0xDC00 ≤ q.value ∧ q.value ≤ 0xDFFF

end Quad

inductive Piece where
  | plain (c : Char) (plain : Plain c)
  | short (e : ShortEscape)
  | code (q : Quad)

def Piece.chars : Piece → List Char
  | .plain c _ => [c]
  | .short e => ['\\', e.letter]
  | .code q => '\\' :: 'u' :: q.chars

def quoted (ps : List Piece) : List Char :=
  '"' :: (ps.flatMap Piece.chars ++ ['"'])

/-- The pieces stand for the characters; half of a surrogate pair alone stands for none. -/
inductive Spells : List Piece → List Char → Prop where
  | nil : Spells [] []
  | plain {ps : List Piece} {cs : List Char} (c : Char) (plain : Plain c) :
      Spells ps cs → Spells (.plain c plain :: ps) (c :: cs)
  | short {ps : List Piece} {cs : List Char} (e : ShortEscape) :
      Spells ps cs → Spells (.short e :: ps) (e.char :: cs)
  | code {ps : List Piece} {cs : List Char} (q : Quad) :
      ¬q.IsHigh → ¬q.IsLow → Spells ps cs → Spells (.code q :: ps) (Char.ofNat q.value :: cs)
  | pair {ps : List Piece} {cs : List Char} (high low : Quad) :
      high.IsHigh → low.IsLow → Spells ps cs →
      Spells (.code high :: .code low :: ps)
        (Char.ofNat ((high.value - 0xD800) * 0x400 + (low.value - 0xDC00) + 0x10000) :: cs)

def Quotes (text : List Char) (s : String) : Prop :=
  ∃ ps, text = quoted ps ∧ Spells ps s.toList

/-- A character is one octet of its own number, or all of its octets are beyond ASCII. -/
theorem toNat_of_mem_utf8 {c : Char} {b : UInt8} (within : b ∈ String.utf8EncodeChar c) :
    b.toNat = c.toNat ∨ 0x80 ≤ b.toNat := by
  rw [String.utf8EncodeChar.eq_1, Char.toNat_val] at within
  split at within
  · rw [List.mem_singleton.mp within, UInt8.toNat_ofNat']
    omega
  right
  simp only [apply_ite (b ∈ ·), List.mem_cons, List.not_mem_nil, or_false] at within
  split at within
  · rcases within with rfl | rfl <;> rw [UInt8.toNat_ofNat'] <;> omega
  split at within
  · rcases within with rfl | rfl | rfl <;> rw [UInt8.toNat_ofNat'] <;> omega
  · rcases within with rfl | rfl | rfl | rfl <;> rw [UInt8.toNat_ofNat'] <;> omega

/-- No octet of a plain character ends or escapes a string. -/
theorem octets_of_plain {c : Char} (plain : Plain c) :
    ∀ b ∈ String.utf8EncodeChar c, b ≠ 0x22 ∧ b ≠ 0x5C ∧ ¬b < 0x20 := by
  obtain ⟨printable, notQuote, notBackslash⟩ := plain
  intro b within
  have number := toNat_of_mem_utf8 within
  refine ⟨?_, ?_, fun control => ?_⟩
  · rintro rfl
    rcases number with same | beyond
    · exact notQuote (Char.toNat_inj.mp same.symm)
    · contradiction
  · rintro rfl
    rcases number with same | beyond
    · exact notBackslash (Char.toNat_inj.mp same.symm)
    · contradiction
  · have small : b.toNat < 0x20 := UInt8.lt_iff_toNat_lt.mp control
    omega

theorem HexDigit.octets_char (d : HexDigit) : ∃ b, String.utf8EncodeChar d.char = [b] ∧
    Reader.hexValue? b = some d.value.val := by
  obtain ⟨value, upper⟩ := d
  refine ⟨.ofNat (HexDigit.char ⟨value, upper⟩).toNat, ?_⟩
  revert value upper
  decide

namespace Reads

theorem hexQuad (q : Quad) (rest : Bytes) :
    Reads Reader.hexQuad (octets q.chars ++ rest) q.value rest := by
  obtain ⟨b₁, octet₁, value₁⟩ := q.first.octets_char
  obtain ⟨b₂, octet₂, value₂⟩ := q.second.octets_char
  obtain ⟨b₃, octet₃, value₃⟩ := q.third.octets_char
  obtain ⟨b₄, octet₄, value₄⟩ := q.fourth.octets_char
  have ahead : octets q.chars ++ rest = b₁ :: b₂ :: b₃ :: b₄ :: rest := by
    simp only [Quad.chars, octets_cons, octet₁, octet₂, octet₃, octet₄, octets_nil]
    rfl
  intro c here
  rw [ahead] at here
  refine ⟨c.drop 4, ?_, congrArg (List.drop 4) here⟩
  simp only [Reader.hexQuad, here, value₁, value₂, value₃, value₄]
  rfl

theorem pairOctet (b : UInt8) (rest : Bytes) : Reads (Reader.pairOctet b) (b :: rest) () rest := by
  refine bind (bind (peek (b :: rest)) (pure b _)) (bind (advance b rest) ?_)
  rw [if_pos rfl]
  exact pure () rest

theorem codePoint {q : Quad} (notHigh : ¬q.IsHigh) (notLow : ¬q.IsLow) (rest : Bytes) :
    Reads Reader.codePoint (octets q.chars ++ rest) (String.utf8EncodeChar (Char.ofNat q.value))
      rest := by
  unfold Quad.IsHigh at notHigh
  unfold Quad.IsLow at notLow
  refine bind (hexQuad q rest) ?_
  rw [if_neg notLow, if_pos (by omega)]
  exact pure (Reader.encoded q.value) rest

theorem codePoint_pair {high low : Quad} (isHigh : high.IsHigh) (isLow : low.IsLow) (rest : Bytes) :
    Reads Reader.codePoint (octets high.chars ++ 0x5C :: 0x75 :: (octets low.chars ++ rest))
      (String.utf8EncodeChar
        (Char.ofNat ((high.value - 0xD800) * 0x400 + (low.value - 0xDC00) + 0x10000))) rest := by
  unfold Quad.IsHigh at isHigh
  unfold Quad.IsLow at isLow
  refine bind (hexQuad high _) ?_
  rw [if_neg (by omega), if_neg (by omega)]
  refine bind (pairOctet 0x5C _) (bind (pairOctet 0x75 _) (bind (hexQuad low rest) ?_))
  rw [if_neg (by omega)]
  exact pure (Reader.encoded _) rest

theorem escape_short (e : ShortEscape) (rest : Bytes) :
    Reads Reader.escape (octets [e.letter] ++ rest) (String.utf8EncodeChar e.char) rest := by
  cases e <;> exact bind (next _ rest) (pure _ rest)

theorem escape_code {input first rest : Bytes} (code : Reads Reader.codePoint input first rest) :
    Reads Reader.escape (0x75 :: input) first rest :=
  bind (next 0x75 input) code

theorem textOctets_end (fuel : Nat) (rest : Bytes) :
    Reads (Reader.textOctets (fuel + 1)) (0x22 :: rest) [] (0x22 :: rest) :=
  bind (peek _) (pure [] _)

theorem textOctets_escape {input middle rest first more : Bytes}
    (escape : Reads Reader.escape input first middle) (shorter : middle.length ≤ input.length)
    (others : ∀ fuel, middle.length < fuel → Reads (Reader.textOctets fuel) middle more rest)
    (fuel : Nat) (enough : (0x5C :: input).length < fuel) :
    Reads (Reader.textOctets fuel) (0x5C :: input) (first ++ more) rest := by
  obtain ⟨fuel, rfl⟩ := Nat.exists_eq_add_one_of_ne_zero (Nat.ne_zero_of_lt enough)
  have behind : middle.length < fuel := Nat.lt_of_le_of_lt shorter (Nat.lt_of_succ_lt_succ enough)
  exact bind (peek _) (bind (advance 0x5C input) (bind escape
    (bind (others fuel behind) (pure (first ++ more) rest))))

theorem textOctets_plain {input more rest : Bytes} {bs : Bytes}
    (plain : ∀ b ∈ bs, b ≠ 0x22 ∧ b ≠ 0x5C ∧ ¬b < 0x20)
    (others : ∀ fuel, input.length < fuel → Reads (Reader.textOctets fuel) input more rest)
    (fuel : Nat) (enough : (bs ++ input).length < fuel) :
    Reads (Reader.textOctets fuel) (bs ++ input) (bs ++ more) rest := by
  induction bs generalizing fuel with
  | nil => exact others fuel enough
  | cons b bs ih =>
      obtain ⟨fuel, rfl⟩ := Nat.exists_eq_add_one_of_ne_zero (Nat.ne_zero_of_lt enough)
      obtain ⟨notQuote, notBackslash, printable⟩ := plain b List.mem_cons_self
      refine bind (peek (b :: (bs ++ input))) ?_
      show Reads (if b = 0x22 then _ else _) _ _ _
      rw [if_neg notQuote]
      refine bind (advance b (bs ++ input)) ?_
      rw [if_neg notBackslash, if_neg printable]
      have shorter : (bs ++ input).length < fuel := Nat.lt_of_succ_lt_succ enough
      exact bind (ih (fun b within => plain b (List.mem_cons_of_mem _ within)) fuel shorter)
        (pure _ rest)

theorem textOctets {ps : List Piece} {cs : List Char} (spells : Spells ps cs) (rest : Bytes)
    (fuel : Nat) (enough : (octets (ps.flatMap Piece.chars) ++ 0x22 :: rest).length < fuel) :
    Reads (Reader.textOctets fuel) (octets (ps.flatMap Piece.chars) ++ 0x22 :: rest) (octets cs)
      (0x22 :: rest) := by
  -- No call is without an octet of its own, so the octets ahead bound the depth of the recursion.
  induction spells generalizing fuel with
  | nil =>
      obtain ⟨fuel, rfl⟩ := Nat.exists_eq_add_one_of_ne_zero (Nat.ne_zero_of_lt enough)
      exact textOctets_end fuel rest
  | plain c plain _ ih =>
      rw [List.flatMap_cons, octets_append, List.append_assoc] at enough ⊢
      rw [Piece.chars, octets_cons, octets_nil, List.append_nil] at enough ⊢
      exact textOctets_plain (octets_of_plain plain) ih fuel enough
  | short e _ ih =>
      rw [List.flatMap_cons, octets_append, List.append_assoc] at enough ⊢
      exact textOctets_escape (escape_short e _) (by simp) ih fuel enough
  | code q notHigh notLow _ ih =>
      rw [List.flatMap_cons, octets_append, List.append_assoc] at enough ⊢
      refine textOctets_escape (escape_code (codePoint notHigh notLow _)) ?_ ih fuel enough
      simp only [List.length_append, List.length_cons]
      omega
  | pair high low isHigh isLow _ ih =>
      rw [List.flatMap_cons, List.flatMap_cons, octets_append, octets_append, List.append_assoc,
        List.append_assoc] at enough ⊢
      refine textOctets_escape (escape_code (codePoint_pair isHigh isLow _)) ?_ ih fuel enough
      simp only [List.length_append, List.length_cons]
      omega

theorem text {ps : List Piece} {s : String} (spells : Spells ps s.toList) (rest : Bytes) :
    Reads Reader.text (octets (ps.flatMap Piece.chars) ++ 0x22 :: rest) s rest := by
  have whole : Bytes.toString? (octets s.toList) = some s := by
    rw [← ofString_ofList, String.ofList_toList, Bytes.toString?_ofString]
  refine bind (remaining _) (bind (textOctets spells rest _ (Nat.lt_succ_self _)) ?_)
  rw [whole]
  exact bind (advance 0x22 rest) (pure s rest)

end Reads

/-- Each character of a written literal is a piece that spells it. -/
theorem exists_piece (c : Char) : ∃ p : Piece, p.chars = escapedChar c ∧
    ∀ ps cs, Spells ps cs → Spells (p :: ps) (c :: cs) := by
  unfold escapedChar
  split
  · exact ⟨.short .quote, rfl, fun _ _ => .short .quote⟩
  · exact ⟨.short .backslash, rfl, fun _ _ => .short .backslash⟩
  · exact ⟨.short .backspace, rfl, fun _ _ => .short .backspace⟩
  · exact ⟨.short .tab, rfl, fun _ _ => .short .tab⟩
  · exact ⟨.short .lineFeed, rfl, fun _ _ => .short .lineFeed⟩
  · exact ⟨.short .formFeed, rfl, fun _ _ => .short .formFeed⟩
  · exact ⟨.short .carriageReturn, rfl, fun _ _ => .short .carriageReturn⟩
  · next notQuote notBackslash _ _ _ _ _ =>
      split
      · next control =>
          let q : Quad := ⟨⟨0, false⟩, ⟨0, false⟩, ⟨⟨c.toNat / 16, by omega⟩, false⟩,
            ⟨⟨c.toNat % 16, by omega⟩, false⟩⟩
          have value : q.value = c.toNat := by
            simp only [q, Quad.value]
            omega
          have same : Char.ofNat q.value = c := by rw [value, Char.ofNat_toNat]
          refine ⟨.code q, rfl, fun ps cs spells => ?_⟩
          have notHigh : ¬q.IsHigh := by unfold Quad.IsHigh; omega
          have notLow : ¬q.IsLow := by unfold Quad.IsLow; omega
          have spelled := Spells.code q notHigh notLow spells
          rwa [same] at spelled
      · next printable =>
          have plain : Plain c := ⟨Nat.le_of_not_lt printable, notQuote, notBackslash⟩
          exact ⟨.plain c plain, rfl, fun _ _ => .plain c plain⟩

theorem quotes_literal (s : String) : Quotes (literal s) s := by
  suffices pieces : ∀ cs : List Char, ∃ ps : List Piece,
      ps.flatMap Piece.chars = cs.flatMap escapedChar ∧ Spells ps cs by
    obtain ⟨ps, chars, spells⟩ := pieces s.toList
    exact ⟨ps, by rw [literal, quoted, chars], spells⟩
  intro cs
  induction cs with
  | nil => exact ⟨[], rfl, .nil⟩
  | cons c cs ih =>
      obtain ⟨ps, chars, spells⟩ := ih
      obtain ⟨p, pieceChars, piece⟩ := exists_piece c
      exact ⟨p :: ps, by rw [List.flatMap_cons, List.flatMap_cons, pieceChars, chars],
        piece ps cs spells⟩

/-- A string literal behind its opening quote, which a reader has moved over. -/
theorem Quotes.octets {text : List Char} {s : String} (quotes : Quotes text s) (rest : Bytes) :
    ∃ more, Json.octets text ++ rest = 0x22 :: more ∧ Reads Reader.text more s rest := by
  obtain ⟨ps, rfl, spells⟩ := quotes
  refine ⟨Json.octets (ps.flatMap Piece.chars) ++ 0x22 :: rest, ?_, Reads.text spells rest⟩
  rw [quoted, octets_cons, octets_append, List.append_assoc, List.append_assoc]
  rfl

namespace Reads

theorem nextKey_end (first : Bool) (rest : Bytes) :
    Reads (Reader.nextKey first) (0x7D :: rest) none (0x7D :: rest) :=
  bind (peekToken rfl rest) (pure none _)

theorem nextKey_gap (first : Bool) (before : Gap) {text : List Char} {key : String}
    (quotes : Quotes text key) (rest : Bytes) :
    Reads (Reader.nextKey first)
      (octets (comma first) ++ (octets before.chars ++ (octets text ++ rest))) (some key) rest := by
  obtain ⟨more, starts, reads⟩ := quotes.octets rest
  have atKey : Reads Reader.nextKey.key (0x22 :: more) (some key) rest :=
    bind (advance 0x22 more) (bind reads (pure (some key) rest))
  rw [starts]
  cases first with
  | true => exact (Continues.gap before _ _).reads (bind (peekToken rfl more) atKey)
  | false =>
      exact bind (peekToken rfl _) (bind (advance 0x2C _)
        ((Continues.gap before _ _).reads (bind (peekToken rfl more) atKey)))

theorem nextKey (first : Bool) {text : List Char} {key : String} (quotes : Quotes text key)
    (rest : Bytes) :
    Reads (Reader.nextKey first) (octets (comma first) ++ (octets text ++ rest)) (some key) rest :=
  nextKey_gap first .none quotes rest

end Reads

end SymbolExport.Json
