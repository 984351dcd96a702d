import SymbolExport.Proofs.ReadingValues

/-!
# Values that nobody asks for

A grammar of compact JSON texts: any number literal, any string of pieces, lists and objects with
repeated keys and of any depth. Every text of the grammar is skipped to its end, whatever its numbers
and strings would mean.
-/

namespace SymbolExport.Json

structure Digits where
  first : Decimal.Digit
  others : List Decimal.Digit

def Digits.chars (ds : Digits) : List Char :=
  (ds.first :: ds.others).map Decimal.Digit.char

inductive ExponentSign where
  | absent
  | plus
  | minus

def ExponentSign.chars : ExponentSign → List Char
  | .absent => []
  | .plus => ['+']
  | .minus => ['-']

structure Exponent where
  upper : Bool
  sign : ExponentSign
  digits : Digits

def Exponent.chars (e : Exponent) : List Char :=
  (if e.upper then 'E' else 'e') :: (e.sign.chars ++ e.digits.chars)

/-- A number literal; a zero in front of the point stands alone. -/
structure NumberText where
  negative : Bool
  whole : Digits
  fraction : Option Digits
  exponent : Option Exponent
  noLeadingZero : whole.first = 0 → whole.others = []

namespace NumberText

def exponentChars (n : NumberText) : List Char :=
  (n.exponent.map Exponent.chars).getD []

def fractionChars (n : NumberText) : List Char :=
  (n.fraction.map fun ds => '.' :: ds.chars).getD []

def unsignedChars (n : NumberText) : List Char :=
  n.whole.chars ++ (n.fractionChars ++ n.exponentChars)

def chars (n : NumberText) : List Char :=
  if n.negative then '-' :: n.unsignedChars else n.unsignedChars

end NumberText

/-- A JSON text without white space. -/
inductive Written where
  | null
  | bool (b : Bool)
  | number (n : NumberText)
  | text (ps : List Piece)
  | list (items : List Written)
  | object (fields : List (List Piece × Written))

mutual

def Written.chars : Written → List Char
  | .null => Json.chars .null
  | .bool b => boolChars b
  | .number n => n.chars
  | .text ps => quoted ps
  | .list items => enclosed '[' ']' (Written.itemTexts items)
  | .object fields => enclosed '\x7b' '\x7d' (Written.fieldTexts fields)

def Written.itemTexts : List Written → List (List Char)
  | [] => []
  | item :: items => item.chars :: Written.itemTexts items

def Written.fieldTexts : List (List Piece × Written) → List (List Char)
  | [] => []
  | (key, value) :: fields => (quoted key ++ ':' :: value.chars) :: Written.fieldTexts fields

end

theorem Digits.octets_chars (ds : Digits) :
    octets ds.chars = ds.first.octet :: ds.others.map Decimal.Digit.octet :=
  Decimal.octets_digits (ds.first :: ds.others)

/-- Behind the fraction of a number stands its exponent, or what ends the number. -/
theorem NumberText.exponent_stop (n : NumberText) {rest : Bytes} (ends : Ends rest) :
    ∀ b ∈ (octets n.exponentChars ++ rest).head?, Reader.isDigit b = false ∧ b ≠ 0x2E := by
  intro b ahead
  unfold NumberText.exponentChars at ahead
  cases present : n.exponent with
  | none =>
      rw [present] at ahead
      have stop := ends.stop b ahead
      exact ⟨stop.1, stop.2.1⟩
  | some e =>
      obtain ⟨upper, sign, ds⟩ := e
      rw [present] at ahead
      cases upper with
      | true =>
          have mark : b = 0x45 := (Option.some.inj ahead).symm
          rw [mark]
          decide
      | false =>
          have mark : b = 0x65 := (Option.some.inj ahead).symm
          rw [mark]
          decide

/-- Behind the digits of a number stands a point, its exponent, or what ends the number. -/
theorem NumberText.fraction_stop (n : NumberText) {rest : Bytes} (ends : Ends rest) :
    ∀ b ∈ (octets n.fractionChars ++ (octets n.exponentChars ++ rest)).head?,
      Reader.isDigit b = false := by
  intro b ahead
  unfold NumberText.fractionChars at ahead
  cases present : n.fraction with
  | none =>
      rw [present] at ahead
      exact (n.exponent_stop ends b ahead).1
  | some ds =>
      rw [present] at ahead
      cases ahead
      rfl

namespace Reads

theorem discard {α : Type} {reader : Reader α} {input rest : Bytes} {a : α}
    (reads : Reads reader input a rest) : Reads (discard reader) input () rest := by
  intro c here
  obtain ⟨c', read, behind⟩ := reads c here
  refine ⟨c', ?_, behind⟩
  show (reader c >>= fun p => Except.ok ((), p.2)) = _
  rw [read]
  rfl

theorem digitsOf (ds : List Decimal.Digit) {rest : Bytes}
    (stop : ∀ b ∈ rest.head?, Reader.isDigit b = false) :
    Reads Reader.digits (ds.map Decimal.Digit.octet ++ rest)
      ((ds.map Decimal.Digit.octet).map fun b => b.toNat - 0x30) rest := by
  refine digits ?_ stop
  intro b within
  obtain ⟨d, _, rfl⟩ := List.mem_map.mp within
  exact d.isDigit_octet

theorem skipExponent (sign : ExponentSign) (ds : Digits) {rest : Bytes} (ends : Ends rest) :
    Reads Reader.skipExponent (octets (sign.chars ++ ds.chars) ++ rest) () rest := by
  have digit := ds.first.isDigit_octet
  have others : Reads (if Reader.isDigit ds.first.octet = true then Functor.discard Reader.digits
      else Reader.fail .invalidNumber) (ds.others.map Decimal.Digit.octet ++ rest) () rest := by
    rw [if_pos digit]
    exact discard (digitsOf ds.others fun b ahead => (ends.stop b ahead).1)
  rw [octets_append, List.append_assoc, ds.octets_chars]
  cases sign with
  | absent =>
      refine bind (peek _) ?_
      split
      · next plus => cases Option.some.inj plus ▸ digit
      · next minus => cases Option.some.inj minus ▸ digit
      · exact bind (next _ _) others
  | plus => exact bind (peek _) (bind (advance 0x2B _) (bind (next _ _) others))
  | minus => exact bind (peek _) (bind (advance 0x2D _) (bind (next _ _) others))

theorem skipOptionalExponent (n : NumberText) {rest : Bytes} (ends : Ends rest) :
    Reads Reader.skipOptionalExponent (octets n.exponentChars ++ rest) () rest := by
  unfold NumberText.exponentChars
  cases n.exponent with
  | none =>
      refine bind (peek rest) ?_
      split
      · next mark => exact absurd rfl (ends.stop 0x65 mark).2.2.1
      · next mark => exact absurd rfl (ends.stop 0x45 mark).2.2.2
      · exact pure () _
  | some e =>
      obtain ⟨upper, sign, ds⟩ := e
      cases upper with
      | true => exact bind (peek _) (bind (advance _ _) (skipExponent sign ds ends))
      | false => exact bind (peek _) (bind (advance _ _) (skipExponent sign ds ends))

theorem skipFraction (n : NumberText) {rest : Bytes} (ends : Ends rest) :
    Reads (do
      match ← Reader.peek with
      | some 0x2E =>
          Reader.advance
          let ds ← Reader.digits
          if ds.isEmpty then Reader.failAhead .invalidNumber else Reader.skipOptionalExponent
      | _ => Reader.skipOptionalExponent)
      (octets n.fractionChars ++ (octets n.exponentChars ++ rest)) () rest := by
  have exponent := skipOptionalExponent n ends
  have stop := n.exponent_stop ends
  unfold NumberText.fractionChars
  cases n.fraction with
  | none =>
      refine bind (peek _) ?_
      split
      · next point => exact absurd rfl (stop 0x2E point).2
      · exact exponent
  | some ds =>
      have digits := digitsOf (ds.first :: ds.others) fun b ahead => (stop b ahead).1
      have ahead : octets ds.chars = (ds.first :: ds.others).map Decimal.Digit.octet :=
        ds.octets_chars
      rw [← ahead] at digits
      refine bind (peek _) (bind (advance 0x2E _) (bind digits ?_))
      rw [if_neg (by simp [ahead])]
      exact exponent

theorem skipNumber (n : NumberText) {rest : Bytes} (ends : Ends rest) :
    Reads Reader.skipNumber (octets n.unsignedChars ++ rest) () rest := by
  have fraction := skipFraction n ends
  have stop := n.fraction_stop ends
  unfold NumberText.unsignedChars
  rw [octets_append, octets_append, List.append_assoc, List.append_assoc, n.whole.octets_chars]
  refine bind (next n.whole.first.octet _) ?_
  show Reads (if n.whole.first.octet = 0x30 then _ else _) _ _ _
  split
  · next zero =>
      have noMore : n.whole.others = [] := by
        refine n.noLeadingZero (Fin.ext ?_)
        rw [← n.whole.first.value_octet, zero]
        rfl
      rw [noMore]
      refine bind (peek _) ?_
      split
      · next b ahead =>
          rw [if_neg (by rw [stop b ahead]; decide)]
          exact fraction
      · exact fraction
  · rw [if_pos n.whole.first.isDigit_octet]
    exact bind (discard (digitsOf n.whole.others stop)) fraction

theorem skipEscape_short (e : ShortEscape) (rest : Bytes) :
    Reads Reader.skipEscape (octets [e.letter] ++ rest) () rest := by
  cases e <;> exact bind (next _ rest) (pure () rest)

theorem skipEscape_code (q : Quad) (rest : Bytes) :
    Reads Reader.skipEscape (0x75 :: (octets q.chars ++ rest)) () rest :=
  bind (next 0x75 _) (discard (hexQuad q rest))

theorem skipText_plain {input rest bs : Bytes}
    (plain : ∀ b ∈ bs, b ≠ 0x22 ∧ b ≠ 0x5C ∧ ¬b < 0x20)
    (others : ∀ fuel, input.length < fuel → Reads (Reader.skipText fuel) input () rest)
    (fuel : Nat) (enough : (bs ++ input).length < fuel) :
    Reads (Reader.skipText fuel) (bs ++ input) () rest := by
  induction bs generalizing fuel with
  | nil => exact others fuel enough
  | cons b bs ih =>
      obtain ⟨fuel, rfl⟩ := Nat.exists_eq_add_one_of_ne_zero (Nat.ne_zero_of_lt enough)
      obtain ⟨notQuote, notBackslash, printable⟩ := plain b List.mem_cons_self
      refine bind (peek (b :: (bs ++ input))) ?_
      show Reads (if b = 0x22 then _ else _) _ _ _
      rw [if_neg notQuote, if_neg notBackslash, if_neg printable]
      have shorter : (bs ++ input).length < fuel := Nat.lt_of_succ_lt_succ enough
      exact bind (advance b (bs ++ input))
        (ih (fun b within => plain b (List.mem_cons_of_mem _ within)) fuel shorter)

theorem skipText_escape {input middle rest : Bytes}
    (escape : Reads Reader.skipEscape input () middle) (shorter : middle.length ≤ input.length)
    (others : ∀ fuel, middle.length < fuel → Reads (Reader.skipText fuel) middle () rest)
    (fuel : Nat) (enough : (0x5C :: input).length < fuel) :
    Reads (Reader.skipText fuel) (0x5C :: input) () rest := by
  obtain ⟨fuel, rfl⟩ := Nat.exists_eq_add_one_of_ne_zero (Nat.ne_zero_of_lt enough)
  have behind : middle.length < fuel := Nat.lt_of_le_of_lt shorter (Nat.lt_of_succ_lt_succ enough)
  exact bind (peek _) (bind (advance 0x5C input) (bind escape (others fuel behind)))

theorem skipText (ps : List Piece) (rest : Bytes) (fuel : Nat)
    (enough : (octets (ps.flatMap Piece.chars) ++ 0x22 :: rest).length < fuel) :
    Reads (Reader.skipText fuel) (octets (ps.flatMap Piece.chars) ++ 0x22 :: rest) () rest := by
  induction ps generalizing fuel with
  | nil =>
      obtain ⟨fuel, rfl⟩ := Nat.exists_eq_add_one_of_ne_zero (Nat.ne_zero_of_lt enough)
      exact bind (peek _) (advance 0x22 rest)
  | cons p ps ih =>
      rw [List.flatMap_cons, octets_append, List.append_assoc] at enough ⊢
      cases p with
      | plain c plain =>
          rw [Piece.chars, octets_cons, octets_nil, List.append_nil] at enough ⊢
          exact skipText_plain (octets_of_plain plain) ih fuel enough
      | short e => exact skipText_escape (skipEscape_short e _) (by simp) ih fuel enough
      | code q =>
          refine skipText_escape (skipEscape_code q _) ?_ ih fuel enough
          simp only [List.length_append, List.length_cons]
          omega

theorem skipQuoted (ps : List Piece) (rest : Bytes) :
    ∃ more, octets (quoted ps) ++ rest = 0x22 :: more ∧
      Reads (Reader.skipText (more.length + 1)) more () rest := by
  refine ⟨octets (ps.flatMap Piece.chars) ++ 0x22 :: rest, ?_,
    skipText ps rest _ (Nat.lt_succ_self _)⟩
  rw [quoted, octets_cons, octets_append, List.append_assoc, List.append_assoc]
  rfl

theorem skipValue_digit {b : UInt8} {more rest : Bytes} (digit : Reader.isDigit b = true)
    (number : Reads Reader.skipNumber (b :: more) () rest) (fuel : Nat) :
    Reads (Reader.skipValue (fuel + 1)) (b :: more) () rest := by
  have opens : Opens b := by simp [Opens, digit]
  refine bind (peekToken opens.visible more) ?_
  split
  · contradiction
  all_goals try (next h => cases h; contradiction)
  next b' same =>
    cases same
    rw [if_pos digit]
    exact number

end Reads

/-- The text can be skipped, wherever a value may stand. -/
structure Skippable (text : List Char) : Prop where
  opens : ∃ b more, octets text = b :: more ∧ Opens b
  skips : ∀ rest, Ends rest → ∀ fuel, 2 * (octets text ++ rest).length + 2 ≤ fuel →
    Reads (Reader.skipValue fuel) (octets text ++ rest) () rest

namespace Skippable

theorem null : Skippable (Json.chars .null) := by
  refine ⟨⟨0x6E, _, rfl, by simp [Opens]⟩, fun rest ends fuel enough => ?_⟩
  obtain ⟨fuel, rfl⟩ := Nat.exists_eq_add_one_of_ne_zero (Nat.ne_zero_of_lt enough)
  exact .bind (.peekToken rfl _) (.bind (.advance _ _) (.word _ rest))

theorem bool (b : Bool) : Skippable (boolChars b) := by
  cases b with
  | true =>
      refine ⟨⟨0x74, _, rfl, by simp [Opens]⟩, fun rest ends fuel enough => ?_⟩
      obtain ⟨fuel, rfl⟩ := Nat.exists_eq_add_one_of_ne_zero (Nat.ne_zero_of_lt enough)
      exact .bind (.peekToken rfl _) (.bind (.advance _ _) (.word _ rest))
  | false =>
      refine ⟨⟨0x66, _, rfl, by simp [Opens]⟩, fun rest ends fuel enough => ?_⟩
      obtain ⟨fuel, rfl⟩ := Nat.exists_eq_add_one_of_ne_zero (Nat.ne_zero_of_lt enough)
      exact .bind (.peekToken rfl _) (.bind (.advance _ _) (.word _ rest))

theorem number (n : NumberText) : Skippable n.chars := by
  have starts : ∃ more, octets n.unsignedChars = n.whole.first.octet :: more := by
    rw [NumberText.unsignedChars, octets_append, n.whole.octets_chars, List.cons_append]
    exact ⟨_, rfl⟩
  obtain ⟨more, starts⟩ := starts
  have digit := n.whole.first.isDigit_octet
  unfold NumberText.chars
  split
  · refine ⟨⟨0x2D, _, rfl, by simp [Opens]⟩, fun rest ends fuel enough => ?_⟩
    obtain ⟨fuel, rfl⟩ := Nat.exists_eq_add_one_of_ne_zero (Nat.ne_zero_of_lt enough)
    exact .bind (.peekToken rfl _) (.bind (.advance _ _) (.skipNumber n ends))
  · refine ⟨⟨n.whole.first.octet, more, starts, by simp [Opens, digit]⟩,
      fun rest ends fuel enough => ?_⟩
    obtain ⟨fuel, rfl⟩ := Nat.exists_eq_add_one_of_ne_zero (Nat.ne_zero_of_lt enough)
    have number := Reads.skipNumber n ends
    rw [starts] at number ⊢
    exact .skipValue_digit digit number fuel

theorem text (ps : List Piece) : Skippable (quoted ps) := by
  refine ⟨⟨0x22, _, rfl, by simp [Opens]⟩, fun rest ends fuel enough => ?_⟩
  obtain ⟨fuel, rfl⟩ := Nat.exists_eq_add_one_of_ne_zero (Nat.ne_zero_of_lt enough)
  obtain ⟨more, starts, skips⟩ := Reads.skipQuoted ps rest
  rw [starts]
  exact .bind (.peekToken rfl _) (.bind (.advance _ _) (.bind (.remaining _) skips))

end Skippable

def SkippableItem (text : List Char) : Prop :=
  ∃ (before after : Gap) (value : List Char),
    text = before.chars ++ (value ++ after.chars) ∧ Skippable value

/-- A key and a value, with white space around each of them. -/
def SkippableField (text : List Char) : Prop :=
  ∃ (before behind : Gap) (key : List Piece) (item : List Char),
    text = before.chars ++ (quoted key ++ (behind.chars ++ ':' :: item)) ∧ SkippableItem item

theorem Skippable.item {text : List Char} (skippable : Skippable text) : SkippableItem text :=
  ⟨.none, .none, text, (List.append_nil text).symm, skippable⟩

theorem octets_colon (key item : List Char) (behind : Gap) (input : Bytes) :
    octets (key ++ (behind.chars ++ ':' :: item)) ++ input =
      octets key ++ (octets behind.chars ++ 0x3A :: (octets item ++ input)) := by
  rw [octets_append, octets_append, List.append_assoc, List.append_assoc]
  rfl

theorem octets_joined_next (next : List Char) (texts : List (List Char)) (rest : Bytes) :
    octets (joined false (next :: texts)) ++ rest =
      0x2C :: (octets next ++ (octets (joined false texts) ++ rest)) := by
  simp only [joined, octets_append, List.append_assoc]
  rfl

theorem octets_joined_first (first : List Char) (texts : List (List Char)) (rest : Bytes) :
    octets (joined true (first :: texts)) ++ rest =
      octets first ++ (octets (joined false texts) ++ rest) := by
  rw [joined, octets_append, octets_append, List.append_assoc, List.append_assoc]
  rfl

namespace Reads

/-- One item, in front of what the reader does behind it. -/
theorem skipItem {item : List Char} (skippable : SkippableItem item) {input rest : Bytes}
    (ends : Ends input) (fuel : Nat) (enough : 2 * (octets item ++ input).length + 2 ≤ fuel)
    {next : Option UInt8 → Reader Unit}
    (others : Reads (Reader.peekToken >>= next) input () rest) :
    Reads (do Reader.skipValue fuel; Reader.peekToken >>= next) (octets item ++ input) () rest := by
  obtain ⟨before, after, value, rfl, skippable⟩ := skippable
  obtain ⟨fuel, rfl⟩ := Nat.exists_eq_add_one_of_ne_zero (Nat.ne_zero_of_lt enough)
  rw [octets_append, octets_append, List.append_assoc, List.append_assoc] at enough ⊢
  have shorter : 2 * (octets value ++ (octets after.chars ++ input)).length + 2 ≤ fuel + 1 := by
    rw [List.length_append] at enough
    omega
  have skips := skippable.skips _ (after.ends ends) (fuel + 1) shorter
  exact bind ((Continues.gap before _ _).reads skips) ((Continues.gap after next _).reads others)

theorem skipItems {item : List Char} {items : List (List Char)}
    (all : ∀ text ∈ item :: items, SkippableItem text) (rest : Bytes) (fuel : Nat)
    (enough : 2 * (octets item ++ (octets (joined false items) ++ 0x5D :: rest)).length + 3 ≤ fuel) :
    Reads (Reader.skipItems fuel) (octets item ++ (octets (joined false items) ++ 0x5D :: rest)) ()
      rest := by
  -- A call for the items and one for each of their values: two for every octet are enough.
  induction items generalizing item fuel with
  | nil =>
      obtain ⟨fuel, rfl⟩ := Nat.exists_eq_add_one_of_ne_zero (Nat.ne_zero_of_lt enough)
      exact skipItem (all item List.mem_cons_self) (.bracket rest) fuel
        (Nat.le_of_succ_le_succ enough) (bind (peekToken rfl _) (advance 0x5D rest))
  | cons next items ih =>
      obtain ⟨fuel, rfl⟩ := Nat.exists_eq_add_one_of_ne_zero (Nat.ne_zero_of_lt enough)
      refine skipItem (all item List.mem_cons_self) (ends_joined _ (.bracket rest)) fuel
        (Nat.le_of_succ_le_succ enough) ?_
      rw [octets_joined_next] at enough ⊢
      refine bind (peekToken rfl _) (bind (advance 0x2C _) ?_)
      refine ih (fun text within => all text (List.mem_cons_of_mem _ within)) fuel ?_
      simp only [List.length_append, List.length_cons] at enough ⊢
      omega

/-- One field, in front of what the reader does behind it. -/
theorem skipField {field : List Char} (skippable : SkippableField field) {input rest : Bytes}
    (ends : Ends input) (fuel : Nat) (enough : 2 * (octets field ++ input).length + 2 ≤ fuel)
    (others : Reads (do
      match ← Reader.peekToken with
      | none => Reader.failAhead .endInObject
      | some 0x2C => Reader.advance; Reader.skipFields fuel
      | some 0x7D => Reader.advance
      | some _ => Reader.failAhead .expectedObjectNext) input () rest) :
    Reads (Reader.skipFields (fuel + 1)) (octets field ++ input) () rest := by
  obtain ⟨before, behind, key, item, rfl, skippable⟩ := skippable
  rw [octets_append, List.append_assoc, octets_colon] at enough ⊢
  obtain ⟨more, starts, text⟩ :=
    skipQuoted key (octets behind.chars ++ 0x3A :: (octets item ++ input))
  have shorter : 2 * (octets item ++ input).length + 2 ≤ fuel := by
    rw [List.length_append, List.length_append, List.length_append, List.length_cons] at enough
    omega
  have value := skipItem skippable ends fuel shorter others
  refine (Continues.gap before _ _).reads ?_
  rw [starts]
  exact bind (peekToken rfl more) (bind (advance 0x22 more) (bind (remaining more) (bind text
    (bind ((Continues.gap behind _ _).reads (colon _)) value))))

theorem skipFields {field : List Char} {fields : List (List Char)}
    (all : ∀ text ∈ field :: fields, SkippableField text) (rest : Bytes) (fuel : Nat)
    (enough : 2 * (octets field ++ (octets (joined false fields) ++ 0x7D :: rest)).length + 3 ≤
      fuel) :
    Reads (Reader.skipFields fuel)
      (octets field ++ (octets (joined false fields) ++ 0x7D :: rest)) () rest := by
  induction fields generalizing field fuel with
  | nil =>
      obtain ⟨fuel, rfl⟩ := Nat.exists_eq_add_one_of_ne_zero (Nat.ne_zero_of_lt enough)
      refine skipField (all field List.mem_cons_self) (.brace rest) fuel
        (Nat.le_of_succ_le_succ enough) ?_
      exact bind (peekToken rfl _) (advance 0x7D rest)
  | cons next fields ih =>
      obtain ⟨fuel, rfl⟩ := Nat.exists_eq_add_one_of_ne_zero (Nat.ne_zero_of_lt enough)
      refine skipField (all field List.mem_cons_self) (ends_joined _ (.brace rest)) fuel
        (Nat.le_of_succ_le_succ enough) ?_
      rw [octets_joined_next] at enough ⊢
      refine bind (peekToken rfl _) (bind (advance 0x2C _) ?_)
      refine ih (fun text within => all text (List.mem_cons_of_mem _ within)) fuel ?_
      simp only [List.length_append, List.length_cons] at enough ⊢
      omega

end Reads

namespace Skippable

theorem empty {opening closing : Char} (inside : Gap)
    (pair : (opening, closing) = ('[', ']') ∨ (opening, closing) = ('\x7b', '\x7d')) :
    Skippable (opening :: (inside.chars ++ [closing])) := by
  rcases pair with pair | pair
  all_goals
    cases pair
    refine ⟨⟨_, _, rfl, by simp [Opens]⟩, fun rest ends fuel enough => ?_⟩
    obtain ⟨fuel, rfl⟩ := Nat.exists_eq_add_one_of_ne_zero (Nat.ne_zero_of_lt enough)
    rw [octets_cons, octets_append, List.append_assoc, List.append_assoc]
    exact .bind (.peekToken rfl _) (.bind (.advance _ _) ((Continues.gap inside _ _).reads
      (.bind (.peekToken rfl _) (.advance _ rest))))

theorem list {texts : List (List Char)} (all : ∀ text ∈ texts, SkippableItem text) :
    Skippable (enclosed '[' ']' texts) := by
  cases texts with
  | nil => exact empty .none (.inl rfl)
  | cons item items =>
      refine ⟨⟨0x5B, _, rfl, by simp [Opens]⟩, fun rest ends fuel enough => ?_⟩
      obtain ⟨fuel, rfl⟩ := Nat.exists_eq_add_one_of_ne_zero (Nat.ne_zero_of_lt enough)
      rw [List.forall_mem_cons] at all
      obtain ⟨⟨before, after, value, rfl, skippable⟩, others⟩ := all
      -- The white space in front of the first item is gone once the list is known not to be empty.
      have trimmed : ∀ text ∈ (value ++ after.chars) :: items, SkippableItem text :=
        List.forall_mem_cons.mpr ⟨⟨.none, after, value, rfl, skippable⟩, others⟩
      rw [octets_list, octets_joined_first, octets_append, List.append_assoc] at enough ⊢
      have skips := Reads.skipItems trimmed rest fuel (by
        simp only [List.length_append, List.length_cons] at enough ⊢
        omega)
      refine .bind (.peekToken rfl _) (.bind (.advance _ _) ((Continues.gap before _ _).reads ?_))
      obtain ⟨b, more, starts, opens⟩ := skippable.opens
      rw [octets_append, starts] at skips ⊢
      refine .bind (.peekToken opens.visible _) ?_
      split
      · contradiction
      · next bracket => exact absurd (Option.some.inj bracket) opens.ne_bracket
      · exact skips

theorem object {texts : List (List Char)} (all : ∀ text ∈ texts, SkippableField text) :
    Skippable (enclosed '\x7b' '\x7d' texts) := by
  cases texts with
  | nil => exact empty .none (.inr rfl)
  | cons field fields =>
      refine ⟨⟨0x7B, _, rfl, by simp [Opens]⟩, fun rest ends fuel enough => ?_⟩
      obtain ⟨fuel, rfl⟩ := Nat.exists_eq_add_one_of_ne_zero (Nat.ne_zero_of_lt enough)
      rw [List.forall_mem_cons] at all
      obtain ⟨⟨before, behind, key, item, rfl, skippable⟩, others⟩ := all
      have trimmed : ∀ text ∈ (quoted key ++ (behind.chars ++ ':' :: item)) :: fields,
          SkippableField text :=
        List.forall_mem_cons.mpr ⟨⟨.none, behind, key, item, rfl, skippable⟩, others⟩
      rw [octets_object, octets_joined_first, octets_append, List.append_assoc] at enough ⊢
      have skips := Reads.skipFields trimmed rest fuel (by
        simp only [List.length_append, List.length_cons] at enough ⊢
        omega)
      refine .bind (.peekToken rfl _) (.bind (.advance _ _) ((Continues.gap before _ _).reads ?_))
      exact .bind (.peekToken rfl _) skips

end Skippable

namespace Written

mutual

theorem skippable : (w : Written) → Skippable w.chars
  | .null => .null
  | .bool b => .bool b
  | .number n => .number n
  | .text ps => .text ps
  | .list items => .list (skippable_items items)
  | .object fields => .object (skippable_fields fields)

theorem skippable_items : (items : List Written) → ∀ text ∈ itemTexts items, SkippableItem text
  | [], _, within => by cases within
  | item :: items, chars, within => by
      rw [itemTexts, List.mem_cons] at within
      rcases within with rfl | within
      · exact (skippable item).item
      · exact skippable_items items chars within

theorem skippable_fields :
    (fields : List (List Piece × Written)) → ∀ text ∈ fieldTexts fields, SkippableField text
  | [], _, within => by cases within
  | (key, value) :: fields, chars, within => by
      rw [fieldTexts, List.mem_cons] at within
      rcases within with rfl | within
      · exact ⟨.none, .none, key, value.chars, rfl, (skippable value).item⟩
      · exact skippable_fields fields chars within

end

end Written

def Skipped (text : List Char) : Prop :=
  ∀ rest, Ends rest → Reads Reader.skip (octets text ++ rest) () rest

theorem Skippable.skipped (front : Gap) {text : List Char} (skippable : Skippable text) :
    Skipped (front.chars ++ text) := by
  intro rest ends
  rw [octets_append, List.append_assoc]
  refine .bind (.remaining _) ?_
  have enough : 2 * (octets text ++ rest).length + 2 ≤
      2 * (octets front.chars ++ (octets text ++ rest)).length + 2 := by
    simp only [List.length_append]
    omega
  have skips := skippable.skips rest ends _ enough
  exact (Continues.gap front _ _).reads skips

end SymbolExport.Json
