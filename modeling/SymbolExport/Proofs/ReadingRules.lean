import Mathlib.Data.List.Forall2
import SymbolExport.Json.Reader

/-!
# Rules of reading

What a reader does is said relative to the octets ahead: over some input it gives a value and leaves
a rest. Such statements compose along a reader's steps, so a reader is never run by hand. A text
yields a value if it can be read wherever a value may stand, that is in front of anything that ends a
value. Lists of such texts are read by the one loop that all containers share. White space in front
of a token makes no difference to a reader that looks for the token first.
-/

namespace SymbolExport.Json

def octets (cs : List Char) : Bytes :=
  cs.flatMap String.utf8EncodeChar

@[simp] theorem octets_nil : octets [] = [] := rfl

@[simp] theorem octets_append (cs ds : List Char) : octets (cs ++ ds) = octets cs ++ octets ds :=
  List.flatMap_append

theorem octets_cons (c : Char) (cs : List Char) :
    octets (c :: cs) = String.utf8EncodeChar c ++ octets cs :=
  List.flatMap_cons

theorem ofString_ofList (cs : List Char) : Bytes.ofString (String.ofList cs) = octets cs := by
  rw [Bytes.ofString, String.toByteArray_ofList, List.utf8Encode]
  simp [octets]

theorem Reader.run_eq_ok_iff {α : Type} {reader : Reader α} {input : Bytes} {a : α} :
    Reader.run reader input = .ok a ↔
      ∃ c, (do let a ← reader; Reader.finish; pure a : Reader α) (Cursor.start input) =
        .ok (a, c) := by
  have steps : Reader.run reader input = (fun p : α × Cursor => p.1) <$>
      (do let a ← reader; Reader.finish; pure a : Reader α) (Cursor.start input) := rfl
  rw [steps]
  constructor
  · intro same
    cases read : (do let a ← reader; Reader.finish; pure a : Reader α) (Cursor.start input) with
    | error fault =>
        rw [read] at same
        cases same
    | ok p =>
        rw [read] at same
        cases same
        exact ⟨p.2, rfl⟩
  · rintro ⟨c, read⟩
    rw [read]
    rfl

/-- Over the input the reader gives a value and leaves a rest. -/
def Reads {α : Type} (reader : Reader α) (input : Bytes) (a : α) (rest : Bytes) : Prop :=
  ∀ c : Cursor, c.rest = input → ∃ c' : Cursor, reader c = .ok (a, c') ∧ c'.rest = rest

namespace Reads

variable {α β : Type} {input middle rest : Bytes} {a : α} {b : β}

theorem bind {reader : Reader α} {next : α → Reader β} (first : Reads reader input a middle)
    (second : Reads (next a) middle b rest) : Reads (reader >>= next) input b rest := by
  intro c here
  obtain ⟨c₁, read₁, there⟩ := first c here
  obtain ⟨c₂, read₂, behind⟩ := second c₁ there
  have steps : (reader >>= next) c = (reader c >>= fun p => next p.1 p.2) := rfl
  refine ⟨c₂, ?_, behind⟩
  rw [steps, read₁]
  exact read₂

theorem pure (a : α) (input : Bytes) : Reads (Pure.pure a) input a input :=
  fun c here => ⟨c, rfl, here⟩

theorem peek (input : Bytes) : Reads Reader.peek input input.head? input :=
  fun c here => ⟨c, by rw [Reader.peek, here], here⟩

theorem advance (b : UInt8) (rest : Bytes) : Reads Reader.advance (b :: rest) () rest := by
  intro c here
  have behind : (c.drop 1).rest = rest := congrArg (List.drop 1) here
  exact ⟨c.drop 1, rfl, behind⟩

theorem next (b : UInt8) (rest : Bytes) : Reads Reader.next (b :: rest) (some b) rest := by
  intro c here
  have behind : (c.drop 1).rest = rest := congrArg (List.drop 1) here
  exact ⟨c.drop 1, by rw [Reader.next, here]; rfl, behind⟩

theorem remaining (input : Bytes) : Reads Reader.remaining input input.length input :=
  fun c here => ⟨c, by rw [Reader.remaining, ← c.length_rest, here], here⟩

theorem peekToken {b : UInt8} (visible : Cursor.isSpace b = false) (rest : Bytes) :
    Reads Reader.peekToken (b :: rest) (some b) (b :: rest) := by
  intro c here
  have still : c.skipSpace.rest = b :: rest := by
    show c.rest.drop (c.rest.takeWhile Cursor.isSpace).length = b :: rest
    rw [here, List.takeWhile_cons_of_neg (by simp [visible])]
    rfl
  exact ⟨c.skipSpace, by rw [Reader.peekToken, still]; rfl, still⟩

theorem peekToken_end : Reads Reader.peekToken [] none [] := by
  intro c here
  have still : c.skipSpace.rest = [] := by
    show c.rest.drop _ = []
    rw [here, List.drop_nil]
  exact ⟨c.skipSpace, by rw [Reader.peekToken, still]; rfl, still⟩

theorem word (letters rest : Bytes) : Reads (Reader.word letters) (letters ++ rest) () rest := by
  induction letters with
  | nil => exact pure () rest
  | cons letter letters ih =>
      refine bind (next letter (letters ++ rest)) ?_
      show Reads (if letter = letter then _ else _) _ _ _
      rw [if_pos rfl]
      exact ih

/-- The digits ahead are read up to the first octet that is none. -/
theorem digits {ds : Bytes} (all : ∀ b ∈ ds, Reader.isDigit b = true)
    (stop : ∀ b ∈ rest.head?, Reader.isDigit b = false) :
    Reads Reader.digits (ds ++ rest) (ds.map fun b => b.toNat - 0x30) rest := by
  intro c here
  have taken : c.rest.takeWhile Reader.isDigit = ds := by
    rw [here, List.takeWhile_append_of_pos all]
    cases rest with
    | nil => simp
    | cons b more => simp [stop b rfl]
  refine ⟨c.drop ds.length, by rw [Reader.digits, taken], ?_⟩
  show c.rest.drop ds.length = rest
  rw [here, List.drop_left]

theorem run_of_finish {reader : Reader α} (reads : Reads reader input a middle)
    (finish : Reads Reader.finish middle () rest) : Reader.run reader input = .ok a := by
  have whole : Reads (do let a ← reader; Reader.finish; Pure.pure a) input a rest :=
    bind reads (bind finish (pure a rest))
  obtain ⟨c, read, _⟩ := whole (Cursor.start input) rfl
  exact Reader.run_eq_ok_iff.mpr ⟨c, read⟩

theorem finish : Reads Reader.finish [] () [] :=
  bind peekToken_end (pure () [])

theorem run {reader : Reader α} (reads : Reads reader input a []) :
    Reader.run reader input = .ok a :=
  run_of_finish reads finish

end Reads

/-- What may stand behind a value: the end, a comma, a closing bracket or white space. -/
def Ends (rest : Bytes) : Prop :=
  ∀ b ∈ rest.head?, b = 0x2C ∨ b = 0x5D ∨ b = 0x7D ∨ Cursor.isSpace b = true

theorem Ends.nil : Ends [] := by
  intro b absent
  cases absent

theorem Ends.bracket (rest : Bytes) : Ends (0x5D :: rest) := by
  rintro b ⟨⟩
  exact .inr (.inl rfl)

theorem Ends.brace (rest : Bytes) : Ends (0x7D :: rest) := by
  rintro b ⟨⟩
  exact .inr (.inr (.inl rfl))

/-- Nothing that may stand behind a number belongs to it. -/
theorem Ends.stop {rest : Bytes} (ends : Ends rest) :
    ∀ b ∈ rest.head?, Reader.isDigit b = false ∧ b ≠ 0x2E ∧ b ≠ 0x65 ∧ b ≠ 0x45 := by
  intro b ahead
  rcases ends b ahead with rfl | rfl | rfl | space
  · decide
  · decide
  · decide
  · simp only [Cursor.isSpace, Bool.or_eq_true, beq_iff_eq] at space
    rcases space with ((rfl | rfl) | rfl) | rfl <;> decide

/-- The octets that a value can start with. -/
def Opens (b : UInt8) : Prop :=
  b = 0x6E ∨ b = 0x74 ∨ b = 0x66 ∨ b = 0x2D ∨ b = 0x22 ∨ b = 0x5B ∨ b = 0x7B ∨
    Reader.isDigit b = true

/-- The text can be read, wherever a value may stand. -/
structure Yields {α : Type} (reader : Reader α) (text : List Char) (a : α) : Prop where
  opens : ∃ b more, octets text = b :: more ∧ Opens b
  reads : ∀ rest, Ends rest → Reads reader (octets text ++ rest) a rest

theorem Opens.visible {b : UInt8} (opens : Opens b) : Cursor.isSpace b = false := by
  rcases opens with rfl | rfl | rfl | rfl | rfl | rfl | rfl | digit
  · rfl
  · rfl
  · rfl
  · rfl
  · rfl
  · rfl
  · rfl
  · unfold Reader.isDigit at digit
    unfold Cursor.isSpace
    grind

theorem Opens.ne_bracket {b : UInt8} (opens : Opens b) : b ≠ 0x5D := by
  rintro rfl
  rcases opens with h | h | h | h | h | h | h | h <;> cases h

def comma (first : Bool) : List Char :=
  if first then [] else [',']

/-- The texts of items with commas between them, and one in front unless the first comes first. -/
def joined : Bool → List (List Char) → List Char
  | _, [] => []
  | first, item :: items => comma first ++ item ++ joined false items

def enclosed (opening closing : Char) (texts : List (List Char)) : List Char :=
  opening :: (joined true texts ++ [closing])

theorem octets_list (texts : List (List Char)) (rest : Bytes) :
    octets (enclosed '[' ']' texts) ++ rest =
      0x5B :: (octets (joined true texts) ++ 0x5D :: rest) := by
  rw [enclosed, octets_cons, octets_append, List.append_assoc, List.append_assoc]
  rfl

theorem octets_object (texts : List (List Char)) (rest : Bytes) :
    octets (enclosed '\x7b' '\x7d' texts) ++ rest =
      0x7B :: (octets (joined true texts) ++ 0x7D :: rest) := by
  rw [enclosed, octets_cons, octets_append, List.append_assoc, List.append_assoc]
  rfl

/-- Behind an item stands a comma or what ends the container. -/
theorem ends_joined (texts : List (List Char)) {rest : Bytes} (ends : Ends rest) :
    Ends (octets (joined false texts) ++ rest) := by
  cases texts with
  | nil => exact ends
  | cons text texts =>
      intro b ahead
      have comma : b = 0x2C := (Option.some.inj ahead).symm
      exact .inl comma

namespace Reads

theorem nextItem_end (first : Bool) (rest : Bytes) :
    Reads (Reader.nextItem first) (0x5D :: rest) false (0x5D :: rest) :=
  bind (peekToken rfl rest) (pure false _)

theorem nextItem (first : Bool) {b : UInt8} (opens : Opens b) (rest : Bytes) :
    Reads (Reader.nextItem first) (octets (comma first) ++ b :: rest) true (b :: rest) := by
  have visible := opens.visible
  have inside := opens.ne_bracket
  cases first with
  | true =>
      refine bind (peekToken visible rest) ?_
      split
      · contradiction
      · next bracket => cases bracket; contradiction
      · exact pure true _
  | false =>
      refine bind (peekToken rfl (b :: rest)) (bind (advance 0x2C (b :: rest)) ?_)
      refine bind (peekToken visible rest) ?_
      split
      · contradiction
      · next bracket => cases bracket; contradiction
      · exact pure true _

theorem closeList (rest : Bytes) : Reads Reader.closeList (0x5D :: rest) () rest :=
  bind (peekToken rfl rest) (advance 0x5D rest)

theorem closeObject (rest : Bytes) : Reads Reader.closeObject (0x7D :: rest) () rest :=
  bind (peekToken rfl rest) (advance 0x7D rest)

theorem colon (rest : Bytes) : Reads Reader.colon (0x3A :: rest) () rest :=
  bind (peekToken rfl rest) (advance 0x3A rest)

theorem itemsFrom {α : Type} {item : Reader α} {texts : List (List Char)} {as : List α}
    (yields : List.Forall₂ (Yields item) texts as) (first : Bool) (fuel : Nat) (rest : Bytes)
    (enough : (octets (joined first texts) ++ 0x5D :: rest).length < fuel) :
    Reads (Reader.itemsFrom item fuel first) (octets (joined first texts) ++ 0x5D :: rest) as
      (0x5D :: rest) := by
  -- Every item takes an octet at least, so the octets ahead bound the rounds that are left.
  induction yields generalizing first fuel with
  | nil =>
      obtain ⟨fuel, rfl⟩ := Nat.exists_eq_add_one_of_ne_zero (Nat.ne_zero_of_lt enough)
      exact bind (nextItem_end first rest) (pure [] _)
  | @cons text a texts as yield _ ih =>
      obtain ⟨fuel, rfl⟩ := Nat.exists_eq_add_one_of_ne_zero (Nat.ne_zero_of_lt enough)
      obtain ⟨b, more, starts, opens⟩ := yield.opens
      have here : octets (joined first (text :: texts)) ++ 0x5D :: rest =
          octets (comma first) ++ (octets text ++ (octets (joined false texts) ++ 0x5D :: rest)) := by
        simp only [joined, octets_append, List.append_assoc]
      rw [here] at enough ⊢
      have behind : Ends (octets (joined false texts) ++ 0x5D :: rest) :=
        ends_joined texts (.bracket rest)
      have shorter : (octets (joined false texts) ++ 0x5D :: rest).length < fuel := by
        simp only [starts, List.length_append, List.length_cons] at enough ⊢
        omega
      have atItem : Reads (Reader.nextItem first)
          (octets (comma first) ++ (octets text ++ (octets (joined false texts) ++ 0x5D :: rest)))
          true (octets text ++ (octets (joined false texts) ++ 0x5D :: rest)) := by
        rw [starts]
        exact nextItem first opens _
      exact bind atItem (bind (yield.reads _ behind)
        (bind (ih false fuel shorter) (pure (a :: as) _)))

theorem list {α : Type} {item : Reader α} {texts : List (List Char)} {as : List α}
    (yields : List.Forall₂ (Yields item) texts as) (rest : Bytes) :
    Reads (Reader.list item) (octets (joined true texts) ++ 0x5D :: rest) as rest :=
  bind (remaining _) (bind (itemsFrom yields true _ rest (Nat.lt_succ_self _))
    (bind (closeList rest) (pure as rest)))

end Reads

/-! ## Readers that fail -/

/-- Over the input the reader finds a fault of the given cause. -/
def Fails {α : Type} (reader : Reader α) (input : Bytes) (cause : Cause) : Prop :=
  ∀ c : Cursor, c.rest = input → ∃ offset, reader c = .error { cause, offset }

namespace Fails

variable {α β : Type} {input middle : Bytes} {cause : Cause}

theorem fail (cause : Cause) (input : Bytes) : Fails (Reader.fail cause : Reader α) input cause :=
  fun c _ => ⟨some c.offset, rfl⟩

theorem bind {reader : Reader α} (first : Fails reader input cause) (next : α → Reader β) :
    Fails (reader >>= next) input cause := by
  intro c here
  obtain ⟨offset, failed⟩ := first c here
  have steps : (reader >>= next) c = (reader c >>= fun p => next p.1 p.2) := rfl
  exact ⟨offset, by rw [steps, failed]; rfl⟩

theorem run {reader : Reader α} (fails : Fails reader input cause) :
    ∃ offset, Reader.run reader input = .error { cause, offset } := by
  obtain ⟨offset, failed⟩ := fails.bind (fun a => do Reader.finish; pure a) (Cursor.start input) rfl
  refine ⟨offset, ?_⟩
  rw [Reader.run]
  change (fun p : α × Cursor => p.1) <$> (_ : Except Fault (α × Cursor)) = _
  rw [failed]
  rfl

end Fails

/-- Over the input a reader does what another one does over the rest. -/
def Continues {α : Type} (reader last : Reader α) (input rest : Bytes) : Prop :=
  ∀ c : Cursor, c.rest = input → ∃ c' : Cursor, c'.rest = rest ∧ reader c = last c'

namespace Continues

variable {α β : Type} {input middle rest : Bytes}

theorem bind {reader : Reader α} {next : α → Reader β} {last : Reader β} {a : α}
    (first : Reads reader input a middle) (second : Continues (next a) last middle rest) :
    Continues (reader >>= next) last input rest := by
  intro c here
  obtain ⟨c₁, read, there⟩ := first c here
  obtain ⟨c₂, behind, same⟩ := second c₁ there
  have steps : (reader >>= next) c = (reader c >>= fun p => next p.1 p.2) := rfl
  exact ⟨c₂, behind, by rw [steps, read]; exact same⟩

theorem refl (reader : Reader α) (input : Bytes) : Continues reader reader input input :=
  fun c here => ⟨c, here, rfl⟩

theorem andThen {reader last : Reader α} (continues : Continues reader last input rest)
    (next : α → Reader β) : Continues (reader >>= next) (last >>= next) input rest := by
  intro c here
  obtain ⟨c', there, same⟩ := continues c here
  refine ⟨c', there, ?_⟩
  show (reader c >>= fun p => next p.1 p.2) = (last c' >>= fun p => next p.1 p.2)
  rw [same]

theorem reads {reader last : Reader α} {a : α} {after : Bytes}
    (continues : Continues reader last input rest) (read : Reads last rest a after) :
    Reads reader input a after := by
  intro c here
  obtain ⟨c', there, same⟩ := continues c here
  rw [same]
  exact read c' there

theorem fails {reader last : Reader α} {cause : Cause}
    (continues : Continues reader last input rest) (failed : Fails last rest cause) :
    Fails reader input cause := by
  intro c here
  obtain ⟨c', there, same⟩ := continues c here
  rw [same]
  exact failed c' there

end Continues

theorem Fails.after {α β : Type} {reader : Reader α} {next : α → Reader β} {a : α}
    {input middle : Bytes} {cause : Cause} (first : Reads reader input a middle)
    (second : Fails (next a) middle cause) : Fails (reader >>= next) input cause :=
  (Continues.bind first (.refl _ _)).fails second

/-! ## White space between tokens -/

/-- What may stand between any two tokens. -/
structure Gap where
  chars : List Char
  blank : ∀ c ∈ chars, c = ' ' ∨ c = '\t' ∨ c = '\n' ∨ c = '\r'

namespace Gap

def none : Gap where
  chars := []
  blank := List.forall_mem_nil _

theorem isSpace (g : Gap) : ∀ b ∈ octets g.chars, Cursor.isSpace b = true := by
  intro b within
  obtain ⟨c, listed, inside⟩ := List.mem_flatMap.mp within
  rcases g.blank c listed with rfl | rfl | rfl | rfl <;> (rw [List.mem_singleton.mp inside]; rfl)

theorem ends (g : Gap) {rest : Bytes} (ends : Ends rest) : Ends (octets g.chars ++ rest) := by
  intro b ahead
  cases start : octets g.chars with
  | nil =>
      rw [start] at ahead
      exact ends b ahead
  | cons first more =>
      rw [start] at ahead
      have same : first = b := Option.some.inj ahead
      have space := g.isSpace first (by rw [start]; exact List.mem_cons_self)
      exact .inr (.inr (.inr (same ▸ space)))

end Gap

theorem Cursor.eq_of_rest {c d : Cursor} (size : c.size = d.size) (rest : c.rest = d.rest) :
    c = d := by
  obtain ⟨_, offset, _, covers⟩ := c
  obtain ⟨_, other, _, covers'⟩ := d
  cases size
  cases rest
  have same : offset = other := by omega
  cases same
  rfl

theorem Cursor.rest_skipSpace (c : Cursor) : c.skipSpace.rest = c.rest.dropWhile Cursor.isSpace := by
  show c.rest.drop (c.rest.takeWhile Cursor.isSpace).length = _
  nth_rewrite 2 [← c.rest.takeWhile_append_dropWhile (p := Cursor.isSpace)]
  exact List.drop_left

/-- A reader that looks for a token first does not see the white space in front of it. -/
theorem Continues.gap {α : Type} (g : Gap) (next : Option UInt8 → Reader α) (input : Bytes) :
    Continues (Reader.peekToken >>= next) (Reader.peekToken >>= next) (octets g.chars ++ input)
      input := by
  intro c here
  have behind : (c.drop (octets g.chars).length).rest = input := by
    show c.rest.drop (octets g.chars).length = input
    rw [here, List.drop_left]
  refine ⟨c.drop (octets g.chars).length, behind, ?_⟩
  have same : c.skipSpace = (c.drop (octets g.chars).length).skipSpace := by
    refine Cursor.eq_of_rest rfl ?_
    rw [Cursor.rest_skipSpace, Cursor.rest_skipSpace, behind, here]
    exact List.dropWhile_append_of_pos g.isSpace
  show next c.skipSpace.rest.head? c.skipSpace = next _ (Cursor.skipSpace _)
  rw [same]

/-- White space may stand behind the whole text. -/
theorem Reads.run_gap {α : Type} {reader : Reader α} {input : Bytes} {a : α} (behind : Gap)
    (reads : Reads reader input a (octets behind.chars)) : Reader.run reader input = .ok a := by
  have finished : Reads Reader.finish (octets behind.chars ++ []) () [] :=
    (Continues.gap behind _ _).reads finish
  rw [List.append_nil] at finished
  exact reads.run_of_finish finished

end SymbolExport.Json
