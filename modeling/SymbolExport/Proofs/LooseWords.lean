import Mathlib.Data.List.DropRight
import Mathlib.Data.List.Forall2
import SymbolExport.Export.RowFormat

/-! # Words between white space and in any case

A word is taken out of the white space around it, and its ASCII letters are made small, before it is
compared. Both steps are described by what they forget: the white space that pads a word, and the case
of a letter that has two ASCII cases. So the texts that name a row format are a grammar, said without
the functions that read them.
-/

namespace SymbolExport

namespace Text

/-! ## White space at both ends -/

def whiteSpace : List Nat :=
  [0x9, 0xA, 0xB, 0xC, 0xD, 0x20, 0x85, 0xA0, 0x1680, 0x2000, 0x2001, 0x2002, 0x2003, 0x2004, 0x2005,
    0x2006, 0x2007, 0x2008, 0x2009, 0x200A, 0x2028, 0x2029, 0x202F, 0x205F, 0x3000]

def IsWhite (cs : List Char) : Prop :=
  ∀ c ∈ cs, c.toNat ∈ whiteSpace

instance (cs : List Char) : Decidable (IsWhite cs) :=
  decidable_of_iff (cs.all fun c => whiteSpace.contains c.toNat) (by simp [IsWhite])

theorem isBlank_iff {c : Char} : isBlank c = true ↔ c.toNat ∈ whiteSpace := by
  simp only [isBlank, whiteSpace, Bool.or_eq_true, Bool.and_eq_true, decide_eq_true_eq, beq_iff_eq,
    List.mem_cons, List.not_mem_nil, or_false]
  omega

theorem isWhite_iff {cs : List Char} : IsWhite cs ↔ ∀ c ∈ cs, isBlank c = true := by
  simp only [IsWhite, isBlank_iff]

theorem trimBlanks_eq (cs : List Char) :
    trimBlanks cs = (cs.dropWhile isBlank).rdropWhile isBlank := rfl

/-- Trimming takes away nothing but white space at the two ends. -/
theorem exists_padding (cs : List Char) :
    ∃ front back, cs = front ++ trimBlanks cs ++ back ∧ IsWhite front ∧ IsWhite back := by
  have inner : trimBlanks cs ++ (cs.dropWhile isBlank).rtakeWhile isBlank = cs.dropWhile isBlank :=
    List.rdropWhile_append_rtakeWhile
  refine ⟨cs.takeWhile isBlank, (cs.dropWhile isBlank).rtakeWhile isBlank, ?_, ?_, ?_⟩
  · rw [List.append_assoc, inner, List.takeWhile_append_dropWhile]
  · exact isWhite_iff.mpr fun c member => List.mem_takeWhile_imp member
  · exact isWhite_iff.mpr fun c member => List.mem_rtakeWhile_imp member

theorem rdropWhile_append_white (cs : List Char) {back : List Char} (white : IsWhite back) :
    (cs ++ back).rdropWhile isBlank = cs.rdropWhile isBlank := by
  have blank : ∀ c ∈ back.reverse, isBlank c = true := by
    intro c member
    exact isWhite_iff.mp white c (List.mem_reverse.mp member)
  rw [List.rdropWhile, List.reverse_append, List.dropWhile_append_of_pos blank]
  rfl

theorem trimBlanks_padded (cs : List Char) {front back : List Char} (white : IsWhite front)
    (white' : IsWhite back) : trimBlanks (front ++ cs ++ back) = trimBlanks cs := by
  have unpadded : (front ++ cs ++ back).dropWhile isBlank = (cs ++ back).dropWhile isBlank := by
    rw [List.append_assoc, List.dropWhile_append_of_pos (isWhite_iff.mp white)]
  rw [trimBlanks_eq, trimBlanks_eq, unpadded, List.dropWhile_append]
  -- Without anything visible between, the padding behind is dropped from the front already.
  by_cases empty : cs.dropWhile isBlank = []
  · have gone : back.dropWhile isBlank = [] := List.dropWhile_eq_nil_iff.mpr (isWhite_iff.mp white')
    simp [empty, gone]
  · have kept : (cs.dropWhile isBlank).isEmpty = false := by simpa using empty
    rw [kept, if_neg Bool.false_ne_true, rdropWhile_append_white _ white']

/-! ## Letters in two cases -/

/-- A capital ASCII letter and its small one. -/
def IsCapitalOf (capital small : Char) : Prop :=
  'A'.toNat ≤ capital.toNat ∧ capital.toNat ≤ 'Z'.toNat ∧ small.toNat = capital.toNat + 32

/-- One character, or one ASCII letter in its two cases. -/
def SameLetter (c d : Char) : Prop :=
  c = d ∨ IsCapitalOf c d ∨ IsCapitalOf d c

instance (c d : Char) : Decidable (SameLetter c d) :=
  inferInstanceAs (Decidable (c = d ∨ (_ ∧ _ ∧ _) ∨ (_ ∧ _ ∧ _)))

/-- Two texts that differ at most in the case of their ASCII letters. -/
def SameButCase (cs ds : List Char) : Prop :=
  List.Forall₂ SameLetter cs ds

instance (cs ds : List Char) : Decidable (SameButCase cs ds) :=
  inferInstanceAs (Decidable (List.Forall₂ SameLetter cs ds))

theorem toNat_toLower (c : Char) :
    c.toLower.toNat =
      if 'A'.toNat ≤ c.toNat ∧ c.toNat ≤ 'Z'.toNat then c.toNat + 32 else c.toNat := by
  have bounds : (c.val ≥ 'A'.val ∧ c.val ≤ 'Z'.val) ↔ 'A'.toNat ≤ c.toNat ∧ c.toNat ≤ 'Z'.toNat :=
    Iff.rfl
  by_cases capital : c.val ≥ 'A'.val ∧ c.val ≤ 'Z'.val
  · have last : 'Z'.toNat = 90 := rfl
    have small : c.toNat ≤ 'Z'.toNat := (bounds.mp capital).2
    have lowered : c.toLower.val = c.val + 32 := congrArg Char.val (dif_pos capital)
    rw [if_pos (bounds.mp capital), ← Char.toNat_val, lowered, UInt32.toNat_add, Char.toNat_val]
    change (c.toNat + 32) % 4294967296 = c.toNat + 32
    omega
  · have kept : c.toLower = c := dif_neg capital
    rw [if_neg (mt bounds.mpr capital), kept]

theorem toLower_eq_iff {c d : Char} : c.toLower = d.toLower ↔ SameLetter c d := by
  have capital : 'A'.toNat = 65 := rfl
  have capital' : 'Z'.toNat = 90 := rfl
  simp only [SameLetter, IsCapitalOf, ← Char.toNat_inj, toNat_toLower]
  -- Each of the two may be a capital letter or not.
  split <;> split <;> omega

theorem lowerAscii_eq_iff {cs ds : List Char} :
    lowerAscii cs = lowerAscii ds ↔ SameButCase cs ds := by
  rw [lowerAscii, lowerAscii, ← List.forall₂_eq_eq_eq, List.forall₂_map_left_iff,
    List.forall₂_map_right_iff]
  simp only [toLower_eq_iff]
  rfl

theorem isBlank_toLower (c : Char) : isBlank c.toLower = isBlank c := by
  have first : 'A'.toNat = 65 := rfl
  have last : 'Z'.toNat = 90 := rfl
  rw [Bool.eq_iff_iff, isBlank_iff, isBlank_iff, toNat_toLower]
  simp only [whiteSpace, List.mem_cons, List.not_mem_nil, or_false]
  split
  · omega
  · exact Iff.rfl

/-- White space has no case, so words may be trimmed before or after their letters are made small. -/
theorem trimBlanks_lowerAscii (cs : List Char) :
    trimBlanks (lowerAscii cs) = lowerAscii (trimBlanks cs) := by
  have caseless : isBlank ∘ Char.toLower = isBlank := funext isBlank_toLower
  simp only [trimBlanks, lowerAscii, List.dropWhile_map, ← List.map_reverse, caseless]

end Text

/-! ## Words that name a row format -/

namespace RowFormat

open Text

/-- A text that is the name of a format in any case between white space. -/
def Spells (s : String) (f : RowFormat) : Prop :=
  ∃ front word back : String, s = front ++ word ++ back ∧ IsWhite front.toList ∧
    IsWhite back.toList ∧ SameButCase word.toList f.text.toList

theorem lowerAscii_text (f : RowFormat) : lowerAscii f.text.toList = f.text.toList := by
  cases f <;> decide

theorem trimBlanks_text (f : RowFormat) : trimBlanks f.text.toList = f.text.toList := by
  cases f <;> decide

theorem ofText_eq_ok_iff {s : String} {f : RowFormat} :
    ofText s = .ok f ↔ lowerAscii (trimBlanks s.toList) = f.text.toList := by
  have named : ∀ {name : String},
      String.ofList (lowerAscii (trimBlanks s.toList)) = name ↔
        lowerAscii (trimBlanks s.toList) = name.toList := by
    intro name
    rw [← String.toList_inj, String.toList_ofList]
  rw [← named]
  unfold ofText
  dsimp only
  by_cases full : String.ofList (lowerAscii (trimBlanks s.toList)) = "full"
  · rw [if_pos full, full]
    cases f <;> simp [text]
  by_cases legacy : String.ofList (lowerAscii (trimBlanks s.toList)) = "legacy"
  · rw [if_neg full, if_pos legacy, legacy]
    cases f <;> simp [text]
  · rw [if_neg full, if_neg legacy]
    cases f <;> simp [text, full, legacy]

/-- Padding and case do not matter. -/
theorem Spells.ofText_eq {s : String} {f : RowFormat} (h : Spells s f) : ofText s = .ok f := by
  obtain ⟨front, word, back, rfl, white, white', same⟩ := h
  rw [ofText_eq_ok_iff]
  calc lowerAscii (trimBlanks (front ++ word ++ back).toList)
      = lowerAscii (trimBlanks word.toList) := by
        rw [String.toList_append, String.toList_append, trimBlanks_padded _ white white']
    _ = trimBlanks (lowerAscii word.toList) := (trimBlanks_lowerAscii _).symm
    _ = trimBlanks f.text.toList := by rw [lowerAscii_eq_iff.mpr same, lowerAscii_text]
    _ = f.text.toList := trimBlanks_text f

theorem spells_of_ofText {s : String} {f : RowFormat} (h : ofText s = .ok f) : Spells s f := by
  obtain ⟨front, back, split, white, white'⟩ := exists_padding s.toList
  refine ⟨String.ofList front, String.ofList (trimBlanks s.toList), String.ofList back, ?_, ?_, ?_, ?_⟩
  · rw [← String.ofList_append, ← String.ofList_append, ← split, String.ofList_toList]
  · rwa [String.toList_ofList]
  · rwa [String.toList_ofList]
  · rw [String.toList_ofList, ← lowerAscii_eq_iff, lowerAscii_text]
    exact ofText_eq_ok_iff.mp h

/-- Exactly the texts that spell a format are read as that format: its name in whatever case and
between whatever white space. -/
theorem ofText_reads_spellings (s : String) (f : RowFormat) :
    (ofText s = .ok f ↔ Spells s f) ∧
      (∀ front word back : String, IsWhite front.toList → IsWhite back.toList →
        SameButCase word.toList f.text.toList → ofText (front ++ word ++ back) = .ok f) ∧
      ∀ g : RowFormat, Spells s f → Spells s g → f = g := by
  refine ⟨⟨spells_of_ofText, Spells.ofText_eq⟩, ?_, ?_⟩
  · intro front word back white white' same
    exact Spells.ofText_eq ⟨front, word, back, rfl, white, white', same⟩
  · intro g spelled spelled'
    have same := spelled.ofText_eq.symm.trans spelled'.ofText_eq
    exact Except.ok.inj same

/-- A name in mixed case, behind a tab with a no-break space and in front of an ideographic space. -/
theorem ofText_reads_padded_legacy :
    IsWhite "\t\u00a0".toList ∧ IsWhite "\u3000".toList ∧
      SameButCase "LeGACy".toList RowFormat.legacy.text.toList ∧
      ofText ("\t\u00a0" ++ "LeGACy" ++ "\u3000") = .ok .legacy ∧
      ¬Spells ("\t\u00a0" ++ "LeGACy" ++ "\u3000") .full := by
  have white : IsWhite "\t\u00a0".toList := by decide
  have white' : IsWhite "\u3000".toList := by decide
  have same : SameButCase "LeGACy".toList RowFormat.legacy.text.toList := by decide
  obtain ⟨accepted, reads, unique⟩ :=
    ofText_reads_spellings ("\t\u00a0" ++ "LeGACy" ++ "\u3000") .legacy
  have read := reads _ _ _ white white' same
  have other : ¬Spells ("\t\u00a0" ++ "LeGACy" ++ "\u3000") .full := by
    intro spelled
    exact absurd (unique .full (accepted.mp read) spelled) (by decide)
  exact ⟨white, white', same, read, other⟩

end RowFormat

end SymbolExport
