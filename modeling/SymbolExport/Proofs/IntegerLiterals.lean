import Mathlib.Data.List.Induction
import SymbolExport.Proofs.ReadingPresentations

/-!
# Integer literals

Every integer has one literal without needless zeros and signs. Read as a runtime value, the literal
of an integer of at most 64 bits stays that integer, signed as long as it can be, and its field is the
literal again. The literal of any other integer becomes a float, or is refused if that is too large.
-/

namespace SymbolExport

open Json

/-! ## Digits and numbers -/

namespace Decimal

theorem ofDigits_cons (d : Digit) (ds : List Digit) :
    ofDigits (d :: ds) = ds.foldl (fun n d => 10 * n + d.val) d.val := by
  rw [ofDigits, List.foldl_cons, Nat.mul_zero, Nat.zero_add]

theorem le_ofDigits (d : Digit) (ds : List Digit) : d.val ≤ ofDigits (d :: ds) := by
  rw [ofDigits_cons]
  exact Reader.le_foldl_digits ds d.val

/-- Digits without a leading zero are the digits of the number that they spell. -/
theorem digitsOf_ofDigits {d : Digit} {ds : List Digit} (proper : d = 0 → ds = []) :
    digitsOf (ofDigits (d :: ds)) = d :: ds := by
  induction ds using List.reverseRecOn with
  | nil =>
      have small : ofDigits [d] < 10 := by
        rw [ofDigits_cons]
        exact d.isLt
      rw [digitsOf, dif_pos small]
      congr 1
      exact Fin.ext (Nat.zero_add d.val)
  | append_singleton ds last ih =>
      have leading : d ≠ 0 := by
        intro zero
        have := proper zero
        simp at this
      have positive : 0 < ofDigits (d :: ds) := by
        have first := le_ofDigits d ds
        have nonzero : d.val ≠ 0 := fun zero => leading (Fin.ext zero)
        omega
      have value : ofDigits (d :: (ds ++ [last])) = 10 * ofDigits (d :: ds) + last.val :=
        ofDigits_append_singleton (d :: ds) last
      have large : ¬ofDigits (d :: (ds ++ [last])) < 10 := by omega
      have front : ofDigits (d :: (ds ++ [last])) / 10 = ofDigits (d :: ds) := by omega
      have back : ofDigits (d :: (ds ++ [last])) % 10 = last.val := by omega
      rw [digitsOf, dif_neg large]
      simp only [front, back, ih fun zero => absurd zero leading]
      rfl

end Decimal

namespace Json

/-- An integer literal: no zero in front of other digits, and no sign in front of a zero. -/
structure IntegerText where
  negative : Bool
  whole : Digits
  noLeadingZero : whole.first = 0 → whole.others = []
  noNegativeZero : whole.first = 0 → negative = false

namespace IntegerText

def chars (t : IntegerText) : List Char :=
  if t.negative then '-' :: t.whole.chars else t.whole.chars

def magnitude (t : IntegerText) : Nat :=
  Decimal.ofDigits (t.whole.first :: t.whole.others)

def value (t : IntegerText) : Int :=
  if t.negative then -t.magnitude else t.magnitude

theorem natText_magnitude (t : IntegerText) : Decimal.natText t.magnitude = t.whole.chars := by
  rw [Decimal.natText, magnitude, Decimal.digitsOf_ofDigits t.noLeadingZero, Digits.chars]

theorem magnitude_pos {t : IntegerText} (negative : t.negative = true) : 0 < t.magnitude := by
  have first := Decimal.le_ofDigits t.whole.first t.whole.others
  have nonzero : t.whole.first.val ≠ 0 := by
    intro zero
    have unsigned := t.noNegativeZero (Fin.ext zero)
    simp [negative] at unsigned
  unfold magnitude
  omega

theorem intText_value (t : IntegerText) : Decimal.intText t.value = t.chars := by
  unfold Decimal.intText value chars
  by_cases negative : t.negative = true
  · have positive := magnitude_pos negative
    have below : -(t.magnitude : Int) < 0 := by omega
    simp only [negative, if_true, if_pos below, Int.natAbs_neg, Int.natAbs_natCast,
      natText_magnitude]
  · have nonnegative : ¬(t.magnitude : Int) < 0 := by omega
    simp only [negative, Bool.false_eq_true, if_false, if_neg nonnegative, Int.natAbs_natCast,
      natText_magnitude]

theorem exists_value (n : Int) : ∃ t : IntegerText, t.value = n := by
  obtain ⟨d, ds, digits, zero⟩ := Decimal.digitsOf_head n.natAbs
  have magnitude : Decimal.ofDigits (d :: ds) = n.natAbs := by
    rw [← digits, Decimal.ofDigits_digitsOf]
  have alone : d = 0 → ds = [] := by
    intro first
    have none := zero (congrArg Fin.val first)
    rw [none, Decimal.digitsOf, dif_pos (by decide)] at digits
    exact (List.cons.inj digits).2.symm
  have unsigned : d = 0 → decide (n < 0) = false := by
    intro first
    have none := zero (congrArg Fin.val first)
    rw [decide_eq_false_iff_not]
    omega
  refine ⟨⟨decide (n < 0), ⟨d, ds⟩, alone, unsigned⟩, ?_⟩
  simp only [value, IntegerText.magnitude, magnitude, decide_eq_true_eq]
  by_cases negative : n < 0
  · rw [if_pos negative]
    omega
  · rw [if_neg negative]
    omega

end IntegerText

/-! ## Integers beyond 64 bits -/

namespace Reader

/-- Digits that spell a number beyond the limit are not all used. -/
theorem accumulate_of_le {limit : Nat} (ds : List Decimal.Digit) (n : Nat) (below : n < limit)
    (large : limit ≤ ds.foldl (fun n d => 10 * n + d.val) n) :
    (accumulate limit n (ds.map Fin.val)).2.2 ≠ 0 := by
  induction ds generalizing n with
  | nil =>
      rw [List.foldl_nil] at large
      omega
  | cons d ds ih =>
      rw [List.map_cons, accumulate]
      by_cases fits : 10 * n + d.val < limit
      · rw [if_pos fits]
        exact ih (10 * n + d.val) fits large
      · rw [if_neg fits]
        exact Nat.succ_ne_zero _

/-- A number is read as a float, or it is too large for one. -/
def FloatOrTooLarge (reader : Reader Number) (input rest : Bytes) : Prop :=
  (∃ f, Reads reader input (.float f) rest) ∨ Fails reader input .numberTooLarge

theorem floatOrTooLarge_scaled (positive : Bool) (significand : Nat) (exponent : Int)
    (input : Bytes) : FloatOrTooLarge (scaled positive significand exponent) input input := by
  unfold scaled
  cases Decimal.scaled? significand exponent with
  | some f => exact .inl ⟨_, .pure _ input⟩
  | none => exact .inr (.fail _ input)

/-- An integer of more than 64 bits, or one below the signed range, is not read as an integer. -/
theorem floatOrTooLarge_numberOf (positive : Bool) (n : Nat)
    (outside : significandLimit ≤ n ∨ positive = false ∧ 9223372036854775808 < n) (input : Bytes) :
    FloatOrTooLarge (numberOf positive n) input input := by
  by_cases small : n < significandLimit
  · have below : positive = false ∧ 9223372036854775808 < n := by
      rcases outside with large | below
      · omega
      · exact below
    have nonzero : n ≠ 0 := by omega
    have range : ¬(-9223372036854775808 ≤ -(n : Int) ∧ -(n : Int) < 18446744073709551616) := by omega
    have float : integer positive n = signed false n.toUInt64.toFloat := by
      rw [integer, below.1, if_neg (by simp [nonzero]), if_neg Bool.false_ne_true, WideInt.ofInt?,
        dif_neg range]
    rw [numberOf_of_lt positive small, float]
    exact .inl ⟨_, .pure _ input⟩
  · have spelled : (Decimal.digitsOf n).foldl (fun n d => 10 * n + d.val) 0 = n :=
      Decimal.ofDigits_digitsOf n
    have left := accumulate_of_le (Decimal.digitsOf n) 0 (by decide : 0 < significandLimit)
      (by rw [spelled]; omega)
    unfold numberOf
    generalize accumulate significandLimit 0 ((Decimal.digitsOf n).map Fin.val) = parts at left ⊢
    obtain ⟨significand, used, remaining⟩ := parts
    change FloatOrTooLarge (if remaining = 0 then _ else _) input input
    rw [if_neg left]
    exact floatOrTooLarge_scaled _ _ _ _

end Reader

end Json

/-! ## Runtime values -/

theorem Reader.value_outside {positive : Bool} {n : Nat} {input middle : Bytes}
    {depth : Nat}
    (outside : Reader.significandLimit ≤ n ∨ positive = false ∧ 9223372036854775808 < n)
    (reaches : Continues (Reader.value depth) (do pure (← Reader.number positive).toJson) input
      middle)
    (spelled : middle = octets (Decimal.natText n)) :
    (∃ f, Reads (Reader.value depth) input (.float f) []) ∨
      Fails (Reader.value depth) input .numberTooLarge := by
  have digits := Continues.number positive n [] .nil
  rw [List.append_nil, ← spelled] at digits
  rcases Reader.floatOrTooLarge_numberOf positive n outside [] with ⟨f, read⟩ | failed
  · exact .inl ⟨f, reaches.reads (.bind (digits.reads read) (.pure _ []))⟩
  · exact .inr (reaches.fails ((digits.fails failed).bind _))

namespace RuntimeValue

theorem ofJsonBytes_eq_run (input : Bytes) :
    (ofJsonBytes input : Except Fault RuntimeValue) =
      Reader.run (Shape.value.read depthLimit) input := by
  rw [ofJsonBytes]
  change Except.map _ (Reader.run (Shape.value.read depthLimit) input) = _
  cases Reader.run (Shape.value.read depthLimit) input with
  | error fault => rfl
  | ok v => rfl

/-- An integer of at most 64 bits is decoded from its text without a loss. -/
theorem ofJsonBytes_intText (n : WideInt) :
    ofJsonBytes (octets (Decimal.intText n.val)) = .ok (ofWideInt n) := by
  obtain ⟨list, object, same⟩ := exists_valueWith depthLimit
  have read := (yields_int list object n).reads [] .nil
  rw [List.append_nil, ← same] at read
  have whole : Reads (Shape.value.read depthLimit) (octets (Decimal.intText n.val))
      (ofWideInt n) [] := .bind read (.pure _ [])
  rw [ofJsonBytes_eq_run, whole.run]

/-- An integer of more than 64 bits is no integer any more when it has been decoded. -/
theorem ofJsonBytes_intText_outside {n : Int}
    (outside : n < -9223372036854775808 ∨ 18446744073709551616 ≤ n) :
    (∃ f, ofJsonBytes (octets (Decimal.intText n)) = .ok (RuntimeValue.float f)) ∨
      ∃ offset, (ofJsonBytes (octets (Decimal.intText n)) : Except Fault RuntimeValue) =
        .error { cause := .numberTooLarge, offset } := by
  have limit : Reader.significandLimit = 18446744073709551616 := rfl
  obtain ⟨list, object, same⟩ := exists_valueWith depthLimit
  have result : (∃ f, Reads (Reader.value depthLimit) (octets (Decimal.intText n)) (.float f) []) ∨
      Fails (Reader.value depthLimit) (octets (Decimal.intText n)) .numberTooLarge := by
    by_cases negative : n < 0
    · rw [Decimal.intText, if_pos negative]
      have reaches := @Continues.valueWith_minus list object
        (octets (Decimal.natText n.natAbs))
      rw [← same] at reaches
      exact Reader.value_outside (.inr ⟨rfl, by omega⟩) reaches rfl
    · rw [Decimal.intText, if_neg negative]
      obtain ⟨b, more, starts, digit⟩ := Decimal.octets_natText n.natAbs
      have reaches := @Continues.valueWith_digit list object b digit more
      rw [← same, ← starts] at reaches
      exact Reader.value_outside (.inl (by omega)) reaches rfl
  rcases result with ⟨f, read⟩ | failed
  · have whole : Reads (Shape.value.read depthLimit) (octets (Decimal.intText n))
        (RuntimeValue.float f) [] := .bind read (.pure _ [])
    exact .inl ⟨f, by rw [ofJsonBytes_eq_run, whole.run]⟩
  · obtain ⟨offset, refused⟩ := (failed.bind fun v => pure (ofJson v)).run
    exact .inr ⟨offset, by rw [ofJsonBytes_eq_run]; exact refused⟩

/-- The text of an integer is decoded as a signed integer, an unsigned one or none at all. -/
theorem ofJsonBytes_intText_cases (n : Int) :
    let decoded : Except Fault RuntimeValue := ofJsonBytes (octets (Decimal.intText n))
    (∃ m : Int64, m.toInt = n ∧ decoded = .ok (.int m)) ∨
    (9223372036854775808 ≤ n ∧ ∃ m : UInt64, (m.toNat : Int) = n ∧ decoded = .ok (.uint m)) ∨
    ((n < -9223372036854775808 ∨ 18446744073709551615 < n) ∧
      ((∃ f, decoded = .ok (.float f)) ∨
        ∃ offset, decoded = .error { cause := .numberTooLarge, offset })) := by
  intro decoded
  by_cases inside : -9223372036854775808 ≤ n ∧ n < 18446744073709551616
  · have read : decoded = .ok (ofWideInt ⟨n, inside.1, inside.2⟩) :=
      ofJsonBytes_intText ⟨n, inside.1, inside.2⟩
    rw [ofWideInt] at read
    dsimp only at read
    by_cases signed : n < 9223372036854775808
    · rw [if_pos signed] at read
      exact .inl ⟨_, Int64.toInt_ofInt_of_le inside.1 signed, read⟩
    · rw [if_neg signed] at read
      have small : n.toNat < UInt64.size := by
        have size : UInt64.size = 18446744073709551616 := rfl
        omega
      have back : ((UInt64.ofNat n.toNat).toNat : Int) = n := by
        rw [UInt64.toNat_ofNat_of_lt' small]
        omega
      exact .inr (.inl ⟨by omega, _, back, read⟩)
  · have outside : n < -9223372036854775808 ∨ 18446744073709551616 ≤ n := by omega
    exact .inr (.inr ⟨by omega, ofJsonBytes_intText_outside outside⟩)

theorem toField_uint (m : UInt64) :
    (RuntimeValue.uint m).toField = String.ofList (Decimal.intText m.toNat) := by
  have nonnegative : ¬(m.toNat : Int) < 0 := by omega
  rw [toField, Decimal.intText, if_neg nonnegative, Int.natAbs_natCast]

/-- Every integer has one literal. It is decoded as a signed integer exactly within the signed range,
as an unsigned one exactly in the rest of the unsigned range, and never as another integer. The field
of what is decoded is then the literal itself; any other literal becomes a float or is too large. -/
theorem integer_literals_keep_every_digit (n : Int) :
    ∃ literal : IntegerText, literal.value = n ∧
      (∀ other : IntegerText, other.value = n → other.chars = literal.chars) ∧
      let text := String.ofList literal.chars
      let decoded : Except Fault RuntimeValue := ofJsonBytes (Bytes.ofString text)
      ((∃ m, decoded = .ok (.int m)) ↔ -9223372036854775808 ≤ n ∧ n ≤ 9223372036854775807) ∧
      ((∃ m, decoded = .ok (.uint m)) ↔ 9223372036854775808 ≤ n ∧ n ≤ 18446744073709551615) ∧
      (∀ m, decoded = .ok (.int m) → m.toInt = n ∧ (RuntimeValue.int m).toField = text) ∧
      (∀ m, decoded = .ok (.uint m) → m.toNat = n ∧ (RuntimeValue.uint m).toField = text) ∧
      (n < -9223372036854775808 ∨ 18446744073709551615 < n →
        (∃ f, decoded = .ok (.float f)) ∨
          ∃ offset, decoded = .error { cause := .numberTooLarge, offset }) := by
  obtain ⟨literal, value⟩ := IntegerText.exists_value n
  have spelled : literal.chars = Decimal.intText n := by rw [← value, literal.intText_value]
  refine ⟨literal, value, ?_, ?_⟩
  · intro other same
    rw [spelled, ← same, other.intText_value]
  intro text decoded
  have texts : text = String.ofList (Decimal.intText n) := by rw [← spelled]
  have cases := ofJsonBytes_intText_cases n
  rw [← ofString_ofList, ← texts] at cases
  rcases cases with ⟨m, back, read⟩ | ⟨large, m, back, read⟩ | ⟨outside, read⟩
  · change decoded = _ at read
    have lower := m.le_toInt
    have upper := m.toInt_lt
    simp only [read, texts, Except.ok.injEq, RuntimeValue.int.injEq, reduceCtorEq]
    refine ⟨?_, ?_, ?_, ?_, ?_⟩
    · simp only [exists_eq', true_iff]
      omega
    · simp only [exists_false, false_iff]
      omega
    · rintro _ rfl
      exact ⟨back, by rw [toField, back]⟩
    · simp
    · intro outside
      omega
  · change decoded = _ at read
    have upper := m.toNat_lt
    simp only [read, texts, Except.ok.injEq, RuntimeValue.uint.injEq, reduceCtorEq]
    refine ⟨?_, ?_, ?_, ?_, ?_⟩
    · simp only [exists_false, false_iff]
      omega
    · simp only [exists_eq', true_iff]
      omega
    · simp
    · rintro _ rfl
      exact ⟨back, by rw [toField_uint, back]⟩
    · intro outside
      omega
  · change (∃ f, decoded = .ok (.float f)) ∨
      ∃ offset, decoded = .error { cause := .numberTooLarge, offset } at read
    refine ⟨?_, ?_, ?_, ?_, fun _ => read⟩
    all_goals rcases read with ⟨f, read⟩ | ⟨offset, read⟩
    all_goals simp only [read, Except.ok.injEq, reduceCtorEq, exists_false, false_iff,
      false_implies, implies_true]
    all_goals omega

end RuntimeValue

end SymbolExport
