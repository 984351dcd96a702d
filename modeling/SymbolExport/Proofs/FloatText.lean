import SymbolExport.Proofs.FloatOrder

/-!
# Texts of floats

A number literal denotes one number. Both layouts of a decimal, with the point among the digits and
with an exponent, are literals of it; the text of a float in a field is the literal of the shortest
decimal that reads back as the float. As literals are made of few signs, the text needs no quotes in
a field, and the cut between the layouts keeps it short.
-/

namespace SymbolExport

open Decimal

/-! ## Numbers that literals denote -/

namespace Json

def Digits.all (ds : Digits) : List Digit :=
  ds.first :: ds.others

def Exponent.value (e : Exponent) : Int :=
  match e.sign with
  | .minus => -(ofDigits e.digits.all : Int)
  | .plus => ofDigits e.digits.all
  | .absent => ofDigits e.digits.all

namespace NumberText

def places (n : NumberText) : List Digit :=
  (n.fraction.map Digits.all).getD []

def scale (n : NumberText) : Int :=
  (n.exponent.map Exponent.value).getD 0

def magnitude (n : NumberText) : ℚ :=
  (ofDigits n.whole.all + placeValue n.places / 10) * 10 ^ n.scale

def value (n : NumberText) : ℚ :=
  if n.negative then -n.magnitude else n.magnitude

end NumberText

/-! ## Literals are read in one way -/

/-- What literals have beside digits. -/
def literalSigns : List Char :=
  ['-', '+', '.', 'e', 'E']

theorem char_injective : ∀ d d' : Digit, d.char = d'.char → d = d' := by
  decide

def literalChars : List Char :=
  literalSigns ++ ['0', '1', '2', '3', '4', '5', '6', '7', '8', '9']

theorem char_mem : ∀ d : Digit, d.char ∈ literalChars := by
  decide

theorem char_not_sign : ∀ d : Digit, d.char ∉ literalSigns := by
  decide

def Stops (cs : List Char) : Prop :=
  ∀ d : Digit, cs.head? ≠ some d.char

theorem Stops.nil : Stops [] := by
  intro d first
  cases first

theorem Stops.sign {c : Char} (sign : c ∈ literalSigns) (cs : List Char) : Stops (c :: cs) := by
  intro d first
  have digit : c = d.char := Option.some.inj first
  exact char_not_sign d (digit ▸ sign)

theorem digits_split {ds ds' : List Digit} {cs cs' : List Char} (stops : Stops cs)
    (stops' : Stops cs') (same : ds.map Digit.char ++ cs = ds'.map Digit.char ++ cs') :
    ds = ds' ∧ cs = cs' := by
  induction ds generalizing ds' with
  | nil =>
      cases ds' with
      | nil => exact ⟨rfl, same⟩
      | cons d' ds' => exact absurd (congrArg List.head? same) (stops d')
  | cons d ds ih =>
      cases ds' with
      | nil => exact absurd (congrArg List.head? same).symm (stops' d)
      | cons d' ds' =>
          rw [List.map_cons, List.map_cons, List.cons_append, List.cons_append,
            List.cons.injEq] at same
          obtain ⟨digits, rest⟩ := ih same.2
          exact ⟨by rw [char_injective d d' same.1, digits], rest⟩

theorem Digits.split {ds ds' : Digits} {cs cs' : List Char} (stops : Stops cs)
    (stops' : Stops cs') (same : ds.chars ++ cs = ds'.chars ++ cs') : ds = ds' ∧ cs = cs' := by
  obtain ⟨first, others⟩ := ds
  obtain ⟨first', others'⟩ := ds'
  have split : first :: others = first' :: others' ∧ cs = cs' := digits_split stops stops' same
  cases split.1
  exact ⟨rfl, split.2⟩

theorem Digits.chars_injective {ds ds' : Digits} (same : ds.chars = ds'.chars) : ds = ds' := by
  refine (Digits.split .nil .nil ?_).1
  rw [List.append_nil, List.append_nil, same]

theorem Digits.chars_ne {c : Char} (sign : c ∈ literalSigns) (ds : Digits) (cs : List Char) :
    ds.chars ≠ c :: cs := by
  intro same
  have first : ds.first.char = c := (List.cons.inj same).1
  exact char_not_sign ds.first (first ▸ sign)

theorem ExponentSign.split {sign sign' : ExponentSign} {ds ds' : Digits}
    (same : sign.chars ++ ds.chars = sign'.chars ++ ds'.chars) : sign = sign' ∧ ds = ds' := by
  cases sign with
  | absent =>
      cases sign' with
      | absent => exact ⟨rfl, Digits.chars_injective same⟩
      | plus => exact absurd same (ds.chars_ne (by decide) _)
      | minus => exact absurd same (ds.chars_ne (by decide) _)
  | plus =>
      cases sign' with
      | absent => exact absurd same.symm (ds'.chars_ne (by decide) _)
      | plus => exact ⟨rfl, Digits.chars_injective (List.cons.inj same).2⟩
      | minus => exact absurd (List.cons.inj same).1 (by decide)
  | minus =>
      cases sign' with
      | absent => exact absurd same.symm (ds'.chars_ne (by decide) _)
      | plus => exact absurd (List.cons.inj same).1 (by decide)
      | minus => exact ⟨rfl, Digits.chars_injective (List.cons.inj same).2⟩

theorem ExponentSign.mem_chars {sign : ExponentSign} {c : Char} (mem : c ∈ sign.chars) :
    c ∈ literalChars := by
  cases sign with
  | absent => cases mem
  | plus =>
      rw [List.mem_singleton.mp mem]
      decide
  | minus =>
      rw [List.mem_singleton.mp mem]
      decide

theorem mark_injective : ∀ upper upper' : Bool,
    (if upper then 'E' else 'e') = (if upper' then 'E' else 'e') → upper = upper' := by
  decide

theorem mark_mem : ∀ upper : Bool, (if upper then 'E' else 'e') ∈ literalSigns := by
  decide

theorem Exponent.stops_chars (e : Exponent) : Stops e.chars :=
  .sign (mark_mem e.upper) _

theorem Exponent.chars_injective {e e' : Exponent} (same : e.chars = e'.chars) : e = e' := by
  obtain ⟨upper, sign, digits⟩ := e
  obtain ⟨upper', sign', digits'⟩ := e'
  have mark := mark_injective upper upper' (List.cons.inj same).1
  have rest : sign = sign' ∧ digits = digits' := ExponentSign.split (List.cons.inj same).2
  rw [mark, rest.1, rest.2]

namespace NumberText

theorem stops_exponentChars (n : NumberText) : Stops n.exponentChars := by
  unfold exponentChars
  cases n.exponent with
  | none => exact .nil
  | some e => exact e.stops_chars

theorem stops_behind (n : NumberText) : Stops (n.fractionChars ++ n.exponentChars) := by
  unfold fractionChars
  cases n.fraction with
  | none => exact n.stops_exponentChars
  | some ds => exact .sign (by decide) _

theorem exponent_eq {n n' : NumberText} (same : n.exponentChars = n'.exponentChars) :
    n.exponent = n'.exponent := by
  unfold exponentChars at same
  cases present : n.exponent with
  | none =>
      cases present' : n'.exponent with
      | none => rfl
      | some e' =>
          rw [present, present'] at same
          cases same
  | some e =>
      cases present' : n'.exponent with
      | none =>
          rw [present, present'] at same
          cases same
      | some e' =>
          rw [present, present'] at same
          rw [Exponent.chars_injective same]

theorem exponentChars_ne (n : NumberText) (cs : List Char) : n.exponentChars ≠ '.' :: cs := by
  have mark : ∀ upper : Bool, (if upper then 'E' else 'e') ≠ '.' := by decide
  unfold exponentChars
  cases n.exponent with
  | none => exact List.cons_ne_nil _ _ ∘ Eq.symm
  | some e => exact fun same => mark e.upper (List.cons.inj same).1

theorem fraction_eq {n n' : NumberText}
    (same : n.fractionChars ++ n.exponentChars = n'.fractionChars ++ n'.exponentChars) :
    n.fraction = n'.fraction ∧ n.exponentChars = n'.exponentChars := by
  unfold fractionChars at same
  cases point : n.fraction with
  | none =>
      cases point' : n'.fraction with
      | none =>
          rw [point, point'] at same
          exact ⟨rfl, same⟩
      | some ds' =>
          rw [point, point'] at same
          exact absurd same (n.exponentChars_ne _)
  | some ds =>
      cases point' : n'.fraction with
      | none =>
          rw [point, point'] at same
          exact absurd same.symm (n'.exponentChars_ne _)
      | some ds' =>
          rw [point, point'] at same
          have split := Digits.split n.stops_exponentChars n'.stops_exponentChars
            (List.cons.inj same).2
          exact ⟨congrArg some split.1, split.2⟩

theorem unsignedChars_ne (n : NumberText) (cs : List Char) : n.unsignedChars ≠ '-' :: cs := by
  intro same
  have first : n.whole.first.char = '-' := (List.cons.inj same).1
  exact char_not_sign n.whole.first (first ▸ by decide)

theorem chars_injective {n n' : NumberText} (same : n.chars = n'.chars) : n = n' := by
  have signs : n.negative = n'.negative ∧ n.unsignedChars = n'.unsignedChars := by
    unfold chars at same
    cases sign : n.negative with
    | true =>
        cases sign' : n'.negative with
        | true =>
            rw [sign, sign'] at same
            exact ⟨rfl, (List.cons.inj same).2⟩
        | false =>
            rw [sign, sign'] at same
            exact absurd same.symm (n'.unsignedChars_ne _)
    | false =>
        cases sign' : n'.negative with
        | true =>
            rw [sign, sign'] at same
            exact absurd same (n.unsignedChars_ne _)
        | false =>
            rw [sign, sign'] at same
            exact ⟨rfl, same⟩
  obtain ⟨negative, unsigned⟩ := signs
  obtain ⟨whole, behind⟩ := Digits.split n.stops_behind n'.stops_behind unsigned
  obtain ⟨fraction, rest⟩ := fraction_eq behind
  have exponent := exponent_eq rest
  obtain ⟨_, _, _, _, _⟩ := n
  obtain ⟨_, _, _, _, _⟩ := n'
  cases negative
  cases whole
  cases fraction
  cases exponent
  rfl

theorem mem_chars {n : NumberText} {c : Char} (mem : c ∈ n.chars) : c ∈ literalChars := by
  have digit {ds : Digits} (mem : c ∈ ds.chars) : c ∈ literalChars := by
    obtain ⟨d, -, rfl⟩ := List.mem_map.mp mem
    exact char_mem d
  have unsigned (mem : c ∈ n.unsignedChars) : c ∈ literalChars := by
    rw [unsignedChars, List.mem_append, List.mem_append] at mem
    rcases mem with whole | fraction | exponent
    · exact digit whole
    · unfold fractionChars at fraction
      cases present : n.fraction with
      | none =>
          rw [present] at fraction
          cases fraction
      | some ds =>
          rw [present] at fraction
          rcases List.mem_cons.mp fraction with rfl | behind
          · decide
          · exact digit behind
    · unfold exponentChars at exponent
      cases present : n.exponent with
      | none =>
          rw [present] at exponent
          cases exponent
      | some e =>
          rw [present] at exponent
          rcases List.mem_cons.mp exponent with rfl | behind
          · exact List.mem_append_left _ (mark_mem e.upper)
          · rcases List.mem_append.mp behind with sign | digits
            · exact ExponentSign.mem_chars sign
            · exact digit digits
  unfold chars at mem
  split at mem
  · rcases List.mem_cons.mp mem with rfl | behind
    · decide
    · exact unsigned behind
  · exact unsigned mem

/-- No literal has a sign that a field must quote. -/
theorem not_mem_chars (n : NumberText) : ∀ c ∈ [',', '"', '\r', '\n'], c ∉ n.chars := by
  have apart : literalChars.all (fun c => not ([',', '"', '\r', '\n'].contains c)) = true := by
    decide
  intro c special mem
  have other := List.all_eq_true.mp apart c (mem_chars mem)
  rw [List.contains_iff_mem.mpr special] at other
  cases other

theorem length_octets_chars (n : NumberText) : (octets n.chars).length = n.chars.length := by
  have single : literalChars.all (fun c => (String.utf8EncodeChar c).length == 1) = true := by
    decide
  have all : ∀ c ∈ n.chars, (String.utf8EncodeChar c).length = 1 :=
    fun c mem => beq_iff_eq.mp (List.all_eq_true.mp single c (mem_chars mem))
  generalize n.chars = cs at all
  induction cs with
  | nil => rfl
  | cons c cs ih =>
      rw [octets_cons, List.length_append, all c List.mem_cons_self,
        ih fun c mem => all c (List.mem_cons_of_mem _ mem), List.length_cons, Nat.add_comm]

end NumberText

end Json

/-! ## Layouts are literals -/

namespace Decimal.Layout

open Json (Digits Exponent NumberText)

theorem exists_digits {ds : List Digit} (some : ds ≠ []) : ∃ all : Digits, all.all = ds := by
  cases ds with
  | nil => exact absurd rfl some
  | cons d ds => exact ⟨⟨d, ds⟩, rfl⟩

theorem magnitude_of_no_exponent {n : NumberText} (none : n.exponent = none) :
    n.magnitude = ofDigits n.whole.all + placeValue n.places / 10 := by
  rw [NumberText.magnitude, NumberText.scale, none, Option.map_none, Option.getD_none, zpow_zero,
    mul_one]

variable (layout : Layout) {s : Scientific}

/-- A whole number: zeros fill the places up to the point. -/
theorem exists_whole {d : Digit} {ds : List Digit} (nonzero : d ≠ 0) {e : Nat}
    (short : ds.length ≤ e) :
    ∃ n : NumberText,
      n.unsignedChars = (d :: ds).map Digit.char ++ List.replicate (e - ds.length) '0' ++
        (if layout.keepsPoint then ['.', '0'] else []) ∧
      n.magnitude = placeValue (d :: ds) * 10 ^ e ∧ n.exponent = none := by
  have number : (ofDigits (d :: (ds ++ List.replicate (e - ds.length) 0)) : ℚ) =
      placeValue (d :: ds) * 10 ^ e := by
    have value := ofDigits_mul_ten (d :: ds ++ List.replicate (e - ds.length) 0)
    have length : (d :: ds ++ List.replicate (e - ds.length) 0).length = e + 1 := by
      rw [List.length_append, List.length_cons, List.length_replicate]
      omega
    rw [length, placeValue_append, placeValue_zeros, pow_succ, zero_div, add_zero,
      ← mul_assoc] at value
    exact mul_right_cancel₀ (by norm_num) value
  have point : ((if layout.keepsPoint then some (Digits.mk 0 []) else none).map
      fun ds => '.' :: ds.chars).getD [] = if layout.keepsPoint then ['.', '0'] else [] := by
    cases layout.keepsPoint <;> rfl
  have places : placeValue (((if layout.keepsPoint then some (Digits.mk 0 []) else none).map
      Digits.all).getD []) = 0 := by
    cases layout.keepsPoint <;> simp [placeValue, Digits.all]
  refine ⟨⟨false, ⟨d, ds ++ List.replicate (e - ds.length) 0⟩,
    if layout.keepsPoint then some ⟨0, []⟩ else none, none, fun zero => absurd zero nonzero⟩,
    ?_, ?_, rfl⟩
  · show (d :: ds ++ List.replicate (e - ds.length) 0).map Digit.char ++ (_ ++ []) = _
    rw [List.map_append, List.map_replicate, List.append_nil]
    exact congrArg _ point
  · rw [magnitude_of_no_exponent rfl, ← number]
    show _ + placeValue (((if layout.keepsPoint then some (Digits.mk 0 []) else none).map
      Digits.all).getD []) / 10 = _
    rw [places, zero_div, add_zero]
    rfl

/-- The point stands between two digits. -/
theorem exists_pointed {d : Digit} {ds : List Digit} (nonzero : d ≠ 0) {e : Nat}
    (long : e < ds.length) :
    ∃ n : NumberText,
      n.unsignedChars = (d :: ds.take e).map Digit.char ++ '.' :: (ds.drop e).map Digit.char ∧
      n.magnitude = placeValue (d :: ds) * 10 ^ e ∧ n.exponent = none := by
  have nonempty : ds.drop e ≠ [] := by
    rw [Ne, List.drop_eq_nil_iff]
    omega
  have length : (d :: ds.take e).length = e + 1 := by
    rw [List.length_cons, List.length_take]
    omega
  have number := ofDigits_mul_ten (d :: ds.take e)
  have all : placeValue (d :: ds) =
      placeValue (d :: ds.take e) + placeValue (ds.drop e) / 10 ^ (e + 1) := by
    rw [← length, ← placeValue_append, List.cons_append, List.take_append_drop]
  obtain ⟨places, behind⟩ := exists_digits nonempty
  refine ⟨⟨false, ⟨d, ds.take e⟩, some places, none, fun zero => absurd zero nonzero⟩, ?_, ?_, rfl⟩
  · show (d :: ds.take e).map Digit.char ++ ('.' :: places.all.map Digit.char ++ []) = _
    rw [behind, List.append_nil]
  · rw [magnitude_of_no_exponent rfl]
    show (ofDigits (d :: ds.take e) : ℚ) + placeValue places.all / 10 = _
    rw [behind, all]
    rw [length, pow_succ] at number
    rw [pow_succ]
    field_simp
    linarith

/-- With the point among its digits a decimal is a literal of its number. -/
theorem exists_positional {d : Digit} {ds : List Digit} (digits : s.digits = d :: ds)
    (nonzero : d ≠ 0) :
    ∃ n : NumberText, n.unsignedChars = layout.positional s ∧ n.magnitude = s.value ∧
      n.exponent = none := by
  obtain ⟨_, exponent⟩ := s
  dsimp only at digits
  subst digits
  cases exponent with
  | negSucc k =>
      have nonempty : List.replicate k 0 ++ d :: ds ≠ [] := by simp
      obtain ⟨places, all⟩ := exists_digits nonempty
      refine ⟨⟨false, ⟨0, []⟩, some places, none, fun _ => rfl⟩, ?_, ?_, rfl⟩
      · show '0' :: '.' :: (places.all.map Digit.char ++ []) = _
        rw [all, List.append_nil, List.map_append, List.map_replicate]
        rfl
      · rw [magnitude_of_no_exponent rfl]
        show ((ofDigits [0] : Nat) : ℚ) + placeValue places.all / 10 = _
        rw [all, placeValue_append, placeValue_zeros, List.length_replicate, Scientific.value,
          zpow_negSucc]
        show ((0 : Nat) : ℚ) + (0 + placeValue (d :: ds) / 10 ^ k) / 10 = _
        rw [pow_succ]
        field_simp
        simp
  | ofNat e =>
      have value : (Scientific.mk (d :: ds) (.ofNat e)).value = placeValue (d :: ds) * 10 ^ e := by
        rw [Scientific.value, Int.ofNat_eq_natCast, zpow_natCast]
      rw [value]
      by_cases short : ds.length ≤ e
      · have whole := layout.exists_whole nonzero short
        have filled : layout.positional ⟨d :: ds, .ofNat e⟩ =
            (d :: ds).map Digit.char ++ List.replicate (e - ds.length) '0' ++
              (if layout.keepsPoint then ['.', '0'] else []) := by
          unfold positional
          dsimp only
          rw [List.length_map, List.length_cons, if_pos (by omega), Nat.add_sub_add_right]
        rw [filled]
        exact whole
      · have pointed : layout.positional ⟨d :: ds, .ofNat e⟩ =
            (d :: ds.take e).map Digit.char ++ '.' :: (ds.drop e).map Digit.char := by
          unfold positional
          dsimp only
          rw [List.length_map, List.length_cons, if_neg (by omega), ← List.map_take,
            ← List.map_drop]
          rfl
        rw [pointed]
        exact exists_pointed nonzero (Nat.lt_of_not_le short)

theorem exists_exponent (e : Int) :
    ∃ x : Exponent, x.chars =
        'e' :: ((if layout.signedExponent && 0 ≤ e then ['+'] else []) ++ intText e) ∧
      x.value = e := by
  obtain ⟨d, ds, digits, -⟩ := digitsOf_head e.natAbs
  have number : ofDigits (d :: ds) = e.natAbs := by rw [← digits, ofDigits_digitsOf]
  have text : natText e.natAbs = (d :: ds).map Digit.char := by rw [natText, digits]
  unfold intText
  rw [text]
  by_cases negative : e < 0
  · refine ⟨⟨false, .minus, ⟨d, ds⟩⟩, ?_, ?_⟩
    · have unsigned : ¬(layout.signedExponent && decide (0 ≤ e)) = true := by
        rw [Bool.and_eq_true, decide_eq_true_iff]
        omega
      rw [if_neg unsigned, if_pos negative]
      rfl
    · show -(ofDigits (d :: ds) : Int) = e
      omega
  · have value : (ofDigits (d :: ds) : Int) = e := by omega
    rw [if_neg negative]
    by_cases signed : (layout.signedExponent && decide (0 ≤ e)) = true
    · rw [if_pos signed]
      exact ⟨⟨false, .plus, ⟨d, ds⟩⟩, rfl, value⟩
    · rw [if_neg signed]
      exact ⟨⟨false, .absent, ⟨d, ds⟩⟩, rfl, value⟩

theorem exists_exponential {d : Digit} {ds : List Digit} (digits : s.digits = d :: ds) :
    ∃ n : NumberText, n.unsignedChars = layout.exponential s ∧ n.magnitude = s.value ∧
      n.exponent ≠ none := by
  obtain ⟨_, e⟩ := s
  dsimp only at digits
  subst digits
  obtain ⟨x, chars, value⟩ := layout.exists_exponent e
  have first : (ofDigits [d] : ℚ) = d.val := by
    rw [ofDigits_cons]
    rfl
  unfold exponential
  dsimp only
  rw [← chars]
  cases ds with
  | nil =>
      refine ⟨⟨false, ⟨d, []⟩, none, some x, fun _ => rfl⟩, rfl, ?_, Option.some_ne_none _⟩
      show ((ofDigits [d] : ℚ) + placeValue [] / 10) * 10 ^ x.value = _
      rw [first, value]
      rfl
  | cons d' ds =>
      refine ⟨⟨false, ⟨d, []⟩, some ⟨d', ds⟩, some x, fun _ => rfl⟩, rfl, ?_,
        Option.some_ne_none _⟩
      show ((ofDigits [d] : ℚ) + placeValue (d' :: ds) / 10) * 10 ^ x.value = _
      rw [first, value]
      rfl

/-- A float that is not zero: its sign, and what is written for its shortest decimal. -/
theorem finite_eq (write : Scientific → List Char) {f : Float} {b : Binary} (proper : b.Proper)
    (bits : f.toBits.toNat = (if f < 0 then 2 ^ 63 else 0) + b.bits) :
    layout.finite write f = (if f < 0 then ['-'] else []) ++ write (b.shortest layout.tie) := by
  have positive := proper.bits_pos
  have small : b.bits < 2 ^ 63 := Nat.lt_trans proper.bits_lt (by decide)
  have sign : Nat.pow 2 63 ≤ f.toBits.toNat ↔ f < 0 := by
    show 2 ^ 63 ≤ f.toBits.toNat ↔ f < 0
    rw [bits]
    by_cases below : f < 0
    · rw [if_pos below]
      exact iff_of_true (by omega) below
    · rw [if_neg below]
      exact iff_of_false (by omega) below
  have rest : f.toBits.toNat % Nat.pow 2 63 = b.bits := by
    show f.toBits.toNat % 2 ^ 63 = b.bits
    rw [bits]
    split <;> omega
  unfold finite
  dsimp only
  rw [rest, if_neg positive.ne', Binary.ofBits_bits proper]
  by_cases below : f < 0
  · rw [if_pos below, if_pos (sign.mpr below)]
  · rw [if_neg below, if_neg (mt sign.mp below)]

end Decimal.Layout

/-! ## Floats in a field -/

namespace RuntimeValue

theorem length_digitsOf_le {n k : Nat} (small : n < 10 ^ (k + 1)) :
    (digitsOf n).length ≤ k + 1 := by
  by_cases zero : n = 0
  · rw [zero, digitsOf, dif_pos (by decide)]
    exact Nat.le_add_left 1 k
  · obtain ⟨j, length, lower, -⟩ := digitsOf_length (Nat.pos_of_ne_zero zero)
    have := (Nat.pow_lt_pow_iff_right (by decide)).mp (Nat.lt_of_le_of_lt lower small)
    omega

theorem length_intText_le {e : Int} (small : e.natAbs ≤ 999) : (intText e).length ≤ 4 := by
  have digits : (natText e.natAbs).length ≤ 3 := by
    rw [natText, List.length_map]
    exact length_digitsOf_le (k := 2) (Nat.lt_of_le_of_lt small (by decide))
  unfold intText
  split
  · rw [List.length_cons]
    omega
  · omega

/-- The digits of a number in a field: positional from `10^-4` up to below `10^15`. -/
def magnitudeChars (s : Scientific) : List Char :=
  if -4 ≤ s.exponent ∧ s.exponent ≤ 14 then floatLayout.positional s else floatLayout.exponential s

/-- The digits are a literal of the number, with an exponent where they are not positional. -/
theorem exists_literal {s : Scientific} {d : Digit} {ds : List Digit} (digits : s.digits = d :: ds)
    (nonzero : d ≠ 0) :
    ∃ n : Json.NumberText, n.unsignedChars = magnitudeChars s ∧ n.magnitude = s.value ∧
      (n.exponent = none ↔ -4 ≤ s.exponent ∧ s.exponent ≤ 14) := by
  unfold magnitudeChars
  split
  · next inside =>
      obtain ⟨n, chars, value, none⟩ := floatLayout.exists_positional digits nonzero
      exact ⟨n, chars, value, iff_of_true none inside⟩
  · next outside =>
      obtain ⟨n, chars, value, some⟩ := floatLayout.exists_exponential digits
      exact ⟨n, chars, value, iff_of_false some outside⟩

theorem exists_signed_literal (f : Float) {s : Scientific} {d : Digit} {ds : List Digit}
    (digits : s.digits = d :: ds) (nonzero : d ≠ 0) :
    ∃ n : Json.NumberText, n.chars = (if f < 0 then ['-'] else []) ++ magnitudeChars s ∧
      n.value = (if f < 0 then -s.value else s.value) ∧
      (n.exponent = none ↔ -4 ≤ s.exponent ∧ s.exponent ≤ 14) := by
  obtain ⟨n, chars, magnitude, placed⟩ := exists_literal digits nonzero
  rw [← chars, ← magnitude]
  by_cases below : f < 0
  · rw [if_pos below, if_pos below]
    exact ⟨{ n with negative := true }, rfl, rfl, placed⟩
  · rw [if_neg below, if_neg below]
    exact ⟨{ n with negative := false }, rfl, rfl, placed⟩

/-- Three zeros in front, fifteen places, and an exponent of three digits: no number is long. -/
theorem length_magnitudeChars_le {s : Scientific} (few : s.digits.length ≤ 17)
    (small : s.exponent.natAbs ≤ 999) : (magnitudeChars s).length ≤ 23 := by
  obtain ⟨digits, exponent⟩ := s
  dsimp only at few small
  unfold magnitudeChars
  split
  · next inside =>
      have low : -4 ≤ exponent := inside.1
      have high : exponent ≤ 14 := inside.2
      unfold Layout.positional
      dsimp only
      cases exponent with
      | negSucc k =>
          simp only [List.length_cons, List.length_append, List.length_replicate, List.length_map]
          omega
      | ofNat e =>
          have places : e ≤ 14 := Int.ofNat_le.mp high
          dsimp only
          split
          · next short =>
              rw [List.length_map] at short
              simp only [List.length_append, List.length_replicate, List.length_map]
              show digits.length + (e + 1 - digits.length) + 0 ≤ 23
              omega
          · simp only [List.length_append, List.length_cons, List.length_take, List.length_drop,
              List.length_map]
            omega
  · have exponentText := length_intText_le small
    have unsigned : (if floatLayout.signedExponent && 0 ≤ exponent then ['+'] else []) = [] := rfl
    unfold Layout.exponential
    dsimp only
    rw [unsigned, List.nil_append, List.length_append, List.length_cons]
    cases digits with
    | nil =>
        show 0 + _ ≤ 23
        omega
    | cons d ds =>
        rw [List.length_cons] at few
        cases ds with
        | nil =>
            show 1 + _ ≤ 23
            omega
        | cons d' ds =>
            rw [List.length_cons] at few
            show ((ds.map Digit.char).length + 1 + 1 + 1) + _ ≤ 23
            rw [List.length_map]
            omega

/-- The bounds between which a magnitude has no exponent are those of its decimal. -/
theorem within_bounds_iff {f : Float} {b : Binary} (proper : b.Proper)
    (bits : f.toBits.toNat = b.bits) :
    (1e-4 ≤ f ∧ f < 1e15) ↔ -4 ≤ (b.shortest .up).exponent ∧ (b.shortest .up).exponent ≤ 14 := by
  -- The floats that `10^-4` and `10^15` round to.
  have least : (Binary.ofParts 0x1A36E2EB1C432D (-66)).Proper :=
    Binary.proper_ofParts (by decide) (by decide) (by decide) (by decide) (by decide)
  have greatest : (Binary.ofParts 0x1C6BF526340000 (-3)).Proper :=
    Binary.proper_ofParts (by decide) (by decide) (by decide) (by decide) (by decide)
  have low : (b.shortest .up).exponent < -4 ↔ _ := exponent_lt_iff proper least
    (by norm_num [Binary.Rounds, Binary.lower, Binary.upper, Binary.ofParts]) (by decide +kernel)
  have high : (b.shortest .up).exponent < 15 ↔ _ := exponent_lt_iff proper greatest
    (by norm_num [Binary.Rounds, Binary.lower, Binary.upper, Binary.ofParts]) (by decide +kernel)
  rw [le_iff_bits_le least proper (by decide +kernel) bits, ← not_lt, ← low,
    lt_iff_bits_lt proper greatest bits (by decide +kernel), ← high]
  omega

theorem defined_of_finite {f : Float} (finite : f.isFinite = true) :
    f.isNaN = false ∧ f.isInf = false := by
  show f.toModel.unpack.isNaN = false ∧ f.toModel.unpack.isInf = false
  change f.toModel.unpack.isFinite = true at finite
  rcases isFinite_cases finite with ⟨s, unpacked⟩ | ⟨s, m, e, positive, unpacked⟩
  · rw [unpacked]
    exact ⟨rfl, rfl⟩
  · rw [unpacked]
    exact ⟨rfl, rfl⟩

/-- The text of a float that is not zero: its sign, and the digits of its shortest decimal. -/
theorem floatText_eq {f : Float} (finite : f.isFinite = true) {b : Binary} (proper : b.Proper)
    (absolute : f.abs.toBits.toNat = b.bits)
    (bits : f.toBits.toNat = (if f < 0 then 2 ^ 63 else 0) + b.bits) :
    floatText f =
      String.ofList ((if f < 0 then ['-'] else []) ++ magnitudeChars (b.shortest .up)) := by
  have positive : (f.abs == 0) = false := by
    obtain ⟨_, unpacked⟩ := unpack_of_bits proper absolute
    show f.abs.toModel.unpack.beq (Float.ofNat 0).toModel.unpack = false
    rw [unpacked]
    rfl
  have bounds := within_bounds_iff proper absolute
  unfold floatText magnitudeChars
  dsimp only
  rw [finite, bne, positive]
  by_cases inside : 1e-4 ≤ f.abs ∧ f.abs < 1e15
  · rw [if_pos (bounds.mp inside), if_neg (by simp [inside]), positionalText,
      (defined_of_finite finite).1, (defined_of_finite finite).2,
      floatLayout.finite_eq _ proper bits]
    rfl
  · rw [if_neg (mt bounds.mpr inside), if_pos (by simpa [imp_iff_not_or] using inside),
      exponentialText, floatLayout.finite_eq _ proper bits]
    rfl

/--
The text of a finite float that is not zero is a number literal, in one way only. It denotes, with
the sign of the float, the shortest decimal that reads back as the float.
-/
theorem float_text_is_literal_of_shortest_decimal {f : Float} (finite : f.isFinite = true)
    (nonzero : (f == 0) = false) :
    ∃ s : Scientific, s.IsShortest (fun t => t.read? = some f.abs) (magnitudeOf f) ∧
      (∃ n : Json.NumberText,
        (∀ m : Json.NumberText, m.chars = (floatText f).toList ↔ m = n) ∧
        n.value = (if f < 0 then -s.value else s.value) ∧
        (n.exponent = none ↔ -4 ≤ s.exponent ∧ s.exponent ≤ 14)) ∧
      (∀ c ∈ [',', '"', '\r', '\n'], c ∉ (floatText f).toList) ∧
      (Bytes.ofString (floatText f)).length ≤ 24 := by
  obtain ⟨b, proper, value, absolute, bits⟩ := finite_parts finite nonzero
  obtain ⟨shortest, exponent⟩ := proper.shortest .up
  have few := shortest.atMost
  obtain ⟨d, ds, digits, leading⟩ := shortest.first
  simp only [← Scientific.read?_eq_some_iff proper absolute, value] at shortest
  obtain ⟨n, chars, denoted, placed⟩ := exists_signed_literal f digits leading
  have text : floatText f = String.ofList n.chars := by
    rw [floatText_eq finite proper absolute bits, chars]
  have length : n.chars.length ≤ 24 := by
    have := length_magnitudeChars_le few exponent
    rw [chars, List.length_append]
    split
    · rw [List.length_singleton]
      omega
    · rw [List.length_nil]
      omega
  rw [text, String.toList_ofList, Json.ofString_ofList, n.length_octets_chars]
  refine ⟨b.shortest .up, shortest, ⟨n, fun m => ?_, denoted, placed⟩, n.not_mem_chars, length⟩
  exact ⟨Json.NumberText.chars_injective, fun same => by rw [same]⟩

/-- The least number with a mantissa of 53 bits, with a minus sign, takes all 24 octets. -/
theorem float_text_of_least_normal_float :
    (Float.ofBits 0x8010000000000000).isFinite = true ∧
      (Float.ofBits 0x8010000000000000 == 0) = false ∧
      ∃ s : Scientific,
        s.IsShortest (fun t => t.read? = some (Float.ofBits 0x8010000000000000).abs)
          (magnitudeOf (Float.ofBits 0x8010000000000000)) ∧
        ∃ n : Json.NumberText,
          n.chars = "-2.2250738585072014e-308".toList ∧ n.value = -s.value := by
  have finite : (Float.ofBits 0x8010000000000000).isFinite = true := by decide +kernel
  have nonzero : (Float.ofBits 0x8010000000000000 == 0) = false := by decide +kernel
  have negative : Float.ofBits 0x8010000000000000 < 0 := by decide +kernel
  have text : floatText (Float.ofBits 0x8010000000000000) = "-2.2250738585072014e-308" := by
    decide +kernel
  obtain ⟨s, shortest, ⟨n, chars, denoted, -⟩, -⟩ :=
    float_text_is_literal_of_shortest_decimal finite nonzero
  rw [if_pos negative] at denoted
  rw [text] at chars
  exact ⟨finite, nonzero, s, shortest, n, (chars n).mpr rfl, denoted⟩

end RuntimeValue

end SymbolExport
