import SymbolExport.Proofs.FiniteNumbers
import SymbolExport.Proofs.ShortestDecimal

/-!
# Nearest readings

A nearest reading takes a decimal to the binary64 number that it rounds to, and to no other. The
exponent is found from the power of two below the decimal, and the quotient by it is rounded to a
whole mantissa. A mantissa that reaches 54 bits is the next power of two, which the sum of exponent
and mantissa already writes as such.
-/

namespace SymbolExport.Decimal

/-! ## Whole numbers nearest to a quotient -/

/-- A whole number at most one half away; half way it is even. -/
def Nearest (y : ℚ) (q : Nat) : Prop :=
  if q % 2 = 0 then (q : ℚ) - 1 / 2 ≤ y ∧ y ≤ q + 1 / 2 else (q : ℚ) - 1 / 2 < y ∧ y < q + 1 / 2

namespace Nearest

variable {y : ℚ} {p q : Nat}

theorem bounds (near : Nearest y q) : (q : ℚ) - 1 / 2 ≤ y ∧ y ≤ q + 1 / 2 := by
  unfold Nearest at near
  split at near
  · exact near
  · exact ⟨near.1.le, near.2.le⟩

theorem of_lt (lower : (q : ℚ) - 1 / 2 < y) (upper : y < q + 1 / 2) : Nearest y q := by
  unfold Nearest
  split
  · exact ⟨lower.le, upper.le⟩
  · exact ⟨lower, upper⟩

theorem of_even (even : q % 2 = 0) (lower : (q : ℚ) - 1 / 2 ≤ y) (upper : y ≤ q + 1 / 2) :
    Nearest y q := by
  rw [Nearest, if_pos even]
  exact ⟨lower, upper⟩

theorem le (hp : Nearest y p) (hq : Nearest y q) : p ≤ q := by
  by_contra less
  rw [Nat.not_le] at less
  have next : (q : ℚ) + 1 ≤ p := by exact_mod_cast less
  have lower := hp.bounds.1
  have upper := hq.bounds.2
  -- Both are one half away, but two neighbours are not both even.
  have apart : p = q + 1 := by
    have : (p : ℚ) ≤ q + 1 := by linarith
    have : p ≤ q + 1 := by exact_mod_cast this
    omega
  by_cases even : q % 2 = 0
  · rw [Nearest, if_neg (by omega)] at hp
    linarith [hp.1]
  · rw [Nearest, if_neg even] at hq
    linarith [hq.2]

theorem unique (hp : Nearest y p) (hq : Nearest y q) : p = q :=
  Nat.le_antisymm (hp.le hq) (hq.le hp)

end Nearest

theorem nearest_roundDiv (num : Nat) {den : Nat} (positive : 0 < den) :
    Nearest ((num : ℚ) / den) (roundDiv num den) := by
  have scale : (0 : ℚ) < den := by exact_mod_cast positive
  have parts : (den : ℚ) * (num / den : Nat) + (num % den : Nat) = num := by
    exact_mod_cast Nat.div_add_mod num den
  have small : ((num % den : Nat) : ℚ) < den := by exact_mod_cast Nat.mod_lt num positive
  have rest : (0 : ℚ) ≤ (num % den : Nat) := Nat.cast_nonneg _
  have quotient : (num : ℚ) / den = (num / den : Nat) + (num % den : Nat) / den := by
    rw [← parts, add_div, mul_div_cancel_left₀ _ scale.ne']
  unfold roundDiv
  dsimp only
  generalize num / den = whole at quotient ⊢
  generalize num % den = part at quotient small rest ⊢
  have fraction : (0 : ℚ) ≤ part / den := by positivity
  have proper : (part : ℚ) / den < 1 := (div_lt_one scale).mpr small
  rw [quotient]
  split
  · next down =>
      rcases down with less | ⟨half, even⟩
      · have less : (part : ℚ) / den < 1 / 2 := by
          rw [div_lt_iff₀ scale]
          have : (2 : ℚ) * part < den := by exact_mod_cast less
          linarith
        exact .of_lt (by linarith) (by linarith)
      · have half : (part : ℚ) / den = 1 / 2 := by
          rw [div_eq_iff scale.ne']
          have : (2 : ℚ) * part = den := by exact_mod_cast half
          linarith
        exact .of_even even (by linarith) (by linarith)
  · next up =>
      have most : (den : ℚ) ≤ 2 * part := by
        exact_mod_cast Nat.le_of_not_lt fun less => up (.inl less)
      have half : (1 : ℚ) / 2 ≤ part / den := by
        rw [le_div_iff₀ scale]
        linarith
      by_cases tie : 2 * part = den
      · have odd : (whole + 1) % 2 = 0 := by
          have : ¬whole % 2 = 0 := fun even => up (.inr ⟨tie, even⟩)
          omega
        refine .of_even odd ?_ ?_ <;> push_cast <;> linarith
      · have more : (1 : ℚ) / 2 < part / den := by
          refine lt_of_le_of_ne half fun equal => tie ?_
          rw [eq_div_iff scale.ne'] at equal
          have : (2 : ℚ) * part = den := by linarith
          exact_mod_cast this
        refine .of_lt ?_ ?_ <;> push_cast <;> linarith

/-! ## The power of two below a quotient -/

theorem floorLog2_spec {num den : Nat} (hn : 0 < num) (hd : 0 < den) :
    (2 : ℚ) ^ floorLog2 num den ≤ num / den ∧ (num : ℚ) / den < 2 ^ (floorLog2 num den + 1) := by
  have scale : (0 : ℚ) < den := by exact_mod_cast hd
  have numLower : (2 : ℚ) ^ (num.log2 : Int) ≤ num := by
    rw [zpow_natCast]
    exact_mod_cast Nat.log2_self_le hn.ne'
  have numUpper : (num : ℚ) < 2 ^ ((num.log2 : Int) + 1) := by
    exact_mod_cast @Nat.lt_log2_self num
  have denLower : (2 : ℚ) ^ (den.log2 : Int) ≤ den := by
    rw [zpow_natCast]
    exact_mod_cast Nat.log2_self_le hd.ne'
  have denUpper : (den : ℚ) < 2 ^ ((den.log2 : Int) + 1) := by
    exact_mod_cast @Nat.lt_log2_self den
  unfold floorLog2
  dsimp only
  generalize difference : (num.log2 : Int) - den.log2 = guess
  have least : (2 : ℚ) ^ (guess - 1) ≤ num / den := by
    rw [le_div_iff₀ scale]
    calc
      (2 : ℚ) ^ (guess - 1) * den ≤ 2 ^ (guess - 1) * 2 ^ ((den.log2 : Int) + 1) := by gcongr
      _ = 2 ^ (num.log2 : Int) := by
        rw [← zpow_add₀ (by norm_num)]
        congr 1
        omega
      _ ≤ num := numLower
  have most : (num : ℚ) / den < 2 ^ (guess + 1) := by
    rw [div_lt_iff₀ scale]
    calc
      (num : ℚ) < 2 ^ ((num.log2 : Int) + 1) := numUpper
      _ = 2 ^ (guess + 1) * 2 ^ (den.log2 : Int) := by
        rw [← zpow_add₀ (by norm_num)]
        congr 1
        omega
      _ ≤ 2 ^ (guess + 1) * den := by gcongr
  have reached : den * Nat.pow 2 guess.toNat ≤ num * Nat.pow 2 (-guess).toNat ↔
      (2 : ℚ) ^ guess ≤ num / den := by
    have power := zpow_mul_toNat (show 0 < 2 by decide) guess
    have down : (0 : ℚ) < (Nat.pow 2 (-guess).toNat : Nat) := by
      exact_mod_cast Nat.pow_pos (show 0 < 2 by decide)
    rw [← Nat.cast_le (α := ℚ), Nat.cast_mul, Nat.cast_mul, ← power, le_div_iff₀ scale,
      ← mul_assoc, mul_le_mul_iff_left₀ down, mul_comm]
    rfl
  split
  · next above => exact ⟨reached.mp above, most⟩
  · next below =>
      rw [reached, not_le] at below
      rw [Int.sub_add_cancel]
      exact ⟨least, below⟩

/-! ## Bits of the number that a quotient rounds to -/

/-- The bits of a number behind its sign. -/
def Binary.bits (b : Binary) : Nat :=
  (b.exponent + 1074).toNat * 2 ^ 52 + b.mantissa

/-- What a nearest reading writes: a mantissa over an exponent that leaves it 53 bits. -/
theorem nearestBits_spec {num den : Nat} (hn : 0 < num) (hd : 0 < den) :
    ∃ (e : Int) (m : Nat), nearestBits num den = (e + 1074).toNat * 2 ^ 52 + m ∧ -1074 ≤ e ∧
      Nearest (num / den / 2 ^ e) m ∧ (num : ℚ) / den < 2 ^ 53 * 2 ^ e ∧
      (-1074 < e → 2 ^ 52 * 2 ^ e ≤ (num : ℚ) / den) := by
  obtain ⟨lower, upper⟩ := floorLog2_spec hn hd
  generalize exponent : max (floorLog2 num den - 52) (-1074) = e
  refine ⟨e, roundDiv (num * Nat.pow 2 (-e).toNat) (den * Nat.pow 2 e.toNat), ?_, ?_, ?_, ?_, ?_⟩
  · rw [← exponent]
    rfl
  · omega
  · have positive : 0 < den * Nat.pow 2 e.toNat := Nat.mul_pos hd (Nat.pow_pos (by decide))
    have near := nearest_roundDiv (num * Nat.pow 2 (-e).toNat) positive
    have power := zpow_mul_toNat (show 0 < 2 by decide) e
    have down : ((Nat.pow 2 (-e).toNat : Nat) : ℚ) ≠ 0 := by
      exact_mod_cast (Nat.pow_pos (show 0 < 2 by decide)).ne'
    rw [Nat.cast_mul, Nat.cast_mul, ← power, ← mul_assoc, mul_div_mul_right _ _ down,
      ← div_div] at near
    exact near
  · calc
      (num : ℚ) / den < 2 ^ (floorLog2 num den + 1) := upper
      _ ≤ 2 ^ (53 + e) := zpow_le_zpow_right₀ (by norm_num) (by omega)
      _ = 2 ^ 53 * 2 ^ e := by
        rw [zpow_add₀ (by norm_num)]
        rfl
  · intro normal
    have leading : floorLog2 num den = 52 + e := by omega
    rw [leading, zpow_add₀ (by norm_num)] at lower
    exact lower

/-- In units of the last place: the number is nearest, except for a half gap below it. -/
theorem Binary.rounds_iff {b : Binary} (x : ℚ) :
    b.Rounds x ↔
      if b.mantissa % 2 = 0 then
        (b.mantissa : ℚ) - (if b.halfGapBelow then 1 / 4 else 1 / 2) ≤ x / 2 ^ b.exponent ∧
          x / 2 ^ b.exponent ≤ b.mantissa + 1 / 2
      else
        (b.mantissa : ℚ) - (if b.halfGapBelow then 1 / 4 else 1 / 2) < x / 2 ^ b.exponent ∧
          x / 2 ^ b.exponent < b.mantissa + 1 / 2 := by
  have power : (0 : ℚ) < 2 ^ b.exponent := by positivity
  rw [Rounds, lower, upper, le_div_iff₀ power, div_le_iff₀ power, lt_div_iff₀ power,
    div_lt_iff₀ power]

section Reading

variable {b : Binary} {x : ℚ} {e : Int} {m : Nat}

theorem two_zpow_succ (e : Int) : (2 : ℚ) ^ (e + 1) = 2 * 2 ^ e := by
  rw [zpow_add₀ (by norm_num), zpow_one, mul_comm]

/-- Equal bits are equal parts, except that 54 bits are a power of two with the next exponent. -/
theorem parts_of_bits (proper : b.Proper) (least : -1074 ≤ e) (most : m ≤ 2 ^ 53)
    (normal : -1074 < e → 2 ^ 52 ≤ m) (same : (e + 1074).toNat * 2 ^ 52 + m = b.bits) :
    (e = b.exponent ∧ m = b.mantissa) ∨
      (e + 1 = b.exponent ∧ m = 2 ^ 53 ∧ b.mantissa = 2 ^ 52) := by
  have bounded := proper.bounded
  have wide := proper.normal
  have lower := proper.least
  unfold Binary.bits at same
  omega

theorem rounds_of_bits (proper : b.Proper) (least : -1074 ≤ e) (near : Nearest (x / 2 ^ e) m)
    (small : x < 2 ^ 53 * 2 ^ e) (normal : -1074 < e → 2 ^ 52 * 2 ^ e ≤ x)
    (same : (e + 1074).toNat * 2 ^ 52 + m = b.bits) : b.Rounds x := by
  have power : (0 : ℚ) < 2 ^ e := by positivity
  rw [← div_lt_iff₀ power] at small
  rw [← le_div_iff₀ power] at normal
  obtain ⟨lower, upper⟩ := near.bounds
  have most : m ≤ 2 ^ 53 := by
    have : (m : ℚ) < (2 ^ 53 + 1 : Nat) := by
      push_cast
      linarith
    exact Nat.lt_succ_iff.mp (by exact_mod_cast this)
  have wide : -1074 < e → 2 ^ 52 ≤ m := by
    intro above
    have := normal above
    have : ((2 ^ 52 : Nat) : ℚ) < (m + 1 : Nat) := by
      push_cast
      linarith
    exact Nat.lt_succ_iff.mp (by exact_mod_cast this)
  rw [Binary.rounds_iff]
  rcases parts_of_bits proper least most wide same with ⟨rfl, rfl⟩ | ⟨next, carried, leading⟩
  · by_cases half : b.halfGapBelow = true
    · -- A power of two has a number that rounds to it from below only with the smaller exponent.
      obtain ⟨leading, above⟩ := proper.gap.mp half
      have reached := normal above
      have even : b.mantissa % 2 = 0 := by omega
      have mantissa : (b.mantissa : ℚ) = 2 ^ 52 := by exact_mod_cast leading
      rw [if_pos even, if_pos half]
      exact ⟨by linarith, upper⟩
    · rw [if_neg half]
      exact near
  · have half : b.halfGapBelow = true := proper.gap.mpr ⟨leading, by omega⟩
    have even : b.mantissa % 2 = 0 := by omega
    have mantissa : (b.mantissa : ℚ) = 2 ^ 52 := by exact_mod_cast leading
    have rounded : (m : ℚ) = 2 ^ 53 := by exact_mod_cast carried
    have scaled : x / 2 ^ b.exponent = x / 2 ^ e / 2 := by
      rw [← next, two_zpow_succ, mul_comm, div_div]
    rw [if_pos even, if_pos half, scaled]
    constructor <;> linarith

theorem Binary.Rounds.bounds (rounds : b.Rounds x) :
    (b.mantissa : ℚ) - (if b.halfGapBelow then 1 / 4 else 1 / 2) ≤ x / 2 ^ b.exponent ∧
      x / 2 ^ b.exponent ≤ b.mantissa + 1 / 2 := by
  rw [rounds_iff] at rounds
  split at rounds
  · exact rounds
  · exact ⟨rounds.1.le, rounds.2.le⟩

theorem Binary.Rounds.nearest (rounds : b.Rounds x) : Nearest (x / 2 ^ b.exponent) b.mantissa := by
  rw [rounds_iff] at rounds
  have gap : (if b.halfGapBelow then 1 / 4 else 1 / 2 : ℚ) ≤ 1 / 2 := by
    split
    · norm_num
    · exact le_refl _
  unfold Nearest
  split
  · next even =>
      rw [if_pos even] at rounds
      exact ⟨by linarith [rounds.1], rounds.2⟩
  · next odd =>
      rw [if_neg odd] at rounds
      exact ⟨by linarith [rounds.1], rounds.2⟩

theorem bits_of_rounds (proper : b.Proper) (least : -1074 ≤ e) (near : Nearest (x / 2 ^ e) m)
    (small : x < 2 ^ 53 * 2 ^ e) (normal : -1074 < e → 2 ^ 52 * 2 ^ e ≤ x)
    (rounds : b.Rounds x) : (e + 1074).toNat * 2 ^ 52 + m = b.bits := by
  have power : (0 : ℚ) < 2 ^ b.exponent := by positivity
  have bounded : (b.mantissa : ℚ) + 1 ≤ 2 ^ 53 := by exact_mod_cast proper.bounded
  have lowest := proper.least
  obtain ⟨lower, upper⟩ := rounds.bounds
  have notAbove : e ≤ b.exponent := by
    by_contra above
    have reached := normal (by omega)
    have doubled : 2 * (2 : ℚ) ^ b.exponent ≤ 2 ^ e := by
      rw [← two_zpow_succ]
      exact zpow_le_zpow_right₀ (by norm_num) (by omega)
    rw [div_le_iff₀ power] at upper
    have : ((b.mantissa : ℚ) + 1 / 2) * 2 ^ b.exponent < 2 ^ 53 * 2 ^ b.exponent :=
      mul_lt_mul_of_pos_right (by linarith) power
    linarith
  by_cases same : e = b.exponent
  · rw [same] at near
    rw [same, near.unique rounds.nearest, Binary.bits]
  · -- Below its exponent the number is a power of two, which the mantissa is rounded up to.
    have wide := proper.normal (by omega)
    have under : x / 2 ^ b.exponent < 2 ^ 52 := by
      have doubled : 2 * (2 : ℚ) ^ e ≤ 2 ^ b.exponent := by
        rw [← two_zpow_succ]
        exact zpow_le_zpow_right₀ (by norm_num) (by omega)
      rw [div_lt_iff₀ power]
      linarith
    have leading : b.mantissa = 2 ^ 52 := by
      have := rounds.nearest.bounds.1
      have : (b.mantissa : ℚ) < (2 ^ 52 + 1 : Nat) := by
        push_cast
        linarith
      have : b.mantissa < 2 ^ 52 + 1 := by exact_mod_cast this
      omega
    have half : b.halfGapBelow = true := proper.gap.mpr ⟨leading, by omega⟩
    have mantissa : (b.mantissa : ℚ) = 2 ^ 52 := by exact_mod_cast leading
    rw [if_pos half, mantissa] at lower
    have next : e + 1 = b.exponent := by
      by_contra further
      have doubled : 2 * (2 * (2 : ℚ) ^ e) ≤ 2 ^ b.exponent := by
        rw [← two_zpow_succ, ← two_zpow_succ]
        exact zpow_le_zpow_right₀ (by norm_num) (by omega)
      rw [le_div_iff₀ power] at lower
      linarith
    have scaled : x / 2 ^ e = 2 * (x / 2 ^ b.exponent) := by
      rw [← next, two_zpow_succ]
      field_simp
    have carried : Nearest (x / 2 ^ e) (2 ^ 53) := by
      refine .of_even (by decide) ?_ ?_ <;> push_cast <;> linarith
    rw [near.unique carried, Binary.bits]
    omega

/-- The nearest reading of a quotient gives a number's bits exactly if the quotient rounds to it. -/
theorem nearestBits_eq_iff (proper : b.Proper) {num den : Nat} (hn : 0 < num) (hd : 0 < den) :
    nearestBits num den = b.bits ↔ b.Rounds (num / den) := by
  obtain ⟨e, m, written, least, near, small, normal⟩ := nearestBits_spec hn hd
  rw [written]
  exact ⟨rounds_of_bits proper least near small normal,
    bits_of_rounds proper least near small normal⟩

end Reading

section Packing

open Float.Model

theorem toNat_unpackMantissa (v : BitVec 64) :
    (@UnpackedFloat.unpackMantissa .binary64 v).toNat = v.toNat % 2 ^ 52 := rfl

theorem toNat_unpackExponent (v : BitVec 64) :
    (@UnpackedFloat.unpackExponent .binary64 v).toNat = v.toNat / 2 ^ 52 % 2 ^ 11 := by
  show (v.toNat >>> 52) % 2 ^ 11 = _
  rw [Nat.shiftRight_eq_div_pow]

theorem toNat_unpackSign (v : BitVec 64) :
    (@UnpackedFloat.unpackSign .binary64 v).toNat = v.toNat / 2 ^ 63 := by
  have := v.isLt
  show (v.toNat >>> 63) % 2 ^ 1 = _
  rw [Nat.shiftRight_eq_div_pow]
  omega

theorem toNat_packComponents (s : UnpackedFloat.Sign) (e : BitVec 11) (m : BitVec 52) :
    (UnpackedFloat.packComponents .binary64 s e m).toNat =
      s.toBitVec.toNat * 2 ^ 63 + e.toNat * 2 ^ 52 + m.toNat := by
  have mantissa := m.isLt
  have exponent := e.isLt
  show ((s.toBitVec ++ e) ++ m).toNat = _
  rw [BitVec.toNat_append, ← Nat.shiftLeft_add_eq_or_of_lt mantissa, BitVec.toNat_append,
    ← Nat.shiftLeft_add_eq_or_of_lt exponent, Nat.shiftLeft_eq, Nat.shiftLeft_eq]
  omega

def Binary.ofParts (m : Nat) (e : Int) : Binary where
  mantissa := m
  exponent := e
  halfGapBelow := decide (m = 2 ^ 52 ∧ -1074 < e)

theorem Binary.bits_ofParts (m : Nat) (e : Int) :
    (Binary.ofParts m e).bits = (e + 1074).toNat * 2 ^ 52 + m := rfl

variable {s : UnpackedFloat.Sign} {m : Nat} {e : Int} {positive : 0 < m}

theorem Binary.proper_ofParts (positive : 0 < m) (bounded : m < 2 ^ 53)
    (normal : -1074 < e → 2 ^ 52 ≤ m) (least : -1074 ≤ e) (greatest : e ≤ 971) :
    (Binary.ofParts m e).Proper :=
  ⟨positive, bounded, normal, least, greatest, decide_eq_true_iff⟩

theorem toBitVec_ofBitVec (v : BitVec 1) : (UnpackedFloat.Sign.ofBitVec v).toBitVec = v := by
  revert v
  decide

/-- The bits of a number are its sign, and its exponent and mantissa as a binary number has them. -/
theorem unpack_cases {v : BitVec 64} (finite : (UnpackedFloat.unpack .binary64 v).isFinite = true) :
    (∃ s, UnpackedFloat.unpack .binary64 v = .zero s ∧ v.toNat = s.toBitVec.toNat * 2 ^ 63) ∨
    ∃ s m e positive, UnpackedFloat.unpack .binary64 v = .finite s m e positive ∧
      (Binary.ofParts m e).Proper ∧
      v.toNat = s.toBitVec.toNat * 2 ^ 63 + (Binary.ofParts m e).bits := by
  have wide := v.isLt
  have mantissa := toNat_unpackMantissa v
  have exponent := toNat_unpackExponent v
  have sign := toNat_unpackSign v
  unfold UnpackedFloat.unpack at finite ⊢
  dsimp only at finite ⊢
  by_cases ones : @UnpackedFloat.unpackExponent .binary64 v = -1#11
  · rw [if_pos ones] at finite
    by_cases zero : @UnpackedFloat.unpackMantissa .binary64 v = 0#52
    · rw [if_pos zero] at finite
      cases finite
    · rw [if_neg zero] at finite
      cases finite
  have notLast : (@UnpackedFloat.unpackExponent .binary64 v).toNat ≠ 2047 := by
    intro equal
    exact ones (BitVec.eq_of_toNat_eq equal)
  rw [if_neg ones]
  by_cases zeros : @UnpackedFloat.unpackExponent .binary64 v = 0#11
  · rw [if_pos zeros]
    have none : (@UnpackedFloat.unpackExponent .binary64 v).toNat = 0 :=
      congrArg BitVec.toNat zeros
    by_cases zero : @UnpackedFloat.unpackMantissa .binary64 v = 0#52
    · have empty : (@UnpackedFloat.unpackMantissa .binary64 v).toNat = 0 :=
        congrArg BitVec.toNat zero
      rw [dif_pos zero]
      refine .inl ⟨_, rfl, ?_⟩
      rw [toBitVec_ofBitVec, sign]
      omega
    · have positive : 0 < (@UnpackedFloat.unpackMantissa .binary64 v).toNat := by
        refine Nat.pos_of_ne_zero fun equal => ?_
        exact zero (BitVec.eq_of_toNat_eq equal)
      rw [dif_neg zero, zeros]
      refine .inr ⟨_, _, -1074, positive, rfl, ?_, ?_⟩
      · exact Binary.proper_ofParts positive (by omega) (by omega) (by decide) (by decide)
      · rw [toBitVec_ofBitVec, sign, Binary.bits_ofParts]
        omega
  · have some : (@UnpackedFloat.unpackExponent .binary64 v).toNat ≠ 0 := by
      intro equal
      exact zeros (BitVec.eq_of_toNat_eq equal)
    have leading : (1#1 ++ @UnpackedFloat.unpackMantissa .binary64 v).toNat =
        2 ^ 52 + (@UnpackedFloat.unpackMantissa .binary64 v).toNat := by
      rw [BitVec.toNat_append, ← Nat.shiftLeft_add_eq_or_of_lt (BitVec.isLt _)]
      rfl
    have positive : 0 < (1#1 ++ @UnpackedFloat.unpackMantissa .binary64 v).toNat := by omega
    rw [if_neg zeros]
    refine .inr ⟨_, _, ((@UnpackedFloat.unpackExponent .binary64 v).toNat : Int) - 1075, positive,
      rfl, ?_, ?_⟩
    · exact Binary.proper_ofParts positive (by omega) (by omega) (by omega) (by omega)
    · rw [toBitVec_ofBitVec, sign, Binary.bits_ofParts]
      omega

theorem pack_parts (proper : (Binary.ofParts m e).Proper) :
    (UnpackedFloat.pack .binary64 (.finite s m e positive)).toNat =
      s.toBitVec.toNat * 2 ^ 63 + (Binary.ofParts m e).bits := by
  have bounded : m < 2 ^ 53 := proper.bounded
  have normal : -1074 < e → 2 ^ 52 ≤ m := proper.normal
  have least : -1074 ≤ e := proper.least
  have greatest : e ≤ 971 := proper.greatest
  rw [pack_finite, Binary.bits_ofParts, if_neg (by unfold biased; omega)]
  by_cases large : 2 ^ 52 ≤ m
  · have bits : m.log2 + 1 = 53 := by
      have : m.log2 = 52 := (Nat.log2_eq_iff positive.ne').mpr ⟨large, bounded⟩
      omega
    rw [if_pos bits, toNat_packComponents, BitVec.toNat_ofNat, BitVec.toNat_ofNat, biased]
    omega
  · have bits : ¬m.log2 + 1 = 53 := by
      intro equal
      have : m.log2 = 52 := by omega
      exact large ((Nat.log2_eq_iff positive.ne').mp this).1
    rw [if_neg bits, toNat_packComponents, BitVec.toNat_ofNat, BitVec.toNat_ofNat]
    omega

theorem pack_unpack {v : BitVec 64} (finite : (UnpackedFloat.unpack .binary64 v).isFinite = true) :
    (UnpackedFloat.pack .binary64 (UnpackedFloat.unpack .binary64 v)).toNat = v.toNat := by
  rcases unpack_cases finite with ⟨s, zero, bits⟩ | ⟨s, m, e, positive, unpacked, proper, bits⟩
  · have packed : UnpackedFloat.pack .binary64 (.zero s) =
        UnpackedFloat.packComponents .binary64 s 0#11 0#52 := rfl
    rw [bits, zero, packed, toNat_packComponents, BitVec.toNat_zero, BitVec.toNat_zero]
    omega
  · rw [unpacked, pack_parts proper, bits]

theorem Binary.Proper.bits_lt {b : Binary} (proper : b.Proper) : b.bits < infinityBits := by
  have := proper.bounded
  have := proper.greatest
  unfold bits infinityBits
  omega

theorem Binary.Proper.bits_pos {b : Binary} (proper : b.Proper) : 0 < b.bits := by
  have := proper.positive
  unfold bits
  omega

theorem Binary.ofBits_bits {b : Binary} (proper : b.Proper) :
    Binary.ofBits b.bits.toUInt64 = b := by
  have below := proper.bits_lt
  have fits : b.bits.toUInt64.toNat = b.bits := by
    rw [Nat.toUInt64, UInt64.toNat_ofNat']
    unfold infinityBits at below
    omega
  obtain ⟨mantissa, exponent, halfGapBelow⟩ := b
  obtain ⟨positive, bounded, normal, least, greatest, gap⟩ := proper
  dsimp only at positive bounded normal least greatest gap
  unfold Binary.ofBits
  dsimp only
  rw [fits, bits]
  show (if ((exponent + 1074).toNat * 2 ^ 52 + mantissa) / 2 ^ 52 % 2 ^ 11 = 0 then
    Binary.mk (((exponent + 1074).toNat * 2 ^ 52 + mantissa) % 2 ^ 52) (-1074) false else
    Binary.mk (((exponent + 1074).toNat * 2 ^ 52 + mantissa) % 2 ^ 52 + 2 ^ 52)
      ((((exponent + 1074).toNat * 2 ^ 52 + mantissa) / 2 ^ 52 % 2 ^ 11 : Nat) - 1075)
      (((exponent + 1074).toNat * 2 ^ 52 + mantissa) % 2 ^ 52 == 0 &&
        decide (1 < ((exponent + 1074).toNat * 2 ^ 52 + mantissa) / 2 ^ 52 % 2 ^ 11))) = _
  by_cases large : 2 ^ 52 ≤ mantissa
  · rw [if_neg (by omega), mk.injEq]
    refine ⟨by omega, by omega, ?_⟩
    rw [Bool.eq_iff_iff, gap, Bool.and_eq_true, beq_iff_eq, decide_eq_true_iff]
    omega
  · have alone : exponent = -1074 := by omega
    rw [if_pos (by omega), mk.injEq]
    refine ⟨by omega, alone.symm, ?_⟩
    rw [Bool.eq_iff_iff, gap]
    simp [alone]

end Packing

/-! ## Floats -/

section Floats

open Float.Model

theorem float_eq_of_toBits {f g : Float} (same : f.toBits.toNat = g.toBits.toNat) : f = g := by
  have same := UInt64.toNat_inj.mp same
  obtain ⟨⟨_, _⟩⟩ := f
  obtain ⟨⟨_, _⟩⟩ := g
  cases same
  rfl

theorem toNat_toBits_ofBits {n : Nat} (small : n < infinityBits) :
    (Float.ofBits (UInt64.ofNat n)).toBits.toNat = n := by
  unfold infinityBits at small
  have bits : (UInt64.ofNat n).toBitVec.toNat = n := by
    show (UInt64.ofNat n).toNat = n
    rw [UInt64.toNat_ofNat']
    omega
  have finite : (UnpackedFloat.unpack .binary64 (UInt64.ofNat n).toBitVec).isFinite = true := by
    apply isFinite_of_unpackExponent
    intro ones
    have exponent := toNat_unpackExponent (UInt64.ofNat n).toBitVec
    rw [ones, bits] at exponent
    change 2047 = _ at exponent
    omega
  exact (pack_unpack finite).trans bits

/-- A finite number without its sign. -/
def magnitudeOf (f : Float) : ℚ :=
  match f.toModel.unpack with
  | .finite _ m e _ => m * 2 ^ e
  | _ => 0

/-- A number that is finite and not zero is a binary number with a sign. -/
theorem finite_parts {f : Float} (finite : f.isFinite = true) (nonzero : (f == 0) = false) :
    ∃ b : Binary, b.Proper ∧ b.value = magnitudeOf f ∧ f.abs.toBits.toNat = b.bits ∧
      f.toBits.toNat = (if f < 0 then 2 ^ 63 else 0) + b.bits := by
  have other : (Float.ofNat 0).toModel.unpack = .zero .positive := rfl
  rcases unpack_cases finite with ⟨s, zero, -⟩ | ⟨s, m, e, positive, unpacked, proper, bits⟩
  · change f.toModel.unpack = _ at zero
    have equal : (f == 0) = true := by
      show f.toModel.unpack.beq (Float.ofNat 0).toModel.unpack = true
      rw [zero, other]
      rfl
    rw [equal] at nonzero
    cases nonzero
  · change f.toModel.unpack = _ at unpacked
    refine ⟨.ofParts m e, proper, ?_, ?_, ?_⟩
    · rw [magnitudeOf, unpacked]
      rfl
    · show (UnpackedFloat.pack .binary64 f.toModel.unpack.abs).toNat = _
      rw [unpacked]
      show (UnpackedFloat.pack .binary64 (.finite .positive m e positive)).toNat = _
      rw [pack_parts proper]
      exact Nat.zero_add _
    · show f.toModel.toBits.toBitVec.toNat = _
      rw [bits]
      cases s with
      | negative =>
          have below : f < 0 := by
            show decide (f.toModel.unpack.lt (Float.ofNat 0).toModel.unpack = true) = true
            rw [unpacked, other]
            rfl
          rw [if_pos below]
          rfl
      | positive =>
          have notBelow : ¬f < 0 := by
            intro below
            change decide (f.toModel.unpack.lt (Float.ofNat 0).toModel.unpack = true) = true
              at below
            rw [unpacked, other] at below
            cases below
          rw [if_neg notBelow]
          rfl

theorem Binary.Proper.size_of_rounds {b : Binary} (proper : b.Proper) {x : ℚ}
    (rounds : b.Rounds x) : (10 : ℚ) ^ (-360 : Int) ≤ x ∧ x ≤ 10 ^ (360 : Int) := by
  have positive : (1 : ℚ) ≤ b.mantissa := by exact_mod_cast proper.positive
  have power : (0 : ℚ) < 2 ^ b.exponent := by positivity
  obtain ⟨least, most⟩ := proper.value_bounds
  obtain ⟨lower, upper⟩ := rounds.nearest.bounds
  rw [le_div_iff₀ power] at lower
  rw [div_le_iff₀ power] at upper
  constructor
  · have half : b.value / 2 ≤ ((b.mantissa : ℚ) - 1 / 2) * 2 ^ b.exponent := by
      rw [value, mul_div_right_comm]
      exact mul_le_mul_of_nonneg_right (by linarith) power.le
    linarith
  · have double : ((b.mantissa : ℚ) + 1 / 2) * 2 ^ b.exponent ≤ b.value * 2 := by
      rw [value, mul_right_comm]
      exact mul_le_mul_of_nonneg_right (by linarith) power.le
    exact (upper.trans double).trans most

/-- A decimal is read as a number exactly if it rounds to it. -/
theorem nearest?_eq_some_iff {b : Binary} (proper : b.Proper) {f : Float}
    (bits : f.toBits.toNat = b.bits) (significand : Nat) (exponent : Int) :
    nearest? significand exponent = some f ↔ b.Rounds (significand * 10 ^ exponent) := by
  have nonzero : f ≠ 0 := by
    intro zero
    have : (0 : Float).toBits.toNat = 0 := rfl
    have := proper.bits_pos
    rw [zero] at bits
    omega
  by_cases none : significand = 0
  · have outside : ¬b.Rounds (significand * 10 ^ exponent) := by
      intro rounds
      have := (proper.size_of_rounds rounds).1
      rw [none, Nat.cast_zero, zero_mul] at this
      have : (0 : ℚ) < 10 ^ (-360 : Int) := by positivity
      linarith
    rw [nearest?, if_pos none, Option.some.injEq]
    exact ⟨fun zero => absurd zero.symm nonzero, fun rounds => absurd rounds outside⟩
  obtain ⟨k, length, lower, upper⟩ := digitsOf_length (Nat.pos_of_ne_zero none)
  have power : (0 : ℚ) < 10 ^ exponent := by positivity
  have least : (10 : ℚ) ^ ((k : Int) + exponent) ≤ significand * 10 ^ exponent := by
    rw [zpow_add₀ (by norm_num), zpow_natCast]
    exact mul_le_mul_of_nonneg_right (by exact_mod_cast lower) power.le
  have most : (significand : ℚ) * 10 ^ exponent < 10 ^ ((k : Int) + 1 + exponent) := by
    rw [zpow_add₀ (by norm_num)]
    exact mul_lt_mul_of_pos_right (by exact_mod_cast upper) power
  unfold nearest?
  dsimp only
  rw [if_neg none, length]
  split
  · next large =>
      refine ⟨fun read => (Option.some_ne_none _ read.symm).elim, fun rounds => ?_⟩
      have reached := least.trans (proper.size_of_rounds rounds).2
      rw [zpow_le_zpow_iff_right₀ (by norm_num)] at reached
      omega
  · split
    · next small =>
        rw [Option.some.injEq]
        refine ⟨fun zero => absurd zero.symm nonzero, fun rounds => ?_⟩
        have reached := (proper.size_of_rounds rounds).1.trans_lt most
        rw [zpow_lt_zpow_iff_right₀ (by norm_num)] at reached
        omega
    · have down : 0 < Nat.pow 10 (-exponent).toNat := Nat.pow_pos (by decide)
      have up : 0 < significand * Nat.pow 10 exponent.toNat :=
        Nat.mul_pos (Nat.pos_of_ne_zero none) (Nat.pow_pos (by decide))
      have quotient : ((significand * Nat.pow 10 exponent.toNat : Nat) : ℚ) /
          (Nat.pow 10 (-exponent).toNat : Nat) = significand * 10 ^ exponent := by
        rw [div_eq_iff (by exact_mod_cast down.ne'), mul_assoc, Interval.grid_eq, Nat.cast_mul]
      have read := nearestBits_eq_iff proper up down
      have below := proper.bits_lt
      rw [quotient] at read
      rw [← read]
      split
      · next large =>
          refine ⟨fun none => (Option.some_ne_none _ none.symm).elim, fun same => ?_⟩
          omega
      · next small =>
          have kept := toNat_toBits_ofBits (Nat.lt_of_not_le small)
          rw [Option.some.injEq]
          constructor
          · intro same
            rw [← bits, ← same, kept]
          · intro same
            exact float_eq_of_toBits (by rw [kept, same, bits])

def Scientific.read? (s : Scientific) : Option Float :=
  nearest? (ofDigits s.digits) (s.exponent + 1 - s.digits.length)

theorem Scientific.read?_eq_some_iff {b : Binary} (proper : b.Proper) {f : Float}
    (bits : f.toBits.toNat = b.bits) (s : Scientific) : s.read? = some f ↔ b.Rounds s.value := by
  rw [read?, nearest?_eq_some_iff proper bits, value_eq]

end Floats

end SymbolExport.Decimal
