import SymbolExport.Proofs.NearestReading

/-! # Order of floats

Positive floats are ordered as their bits are, and decimals that round to different ones are in the same
order. So a float can be compared with the one nearest to a power of ten to tell where the first digit
of its shortest decimal stands.
-/

namespace SymbolExport.Decimal

section Rounding

variable {b c : Binary} {x y : ℚ}

/-- Bits are compared exponent first. -/
theorem Binary.Proper.bits_lt_iff (hb : b.Proper) (hc : c.Proper) :
    b.bits < c.bits ↔
      b.exponent < c.exponent ∨ b.exponent = c.exponent ∧ b.mantissa < c.mantissa := by
  have bounded := hb.bounded
  have bounded' := hc.bounded
  have normal := hb.normal
  have normal' := hc.normal
  have least := hb.least
  have least' := hc.least
  unfold bits
  omega

theorem Binary.Proper.value_lt_of_bits_lt (hb : b.Proper) (hc : c.Proper) (less : b.bits < c.bits) :
    b.value < c.value := by
  unfold value
  rcases (hb.bits_lt_iff hc).mp less with next | ⟨same, mantissa⟩
  · -- The larger exponent wins: its mantissa has all its bits.
    have small : (b.mantissa : ℚ) < 2 * 2 ^ 52 := by exact_mod_cast hb.bounded
    have large : (2 : ℚ) ^ 52 ≤ c.mantissa := by
      exact_mod_cast hc.normal (lt_of_le_of_lt hb.least next)
    calc (b.mantissa : ℚ) * 2 ^ b.exponent
        < 2 * 2 ^ 52 * 2 ^ b.exponent := mul_lt_mul_of_pos_right small (by positivity)
      _ = 2 ^ 52 * 2 ^ (b.exponent + 1) := by rw [two_zpow_succ]; ring
      _ ≤ c.mantissa * 2 ^ c.exponent :=
        mul_le_mul large (zpow_le_zpow_right₀ (by norm_num) next) (by positivity) (by positivity)
  · rw [same]
    exact mul_lt_mul_of_pos_right (by exact_mod_cast mantissa) (by positivity)

theorem Binary.Proper.eq_of_bits (hb : b.Proper) (hc : c.Proper) (same : b.bits = c.bits) : b = c := by
  rw [← Binary.ofBits_bits hb, ← Binary.ofBits_bits hc, same]

theorem Binary.Proper.rounds_value (proper : b.Proper) : b.Rounds b.value := by
  rw [← proper.contains_iff, ← b.center_interval]
  exact proper.interval.contains_center

theorem Binary.Rounds.between {z : ℚ} (proper : b.Proper) (left : b.Rounds x) (right : b.Rounds z)
    (xy : x ≤ y) (yz : y ≤ z) : b.Rounds y := by
  rw [← proper.contains_iff] at left right ⊢
  exact left.between right xy yz

/-- A decimal rounds to one number only. -/
theorem Binary.Rounds.bits_eq (hb : b.Proper) (hc : c.Proper) (here : b.Rounds x)
    (there : c.Rounds x) : b.bits = c.bits := by
  have positive : 0 < x := lt_of_lt_of_le (by positivity) (hb.size_of_rounds here).1
  have quotient : ((x.num.toNat : Nat) : ℚ) / x.den = x := by
    have num : ((x.num.toNat : Nat) : ℚ) = x.num := by
      exact_mod_cast Int.toNat_of_nonneg (Rat.num_pos.mpr positive).le
    rw [num, Rat.num_div_den]
  have hn : 0 < x.num.toNat := by
    have := Rat.num_pos.mpr positive
    omega
  rw [← quotient] at here there
  rw [← (nearestBits_eq_iff hb hn x.den_pos).mpr here, (nearestBits_eq_iff hc hn x.den_pos).mpr there]

/-- Decimals that round to different numbers are in the order of these. -/
theorem Binary.Rounds.lt (hb : b.Proper) (hc : c.Proper) (here : b.Rounds x) (there : c.Rounds y)
    (less : b.bits < c.bits) : x < y := by
  by_contra crossed
  rw [not_lt] at crossed
  have values := hb.value_lt_of_bits_lt hc less
  -- One of the two intervals would reach into the other.
  rcases le_total y b.value with low | high
  · exact less.ne (hb.rounds_value.bits_eq hb hc (there.between hc hc.rounds_value low values.le))
  · exact less.ne ((hb.rounds_value.between hb here high crossed).bits_eq hb hc there)

theorem placeValue_bounds (ds : List Digit) : 0 ≤ placeValue ds ∧ placeValue ds < 10 := by
  induction ds with
  | nil => exact ⟨le_rfl, by norm_num [placeValue]⟩
  | cons d ds ih =>
      have digit : (d.val : ℚ) ≤ 9 := by exact_mod_cast Nat.le_of_lt_succ d.isLt
      have positive : (0 : ℚ) ≤ d.val := Nat.cast_nonneg _
      rw [placeValue]
      constructor <;> linarith

/-- The exponent of a decimal is that of the power of ten at or below it. -/
theorem Scientific.value_bounds {s : Scientific} (first : ∃ d ds, s.digits = d :: ds ∧ d ≠ 0) :
    (10 : ℚ) ^ s.exponent ≤ s.value ∧ s.value < 10 ^ (s.exponent + 1) := by
  obtain ⟨d, ds, digits, nonzero⟩ := first
  have leading : (1 : ℚ) ≤ d.val := by
    exact_mod_cast Nat.one_le_iff_ne_zero.mpr (Fin.val_ne_zero_iff.mpr nonzero)
  have lower : 1 ≤ placeValue s.digits := by
    rw [digits, placeValue]
    linarith [(placeValue_bounds ds).1]
  have upper := (placeValue_bounds s.digits).2
  have power : (0 : ℚ) < 10 ^ s.exponent := by positivity
  rw [zpow_add_one₀ (by norm_num), value]
  constructor <;> nlinarith

/-- The shortest decimal of a number begins below a power of ten exactly if the number is below the one
that the power rounds to. -/
theorem exponent_lt_iff (hb : b.Proper) (hc : c.Proper) {tie : Tie} {k : Int}
    (power : c.Rounds (10 ^ k)) (own : (c.shortest tie).exponent = k) :
    (b.shortest tie).exponent < k ↔ b.bits < c.bits := by
  obtain ⟨shortest, -⟩ := hb.shortest tie
  obtain ⟨lower, upper⟩ := Scientific.value_bounds shortest.first
  constructor
  · intro below
    by_contra notLess
    rcases Nat.eq_or_lt_of_le (not_lt.mp notLess) with same | more
    · rw [← hc.eq_of_bits hb same, own] at below
      exact lt_irrefl k below
    · have above := power.lt hc hb shortest.admitted more
      have reach : (10 : ℚ) ^ ((b.shortest tie).exponent + 1) ≤ 10 ^ k :=
        zpow_le_zpow_right₀ (by norm_num) (by omega)
      linarith
  · intro less
    have below := Binary.Rounds.lt hb hc shortest.admitted power less
    exact (zpow_lt_zpow_iff_right₀ (by norm_num)).mp (lower.trans_lt below)

end Rounding

section Floats

open Float.Model

variable {f g : Float} {b c : Binary}

theorem unpack_of_bits (proper : b.Proper) (bits : f.toBits.toNat = b.bits) :
    ∃ positive, f.toModel.unpack = .finite .positive b.mantissa b.exponent positive := by
  have below := proper.bits_lt
  have above := proper.bits_pos
  unfold infinityBits at below
  have bits : f.toModel.toBits.toBitVec.toNat = b.bits := bits
  have finite : (UnpackedFloat.unpack .binary64 f.toModel.toBits.toBitVec).isFinite = true := by
    apply isFinite_of_unpackExponent
    intro ones
    have exponent := toNat_unpackExponent f.toModel.toBits.toBitVec
    rw [ones, bits] at exponent
    change 2047 = _ at exponent
    omega
  rcases unpack_cases finite with ⟨s, -, same⟩ | ⟨s, m, e, positive, unpacked, parts, same⟩
  · omega
  · have unsigned : s.toBitVec.toNat = 0 := by omega
    have equal : Binary.ofParts m e = b := parts.eq_of_bits proper (by omega)
    subst equal
    cases s with
    | negative => exact absurd unsigned (by decide)
    | positive => exact ⟨positive, unpacked⟩

/-- To compare exponents and then mantissas is to compare the bits. -/
theorem compare_of_bits (hb : b.Proper) (hc : c.Proper) (hf : f.toBits.toNat = b.bits)
    (hg : g.toBits.toNat = c.bits) :
    f.toModel.unpack.compare g.toModel.unpack = some (compare b.bits c.bits) := by
  obtain ⟨_, unpacked⟩ := unpack_of_bits hb hf
  obtain ⟨_, unpacked'⟩ := unpack_of_bits hc hg
  rw [unpacked, unpacked']
  show some ((compare b.exponent c.exponent).then (compare b.mantissa c.mantissa)) = _
  rw [Option.some.injEq]
  rcases lt_trichotomy b.bits c.bits with less | same | more
  · rw [compare_lt_iff_lt.mpr less, Ordering.then_eq_lt, compare_lt_iff_lt, compare_eq_iff_eq,
      compare_lt_iff_lt]
    exact (hb.bits_lt_iff hc).mp less
  · rw [hb.eq_of_bits hc same]
    simp
  · rw [compare_gt_iff_gt.mpr more, Ordering.then_eq_gt, compare_gt_iff_gt, compare_eq_iff_eq,
      compare_gt_iff_gt]
    have ordered := (hc.bits_lt_iff hb).mp more
    rwa [eq_comm] at ordered

theorem lt_iff_bits_lt (hb : b.Proper) (hc : c.Proper) (hf : f.toBits.toNat = b.bits)
    (hg : g.toBits.toNat = c.bits) : f < g ↔ b.bits < c.bits := by
  show decide ((f.toModel.unpack.compare g.toModel.unpack == some .lt) = true) = true ↔ _
  rw [compare_of_bits hb hc hf hg, decide_eq_true_iff, beq_iff_eq, Option.some.injEq,
    compare_lt_iff_lt]

theorem le_iff_bits_le (hb : b.Proper) (hc : c.Proper) (hf : f.toBits.toNat = b.bits)
    (hg : g.toBits.toNat = c.bits) : f ≤ g ↔ b.bits ≤ c.bits := by
  show decide ((f.toModel.unpack.compare g.toModel.unpack).any (·.isLE) = true) = true ↔ _
  rw [compare_of_bits hb hc hf hg, decide_eq_true_iff, Option.any_some, Nat.isLE_compare]

end Floats

end SymbolExport.Decimal
