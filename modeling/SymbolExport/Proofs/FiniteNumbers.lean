import SymbolExport.Decimal.Reading

/-!
# Scaled readings are finite

A scaled reading never gives an infinity or an undefined number. A conversion from 64 bits is far
from the largest number, a product is checked for overflow, and a quotient by a power of ten is
smaller than its dividend. What has to be shown is that rounding keeps all of them in range: it
raises the exponent of a number by at most one.
-/

namespace SymbolExport.Decimal

open Float.Model

theorem log2_le_of_lt {m k : Nat} (h : m < Nat.pow 2 (k + 1)) : m.log2 ≤ k := by
  by_cases zero : m = 0
  · simp [zero]
  · have := (Nat.log2_lt zero).2 h
    omega

theorem shiftRight_lt {m n k : Nat} (h : m.log2 < n + k) : m >>> k < Nat.pow 2 n := by
  have wide := Nat.pow_le_pow_right (show 0 < 2 by decide) h
  rw [Nat.pow_add] at wide
  rw [Nat.shiftRight_eq_div_pow, Nat.div_lt_iff_lt_mul (Nat.two_pow_pos k)]
  exact Nat.lt_of_lt_of_le Nat.lt_log2_self wide

theorem log2_shiftLeft_le (m k : Nat) : (m <<< k).log2 ≤ m.log2 + k := by
  apply log2_le_of_lt
  have scaled := Nat.mul_lt_mul_of_pos_right (@Nat.lt_log2_self m) (Nat.two_pow_pos k)
  rw [← Nat.pow_add] at scaled
  rw [Nat.shiftLeft_eq, Nat.add_right_comm]
  exact scaled

theorem log2_shiftLeft_div_le {m d : Nat} (k : Nat) (hm : m < Nat.pow 2 53)
    (hd : Nat.pow 2 52 ≤ d) : (m <<< k / d).log2 ≤ k := by
  apply log2_le_of_lt
  have positive : 0 < d := Nat.lt_of_lt_of_le (by decide) hd
  have exponents : 53 + k = (k + 1) + 52 := by omega
  rw [Nat.div_lt_iff_lt_mul positive, Nat.shiftLeft_eq]
  calc
    m * Nat.pow 2 k < Nat.pow 2 53 * Nat.pow 2 k :=
      Nat.mul_lt_mul_of_pos_right hm (Nat.two_pow_pos k)
    _ = Nat.pow 2 (53 + k) := (Nat.pow_add 2 53 k).symm
    _ = Nat.pow 2 (k + 1) * Nat.pow 2 52 := by
      rw [exponents]
      exact Nat.pow_add 2 (k + 1) 52
    _ ≤ Nat.pow 2 (k + 1) * d := Nat.mul_le_mul_left _ hd

/-- Zero, or a number whose exponent is at most `bound`. -/
def ExponentAtMost (bound : Int) : UnpackedFloat → Prop
  | .zero _ => True
  | .finite _ _ e _ => e ≤ bound
  | .infinity _ => False
  | .notANumber => False

theorem ExponentAtMost.mono {small large : Int} {u : UnpackedFloat} (h : ExponentAtMost small u)
    (le : small ≤ large) : ExponentAtMost large u := by
  cases u with
  | infinity s => exact h
  | notANumber => exact h
  | zero s => exact h
  | finite s m e positive => exact Int.le_trans h le

section Rounding

theorem roundedMantissa_le (em : UnpackedFloat.ExtendedMantissa) :
    em.roundedMantissa ≤ em.mantissa + 1 := by
  rcases em with ⟨m, round, sticky⟩
  cases round <;> cases sticky <;>
    simp only [UnpackedFloat.ExtendedMantissa.roundedMantissa,
      UnpackedFloat.ExtendedMantissa.accuracy, UnpackedFloat.Accuracy.roundToNearestEven] <;>
    omega

theorem mantissa_shiftRight (em : UnpackedFloat.ExtendedMantissa) (k : Nat) :
    (em >>> k).mantissa = em.mantissa >>> k := by
  induction k with
  | zero => rfl
  | succ k ih =>
      change (em >>> k).mantissa / 2 = em.mantissa >>> (k + 1)
      rw [ih, Nat.shiftRight_succ]

theorem mantissa_ofMantissaAndAccuracy (m : Nat) (accuracy : UnpackedFloat.Accuracy) :
    (UnpackedFloat.ExtendedMantissa.ofMantissaAndAccuracy m accuracy).mantissa = m := by
  cases accuracy with
  | exact => rfl
  | inexact order => cases order <;> rfl

theorem targetExponent_binary64 (total : Int) :
    Format.binary64.targetExponent total = max (total - 53) (-1074) := rfl

theorem shiftToTargetExponent_exponent (m : Nat) (e : Int) (accuracy : UnpackedFloat.Accuracy) :
    (UnpackedFloat.shiftToTargetExponent .binary64 m e accuracy).2 =
      max e (max (totalExponent m e - 53) (-1074)) := by
  change e + ((max (totalExponent m e - 53) (-1074) - e).toNat : Int) = _
  omega

theorem shiftToTargetExponent_mantissa (m : Nat) (e : Int) (accuracy : UnpackedFloat.Accuracy) :
    (UnpackedFloat.shiftToTargetExponent .binary64 m e accuracy).1.mantissa < Nat.pow 2 53 := by
  change (UnpackedFloat.ExtendedMantissa.ofMantissaAndAccuracy m accuracy >>>
    (max (totalExponent m e - 53) (-1074) - e).toNat).mantissa < _
  rw [mantissa_shiftRight, mantissa_ofMantissaAndAccuracy]
  apply shiftRight_lt
  have : totalExponent m e = m.log2 + 1 + e := rfl
  omega

/-- The exponent grows to the one that 53 bits ask for, and by one if the mantissa carries. -/
theorem roundWithAccuracy_exponent (s : UnpackedFloat.Sign) (m : Nat) (e : Int)
    (accuracy : UnpackedFloat.Accuracy) :
    ExponentAtMost (max e (max (totalExponent m e - 53) (-1074)) + 1)
      (UnpackedFloat.roundWithAccuracy .binary64 s m e accuracy) := by
  unfold UnpackedFloat.roundWithAccuracy
  rcases first : UnpackedFloat.shiftToTargetExponent .binary64 m e accuracy with ⟨em, e₁⟩
  have mantissa := shiftToTargetExponent_mantissa m e accuracy
  have exponent := shiftToTargetExponent_exponent m e accuracy
  rw [first] at mantissa exponent
  -- Rounding up may carry into one place more, and then the second shift is by one.
  have carried : em.roundedMantissa.log2 ≤ 53 := by
    apply log2_le_of_lt
    have := roundedMantissa_le em
    have : Nat.pow 2 53 + 1 < Nat.pow 2 (53 + 1) := by decide
    change em.mantissa < _ at mantissa
    omega
  have final := shiftToTargetExponent_exponent em.roundedMantissa e₁ .exact
  dsimp only at exponent ⊢
  by_cases zero : (UnpackedFloat.shiftToTargetExponent .binary64 em.roundedMantissa e₁
      .exact).1.mantissa = 0
  · rw [dif_pos zero]
    trivial
  · rw [dif_neg zero]
    change (UnpackedFloat.shiftToTargetExponent .binary64 em.roundedMantissa e₁ .exact).2 ≤ _
    have : totalExponent em.roundedMantissa e₁ = em.roundedMantissa.log2 + 1 + e₁ := rfl
    omega

end Rounding

section Packing

theorem isFinite_of_unpackExponent {b : BitVec 64}
    (h : @UnpackedFloat.unpackExponent .binary64 b ≠ -1#11) :
    (UnpackedFloat.unpack .binary64 b).isFinite = true := by
  unfold UnpackedFloat.unpack
  dsimp only
  rw [if_neg h]
  by_cases zeros : @UnpackedFloat.unpackExponent .binary64 b = 0#11
  · rw [if_pos zeros]
    by_cases zero : @UnpackedFloat.unpackMantissa .binary64 b = 0#52
    · rw [dif_pos zero]
      rfl
    · rw [dif_neg zero]
      rfl
  · rw [if_neg zeros]
    rfl

/-- The exponent field: the bias and the places of the fraction are added to the exponent. -/
def biased (e : Int) : Nat :=
  (e + 1075).toNat

theorem pack_finite (s : UnpackedFloat.Sign) (m : Nat) (e : Int) (positive : 0 < m) :
    UnpackedFloat.pack .binary64 (.finite s m e positive) =
      if 2048 ≤ biased e + 1 then UnpackedFloat.packedInfinity .binary64 s
      else if m.log2 + 1 = 53 then
        UnpackedFloat.packComponents .binary64 s (BitVec.ofNat 11 (biased e)) (BitVec.ofNat 52 m)
      else UnpackedFloat.packComponents .binary64 s 0#11 (BitVec.ofNat 52 m) := by
  have bias : e + Format.exponentBias .binary64 + (52 : Nat) = e + 1075 := by
    have : (Format.exponentBias .binary64 : Int) = 1023 := rfl
    omega
  rw [biased, ← bias]
  rfl

theorem unpackExponent_pack {u : UnpackedFloat} (small : ExponentAtMost 971 u) :
    @UnpackedFloat.unpackExponent .binary64 (UnpackedFloat.pack .binary64 u) ≠ -1#11 := by
  cases u with
  | infinity s => exact small.elim
  | notANumber => exact small.elim
  | zero s =>
      change @UnpackedFloat.unpackExponent .binary64 (UnpackedFloat.packComponents _ s 0 0) ≠ -1#11
      rw [UnpackedFloat.unpackExponent_packComponents]
      decide
  | finite s m e positive =>
      have inRange : biased e ≤ 2046 := by
        have : e ≤ 971 := small
        unfold biased
        omega
      rw [pack_finite]
      split
      · omega
      · split
        · rw [UnpackedFloat.unpackExponent_packComponents]
          intro ones
          have := congrArg BitVec.toNat ones
          rw [BitVec.toNat_ofNat] at this
          change biased e % 2048 = 2047 at this
          omega
        · rw [UnpackedFloat.unpackExponent_packComponents]
          decide

theorem isFinite_pack {u : UnpackedFloat} (small : ExponentAtMost 971 u) :
    (Float.Model.pack u).isFinite = true :=
  isFinite_of_unpackExponent (unpackExponent_pack small)

/-- A number that is too large is packed as an infinity. -/
theorem isFinite_or_isInf_pack {bound : Int} {u : UnpackedFloat} (h : ExponentAtMost bound u) :
    (Float.Model.pack u).isFinite = true ∨ (Float.Model.pack u).isInf = true := by
  cases u with
  | infinity s => exact h.elim
  | notANumber => exact h.elim
  | zero s => exact .inl (isFinite_pack trivial)
  | finite s m e positive =>
      by_cases small : e ≤ 971
      · exact .inl (isFinite_pack small)
      · right
        have overflow : 2048 ≤ biased e + 1 := by
          unfold biased
          omega
        change (UnpackedFloat.unpack .binary64 (UnpackedFloat.pack .binary64 _)).isInf = true
        rw [pack_finite, if_pos overflow]
        cases s <;> decide

/-- The mantissa and the exponent, if there are any, are those of a packed number. -/
def Fits : UnpackedFloat → Prop
  | .finite _ m e _ => m < Nat.pow 2 53 ∧ e ≤ 971
  | .zero _ => True
  | .infinity _ => True
  | .notANumber => True

theorem fits_unpack (b : BitVec 64) : Fits (UnpackedFloat.unpack .binary64 b) := by
  have bias : (Format.exponentBias .binary64 : Int) = 1023 := rfl
  have mantissa : (@UnpackedFloat.unpackMantissa .binary64 b).toNat < Nat.pow 2 52 := BitVec.isLt _
  have exponent : (@UnpackedFloat.unpackExponent .binary64 b).toNat < 2048 := BitVec.isLt _
  have wider : Nat.pow 2 52 < Nat.pow 2 53 := by decide
  unfold UnpackedFloat.unpack
  dsimp only
  by_cases ones : @UnpackedFloat.unpackExponent .binary64 b = -1#11
  · rw [if_pos ones]
    by_cases zero : @UnpackedFloat.unpackMantissa .binary64 b = 0#52
    · rw [if_pos zero]
      trivial
    · rw [if_neg zero]
      trivial
  · have notLast : (@UnpackedFloat.unpackExponent .binary64 b).toNat ≠ 2047 := by
      intro equal
      exact ones (BitVec.eq_of_toNat_eq equal)
    rw [if_neg ones]
    by_cases zeros : @UnpackedFloat.unpackExponent .binary64 b = 0#11
    · rw [if_pos zeros]
      by_cases zero : @UnpackedFloat.unpackMantissa .binary64 b = 0#52
      · rw [dif_pos zero]
        trivial
      · rw [dif_neg zero]
        refine ⟨Nat.lt_trans mantissa wider, ?_⟩
        rw [zeros, bias]
        decide
    · rw [if_neg zeros]
      refine ⟨BitVec.isLt _, ?_⟩
      rw [bias]
      change ((@UnpackedFloat.unpackExponent .binary64 b).toNat : Int) - (1023 + 52) ≤ 971
      omega

theorem isFinite_cases {u : UnpackedFloat} (finite : u.isFinite = true) :
    (∃ s, u = .zero s) ∨ ∃ s m e positive, u = .finite s m e positive := by
  cases u with
  | infinity s => cases finite
  | notANumber => cases finite
  | zero s => exact .inl ⟨s, rfl⟩
  | finite s m e positive => exact .inr ⟨s, m, e, positive, rfl⟩

end Packing

section Operations

theorem neg_exponent {u : UnpackedFloat} (finite : u.isFinite = true) (fits : Fits u) :
    ExponentAtMost 971 u.neg := by
  rcases isFinite_cases finite with ⟨s, rfl⟩ | ⟨s, m, e, positive, rfl⟩
  · trivial
  · exact fits.2

theorem isFinite_neg {f : Float} (finite : f.isFinite = true) : (-f).isFinite = true :=
  isFinite_pack (neg_exponent finite (fits_unpack _))

theorem normalize_exponent (n : UInt64) :
    ExponentAtMost 971 (UnpackedFloat.normalize .binary64 (n.toNat : Int) 0 .positive) := by
  unfold UnpackedFloat.normalize
  split
  · next negative =>
      have := Int.compare_eq_lt.1 negative
      omega
  · trivial
  · unfold UnpackedFloat.round UnpackedFloat.decreaseExponent
    dsimp only
    apply (roundWithAccuracy_exponent _ _ _ _).mono
    rw [targetExponent_binary64, Int.toNat_natCast]
    have width : n.toNat.log2 ≤ 63 := log2_le_of_lt n.toNat_lt
    have shifted := log2_shiftLeft_le n.toNat
      (0 - max (totalExponent n.toNat 0 - 53) (-1074)).toNat
    unfold totalExponent at shifted ⊢
    omega

theorem isFinite_toFloat (n : UInt64) : n.toFloat.isFinite = true :=
  isFinite_pack (normalize_exponent n)

theorem mul_exponent {u v : UnpackedFloat} (hu : u.isFinite = true) (hv : v.isFinite = true) :
    ∃ bound, ExponentAtMost bound (UnpackedFloat.mul .binary64 u v) := by
  rcases isFinite_cases hu with ⟨s, rfl⟩ | ⟨s, m, e, positive, rfl⟩ <;>
    rcases isFinite_cases hv with ⟨s', rfl⟩ | ⟨s', m', e', positive', rfl⟩
  case inr.inr => exact ⟨_, roundWithAccuracy_exponent _ _ _ _⟩
  all_goals exact ⟨0, trivial⟩

theorem isFinite_mul {f g : Float} (hf : f.isFinite = true) (hg : g.isFinite = true)
    (noOverflow : (f * g).isInf = false) : (f * g).isFinite = true := by
  obtain ⟨bound, product⟩ := mul_exponent hf hg
  rcases isFinite_or_isInf_pack product with finite | infinite
  · exact finite
  · exact Bool.noConfusion (noOverflow.symm.trans infinite)

/-- Whether a number has all 53 bits and is at least `8`. -/
def isLarge : UnpackedFloat → Bool
  | .finite _ m e _ => decide (Nat.pow 2 52 ≤ m) && decide (-49 ≤ e)
  | .zero _ => false
  | .infinity _ => false
  | .notANumber => false

theorem divCore_exponent {m₁ m₂ : Nat} {e₁ e₂ : Int} (dividend : m₁ < Nat.pow 2 53)
    (small : e₁ ≤ 971) (divisor : Nat.pow 2 52 ≤ m₂) (large : -49 ≤ e₂) :
    (UnpackedFloat.divCore .binary64 m₁ e₁ m₂ e₂).2.1 ≤ 967 ∧
    totalExponent (UnpackedFloat.divCore .binary64 m₁ e₁ m₂ e₂).1
      (UnpackedFloat.divCore .binary64 m₁ e₁ m₂ e₂).2.1 ≤ 1021 := by
  unfold UnpackedFloat.divCore
  dsimp only
  rw [targetExponent_binary64]
  have nonzero : m₂ ≠ 0 := Nat.ne_of_gt (Nat.lt_of_lt_of_le (by decide) divisor)
  have log₁ : m₁.log2 ≤ 52 := log2_le_of_lt dividend
  have log₂ : 52 ≤ m₂.log2 := (Nat.le_log2 nonzero).2 divisor
  -- The dividend ends below place 1025 and the divisor reaches place 4, so the quotient ends three
  -- places earlier than the dividend.
  have quotient := log2_shiftLeft_div_le
    (e₁ - e₂ - min (e₁ - e₂) (max (totalExponent m₁ e₁ - totalExponent m₂ e₂ - 53) (-1074))).toNat
    dividend divisor
  unfold totalExponent at quotient ⊢
  omega

theorem div_exponent {u v : UnpackedFloat} (hu : u.isFinite = true) (fits : Fits u)
    (large : isLarge v = true) : ExponentAtMost 971 (UnpackedFloat.div .binary64 u v) := by
  cases v with
  | infinity s => cases large
  | notANumber => cases large
  | zero s => cases large
  | finite s₂ m₂ e₂ positive₂ =>
      rcases isFinite_cases hu with ⟨s₁, rfl⟩ | ⟨s₁, m₁, e₁, positive₁, rfl⟩
      · trivial
      · have divisor := Bool.and_eq_true_iff.1 large
        have bounds := divCore_exponent fits.1 fits.2 (of_decide_eq_true divisor.1)
          (of_decide_eq_true divisor.2)
        have rounded := roundWithAccuracy_exponent (s₁ / s₂)
          (UnpackedFloat.divCore .binary64 m₁ e₁ m₂ e₂).1
          (UnpackedFloat.divCore .binary64 m₁ e₁ m₂ e₂).2.1
          (UnpackedFloat.divCore .binary64 m₁ e₁ m₂ e₂).2.2
        exact rounded.mono (by omega)

end Operations

theorem isLarge_powerOfTen :
    ∀ n : Fin largestPower, isLarge (powerOfTen (n.val + 1)).toModel.unpack = true := by
  decide +kernel

theorem isFinite_powerOfTen {n : Nat} (bounded : n ≤ largestPower) :
    (powerOfTen n).isFinite = true := by
  cases n with
  | zero => decide +kernel
  | succ n =>
      have large := isLarge_powerOfTen ⟨n, bounded⟩
      change (powerOfTen (n + 1)).toModel.unpack.isFinite = true
      cases unpacked : (powerOfTen (n + 1)).toModel.unpack with
      | finite s m e positive => rfl
      | zero s => rfl
      | infinity s => rw [unpacked] at large; cases large
      | notANumber => rw [unpacked] at large; cases large

theorem isFinite_div_powerOfTen {f : Float} {n : Nat} (finite : f.isFinite = true)
    (positive : 0 < n) (bounded : n ≤ largestPower) : (f / powerOfTen n).isFinite = true := by
  obtain ⟨k, rfl⟩ := Nat.exists_eq_add_one_of_ne_zero (Nat.ne_of_gt positive)
  exact isFinite_pack (div_exponent finite (fits_unpack _) (isLarge_powerOfTen ⟨k, bounded⟩))

theorem isFinite_scaleFrom (fuel : Nat) (f : Float) (exponent : Int) (finite : f.isFinite = true) :
    ∀ g ∈ scaleFrom fuel f exponent, g.isFinite = true := by
  induction fuel generalizing f exponent with
  | zero =>
      intro g hg
      cases hg
      exact finite
  | succ fuel ih =>
      intro g hg
      rw [scaleFrom] at hg
      split at hg
      · next bounded =>
          split at hg
          · dsimp only at hg
            split at hg
            · cases hg
            · next noOverflow =>
                cases hg
                exact isFinite_mul finite (isFinite_powerOfTen bounded)
                  (Bool.eq_false_iff.2 noOverflow)
          · cases hg
            exact isFinite_div_powerOfTen finite (by omega) bounded
      · split at hg
        · cases hg
          exact finite
        · split at hg
          · cases hg
          · exact ih _ _ (isFinite_div_powerOfTen finite (by decide) (by decide)) g hg

/-- A number that is read by the scaled rule is finite; a larger one is refused. -/
theorem isFinite_scaled? (significand : Nat) (exponent : Int) :
    ∀ f ∈ scaled? significand exponent, f.isFinite = true :=
  isFinite_scaleFrom _ _ _ (isFinite_toFloat _)

end SymbolExport.Decimal
