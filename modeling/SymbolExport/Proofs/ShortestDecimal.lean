import Mathlib.Algebra.Order.Field.Power
import Mathlib.Algebra.Order.Field.Rat
import Mathlib.Tactic.FieldSimp
import Mathlib.Tactic.Linarith
import Mathlib.Tactic.LinearCombination
import Mathlib.Tactic.Positivity
import Mathlib.Tactic.Ring
import SymbolExport.Proofs.IntegerLiterals

/-!
# Shortest decimals

The reals that round to a binary64 number form an interval around it. On a decimal grid the two
points next to the number decide whether the grid has a point inside. Grids are tried from the
coarsest on which the number has a digit; one that gives seventeen digits always has a point inside,
so the search ends, and what it finds has as few digits as any decimal that rounds to the number.
-/

namespace SymbolExport.Decimal

/-! ## Digits and their places -/

/-- The number `d1.d2d3...` of the digits `d1, d2, d3, ...`. -/
def placeValue : List Digit → ℚ
  | [] => 0
  | d :: ds => d.val + placeValue ds / 10

def Scientific.value (s : Scientific) : ℚ :=
  placeValue s.digits * 10 ^ s.exponent

/-- Of the decimals that are admitted one with the fewest digits, and of those a nearest to `x`. -/
structure Scientific.IsShortest (s : Scientific) (admits : Scientific → Prop) (x : ℚ) : Prop where
  admitted : admits s
  least : ∀ t, admits t → s.digits.length ≤ t.digits.length
  closest : ∀ t, admits t → t.digits.length = s.digits.length → |x - s.value| ≤ |x - t.value|
  atMost : s.digits.length ≤ 17
  first : ∃ d ds, s.digits = d :: ds ∧ d ≠ 0
  last : s.digits.getLast? ≠ some 0

theorem placeValue_append (ds es : List Digit) :
    placeValue (ds ++ es) = placeValue ds + placeValue es / 10 ^ ds.length := by
  induction ds with
  | nil => simp [placeValue]
  | cons d ds ih =>
      rw [List.cons_append, placeValue, placeValue, ih, List.length_cons, pow_succ]
      field_simp
      ring

theorem placeValue_zeros (k : Nat) : placeValue (List.replicate k 0) = 0 := by
  induction k with
  | zero => rfl
  | succ k ih =>
      rw [List.replicate_succ, placeValue, ih]
      simp

/-- Digits in front of the point: their number is ten times less than as many places say. -/
theorem ofDigits_mul_ten (ds : List Digit) :
    (ofDigits ds : ℚ) * 10 = placeValue ds * 10 ^ ds.length := by
  induction ds using List.reverseRecOn with
  | nil => simp [placeValue, ofDigits]
  | append_singleton ds d ih =>
      rw [ofDigits_append_singleton, placeValue_append, List.length_append, List.length_singleton,
        pow_succ]
      push_cast
      have place : placeValue [d] = d.val := by simp [placeValue]
      rw [place]
      have power : (10 : ℚ) ^ ds.length ≠ 0 := by positivity
      field_simp
      linarith

theorem ofDigits_lt (ds : List Digit) : ofDigits ds < 10 ^ ds.length := by
  induction ds using List.reverseRecOn with
  | nil => decide
  | append_singleton ds d ih =>
      rw [ofDigits_append_singleton, List.length_append, List.length_singleton, pow_succ]
      have := d.isLt
      omega

/-- A decimal is a multiple of the place of its last digit. -/
theorem Scientific.value_eq (s : Scientific) :
    s.value = ofDigits s.digits * 10 ^ (s.exponent + 1 - s.digits.length) := by
  have number := ofDigits_mul_ten s.digits
  have power : (10 : ℚ) ^ (s.exponent + 1 - s.digits.length) * 10 ^ s.digits.length =
      10 ^ s.exponent * 10 := by
    rw [← zpow_natCast, ← zpow_add₀ (by norm_num), ← zpow_add_one₀ (by norm_num)]
    congr 1
    omega
  rw [value]
  refine mul_right_cancel₀ (show (10 : ℚ) ^ s.digits.length * 10 ≠ 0 by positivity) ?_
  linear_combination (-(10 : ℚ) ^ s.exponent * 10) * number - (ofDigits s.digits : ℚ) * 10 * power

theorem digitsOf_length {n : Nat} (positive : 0 < n) :
    ∃ k, (digitsOf n).length = k + 1 ∧ 10 ^ k ≤ n ∧ n < 10 ^ (k + 1) := by
  fun_induction digitsOf n with
  | case1 n small => exact ⟨0, rfl, positive, small⟩
  | case2 n large ih =>
      obtain ⟨k, length, lower, upper⟩ := ih (by omega)
      refine ⟨k + 1, by simp [length], ?_, ?_⟩
      · rw [pow_succ]
        omega
      · rw [pow_succ]
        omega

theorem trimZeros_append_zero (ds : List Digit) : trimZeros (ds ++ [0]) = trimZeros ds := by
  rw [trimZeros, List.reverse_append]
  rfl

theorem trimZeros_append {d : Digit} (nonzero : d ≠ 0) (ds : List Digit) :
    trimZeros (ds ++ [d]) = ds ++ [d] := by
  rw [trimZeros, List.reverse_append, List.reverse_singleton, List.singleton_append,
    List.dropWhile_cons_of_neg (by simpa using nonzero), List.reverse_cons, List.reverse_reverse]

theorem exists_zeros (ds : List Digit) : ∃ k, ds = trimZeros ds ++ List.replicate k 0 := by
  induction ds using List.reverseRecOn with
  | nil => exact ⟨0, rfl⟩
  | append_singleton ds d ih =>
      by_cases zero : d = 0
      · obtain ⟨k, same⟩ := ih
        refine ⟨k + 1, ?_⟩
        rw [zero, trimZeros_append_zero, List.replicate_succ', ← List.append_assoc, ← same]
      · exact ⟨0, by rw [trimZeros_append zero, List.replicate_zero, List.append_nil]⟩

theorem getLast?_trimZeros (ds : List Digit) : (trimZeros ds).getLast? ≠ some 0 := by
  induction ds using List.reverseRecOn with
  | nil => decide
  | append_singleton ds d ih =>
      by_cases zero : d = 0
      · rw [zero, trimZeros_append_zero]
        exact ih
      · rw [trimZeros_append zero, List.getLast?_append, List.getLast?_singleton]
        simpa using zero

theorem length_trimZeros_le (ds : List Digit) : (trimZeros ds).length ≤ ds.length := by
  obtain ⟨k, same⟩ := exists_zeros ds
  have := congrArg List.length same
  rw [List.length_append] at this
  omega

/-! ## Points of a decimal grid -/

theorem zpow_mul_toNat {b : Nat} (positive : 0 < b) (z : Int) :
    (b : ℚ) ^ z * (Nat.pow b (-z).toNat : Nat) = (Nat.pow b z.toNat : Nat) := by
  have nonzero : (b : ℚ) ≠ 0 := by positivity
  show (b : ℚ) ^ z * ((b ^ (-z).toNat : Nat) : ℚ) = ((b ^ z.toNat : Nat) : ℚ)
  rw [Nat.cast_pow, Nat.cast_pow, ← zpow_natCast, ← zpow_natCast, ← zpow_add₀ nonzero]
  congr 1
  omega

theorem value_ofGrid (point : Nat) (step : Int) :
    (Scientific.ofGrid point step).value = point * 10 ^ step := by
  obtain ⟨k, zeros⟩ := exists_zeros (digitsOf point)
  have places : placeValue (digitsOf point) = placeValue (trimZeros (digitsOf point)) := by
    nth_rewrite 1 [zeros]
    rw [placeValue_append, placeValue_zeros]
    simp
  have number := ofDigits_mul_ten (digitsOf point)
  rw [ofDigits_digitsOf, places] at number
  have power : (10 : ℚ) ^ (step + ((digitsOf point).length : Int) - 1) =
      10 ^ step * 10 ^ (digitsOf point).length / 10 := by
    rw [zpow_sub₀ (by norm_num), zpow_add₀ (by norm_num), zpow_natCast, zpow_one]
  rw [Scientific.value, Scientific.ofGrid]
  simp only
  rw [power]
  field_simp
  linarith

theorem head?_ofGrid {point : Nat} (positive : 0 < point) (step : Int) :
    ∃ d ds, (Scientific.ofGrid point step).digits = d :: ds ∧ d ≠ 0 := by
  obtain ⟨d, ds, digits, zero⟩ := digitsOf_head point
  have nonzero : d ≠ 0 := by
    intro first
    have := zero (congrArg Fin.val first)
    omega
  obtain ⟨k, zeros⟩ := exists_zeros (digitsOf point)
  rw [digits] at zeros
  show ∃ d ds, trimZeros (digitsOf point) = d :: ds ∧ d ≠ 0
  rw [digits]
  cases trimmed : trimZeros (d :: ds) with
  | nil =>
      rw [trimmed, List.nil_append] at zeros
      have first : d ∈ List.replicate k 0 := zeros ▸ List.mem_cons_self
      exact absurd (List.eq_of_mem_replicate first) nonzero
  | cons e es =>
      rw [trimmed, List.cons_append] at zeros
      exact ⟨e, es, rfl, (List.cons.inj zeros).1 ▸ nonzero⟩

/-- A grid point of at most `used + 1` digits, or the next power of ten. -/
theorem ofGrid_digits {point used : Nat} (lower : 10 ^ used ≤ point)
    (upper : point ≤ 10 ^ (used + 1)) (step : Int) :
    (Scientific.ofGrid point step).digits.length ≤ used + 1 ∧
      step + used ≤ (Scientific.ofGrid point step).exponent ∧
      (Scientific.ofGrid point step).exponent ≤ step + used + 1 := by
  have positive : 0 < point := Nat.lt_of_lt_of_le (Nat.pow_pos (by decide)) lower
  obtain ⟨k, length, least, most⟩ := digitsOf_length positive
  have short := length_trimZeros_le (digitsOf point)
  show (trimZeros (digitsOf point)).length ≤ used + 1 ∧
    step + used ≤ step + ((digitsOf point).length : Int) - 1 ∧
    step + ((digitsOf point).length : Int) - 1 ≤ step + used + 1
  have low : used ≤ k := by
    have := Nat.lt_of_le_of_lt lower most
    have := (Nat.pow_lt_pow_iff_right (by decide)).mp this
    omega
  have high : k ≤ used + 1 := (Nat.pow_le_pow_iff_right (by decide)).mp (Nat.le_trans least upper)
  by_cases exact : k = used
  · refine ⟨?_, ?_, ?_⟩ <;> omega
  · -- The next power of ten has one digit more, but that is a zero.
    have power : point = 10 ^ (used + 1) := by
      have : k = used + 1 := by omega
      rw [this] at least
      omega
    have last : point % 10 = 0 := by
      rw [power, Nat.pow_succ]
      omega
    have large : ¬point < 10 := by
      rw [power, Nat.pow_succ]
      have := Nat.pow_pos (n := used) (show 0 < 10 by decide)
      omega
    have trimmed : trimZeros (digitsOf point) = trimZeros (digitsOf (point / 10)) := by
      rw [digitsOf, dif_neg large]
      have zero : (⟨point % 10, Nat.mod_lt point (by decide)⟩ : Digit) = 0 := Fin.ext last
      rw [zero, trimZeros_append_zero]
    have shorter : (digitsOf (point / 10)).length + 1 = (digitsOf point).length := by
      rw [digitsOf.eq_def point, dif_neg large, List.length_append, List.length_singleton]
    have := length_trimZeros_le (digitsOf (point / 10))
    rw [trimmed]
    refine ⟨?_, ?_, ?_⟩ <;> omega

/-! ## Intervals -/

/-- The exponent of the first digit puts the number between two powers of ten. -/
theorem leadingExponent_spec {value scale : Nat} (hv : 0 < value) (hs : 0 < scale) :
    (10 : ℚ) ^ leadingExponent value scale * scale ≤ value ∧
      (value : ℚ) < 10 ^ (leadingExponent value scale + 1) * scale := by
  unfold leadingExponent
  by_cases whole : scale ≤ value
  · rw [if_pos whole]
    obtain ⟨k, length, lower, upper⟩ := digitsOf_length (Nat.div_pos whole hs)
    have exponent : ((digitsOf (value / scale)).length : Int) - 1 = k := by omega
    rw [Nat.le_div_iff_mul_le hs] at lower
    rw [Nat.div_lt_iff_lt_mul hs] at upper
    rw [exponent, zpow_natCast]
    exact ⟨by exact_mod_cast lower, by exact_mod_cast upper⟩
  · rw [if_neg whole]
    have ratio : 0 < scale / value := Nat.div_pos (by omega) hv
    obtain ⟨k, length, lower, upper⟩ := digitsOf_length ratio
    rw [Nat.le_div_iff_mul_le hv] at lower
    rw [Nat.div_lt_iff_lt_mul hv] at upper
    have lower' : (10 : ℚ) ^ k * value ≤ scale := by exact_mod_cast lower
    have upper' : (scale : ℚ) < 10 ^ (k + 1) * value := by exact_mod_cast upper
    have positive : (0 : ℚ) < scale := by exact_mod_cast hs
    have power : (0 : ℚ) < 10 ^ k := by positivity
    rw [length]
    dsimp only
    rw [Nat.add_sub_cancel]
    split
    · next exact =>
        have exact' : (scale : ℚ) ≤ value * 10 ^ k := by exact_mod_cast exact
        have exponent : -(((k + 1 : Nat) : Int) - 1) = -(k : Int) := by omega
        rw [exponent, zpow_add₀ (by norm_num), zpow_neg, zpow_natCast, zpow_one]
        constructor
        · rw [inv_mul_le_iff₀ power]
          linarith
        · rw [mul_assoc, lt_inv_mul_iff₀ power]
          linarith
    · next more =>
        have more' : (value : ℚ) * 10 ^ k < scale := by exact_mod_cast Nat.lt_of_not_le more
        have exponent : -((k + 1 : Nat) : Int) + 1 = -(k : Int) := by omega
        rw [exponent, zpow_neg, zpow_neg, zpow_natCast, zpow_natCast]
        constructor
        · rw [inv_mul_le_iff₀ (by positivity)]
          exact upper'.le
        · rw [lt_inv_mul_iff₀ power]
          linarith

/-- The number lies strictly inside, and one part in `10^16` of it is less than the width. -/
structure Interval.Proper (i : Interval) : Prop where
  scaled : 0 < i.scale
  positive : 0 < i.low
  above : i.low < i.value
  below : i.value < i.high
  fine : i.value + 10 ^ 16 * i.low < 10 ^ 16 * i.high

def Interval.Contains (i : Interval) (x : ℚ) : Prop :=
  if i.closed then (i.low : ℚ) ≤ x * i.scale ∧ x * i.scale ≤ i.high
  else (i.low : ℚ) < x * i.scale ∧ x * i.scale < i.high

namespace Interval

variable {i : Interval}

def center (i : Interval) : ℚ :=
  i.value / i.scale

theorem Proper.center_mul (proper : i.Proper) : i.center * i.scale = i.value := by
  have : (i.scale : ℚ) ≠ 0 := by exact_mod_cast proper.scaled.ne'
  rw [center, div_mul_cancel₀ _ this]

theorem Proper.contains_center (proper : i.Proper) : i.Contains i.center := by
  have above : (i.low : ℚ) < i.value := by exact_mod_cast proper.above
  have below : (i.value : ℚ) < i.high := by exact_mod_cast proper.below
  unfold Contains
  rw [proper.center_mul]
  split
  · exact ⟨above.le, below.le⟩
  · exact ⟨above, below⟩

theorem Contains.between {x y z : ℚ} (left : i.Contains x) (right : i.Contains z) (xy : x ≤ y)
    (yz : y ≤ z) : i.Contains y := by
  have scale : (0 : ℚ) ≤ i.scale := Nat.cast_nonneg _
  have lower := mul_le_mul_of_nonneg_right xy scale
  have upper := mul_le_mul_of_nonneg_right yz scale
  unfold Contains at left right ⊢
  split
  · next closed =>
      rw [if_pos closed] at left right
      exact ⟨left.1.trans lower, upper.trans right.2⟩
  · next opened =>
      rw [if_neg opened] at left right
      exact ⟨left.1.trans_le lower, upper.trans_lt right.2⟩

theorem grid_pos (step : Int) : (0 : ℚ) < (Nat.pow 10 (-step).toNat : Nat) := by
  exact_mod_cast Nat.pow_pos (by decide)

theorem grid_eq (step : Int) :
    (10 : ℚ) ^ step * (Nat.pow 10 (-step).toNat : Nat) = (Nat.pow 10 step.toNat : Nat) :=
  zpow_mul_toNat (by decide) step

/-- The check on natural numbers decides whether a grid point lies inside. -/
theorem holds_iff (i : Interval) (point : Nat) (step : Int) :
    i.holds (point * Nat.pow 10 step.toNat) (Nat.pow 10 (-step).toNat) = true ↔
      i.Contains (point * 10 ^ step) := by
  have scaled : ((point * Nat.pow 10 step.toNat * i.scale : Nat) : ℚ) =
      point * 10 ^ step * i.scale * (Nat.pow 10 (-step).toNat : Nat) := by
    push_cast
    rw [← grid_eq]
    ring
  have atLeast (n : Nat) :
      n * Nat.pow 10 (-step).toNat ≤ point * Nat.pow 10 step.toNat * i.scale ↔
        (n : ℚ) ≤ point * 10 ^ step * i.scale := by
    rw [← Nat.cast_le (α := ℚ), scaled, Nat.cast_mul]
    exact mul_le_mul_iff_left₀ (grid_pos step)
  have atMost (n : Nat) :
      point * Nat.pow 10 step.toNat * i.scale ≤ n * Nat.pow 10 (-step).toNat ↔
        point * 10 ^ step * i.scale ≤ (n : ℚ) := by
    rw [← Nat.cast_le (α := ℚ), scaled, Nat.cast_mul]
    exact mul_le_mul_iff_left₀ (grid_pos step)
  unfold holds Contains
  dsimp only
  split
  · rw [Bool.and_eq_true, decide_eq_true_eq, decide_eq_true_eq, atLeast, atMost]
  · rw [Bool.and_eq_true, decide_eq_true_eq, decide_eq_true_eq, ← not_le, ← not_le, atLeast,
      atMost, not_le, not_le]

/-- The grid point below the number, or the number itself. -/
def gridFloor (i : Interval) (step : Int) : Nat :=
  i.value * Nat.pow 10 (-step).toNat / (i.scale * Nat.pow 10 step.toNat)

theorem Proper.gridFloor_spec (proper : i.Proper) (step : Int) :
    (i.gridFloor step : ℚ) * 10 ^ step ≤ i.center ∧
      i.center < ((i.gridFloor step + 1 : Nat) : ℚ) * 10 ^ step := by
  have scale : (0 : ℚ) < i.scale := by exact_mod_cast proper.scaled
  have up : 0 < i.scale * Nat.pow 10 step.toNat :=
    Nat.mul_pos proper.scaled (Nat.pow_pos (by decide))
  have lower : i.gridFloor step * (i.scale * Nat.pow 10 step.toNat) ≤
      i.value * Nat.pow 10 (-step).toNat := Nat.div_mul_le_self _ _
  have upper : i.value * Nat.pow 10 (-step).toNat <
      (i.gridFloor step + 1) * (i.scale * Nat.pow 10 step.toNat) :=
    (Nat.div_lt_iff_lt_mul up).mp (Nat.lt_succ_self _)
  rw [← Nat.cast_le (α := ℚ), Nat.cast_mul, Nat.cast_mul, Nat.cast_mul,
    ← grid_eq step] at lower
  rw [← Nat.cast_lt (α := ℚ), Nat.cast_mul, Nat.cast_mul, Nat.cast_mul,
    ← grid_eq step] at upper
  have down := grid_pos step
  rw [center, le_div_iff₀ scale, div_lt_iff₀ scale]
  constructor
  · refine le_of_mul_le_mul_right ?_ down
    linarith
  · refine lt_of_mul_lt_mul_right ?_ down.le
    linarith

variable {tie : Tie} {step : Int}

theorem Proper.half_way (proper : i.Proper) (step : Int) (n : Nat) :
    (2 * i.value * Nat.pow 10 (-step).toNat ≤ n * Nat.pow 10 step.toNat * i.scale →
      2 * i.center ≤ n * 10 ^ step) ∧
    (n * Nat.pow 10 step.toNat * i.scale ≤ 2 * i.value * Nat.pow 10 (-step).toNat →
      n * 10 ^ step ≤ 2 * i.center) := by
  have scale : (0 : ℚ) < i.scale := by exact_mod_cast proper.scaled
  have down := grid_pos step
  have value := proper.center_mul
  have up := grid_eq step
  have positive : (0 : ℚ) < (Nat.pow 10 (-step).toNat : Nat) * i.scale := mul_pos down scale
  rw [← Nat.cast_le (α := ℚ), ← Nat.cast_le (α := ℚ)]
  simp only [Nat.cast_mul, Nat.cast_ofNat]
  rw [← up, ← value]
  constructor
  · intro le
    refine le_of_mul_le_mul_right ?_ positive
    linarith
  · intro le
    refine le_of_mul_le_mul_right ?_ positive
    linarith

/-- The point found is next to the number and inside, and the nearer one if both are. -/
theorem Proper.nearest?_some (proper : i.Proper) {point : Nat}
    (found : i.nearest? tie step = some point) :
    i.Contains (point * 10 ^ step) ∧
      (point = i.gridFloor step ∧ (i.Contains ((i.gridFloor step + 1 : Nat) * 10 ^ step) →
        2 * i.center ≤ (2 * i.gridFloor step + 1 : Nat) * 10 ^ step) ∨
      point = i.gridFloor step + 1 ∧ (i.Contains (i.gridFloor step * 10 ^ step) →
        (2 * i.gridFloor step + 1 : Nat) * 10 ^ step ≤ 2 * i.center)) := by
  obtain ⟨lower, upper⟩ := proper.half_way step (2 * i.gridFloor step + 1)
  rw [← holds_iff, ← holds_iff, ← holds_iff]
  unfold nearest? at found
  dsimp only at found
  unfold gridFloor at lower upper ⊢
  split at found
  · cases found
  · next below above =>
      cases found
      refine ⟨below, .inl ⟨rfl, fun inside => ?_⟩⟩
      rw [above] at inside
      cases inside
  · next below above =>
      cases found
      refine ⟨above, .inr ⟨rfl, fun inside => ?_⟩⟩
      rw [below] at inside
      cases inside
  · next below above =>
      split at found
      · next less =>
          cases found
          exact ⟨below, .inl ⟨rfl, fun _ => lower less.le⟩⟩
      · next notLess =>
          split at found
          · next more =>
              cases found
              exact ⟨above, .inr ⟨rfl, fun _ => upper more.le⟩⟩
          · next notMore =>
              cases tie with
              | up =>
                  cases found
                  exact ⟨above, .inr ⟨rfl, fun _ => upper (Nat.le_of_not_lt notLess)⟩⟩
              | toEven =>
                  cases found
                  split
                  · exact ⟨below, .inl ⟨rfl, fun _ => lower (Nat.le_of_not_lt notMore)⟩⟩
                  · exact ⟨above, .inr ⟨rfl, fun _ => upper (Nat.le_of_not_lt notLess)⟩⟩

theorem nearest?_none (none : i.nearest? tie step = none) :
    ¬i.Contains (i.gridFloor step * 10 ^ step) ∧
      ¬i.Contains ((i.gridFloor step + 1 : Nat) * 10 ^ step) := by
  rw [← holds_iff, ← holds_iff]
  unfold nearest? at none
  dsimp only at none
  split at none
  · next below above => exact ⟨by rw [gridFloor, below]; decide, by rw [gridFloor, above]; decide⟩
  · cases none
  · cases none
  · split at none
    · cases none
    · split at none
      · cases none
      · cases tie <;> cases none

/-- Where the two points next to the number lie outside, all points of the grid do. -/
theorem Proper.no_grid_point (proper : i.Proper) (none : i.nearest? tie step = none) (point : Nat) :
    ¬i.Contains (point * 10 ^ step) := by
  intro inside
  obtain ⟨below, above⟩ := nearest?_none none
  obtain ⟨lower, upper⟩ := proper.gridFloor_spec step
  have power : (0 : ℚ) ≤ 10 ^ step := by positivity
  by_cases left : point ≤ i.gridFloor step
  · have order : (point : ℚ) * 10 ^ step ≤ i.gridFloor step * 10 ^ step :=
      mul_le_mul_of_nonneg_right (by exact_mod_cast left) power
    exact below (inside.between proper.contains_center order lower)
  · have order : ((i.gridFloor step + 1 : Nat) : ℚ) * 10 ^ step ≤ point * 10 ^ step :=
      mul_le_mul_of_nonneg_right (by exact_mod_cast Nat.lt_of_not_le left) power
    exact above (proper.contains_center.between inside upper.le order)

/-- No point of the grid inside is nearer to the number than the one found. -/
theorem Proper.nearest?_closest (proper : i.Proper) {point : Nat}
    (found : i.nearest? tie step = some point) {other : Nat}
    (inside : i.Contains (other * 10 ^ step)) :
    |i.center - point * 10 ^ step| ≤ |i.center - other * 10 ^ step| := by
  obtain ⟨lower, upper⟩ := proper.gridFloor_spec step
  have power : (0 : ℚ) ≤ 10 ^ step := by positivity
  have middle : (((2 * i.gridFloor step + 1 : Nat) : ℚ)) * 10 ^ step =
      i.gridFloor step * 10 ^ step + (i.gridFloor step + 1 : Nat) * 10 ^ step := by
    push_cast
    ring
  obtain ⟨-, choice⟩ := proper.nearest?_some found
  rw [middle] at choice
  by_cases left : other ≤ i.gridFloor step
  · have order : (other : ℚ) * 10 ^ step ≤ i.gridFloor step * 10 ^ step :=
      mul_le_mul_of_nonneg_right (by exact_mod_cast left) power
    rw [abs_of_nonneg (show 0 ≤ i.center - other * 10 ^ step by linarith)]
    rcases choice with ⟨rfl, -⟩ | ⟨rfl, nearer⟩
    · rw [abs_of_nonneg (by linarith)]
      linarith
    · have := nearer (inside.between proper.contains_center order lower)
      rw [abs_of_nonpos (by linarith)]
      linarith
  · have order : ((i.gridFloor step + 1 : Nat) : ℚ) * 10 ^ step ≤ other * 10 ^ step :=
      mul_le_mul_of_nonneg_right (by exact_mod_cast Nat.lt_of_not_le left) power
    rw [abs_of_nonpos (show i.center - other * 10 ^ step ≤ 0 by linarith)]
    rcases choice with ⟨rfl, nearer⟩ | ⟨rfl, -⟩
    · have := nearer (proper.contains_center.between inside upper.le order)
      rw [abs_of_nonneg (by linarith)]
      linarith
    · rw [abs_of_nonpos (by linarith)]
      linarith

theorem Proper.low_of_not_contains (proper : i.Proper) {x : ℚ} (le : x ≤ i.center)
    (outside : ¬i.Contains x) : x * i.scale ≤ i.low := by
  have scale : (0 : ℚ) ≤ i.scale := Nat.cast_nonneg _
  have upper := mul_le_mul_of_nonneg_right le scale
  have below : (i.value : ℚ) < i.high := by exact_mod_cast proper.below
  rw [proper.center_mul] at upper
  by_contra inside
  rw [not_le] at inside
  refine outside ?_
  unfold Contains
  split
  · exact ⟨inside.le, by linarith⟩
  · exact ⟨inside, by linarith⟩

theorem Proper.high_of_not_contains (proper : i.Proper) {x : ℚ} (le : i.center ≤ x)
    (outside : ¬i.Contains x) : i.high ≤ x * i.scale := by
  have scale : (0 : ℚ) ≤ i.scale := Nat.cast_nonneg _
  have lower := mul_le_mul_of_nonneg_right le scale
  have above : (i.low : ℚ) < i.value := by exact_mod_cast proper.above
  rw [proper.center_mul] at lower
  by_contra inside
  rw [not_le] at inside
  refine outside ?_
  unfold Contains
  split
  · exact ⟨by linarith, inside.le⟩
  · exact ⟨by linarith, inside⟩

def lead (i : Interval) : Int :=
  leadingExponent i.value i.scale

theorem Proper.lead_spec (proper : i.Proper) :
    (10 : ℚ) ^ i.lead ≤ i.center ∧ i.center < 10 ^ (i.lead + 1) := by
  have scale : (0 : ℚ) < i.scale := by exact_mod_cast proper.scaled
  obtain ⟨lower, upper⟩ := leadingExponent_spec (proper.positive.trans proper.above) proper.scaled
  rw [center, le_div_iff₀ scale, div_lt_iff₀ scale]
  exact ⟨lower, upper⟩

/-- On the grid with `used` more digits than one the number has as many digits. -/
theorem Proper.gridFloor_digits (proper : i.Proper) (used : Nat) :
    10 ^ used ≤ i.gridFloor (i.lead - used) ∧ i.gridFloor (i.lead - used) < 10 ^ (used + 1) := by
  obtain ⟨lower, upper⟩ := proper.lead_spec
  obtain ⟨below, above⟩ := proper.gridFloor_spec (i.lead - used)
  have power : (0 : ℚ) < 10 ^ (i.lead - used) := by positivity
  have leading : (10 : ℚ) ^ i.lead = 10 ^ used * 10 ^ (i.lead - used) := by
    rw [← zpow_natCast, ← zpow_add₀ (by norm_num)]
    congr 1
    omega
  have next : (10 : ℚ) ^ (i.lead + 1) = 10 ^ (used + 1) * 10 ^ (i.lead - used) := by
    rw [zpow_add₀ (by norm_num), leading, pow_succ, zpow_one]
    ring
  constructor
  · have reached : (10 : ℚ) ^ used * 10 ^ (i.lead - used) <
        ((i.gridFloor (i.lead - used) + 1 : Nat) : ℚ) * 10 ^ (i.lead - used) := by
      rw [← leading]
      exact lower.trans_lt above
    have := lt_of_mul_lt_mul_right reached power.le
    exact Nat.lt_succ_iff.mp (by exact_mod_cast this)
  · have bounded : (i.gridFloor (i.lead - used) : ℚ) * 10 ^ (i.lead - used) <
        10 ^ (used + 1) * 10 ^ (i.lead - used) := by
      rw [← next]
      exact below.trans_lt upper
    exact_mod_cast lt_of_mul_lt_mul_right bounded power.le

/-- Seventeen digits always suffice: the grid is finer than the interval is wide. -/
theorem Proper.nearest?_seventeen (proper : i.Proper) (tie : Tie) :
    i.nearest? tie (i.lead - 16) ≠ none := by
  intro none
  obtain ⟨outside, outside'⟩ := nearest?_none none
  obtain ⟨below, above⟩ := proper.gridFloor_spec (i.lead - 16)
  have low := proper.low_of_not_contains below outside
  have high := proper.high_of_not_contains above.le outside'
  have scale : (0 : ℚ) < i.scale := by exact_mod_cast proper.scaled
  have lower := mul_le_mul_of_nonneg_right proper.lead_spec.1 scale.le
  have leading : (10 : ℚ) ^ i.lead = 10 ^ 16 * 10 ^ (i.lead - 16) := by
    rw [zpow_sub₀ (by norm_num)]
    norm_num
    ring
  have fine : (i.value : ℚ) + 10 ^ 16 * i.low < 10 ^ 16 * i.high := by exact_mod_cast proper.fine
  rw [proper.center_mul, leading] at lower
  push_cast at high
  linarith

/-! ## The search -/

/-- The search stops at the first grid with a point inside. -/
theorem shortestFrom_spec (tie : Tie) (lead : Int) (last : Nat)
    (found : i.nearest? tie (lead - last) ≠ none) (count used : Nat) (le : used ≤ last)
    (within : last < used + count) :
    ∃ j point, used ≤ j ∧ j ≤ last ∧ i.nearest? tie (lead - j) = some point ∧
      shortestFrom i tie lead count used = Scientific.ofGrid point (lead - j) ∧
      ∀ k, used ≤ k → k < j → i.nearest? tie (lead - k) = none := by
  induction count generalizing used with
  | zero => omega
  | succ count ih =>
      cases here : i.nearest? tie (lead - used) with
      | some point =>
          refine ⟨used, point, Nat.le_refl _, le, here, ?_, by omega⟩
          rw [shortestFrom]
          simp only [here]
      | none =>
          have more : used + 1 ≤ last := by
            by_contra reached
            have : used = last := by omega
            exact found (this ▸ here)
          obtain ⟨j, point, started, ended, hit, result, before⟩ := ih (used + 1) more (by omega)
          refine ⟨j, point, by omega, ended, hit, ?_, fun k lower upper => ?_⟩
          · rw [shortestFrom]
            simp only [here]
            exact result
          · by_cases start : k = used
            · exact start ▸ here
            · exact before k (by omega) upper

theorem Proper.pos_of_contains (proper : i.Proper) {x : ℚ} (inside : i.Contains x) : 0 < x := by
  have scale : (0 : ℚ) < i.scale := by exact_mod_cast proper.scaled
  have low : (0 : ℚ) < i.low := by exact_mod_cast proper.positive
  have least : (i.low : ℚ) ≤ x * i.scale := by
    unfold Contains at inside
    split at inside
    · exact inside.1
    · exact inside.1.le
  exact pos_of_mul_pos_left (low.trans_le least) scale.le

/--
A decimal of few digits inside has a grid point at its place or between it and the number: either
its last digit stands on the grid, or it is less than the power of ten that the number starts with.
-/
theorem Proper.exists_grid_point (proper : i.Proper) {t : Scientific} (inside : i.Contains t.value)
    (used : Nat) (few : t.digits.length ≤ used + 1) :
    ∃ point : Nat, i.Contains (point * 10 ^ (i.lead - used)) ∧
      |i.center - point * 10 ^ (i.lead - used)| ≤ |i.center - t.value| := by
  have small : (ofDigits t.digits : ℚ) ≤ 10 ^ t.digits.length := by
    exact_mod_cast (ofDigits_lt t.digits).le
  rw [t.value_eq] at inside ⊢
  generalize last : t.exponent + 1 - (t.digits.length : Int) = place at inside ⊢
  by_cases coarse : i.lead - used ≤ place
  · obtain ⟨n, apart⟩ := Int.eq_ofNat_of_zero_le (Int.sub_nonneg_of_le coarse)
    have power : (10 : ℚ) ^ place = (10 ^ n : Nat) * 10 ^ (i.lead - used) := by
      rw [Nat.cast_pow, ← zpow_natCast, Nat.cast_ofNat, ← zpow_add₀ (by norm_num)]
      congr 1
      omega
    refine ⟨ofDigits t.digits * 10 ^ n, ?_⟩
    rw [Nat.cast_mul, mul_assoc, ← power]
    exact ⟨inside, le_refl _⟩
  · have leading : (10 : ℚ) ^ i.lead = (10 ^ used : Nat) * 10 ^ (i.lead - used) := by
      rw [Nat.cast_pow, ← zpow_natCast, Nat.cast_ofNat, ← zpow_add₀ (by norm_num)]
      congr 1
      omega
    have less : (ofDigits t.digits : ℚ) * 10 ^ place ≤ 10 ^ i.lead := by
      calc
        (ofDigits t.digits : ℚ) * 10 ^ place ≤ 10 ^ t.digits.length * 10 ^ place :=
          mul_le_mul_of_nonneg_right small (by positivity)
        _ = 10 ^ ((t.digits.length : Int) + place) := by
          rw [← zpow_natCast, ← zpow_add₀ (by norm_num)]
        _ ≤ 10 ^ i.lead := zpow_le_zpow_right₀ (by norm_num) (by omega)
    have below := proper.lead_spec.1
    refine ⟨10 ^ used, ?_⟩
    rw [← leading, abs_of_nonneg (by linarith), abs_of_nonneg (by linarith)]
    exact ⟨inside.between proper.contains_center less below, by linarith⟩

/-- No decimal with fewer digits than the first grid with a point inside lies inside. -/
theorem Proper.digits_le (proper : i.Proper) {used : Nat}
    (before : ∀ k, k < used → i.nearest? tie (i.lead - k) = none) {t : Scientific}
    (inside : i.Contains t.value) : used < t.digits.length := by
  by_contra few
  cases used with
  | zero =>
      have positive := proper.pos_of_contains inside
      have empty : t.digits = [] := List.length_eq_zero_iff.mp (by omega)
      rw [Scientific.value, empty, placeValue, zero_mul] at positive
      exact lt_irrefl _ positive
  | succ k =>
      obtain ⟨point, contained, -⟩ := proper.exists_grid_point inside k (by omega)
      exact proper.no_grid_point (before k (by omega)) point contained

theorem Proper.shortest (proper : i.Proper) (tie : Tie) :
    (shortestFrom i tie i.lead 17 0).IsShortest (fun t => i.Contains t.value) i.center ∧
      i.lead ≤ (shortestFrom i tie i.lead 17 0).exponent ∧
      (shortestFrom i tie i.lead 17 0).exponent ≤ i.lead + 1 := by
  obtain ⟨used, point, -, few, hit, result, before⟩ :=
    shortestFrom_spec tie i.lead 16 (proper.nearest?_seventeen tie) 17 0 (by decide) (by decide)
  obtain ⟨inside, choice⟩ := proper.nearest?_some hit
  obtain ⟨lower, upper⟩ := proper.gridFloor_digits used
  have next : point = i.gridFloor (i.lead - used) ∨ point = i.gridFloor (i.lead - used) + 1 :=
    choice.imp And.left And.left
  have least : 10 ^ used ≤ point := by omega
  have most : point ≤ 10 ^ (used + 1) := by omega
  obtain ⟨short, low, high⟩ := ofGrid_digits least most (i.lead - used)
  rw [result]
  refine ⟨⟨?_, ?_, ?_, ?_, ?_, ?_⟩, ?_, ?_⟩
  · rw [value_ofGrid]
    exact inside
  · intro t contained
    have := proper.digits_le (fun k less => before k (Nat.zero_le _) less) contained
    omega
  · intro t contained length
    obtain ⟨other, there, nearer⟩ := proper.exists_grid_point contained used (by omega)
    rw [value_ofGrid]
    exact (proper.nearest?_closest hit there).trans nearer
  · omega
  · exact head?_ofGrid (Nat.lt_of_lt_of_le (Nat.pow_pos (by decide)) least) _
  · exact getLast?_trimZeros _
  · omega
  · omega

end Interval

/-! ## Binary numbers -/

namespace Binary

/-- The mantissa has 53 bits, or fewer if the exponent is the least one. -/
structure Proper (b : Binary) : Prop where
  positive : 0 < b.mantissa
  bounded : b.mantissa < 2 ^ 53
  normal : -1074 < b.exponent → 2 ^ 52 ≤ b.mantissa
  least : -1074 ≤ b.exponent
  greatest : b.exponent ≤ 971
  gap : b.halfGapBelow = true ↔ b.mantissa = 2 ^ 52 ∧ -1074 < b.exponent

def value (b : Binary) : ℚ :=
  b.mantissa * 2 ^ b.exponent

/-- Half way to the next smaller number. -/
def lower (b : Binary) : ℚ :=
  (b.mantissa - (if b.halfGapBelow then 1 / 4 else 1 / 2)) * 2 ^ b.exponent

/-- Half way to the next larger number. -/
def upper (b : Binary) : ℚ :=
  (b.mantissa + 1 / 2) * 2 ^ b.exponent

/-- A real goes to the nearest number; half way it goes to the one with an even mantissa. -/
def Rounds (b : Binary) (x : ℚ) : Prop :=
  if b.mantissa % 2 = 0 then b.lower ≤ x ∧ x ≤ b.upper else b.lower < x ∧ x < b.upper

variable {b : Binary}

theorem scale_pos (b : Binary) : (0 : ℚ) < b.interval.scale := by
  exact_mod_cast Nat.pow_pos (show 0 < 2 by decide)

theorem quarter_mul_scale (b : Binary) :
    (2 : ℚ) ^ b.exponent * b.interval.scale = 4 * (Nat.pow 2 (b.exponent - 2).toNat : Nat) := by
  have factor := zpow_mul_toNat (show 0 < 2 by decide) (b.exponent - 2)
  have power : (2 : ℚ) ^ b.exponent = 4 * 2 ^ (b.exponent - 2) := by
    rw [zpow_sub₀ (by norm_num)]
    norm_num
    ring
  rw [← factor, power]
  show 4 * 2 ^ (b.exponent - 2) * ((Nat.pow 2 (-(b.exponent - 2)).toNat : Nat) : ℚ) = _
  push_cast
  ring

theorem value_mul_scale (b : Binary) : b.value * b.interval.scale = b.interval.value := by
  rw [value, mul_assoc, quarter_mul_scale]
  show _ = ((4 * b.mantissa * Nat.pow 2 (b.exponent - 2).toNat : Nat) : ℚ)
  push_cast
  ring

theorem upper_mul_scale (b : Binary) : b.upper * b.interval.scale = b.interval.high := by
  rw [upper, mul_assoc, quarter_mul_scale]
  show _ = (((4 * b.mantissa + 2) * Nat.pow 2 (b.exponent - 2).toNat : Nat) : ℚ)
  push_cast
  ring

theorem Proper.lower_mul_scale (proper : b.Proper) :
    b.lower * b.interval.scale = b.interval.low := by
  have positive := proper.positive
  rw [lower, mul_assoc, quarter_mul_scale]
  show _ = (((4 * b.mantissa - (if b.halfGapBelow then 1 else 2)) *
    Nat.pow 2 (b.exponent - 2).toNat : Nat) : ℚ)
  rw [Nat.cast_mul, Nat.cast_sub (by split <;> omega)]
  split
  all_goals
    push_cast
    ring

theorem Proper.contains_iff (proper : b.Proper) (x : ℚ) : b.interval.Contains x ↔ b.Rounds x := by
  have scale := b.scale_pos
  have closed : b.interval.closed = true ↔ b.mantissa % 2 = 0 := beq_iff_eq
  unfold Interval.Contains Rounds
  rw [← proper.lower_mul_scale, ← upper_mul_scale]
  by_cases even : b.mantissa % 2 = 0
  · rw [if_pos even, if_pos (closed.mpr even), mul_le_mul_iff_left₀ scale,
      mul_le_mul_iff_left₀ scale]
  · rw [if_neg even, if_neg (mt closed.mp even), mul_lt_mul_iff_left₀ scale,
      mul_lt_mul_iff_left₀ scale]

theorem center_interval (b : Binary) : b.interval.center = b.value := by
  rw [Interval.center, ← value_mul_scale, mul_div_cancel_right₀ _ b.scale_pos.ne']

theorem Proper.interval (proper : b.Proper) : b.interval.Proper := by
  obtain ⟨mantissa, exponent, halfGapBelow⟩ := b
  obtain ⟨positive, bounded, -, -, -, gap⟩ := proper
  dsimp only at positive bounded gap
  have factor : 0 < Nat.pow 2 (exponent - 2).toNat := Nat.pow_pos (by decide)
  have least : 0 < 4 * mantissa - (if halfGapBelow then 1 else 2) := by split <;> omega
  constructor
  · exact Nat.pow_pos (by decide)
  · exact Nat.mul_pos least factor
  · refine Nat.mul_lt_mul_of_pos_right ?_ factor
    show 4 * mantissa - (if halfGapBelow then 1 else 2) < 4 * mantissa
    split <;> omega
  · refine Nat.mul_lt_mul_of_pos_right ?_ factor
    show 4 * mantissa < 4 * mantissa + 2
    omega
  · -- The width is at least three quarters of a gap, and the mantissa then a power of two.
    have wide : 4 * mantissa + 10 ^ 16 * (4 * mantissa - (if halfGapBelow then 1 else 2)) <
        10 ^ 16 * (4 * mantissa + 2) := by
      split
      · next half =>
          have := (gap.mp half).1
          omega
      · omega
    have scaled := Nat.mul_lt_mul_of_pos_right wide factor
    rw [Nat.add_mul, Nat.mul_assoc (10 ^ 16), Nat.mul_assoc (10 ^ 16)] at scaled
    exact scaled

theorem two_pow_le : (2 : ℚ) ^ 1080 ≤ 10 ^ 360 := by
  have power : ((2 : ℚ) ^ 9) ^ 120 ≤ (10 ^ 3) ^ 120 :=
    pow_le_pow_left₀ (by norm_num) (by norm_num) 120
  rw [← pow_mul, ← pow_mul] at power
  exact power

/-- All numbers lie well within `10^-360` and `10^360`. -/
theorem Proper.value_bounds (proper : b.Proper) :
    (10 : ℚ) ^ (-360 : Int) * 2 ≤ b.value ∧ b.value * 2 ≤ 10 ^ (360 : Int) := by
  have positive : (1 : ℚ) ≤ b.mantissa := by exact_mod_cast proper.positive
  have bounded : (b.mantissa : ℚ) ≤ 2 ^ (53 : Int) := by exact_mod_cast proper.bounded.le
  have power : (0 : ℚ) < 2 ^ b.exponent := by positivity
  have wide : (2 : ℚ) ^ (1080 : Int) ≤ 10 ^ (360 : Int) := two_pow_le
  constructor
  · calc
      (10 : ℚ) ^ (-360 : Int) * 2 ≤ 2 ^ (-1080 : Int) * 2 ^ (1 : Int) := by
        rw [zpow_neg, zpow_neg, zpow_one]
        gcongr
      _ ≤ 2 ^ b.exponent := by
        rw [← zpow_add₀ (by norm_num)]
        exact zpow_le_zpow_right₀ (by norm_num) (by have := proper.least; omega)
      _ ≤ b.value := le_mul_of_one_le_left power.le positive
  · calc
      b.value * 2 ≤ 2 ^ (53 : Int) * 2 ^ b.exponent * 2 ^ (1 : Int) := by
        rw [value, zpow_one]
        gcongr
      _ ≤ 2 ^ (1080 : Int) := by
        rw [← zpow_add₀ (by norm_num), ← zpow_add₀ (by norm_num)]
        exact zpow_le_zpow_right₀ (by norm_num) (by have := proper.greatest; omega)
      _ ≤ 10 ^ (360 : Int) := wide

theorem Proper.lead_bounds (proper : b.Proper) :
    -360 ≤ b.interval.lead ∧ b.interval.lead ≤ 360 := by
  obtain ⟨lower, upper⟩ := proper.interval.lead_spec
  obtain ⟨least, most⟩ := proper.value_bounds
  rw [center_interval] at lower upper
  have power : (0 : ℚ) < 10 ^ (-360 : Int) := by positivity
  have low : (10 : ℚ) ^ (-360 : Int) < 10 ^ (b.interval.lead + 1) := by linarith
  have double : b.value ≤ b.value * 2 := by linarith
  have high : (10 : ℚ) ^ b.interval.lead ≤ 10 ^ (360 : Int) := (lower.trans double).trans most
  rw [zpow_lt_zpow_iff_right₀ (by norm_num)] at low
  rw [zpow_le_zpow_iff_right₀ (by norm_num)] at high
  omega

end Binary

/-- The shortest decimal of a number; its exponent has at most three digits. -/
theorem Binary.Proper.shortest {b : Binary} (proper : b.Proper) (tie : Tie) :
    (b.shortest tie).IsShortest (fun t => b.Rounds t.value) b.value ∧
      (b.shortest tie).exponent.natAbs ≤ 999 := by
  obtain ⟨shortest, low, high⟩ := proper.interval.shortest tie
  have bounds := proper.lead_bounds
  simp only [proper.contains_iff, center_interval] at shortest
  refine ⟨shortest, ?_⟩
  show (shortestFrom b.interval tie b.interval.lead 17 0).exponent.natAbs ≤ 999
  omega

end SymbolExport.Decimal
