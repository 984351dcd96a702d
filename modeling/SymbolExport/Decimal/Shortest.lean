import SymbolExport.Decimal.Digits

/-!
# Shortest decimal of a binary64 number

A finite positive binary64 number is `mantissa * 2^exponent`. The reals that round to it form an
interval, whose ends belong to it exactly when the mantissa is even. The shortest decimal is the
one with the fewest significant digits in that interval, and among those the nearest to the number;
of two equally near ones the caller says which.
-/

namespace SymbolExport.Decimal

/-- A positive finite binary64 number `mantissa * 2^exponent`. -/
structure Binary where
  mantissa : Nat
  exponent : Int
  /-- The gap to the next smaller number is half the gap to the next larger one. -/
  halfGapBelow : Bool
deriving DecidableEq, Repr

/-- The parts of a positive finite number, from the bits that follow its sign. -/
def Binary.ofBits (bits : UInt64) : Binary :=
  let fraction := bits.toNat % Nat.pow 2 52
  let biased : Nat := bits.toNat / Nat.pow 2 52 % Nat.pow 2 11
  if biased = 0 then
    { mantissa := fraction, exponent := -1074, halfGapBelow := false }
  else
    { mantissa := fraction + Nat.pow 2 52, exponent := (biased : Int) - 1075,
      halfGapBelow := fraction == 0 && decide (1 < biased) }

/-- Which way a decimal goes that lies exactly between two neighbours. -/
inductive Tie where
  | up
  | toEven
deriving DecidableEq, Repr

/--
The rounding interval over a common denominator: every real between `low / scale` and
`high / scale` rounds to `value / scale`, and the ends do so too if `closed`.
-/
structure Interval where
  low : Nat
  value : Nat
  high : Nat
  scale : Nat
  closed : Bool
deriving DecidableEq, Repr

def Binary.interval (b : Binary) : Interval :=
  let quarter : Int := b.exponent - 2
  let factor := Nat.pow 2 quarter.toNat
  { low := (4 * b.mantissa - (if b.halfGapBelow then 1 else 2)) * factor
    value := 4 * b.mantissa * factor
    high := (4 * b.mantissa + 2) * factor
    scale := Nat.pow 2 (-quarter).toNat
    closed := b.mantissa % 2 == 0 }

def Interval.holds (i : Interval) (numerator denominator : Nat) : Bool :=
  let low := i.low * denominator
  let high := i.high * denominator
  let point := numerator * i.scale
  if i.closed then low ≤ point && point ≤ high else low < point && point < high

/-- The exponent of the first significant digit of `value / scale`, for positive parts. -/
def leadingExponent (value scale : Nat) : Int :=
  if scale ≤ value then
    ((digitsOf (value / scale)).length : Int) - 1
  else
    let n := (digitsOf (scale / value)).length
    if scale ≤ value * Nat.pow 10 (n - 1) then -((n : Int) - 1) else -(n : Int)

/-- The multiple of `10^step` in the interval, the nearest one to the value. -/
def Interval.nearest? (i : Interval) (tie : Tie) (step : Int) : Option Nat :=
  let up := Nat.pow 10 step.toNat
  let down := Nat.pow 10 (-step).toNat
  -- the grid point `k` is the real `k * up / down`
  let floor := i.value * down / (i.scale * up)
  let below := i.holds (floor * up) down
  let above := i.holds ((floor + 1) * up) down
  let twice := 2 * i.value * down
  let middle := (2 * floor + 1) * up * i.scale
  match below, above with
  | false, false => none
  | true, false => some floor
  | false, true => some (floor + 1)
  | true, true =>
      if twice < middle then some floor
      else if middle < twice then some (floor + 1)
      else match tie with
        | .up => some (floor + 1)
        | .toEven => some (if floor % 2 = 0 then floor else floor + 1)

def Scientific.ofGrid (point : Nat) (step : Int) : Scientific :=
  let ds := digitsOf point
  { digits := trimZeros ds, exponent := step + (ds.length : Int) - 1 }

/-- Tries `count` more digits after the `used` that gave no hit. -/
def shortestFrom (i : Interval) (tie : Tie) (lead : Int) : Nat → Nat → Scientific
  | 0, used => Scientific.ofGrid (i.value / i.scale) (lead - used + 1)
  | count + 1, used =>
      let step := lead - used
      match i.nearest? tie step with
      | some point => Scientific.ofGrid point step
      | none => shortestFrom i tie lead count (used + 1)

/-- The shortest decimal of a number. Seventeen digits always suffice. -/
def Binary.shortest (b : Binary) (tie : Tie) : Scientific :=
  let i := b.interval
  shortestFrom i tie (leadingExponent i.value i.scale) 17 0

end SymbolExport.Decimal
