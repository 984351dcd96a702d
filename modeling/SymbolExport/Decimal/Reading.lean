import SymbolExport.Decimal.Digits

/-!
# Reading decimals as binary64 numbers

Two rules are in use. A *nearest* reading rounds the exact decimal once. A *scaled* reading keeps as
many leading digits as fit into 64 bits, converts them and then multiplies or divides by powers of
ten, rounding at each step.
-/

namespace SymbolExport.Decimal

/-- The quotient rounded to nearest; a half goes to the even neighbour. -/
def roundDiv (num den : Nat) : Nat :=
  let quotient := num / den
  let rest := num % den
  if 2 * rest < den ∨ (2 * rest = den ∧ quotient % 2 = 0) then quotient else quotient + 1

/-- The exponent of the largest power of two that does not exceed the positive `num / den`. -/
def floorLog2 (num den : Nat) : Int :=
  let guess : Int := (num.log2 : Int) - den.log2
  if den * Nat.pow 2 guess.toNat ≤ num * Nat.pow 2 (-guess).toNat then guess else guess - 1

/--
The bits of the binary64 number nearest to the positive `num / den`. The mantissa has 53 bits, or
fewer if the exponent is the least one; a mantissa that rounds up to the next power of two carries
into the exponent.
-/
def nearestBits (num den : Nat) : Nat :=
  let exponent := max (floorLog2 num den - 52) (-1074)
  let mantissa := roundDiv (num * Nat.pow 2 (-exponent).toNat) (den * Nat.pow 2 exponent.toNat)
  (exponent + 1074).toNat * Nat.pow 2 52 + mantissa

def infinityBits : Nat := 0x7FF0000000000000

/--
The nearest reading of `significand * 10^exponent`; `none` if it exceeds every finite number. The
bounds on the exponent only avoid huge intermediate numbers.
-/
def nearest? (significand : Nat) (exponent : Int) : Option Float :=
  let size : Int := (digitsOf significand).length
  if significand = 0 then some 0
  else if 400 < size + exponent then none
  else if size + exponent < -400 then some 0
  else
    let bits := nearestBits (significand * Nat.pow 10 exponent.toNat) (Nat.pow 10 (-exponent).toNat)
    if infinityBits ≤ bits then none else some (Float.ofBits (UInt64.ofNat bits))

def largestPower : Nat := 308

/-- The power of ten, rounded to nearest, up to the largest. -/
def powerOfTen (n : Nat) : Float :=
  Float.ofBits (UInt64.ofNat (nearestBits (Nat.pow 10 n) 1))

/--
Scales `f` by `10^exponent`; `none` if the result is too large. Beyond the largest power of ten a
negative exponent is worked off in several divisions, and a zero needs none.
-/
def scaleFrom : Nat → Float → Int → Option Float
  | 0, f, _ => some f
  | fuel + 1, f, exponent =>
      if exponent.natAbs ≤ largestPower then
        if 0 ≤ exponent then
          let scaled := f * powerOfTen exponent.natAbs
          if scaled.isInf then none else some scaled
        else some (f / powerOfTen exponent.natAbs)
      else if f == 0 then some f
      else if 0 ≤ exponent then none
      else scaleFrom fuel (f / powerOfTen largestPower) (exponent + largestPower)

/-- The scaled reading of `significand * 10^exponent`, for a significand of at most 64 bits. -/
def scaled? (significand : Nat) (exponent : Int) : Option Float :=
  scaleFrom (exponent.natAbs / largestPower + 1) significand.toUInt64.toFloat exponent

end SymbolExport.Decimal
