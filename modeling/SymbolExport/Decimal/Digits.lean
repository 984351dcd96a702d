/-!
# Decimal digits

A number in scientific form: its significant digits and the decimal exponent of the first one.
-/

namespace SymbolExport.Decimal

abbrev Digit := Fin 10

def Digit.char (d : Digit) : Char :=
  Nat.digitChar d.val

/-- The digits of a natural number, most significant first; zero has the single digit `0`. -/
def digitsOf (n : Nat) : List Digit :=
  if h : n < 10 then [⟨n, h⟩]
  else digitsOf (n / 10) ++ [⟨n % 10, Nat.mod_lt n (by decide)⟩]
termination_by n

def ofDigits (ds : List Digit) : Nat :=
  ds.foldl (fun n d => 10 * n + d.val) 0

def trimZeros (ds : List Digit) : List Digit :=
  (ds.reverse.dropWhile (· == 0)).reverse

/-- The number `d1.d2d3... * 10^exponent` for the digits `d1, d2, d3, ...`. -/
structure Scientific where
  digits : List Digit
  exponent : Int
deriving DecidableEq, Repr

def natText (n : Nat) : List Char :=
  (digitsOf n).map Digit.char

def text (n : Nat) : String :=
  String.ofList (natText n)

def intText (i : Int) : List Char :=
  if i < 0 then '-' :: natText i.natAbs else natText i.natAbs

theorem ofDigits_append_singleton (ds : List Digit) (d : Digit) :
    ofDigits (ds ++ [d]) = 10 * ofDigits ds + d.val := by
  simp [ofDigits]

theorem ofDigits_digitsOf (n : Nat) : ofDigits (digitsOf n) = n := by
  fun_induction digitsOf n with
  | case1 n h => simp [ofDigits]
  | case2 n h ih =>
      rw [ofDigits_append_singleton, ih]
      exact Nat.div_add_mod n 10

end SymbolExport.Decimal
