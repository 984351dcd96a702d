import SymbolExport.Decimal.Shortest

/-!
# Layout of decimal numbers

A number is written positionally or with an exponent, and a layout says how the rest of it looks. The
digits themselves are the shortest ones that read back as the same number.
-/

namespace SymbolExport.Decimal

structure Layout where
  /-- A whole number keeps a point and one zero behind it. -/
  keepsPoint : Bool
  /-- A positive exponent carries its sign. -/
  signedExponent : Bool
  /-- Which of two equally near shortest decimals is taken. -/
  tie : Tie
deriving Repr

namespace Layout

/-- The digits with the point where the exponent puts it. -/
def positional (layout : Layout) (s : Scientific) : List Char :=
  let ds := s.digits.map Digit.char
  match s.exponent with
  | .negSucc k => '0' :: '.' :: (List.replicate k '0' ++ ds)
  | .ofNat e =>
      if ds.length ≤ e + 1 then
        ds ++ List.replicate (e + 1 - ds.length) '0' ++
          (if layout.keepsPoint then ['.', '0'] else [])
      else ds.take (e + 1) ++ '.' :: ds.drop (e + 1)

/-- The first digit, the others behind a point, and the exponent. -/
def exponential (layout : Layout) (s : Scientific) : List Char :=
  let mantissa := match s.digits.map Digit.char with
    | [] => []
    | [d] => [d]
    | d :: ds => d :: '.' :: ds
  let sign := if layout.signedExponent && 0 ≤ s.exponent then ['+'] else []
  mantissa ++ 'e' :: (sign ++ intText s.exponent)

/-- A finite number whose digits are written in a given way. The sign of a zero is kept. -/
def finite (layout : Layout) (write : Scientific → List Char) (f : Float) : List Char :=
  let bits := f.toBits.toNat
  let sign := if Nat.pow 2 63 ≤ bits then ['-'] else []
  let rest := bits % Nat.pow 2 63
  if rest = 0 then sign ++ (if layout.keepsPoint then ['0', '.', '0'] else ['0'])
  else sign ++ write ((Binary.ofBits rest.toUInt64).shortest layout.tie)

end Layout

end SymbolExport.Decimal
