/-!
# White space

The characters with the White_Space property, and texts without the white space at their ends.
-/

namespace SymbolExport.Text

def isBlank (c : Char) : Bool :=
  let n := c.toNat
  (9 ≤ n && n ≤ 13) || n == 0x20 || n == 0x85 || n == 0xA0 || n == 0x1680 ||
    (0x2000 ≤ n && n ≤ 0x200A) || n == 0x2028 || n == 0x2029 || n == 0x202F || n == 0x205F ||
    n == 0x3000

def trimBlanks (cs : List Char) : List Char :=
  ((cs.dropWhile isBlank).reverse.dropWhile isBlank).reverse

/-- The ASCII letters in lower case, everything else unchanged. -/
def lowerAscii (cs : List Char) : List Char :=
  cs.map Char.toLower

end SymbolExport.Text
