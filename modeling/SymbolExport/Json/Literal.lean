import SymbolExport.Decimal.Reading
import SymbolExport.Json.Cursor

/-!
# JSON literals

Words, numbers and strings. An integer that fits into 64 bits stays an integer; any other number is
read as a binary64 number by the scaled rule. A string is read as octets and must be well-formed
UTF-8 in the end.
-/

namespace SymbolExport.Json

inductive Number where
  | int (n : WideInt)
  | float (f : Float)

def Number.toJson : Number → Json
  | .int n => .int n
  | .float f => .float f

def Number.found : Number → Found
  | .int n => .int n.val
  | .float f => .float f

namespace Reader

/-- Reads the rest of a word; a wrong octet is read too before it is reported. -/
def word : Bytes → Reader Unit
  | [] => pure ()
  | expected :: more => do
      match ← next with
      | none => fail .endInValue
      | some b => if b = expected then word more else fail .expectedWord

def isDigit (b : UInt8) : Bool :=
  0x30 ≤ b && b ≤ 0x39

def digits : Reader (List Nat) :=
  fun c =>
    let ds := c.rest.takeWhile isDigit
    .ok (ds.map fun b => b.toNat - 0x30, c.drop ds.length)

/--
Appends digits to a significand while it stays below `limit`; gives the significand, the number of
digits used and the number left over from the first that did not fit.
-/
def accumulate (limit : Nat) : Nat → List Nat → Nat × Nat × Nat
  | significand, [] => (significand, 0, 0)
  | significand, d :: ds =>
      if 10 * significand + d < limit then
        let (result, used, left) := accumulate limit (10 * significand + d) ds
        (result, used + 1, left)
      else (significand, 0, ds.length + 1)

/-- The bound of a significand: it fits into 64 bits. -/
def significandLimit : Nat := Nat.pow 2 64

/-- The bound of a written exponent: it fits into 31 bits. -/
def exponentLimit : Nat := Nat.pow 2 31

def signed (positive : Bool) (f : Float) : Number :=
  .float (if positive then f else -f)

def scaled (positive : Bool) (significand : Nat) (exponent : Int) : Reader Number :=
  match Decimal.scaled? significand exponent with
  | some f => pure (signed positive f)
  | none => fail .numberTooLarge

/--
The rest of a number behind its exponent mark. An exponent that does not fit is reported behind
the digit that exceeds it, unless the number is zero whatever the exponent.
-/
def exponentPart (positive : Bool) (significand : Nat) (exponent : Int) : Reader Number := do
  let negative ← do
    match ← peek with
    | some 0x2B => advance; pure false
    | some 0x2D => advance; pure true
    | _ => pure false
  match ← next with
  | none => fail .endInValue
  | some b =>
      if isDigit b then
        fun c =>
          let ds := (c.rest.takeWhile isDigit).map fun b => b.toNat - 0x30
          let (value, used, left) := accumulate exponentLimit (b.toNat - 0x30) ds
          if left = 0 then
            let shift : Int := if negative then -value else value
            scaled positive significand (exponent + shift) (c.drop used)
          else if significand ≠ 0 && !negative then
            fail .numberTooLarge (c.drop (used + 1))
          else .ok (signed positive 0, c.drop (used + left))
      else fail .invalidNumber

/-- The rest of a number behind its integer part. -/
def fractionPart (positive : Bool) (significand : Nat) (exponent : Int) : Reader Number := do
  let ds ← digits
  if ds.isEmpty then
    match ← peek with
    | none => failAhead .endInValue
    | some _ => failAhead .invalidNumber
  else
    let (significand, used, _) := accumulate significandLimit significand ds
    let exponent := exponent - used
    match ← peek with
    | some 0x65 | some 0x45 => advance; exponentPart positive significand exponent
    | _ => scaled positive significand exponent

/-- An integer of at most 64 bits; a negative zero or one below the range is not an integer. -/
def integer (positive : Bool) (significand : Nat) : Number :=
  if !positive && significand = 0 then signed false 0
  else match WideInt.ofInt? (if positive then significand else -significand) with
    | some n => .int n
    | none => signed positive significand.toUInt64.toFloat

def number (positive : Bool) : Reader Number := do
  match ← next with
  | none => fail .endInValue
  | some b =>
      if !isDigit b then fail .invalidNumber
      else
        let more ← digits' b
        let (significand, _, left) := accumulate significandLimit 0 ((b.toNat - 0x30) :: more)
        match ← peek with
        | some 0x2E => advance; fractionPart positive significand left
        | some 0x65 | some 0x45 => advance; exponentPart positive significand left
        | _ => if left = 0 then pure (integer positive significand)
               else scaled positive significand left
where
  /-- The digits behind the first one, which must be missing if that is a zero. -/
  digits' (first : UInt8) : Reader (List Nat) := do
    if first = 0x30 then
      match ← peek with
      | some b => if isDigit b then failAhead .invalidNumber else pure []
      | none => pure []
    else digits

def hexValue? (b : UInt8) : Option Nat :=
  if 0x30 ≤ b && b ≤ 0x39 then some (b.toNat - 0x30)
  else if 0x41 ≤ b && b ≤ 0x46 then some (b.toNat - 0x37)
  else if 0x61 ≤ b && b ≤ 0x66 then some (b.toNat - 0x57)
  else none

/-- Four hexadecimal digits; all four octets are read before one of them is blamed. -/
def hexQuad : Reader Nat :=
  fun c =>
    match c.rest with
    | a :: b :: d :: e :: _ =>
        match hexValue? a, hexValue? b, hexValue? d, hexValue? e with
        | some a, some b, some d, some e => .ok (((a * 16 + b) * 16 + d) * 16 + e, c.drop 4)
        | _, _, _, _ => fail .invalidEscape (c.drop 4)
    | _ => fail .endInText (c.drop 4)

/-- The octets of a code point that is no surrogate. -/
def encoded (n : Nat) : Bytes :=
  String.utf8EncodeChar (Char.ofNat n)

/-- The octet ahead in a string that has not ended. -/
def peekText : Reader UInt8 := do
  match ← peek with
  | none => fail .endInText
  | some b => pure b

/-- Reads one octet, which must be the given one. -/
def pairOctet (expected : UInt8) : Reader Unit := do
  let b ← peekText
  advance
  if b = expected then pure () else fail .halfPair

/-- A code point in hexadecimal: one quad, or a surrogate pair of two. -/
def codePoint : Reader Bytes := do
  let n ← hexQuad
  if 0xDC00 ≤ n ∧ n ≤ 0xDFFF then fail .loneSurrogate
  else if n < 0xD800 ∨ 0xDBFF < n then pure (encoded n)
  else
    pairOctet 0x5C
    pairOctet 0x75
    let m ← hexQuad
    if m < 0xDC00 ∨ 0xDFFF < m then fail .loneSurrogate
    else pure (encoded ((n - 0xD800) * 0x400 + (m - 0xDC00) + 0x10000))

/-- The octet that a letter behind a backslash stands for. -/
def simpleEscape? (b : UInt8) : Option UInt8 :=
  if b = 0x22 ∨ b = 0x5C ∨ b = 0x2F then some b
  else if b = 0x62 then some 0x08
  else if b = 0x66 then some 0x0C
  else if b = 0x6E then some 0x0A
  else if b = 0x72 then some 0x0D
  else if b = 0x74 then some 0x09
  else none

/-- What stands behind a backslash. -/
def escape : Reader Bytes := do
  match ← next with
  | none => fail .endInText
  | some b =>
      match simpleEscape? b with
      | some plain => pure [plain]
      | none => if b = 0x75 then codePoint else fail .invalidEscape

/-- The octets of a string up to its closing quote, which is left ahead. -/
def textOctets : Nat → Reader Bytes
  | 0 => fail .endInText
  | fuel + 1 => do
      match ← peek with
      | none => fail .endInText
      | some b =>
          if b = 0x22 then pure []
          else
            advance
            if b = 0x5C then
              let first ← escape
              let more ← textOctets fuel
              pure (first ++ more)
            else if b < 0x20 then fail .controlCharacter
            else
              let more ← textOctets fuel
              pure (b :: more)

/-- A string behind its opening quote. -/
def text : Reader String := do
  let octets ← textOctets ((← remaining) + 1)
  match Bytes.toString? octets with
  | none => fail .invalidCodePoint
  | some s => advance; pure s

end Reader

end SymbolExport.Json
