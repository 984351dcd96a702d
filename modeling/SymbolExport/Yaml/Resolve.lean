import SymbolExport.Decimal.Reading
import SymbolExport.Model.Content
import SymbolExport.Yaml.Node

/-!
# Resolving scalars

A plain scalar without a tag stands for `null`, a truth value, a number or a text, whichever its
form fits first. Digits behind a leading zero are a text. Integers may be written to the bases 2, 8,
10 and 16 and must fit into 64 bits.
-/

namespace SymbolExport.Yaml

def isNull (text : String) : Bool :=
  text = "null" || text = "Null" || text = "NULL" || text = "~"

def flag? (text : String) : Option Bool :=
  if text = "true" || text = "True" || text = "TRUE" then some true
  else if text = "false" || text = "False" || text = "FALSE" then some false
  else none

/-- The number that digits to a base spell. -/
def digits? (base : Nat) (cs : List Char) : Option Nat := do
  if cs.isEmpty then none
  let digits ← cs.mapM Text.hexDigit?
  if digits.all (· < base) then some (digits.foldl (fun n d => base * n + d) 0) else none

/-- Whether these are digits of which the first is a superfluous zero. -/
def isPadded : List Char → Bool
  | '0' :: c :: cs => (c :: cs).all Char.isDigit
  | _ => false

def natural? : List Char → Option Nat
  | '0' :: 'x' :: cs => digits? 16 cs
  | '0' :: 'o' :: cs => digits? 8 cs
  | '0' :: 'b' :: cs => digits? 2 cs
  | cs => if isPadded cs then none else digits? 10 cs

def integer? : List Char → Option Int
  | '+' :: cs => (natural? cs).map fun n => (n : Int)
  | '-' :: cs => (natural? cs).map fun n => -(n : Int)
  | cs => (natural? cs).map fun n => (n : Int)

/-- Whether an integer fits into 128 bits, with or without a sign. -/
def isWide (i : Int) : Bool :=
  -170141183460469231731687303715884105728 ≤ i && i < 340282366920938463463374607431768211456

/-- An integer of 64 bits as content: one with a minus sign is signed even if it is zero. -/
def integerContent (cs : List Char) (n : WideInt) : Content :=
  if cs.head? = some '-' then .int (Int64.ofInt n.val) else .ofWideInt n

/-- The integer of a text, if it is one; one that needs between 65 and 128 bits is refused. -/
def wideInt? (cs : List Char) : Except Fault (Option Content) :=
  match integer? cs with
  | none => pure none
  | some i =>
      match WideInt.ofInt? i with
      | some n => pure (some (integerContent cs n))
      | none => if isWide i then throw .wideInteger else pure none

/-- The exponent of a decimal, from its mark on. -/
def exponent? : List Char → Option Int
  | [] => some 0
  | mark :: cs =>
      if mark == 'e' || mark == 'E' then
        match cs with
        | '-' :: cs => (digits? 10 cs).map fun n => -(n : Int)
        | '+' :: cs => (digits? 10 cs).map fun n => (n : Int)
        | cs => (digits? 10 cs).map fun n => (n : Int)
      else none

/-- The finite number that a decimal without a sign spells. -/
def decimal? (cs : List Char) : Option Float := do
  let whole := cs.takeWhile Char.isDigit
  let rest := cs.dropWhile Char.isDigit
  let fraction := match rest with
    | '.' :: rest => rest.takeWhile Char.isDigit
    | _ => []
  let rest := match rest with
    | '.' :: rest => rest.dropWhile Char.isDigit
    | rest => rest
  let significand ← digits? 10 (whole ++ fraction)
  let exponent ← exponent? rest
  Decimal.nearest? significand (exponent - fraction.length)

def isInfinity (cs : List Char) : Bool :=
  cs = ".inf".toList || cs = ".Inf".toList || cs = ".INF".toList

def infinity : Float := Float.ofBits 0x7FF0000000000000

def notANumber : Float := Float.ofBits 0x7FF8000000000000

/-- The number that a text spells. -/
def float? (cs : List Char) : Option Float :=
  if cs = ".nan".toList || cs = ".NaN".toList || cs = ".NAN".toList then some notANumber
  else
    match cs with
    | '-' :: cs => if isInfinity cs then some (-infinity) else (decimal? cs).map fun f => -f
    | '+' :: cs => if isInfinity cs then some infinity else decimal? cs
    | cs => if isInfinity cs then some infinity else decimal? cs

/-- Whether digits behind a sign or none have a superfluous zero. -/
def isPaddedNumber : List Char → Bool
  | '-' :: cs => isPadded cs
  | '+' :: cs => isPadded cs
  | cs => isPadded cs

/-- What a plain scalar without a tag stands for. -/
def resolvePlain (text : String) : Except Fault Content := do
  if text.isEmpty || isNull text then return .null
  match flag? text with
  | some b => return .bool b
  | none => pure ()
  let cs := text.toList
  match ← wideInt? cs with
  | some n => return n
  | none => pure ()
  if isPaddedNumber cs then return .text text
  match float? cs with
  | some f => return .float f
  | none => return .text text

def standardTag (type : String) : Bytes :=
  Bytes.ofString ("tag:yaml.org,2002:" ++ type)

/-- The name behind the exclamation mark of a tag that is not of a standard type. -/
def ownTag? : Option Bytes → Option String
  | some (0x21 :: name) => Bytes.toString? name
  | _ => none

/-- What a scalar stands for; a tag of a standard type decides its kind. -/
def resolve (tag : Option Bytes) (style : Style) (text : String) : Except Fault Content := do
  match tag with
  | none => if style = .plain then resolvePlain text else return .text text
  | some t =>
      if t = standardTag "bool" then
        match flag? text with
        | some b => return .bool b
        | none => throw (.mismatch "a boolean")
      else if t = standardTag "int" then
        match ← wideInt? text.toList with
        | some n => return n
        | none => throw (.mismatch "an integer")
      else if t = standardTag "float" then
        match float? text.toList with
        | some f => return .float f
        | none => throw (.mismatch "a float")
      else if t = standardTag "null" then
        if isNull text then return .null else throw (.mismatch "null")
      else if (t.head? = some 0x21) && style = .plain then resolvePlain text
      else return .text text

end SymbolExport.Yaml
