import SymbolExport.Json.Literal

/-!
# Skipping JSON values

The value of a field that nobody asks for is checked for its syntax only: neither the range of its
numbers nor the surrogates in its strings nor its depth matter. Each octet is moved over at most two
calls deep, so twice the number of octets ahead bounds the nesting.
-/

namespace SymbolExport.Json.Reader

/-- Skips an exponent behind its mark. -/
def skipExponent : Reader Unit := do
  match ← peek with
  | some 0x2B | some 0x2D => advance
  | _ => pure ()
  match ← next with
  | none => fail .invalidNumber
  | some b => if isDigit b then discard digits else fail .invalidNumber

/-- Skips the exponent of a number, if it has one. -/
def skipOptionalExponent : Reader Unit := do
  match ← peek with
  | some 0x65 | some 0x45 => advance; skipExponent
  | _ => pure ()

/-- Skips a number behind its sign. -/
def skipNumber : Reader Unit := do
  match ← next with
  | none => fail .invalidNumber
  | some b =>
      if b = 0x30 then
        match ← peek with
        | some d => if isDigit d then failAhead .invalidNumber else pure ()
        | none => pure ()
      else if isDigit b then discard digits
      else fail .invalidNumber
  match ← peek with
  | some 0x2E =>
      advance
      let ds ← digits
      if ds.isEmpty then failAhead .invalidNumber else skipOptionalExponent
  | _ => skipOptionalExponent

def skipEscape : Reader Unit := do
  match ← next with
  | none => fail .endInText
  | some b =>
      if (simpleEscape? b).isSome then pure ()
      else if b = 0x75 then discard hexQuad
      else fail .invalidEscape

/-- Skips a string behind its opening quote. -/
def skipText : Nat → Reader Unit
  | 0 => fail .endInText
  | fuel + 1 => do
      match ← peek with
      | none => fail .endInText
      | some b =>
          if b = 0x22 then advance
          else if b = 0x5C then
            advance
            skipEscape
            skipText fuel
          else if b < 0x20 then fail .controlCharacter
          else
            advance
            skipText fuel

/-- The colon between a key and its value. -/
def colon : Reader Unit := do
  match ← peekToken with
  | some 0x3A => advance
  | some _ => failAhead .expectedColon
  | none => failAhead .endInObject

mutual

def skipValue : Nat → Reader Unit
  | 0 => failAhead .endInValue
  | fuel + 1 => do
      match ← peekToken with
      | none => failAhead .endInValue
      | some 0x6E => advance; word [0x75, 0x6C, 0x6C]
      | some 0x74 => advance; word [0x72, 0x75, 0x65]
      | some 0x66 => advance; word [0x61, 0x6C, 0x73, 0x65]
      | some 0x2D => advance; skipNumber
      | some 0x22 => advance; skipText ((← remaining) + 1)
      | some 0x5B =>
          advance
          match ← peekToken with
          | none => failAhead .endInList
          | some 0x5D => advance
          | some _ => skipItems fuel
      | some 0x7B =>
          advance
          match ← peekToken with
          | none => failAhead .endInObject
          | some 0x7D => advance
          | some _ => skipFields fuel
      | some b => if isDigit b then skipNumber else failAhead .expectedValue

/-- Skips the items of a list from the next one on, and the closing bracket. -/
def skipItems : Nat → Reader Unit
  | 0 => failAhead .endInValue
  | fuel + 1 => do
      skipValue fuel
      match ← peekToken with
      | none => failAhead .endInList
      | some 0x2C => advance; skipItems fuel
      | some 0x5D => advance
      | some _ => failAhead .expectedListNext

/-- Skips the fields of an object from the next one on, and the closing brace. -/
def skipFields : Nat → Reader Unit
  | 0 => failAhead .endInValue
  | fuel + 1 => do
      match ← peekToken with
      | none => failAhead .endInObject
      | some 0x22 => advance; skipText ((← remaining) + 1)
      | some _ => failAhead .keyNotText
      colon
      skipValue fuel
      match ← peekToken with
      | none => failAhead .endInObject
      | some 0x2C => advance; skipFields fuel
      | some 0x7D => advance
      | some _ => failAhead .expectedObjectNext

end

def skip : Reader Unit := do
  skipValue (2 * (← remaining) + 2)

end SymbolExport.Json.Reader
