import SymbolExport.Text.Bytes

/-!
# SHA-256

The digest of a text. The padded text is cut into blocks of 64 octets; each block is extended to 64
words and mixed into a state of eight words, one round for each word.
-/

namespace SymbolExport.Sha256

/-- The eight words that are mixed. -/
structure State where
  a : UInt32
  b : UInt32
  c : UInt32
  d : UInt32
  e : UInt32
  f : UInt32
  g : UInt32
  h : UInt32
deriving DecidableEq, Repr

def initial : State :=
  ⟨0x6a09e667, 0xbb67ae85, 0x3c6ef372, 0xa54ff53a,
    0x510e527f, 0x9b05688c, 0x1f83d9ab, 0x5be0cd19⟩

def roundConstants : List UInt32 :=
  [
    0x428a2f98, 0x71374491, 0xb5c0fbcf, 0xe9b5dba5, 0x3956c25b, 0x59f111f1, 0x923f82a4, 0xab1c5ed5,
    0xd807aa98, 0x12835b01, 0x243185be, 0x550c7dc3, 0x72be5d74, 0x80deb1fe, 0x9bdc06a7, 0xc19bf174,
    0xe49b69c1, 0xefbe4786, 0x0fc19dc6, 0x240ca1cc, 0x2de92c6f, 0x4a7484aa, 0x5cb0a9dc, 0x76f988da,
    0x983e5152, 0xa831c66d, 0xb00327c8, 0xbf597fc7, 0xc6e00bf3, 0xd5a79147, 0x06ca6351, 0x14292967,
    0x27b70a85, 0x2e1b2138, 0x4d2c6dfc, 0x53380d13, 0x650a7354, 0x766a0abb, 0x81c2c92e, 0x92722c85,
    0xa2bfe8a1, 0xa81a664b, 0xc24b8b70, 0xc76c51a3, 0xd192e819, 0xd6990624, 0xf40e3585, 0x106aa070,
    0x19a4c116, 0x1e376c08, 0x2748774c, 0x34b0bcb5, 0x391c0cb3, 0x4ed8aa4a, 0x5b9cca4f, 0x682e6ff3,
    0x748f82ee, 0x78a5636f, 0x84c87814, 0x8cc70208, 0x90befffa, 0xa4506ceb, 0xbef9a3f7, 0xc67178f2]

def rotate (x : UInt32) (n : UInt32) : UInt32 :=
  (x >>> n) ||| (x <<< (32 - n))

def octets (w : UInt32) : Bytes :=
  [(w >>> 24).toUInt8, (w >>> 16).toUInt8, (w >>> 8).toUInt8, w.toUInt8]

/-- The words of a block, the most significant octet first. -/
def words : Bytes → List UInt32
  | a :: b :: c :: d :: rest =>
      ((a.toUInt32 <<< 24) ||| (b.toUInt32 <<< 16) ||| (c.toUInt32 <<< 8) ||| d.toUInt32) ::
        words rest
  | _ => []

/-- The text with a mark, zeros and its length in bits, a multiple of 64 octets long. -/
def padded (text : Bytes) : Bytes :=
  let bits := UInt64.ofNat (8 * text.length)
  let fill : Bytes := 0x80 :: List.replicate ((119 - text.length % 64) % 64) 0
  text ++ fill ++ octets (bits >>> 32).toUInt32 ++ octets bits.toUInt32

/-- The words of a block with `n` more, the last word first. -/
def extended : Nat → List UInt32 → List UInt32
  | 0, ws => ws
  | n + 1, ws =>
      let near := ws.getD 1 0
      let far := ws.getD 14 0
      let mixNear := rotate near 17 ^^^ rotate near 19 ^^^ (near >>> 10)
      let mixFar := rotate far 7 ^^^ rotate far 18 ^^^ (far >>> 3)
      extended n ((mixNear + ws.getD 6 0 + mixFar + ws.getD 15 0) :: ws)

/-- The 64 words of a block. -/
def schedule (block : Bytes) : List UInt32 :=
  (extended 48 (words block).reverse).reverse

def round (s : State) (k w : UInt32) : State :=
  let sum := rotate s.e 6 ^^^ rotate s.e 11 ^^^ rotate s.e 25
  let choice := (s.e &&& s.f) ^^^ (~~~s.e &&& s.g)
  let first := s.h + sum + choice + k + w
  let other := rotate s.a 2 ^^^ rotate s.a 13 ^^^ rotate s.a 22
  let majority := (s.a &&& s.b) ^^^ (s.a &&& s.c) ^^^ (s.b &&& s.c)
  { a := first + other + majority, b := s.a, c := s.b, d := s.c
    e := s.d + first, f := s.e, g := s.f, h := s.g }

def compress (s : State) (block : Bytes) : State :=
  let t := (roundConstants.zip (schedule block)).foldl (fun t (k, w) => round t k w) s
  { a := s.a + t.a, b := s.b + t.b, c := s.c + t.c, d := s.d + t.d
    e := s.e + t.e, f := s.f + t.f, g := s.g + t.g, h := s.h + t.h }

/-- The state behind `n` blocks. -/
def compressAll : Nat → State → Bytes → State
  | 0, s, _ => s
  | n + 1, s, text => compressAll n (compress s (text.take 64)) (text.drop 64)

def digest (text : Bytes) : Bytes :=
  let text := padded text
  let s := compressAll (text.length / 64) initial text
  [s.a, s.b, s.c, s.d, s.e, s.f, s.g, s.h].flatMap octets

def hexOctet (b : UInt8) : List Char :=
  [Nat.digitChar (b.toNat / 16), Nat.digitChar (b.toNat % 16)]

def hexDigest (text : Bytes) : String :=
  String.ofList ((digest text).flatMap hexOctet)

end SymbolExport.Sha256
