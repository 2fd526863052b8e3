/-!
# The xxHash digest of 64 bits

A byte string is read as little-endian words of eight bytes.  Whole groups of four words feed four
lanes, which are then folded into one word; the words and bytes that are left over are absorbed one
at a time, and a final avalanche spreads every input bit over the digest.  All recursion is on the
list being read, so the digest of a closed byte string can be computed by reduction.
-/

namespace HostCall.Xxh64

def prime₁ : UInt64 := 0x9E3779B185EBCA87
def prime₂ : UInt64 := 0xC2B2AE3D27D4EB4F
def prime₃ : UInt64 := 0x165667B19E3779F9
def prime₄ : UInt64 := 0x85EBCA77C2B2AE63
def prime₅ : UInt64 := 0x27D4EB2F165667C5

/-- Rotation to the left by `r` bits, for `0 < r < 64`. -/
def rotate (x r : UInt64) : UInt64 := (x <<< r) ||| (x >>> (64 - r))

/-- The number whose little-endian bytes are given. -/
def littleEndian (bytes : List UInt8) : UInt64 :=
  bytes.foldr (fun b acc => (acc <<< 8) ||| b.toUInt64) 0

/-- The whole words of a byte string, and the fewer than eight bytes behind them. -/
def words : List UInt8 → List UInt64 × List UInt8
  | a :: b :: c :: d :: e :: f :: g :: h :: rest =>
      let (ws, tail) := words rest
      (littleEndian [a, b, c, d, e, f, g, h] :: ws, tail)
  | tail => ([], tail)

def round (acc word : UInt64) : UInt64 := rotate (acc + word * prime₂) 31 * prime₁

/-- The four lanes that whole groups of four words feed. -/
structure Lanes where
  first : UInt64
  second : UInt64
  third : UInt64
  fourth : UInt64

namespace Lanes

def start (seed : UInt64) : Lanes :=
  ⟨seed + prime₁ + prime₂, seed + prime₂, seed, seed - prime₁⟩

/-- Absorbs the whole groups of four words and returns the fewer than four words behind them. -/
def absorb : List UInt64 → Lanes → Lanes × List UInt64
  | a :: b :: c :: d :: rest, l =>
      absorb rest ⟨round l.first a, round l.second b, round l.third c, round l.fourth d⟩
  | rest, l => (l, rest)

def merge (acc lane : UInt64) : UInt64 := (acc ^^^ round 0 lane) * prime₁ + prime₄

def fold (l : Lanes) : UInt64 :=
  let sum := rotate l.first 1 + rotate l.second 7 + rotate l.third 12 + rotate l.fourth 18
  [l.first, l.second, l.third, l.fourth].foldl merge sum

end Lanes

def absorbWord (acc word : UInt64) : UInt64 :=
  rotate (acc ^^^ round 0 word) 27 * prime₁ + prime₄

def absorbHalf (acc half : UInt64) : UInt64 :=
  rotate (acc ^^^ (half * prime₁)) 23 * prime₂ + prime₃

def absorbByte (acc : UInt64) (byte : UInt8) : UInt64 :=
  rotate (acc ^^^ (byte.toUInt64 * prime₅)) 11 * prime₁

/-- Absorbs fewer than eight bytes: a half word first when there is one, then single bytes. -/
def absorbTail (acc : UInt64) : List UInt8 → UInt64
  | a :: b :: c :: d :: rest => rest.foldl absorbByte (absorbHalf acc (littleEndian [a, b, c, d]))
  | rest => rest.foldl absorbByte acc

def avalanche (acc : UInt64) : UInt64 :=
  let acc := (acc ^^^ (acc >>> 33)) * prime₂
  let acc := (acc ^^^ (acc >>> 29)) * prime₃
  acc ^^^ (acc >>> 32)

def digest (seed : UInt64) (bytes : List UInt8) : UInt64 :=
  let (ws, tail) := words bytes
  let (acc, rest) :=
    if 4 ≤ ws.length then
      let (lanes, rest) := Lanes.absorb ws (Lanes.start seed)
      (lanes.fold, rest)
    else (seed + prime₅, ws)
  avalanche (absorbTail (rest.foldl absorbWord (acc + UInt64.ofNat bytes.length)) tail)

def digestText (seed : UInt64) (text : String) : UInt64 := digest seed text.toUTF8.toList

end HostCall.Xxh64
