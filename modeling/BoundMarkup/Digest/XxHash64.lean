/-
  BoundMarkup.Digest.XxHash64
  ───────────────────────────
  **THE 64-BIT XXHASH OF A BYTE SEQUENCE, WITH SEED ZERO.**

  Four accumulators absorb stripes of 32 bytes; what is left is absorbed in
  words of eight bytes, at most one half word, and single bytes; an avalanche
  spreads the last changes over all bits.  Arithmetic is modulo 2^64.
-/

namespace BoundMarkup.Digest

/-! ## §1. Constants and rounds. -/

def prime1 : UInt64 := 0x9E3779B185EBCA87
def prime2 : UInt64 := 0xC2B2AE3D27D4EB4F
def prime3 : UInt64 := 0x165667B19E3779F9
def prime4 : UInt64 := 0x85EBCA77C2B2AE63
def prime5 : UInt64 := 0x27D4EB2F165667C5

/-- Rotation to the left by `k`, for `0 < k < 64`. -/
def rotateLeft (x k : UInt64) : UInt64 := (x <<< k) ||| (x >>> (64 - k))

/-- One word goes into one accumulator. -/
def absorb (acc word : UInt64) : UInt64 := rotateLeft (acc + word * prime2) 31 * prime1

/-- The number whose little-endian bytes are given. -/
def littleEndian (bytes : List UInt8) : UInt64 :=
  bytes.foldr (fun b acc => acc * 256 + b.toUInt64) 0

/-! ## §2. Stripes. -/

/-- The four accumulators. -/
structure Lanes where
  a : UInt64
  b : UInt64
  c : UInt64
  d : UInt64

/-- The accumulators before the first stripe. -/
def Lanes.start : Lanes := ⟨prime1 + prime2, prime2, 0, 0 - prime1⟩

/-- Absorb one stripe of 32 bytes. -/
def Lanes.stripe (v : Lanes) (bytes : List UInt8) : Lanes :=
  { a := absorb v.a (littleEndian (bytes.take 8))
    b := absorb v.b (littleEndian ((bytes.drop 8).take 8))
    c := absorb v.c (littleEndian ((bytes.drop 16).take 8))
    d := absorb v.d (littleEndian ((bytes.drop 24).take 8)) }

/-- Absorb `n` stripes. -/
def Lanes.stripes : Nat → Lanes → List UInt8 → Lanes
  | 0, v, _ => v
  | n + 1, v, bytes => stripes n (v.stripe bytes) (bytes.drop 32)

/-- Fold one accumulator into the hash. -/
def mergeLane (hash lane : UInt64) : UInt64 := (hash ^^^ absorb 0 lane) * prime1 + prime4

/-- The accumulators as one word. -/
def Lanes.merge (v : Lanes) : UInt64 :=
  let sum := rotateLeft v.a 1 + rotateLeft v.b 7 + rotateLeft v.c 12 + rotateLeft v.d 18
  [v.a, v.b, v.c, v.d].foldl mergeLane sum

/-! ## §3. The tail. -/

/-- Absorb `n` words of eight bytes. -/
def tailWords : Nat → UInt64 → List UInt8 → UInt64
  | 0, hash, _ => hash
  | n + 1, hash, bytes =>
      let mixed := hash ^^^ absorb 0 (littleEndian (bytes.take 8))
      tailWords n (rotateLeft mixed 27 * prime1 + prime4) (bytes.drop 8)

/-- Absorb a half word. -/
def tailHalf (hash : UInt64) (bytes : List UInt8) : UInt64 :=
  rotateLeft (hash ^^^ littleEndian (bytes.take 4) * prime1) 23 * prime2 + prime3

/-- Absorb one byte. -/
def tailByte (hash : UInt64) (b : UInt8) : UInt64 :=
  rotateLeft (hash ^^^ b.toUInt64 * prime5) 11 * prime1

/-- Absorb fewer than 32 bytes. -/
def tail (hash : UInt64) (bytes : List UInt8) : UInt64 :=
  let words := bytes.length / 8
  let hash := tailWords words hash bytes
  let bytes := bytes.drop (8 * words)
  if 4 ≤ bytes.length then (bytes.drop 4).foldl tailByte (tailHalf hash bytes)
  else bytes.foldl tailByte hash

/-- Spread every bit over the whole word. -/
def avalanche (h : UInt64) : UInt64 :=
  let h := (h ^^^ (h >>> 33)) * prime2
  let h := (h ^^^ (h >>> 29)) * prime3
  h ^^^ (h >>> 32)

/-- **The hash of a byte sequence.** -/
def xxHash64 (bytes : List UInt8) : UInt64 :=
  let stripes := bytes.length / 32
  let start := if stripes = 0 then prime5 else (Lanes.start.stripes stripes bytes).merge
  avalanche (tail (start + UInt64.ofNat bytes.length) (bytes.drop (32 * stripes)))

/-- The hash of a text, taken over its UTF-8 bytes. -/
def hashText (s : String) : UInt64 := xxHash64 s.toUTF8.data.toList

end BoundMarkup.Digest
