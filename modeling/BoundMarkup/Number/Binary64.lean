/-
  BoundMarkup.Number.Binary64
  ───────────────────────────
  **DOUBLE-PRECISION NUMBERS AS BIT PATTERNS.**

  A number is its 64 bits: sign, eleven bits of exponent, 52 bits of fraction.
  `ofRatio` rounds an exact quotient to the nearest number, ties to the even
  fraction; `text` writes a number with the fewest digits that read back.  All
  of it is exact arithmetic on natural numbers.
-/
import BoundMarkup.Number.Power

namespace BoundMarkup

/-! ## §1. Fields. -/

/-- A double-precision number. -/
structure Binary64 where
  bits : UInt64
  deriving DecidableEq, Repr, Inhabited

namespace Binary64

/-- The sign bit is set. -/
def isNegative (x : Binary64) : Bool := decide (twoPow 63 ≤ x.bits.toNat)

/-- The biased exponent. -/
def biased (x : Binary64) : Nat := x.bits.toNat / twoPow 52 % twoPow 11

/-- The stored fraction. -/
def fraction (x : Binary64) : Nat := x.bits.toNat % twoPow 52

/-- Neither infinite nor a NaN. -/
def isFinite (x : Binary64) : Bool := x.biased != 2047

def isNaN (x : Binary64) : Bool := x.biased == 2047 && x.fraction != 0

/-- The magnitude is `significand · 2^exponent / 2^1075`. -/
def significand (x : Binary64) : Nat :=
  if x.biased = 0 then x.fraction else x.fraction + twoPow 52

/-- The exponent of the significand's last bit, raised by 1075. -/
def exponent (x : Binary64) : Nat := max x.biased 1

/-- The magnitude as a quotient of natural numbers. -/
def magnitude (x : Binary64) : Nat × Nat :=
  if 1075 ≤ x.exponent then (x.significand * twoPow (x.exponent - 1075), 1)
  else (x.significand, twoPow (1075 - x.exponent))

/-- Whether the magnitude is a whole number. -/
def isWhole (x : Binary64) : Bool := x.magnitude.1 % x.magnitude.2 == 0

/-- The number with the given sign and the bits of a magnitude. -/
def withSign (negative : Bool) (magnitude : Nat) : Binary64 :=
  ⟨UInt64.ofNat (magnitude + if negative then twoPow 63 else 0)⟩

/-- The bits of positive infinity. -/
def infinityBits : Nat := 2047 * twoPow 52

/-! ## §2. Rounding a quotient. -/

/-- `num / den` rounded to the nearest natural number, ties to even. -/
def roundHalfEven (num den : Nat) : Nat :=
  let q := num / den
  let twice := 2 * (num % den)
  if twice < den then q
  else if den < twice then q + 1
  else q + q % 2

/-- The largest `e` with `2^e ≤ num / den`, raised by `bias`; zero if there is none. -/
def scaleOf (num den bias : Nat) : Nat :=
  let guess := num.log2 + bias - den.log2
  -- The quotient of two numbers between powers of two spans two binades.
  if num * twoPow bias < den * twoPow guess then guess - 1 else guess

/-- The bits of the magnitude nearest to `num / den`, for a positive `den`.
A carry out of the fraction moves into the exponent, and out of the largest
exponent into infinity. -/
def magnitudeBits (num den : Nat) : Nat :=
  if num = 0 then 0
  else
    -- The biased exponent of the binade of the quotient, at least one.
    let e := max (scaleOf num den 1023) 1
    -- The significand is `num / den · 2^(1075 - e)`.
    let sig := if e ≤ 1075 then roundHalfEven (num * twoPow (1075 - e)) den
      else roundHalfEven num (den * twoPow (e - 1075))
    min (sig + (e - 1) * twoPow 52) infinityBits

/-- **The number nearest to a signed quotient.** -/
def ofRatio (negative : Bool) (num den : Nat) : Binary64 :=
  withSign negative (magnitudeBits num den)

/-- The number nearest to a natural number. -/
def ofNat (n : Nat) : Binary64 := ofRatio false n 1

/-- The number nearest to the product of two finite numbers. -/
def product (x y : Binary64) : Binary64 :=
  ofRatio (x.isNegative != y.isNegative) (x.magnitude.1 * y.magnitude.1)
    (x.magnitude.2 * y.magnitude.2)

/-! ## §3. Shortest digits. -/

/-- The decimal exponent of a positive quotient: the largest `k` with
`10^k ≤ num / den`. -/
def decimalExponent (num den : Nat) : Int :=
  if den ≤ num then Int.ofNat ((Nat.toDigits 10 (num / den)).length - 1)
  else
    -- `den / num` is above one; its digit count is off by one unless it is exact.
    let k := (Nat.toDigits 10 (den / num)).length - 1
    if num * tenPow k = den then - Int.ofNat k else - Int.ofNat (k + 1)

/-- A point of a decimal grid, `digits · 10^scale`. -/
structure GridPoint where
  digits : Nat
  scale : Int
  deriving DecidableEq, Repr

/-- The numerator of `digits · 10^scale` over the denominator `10^(-scale)`. -/
def GridPoint.ratio (p : GridPoint) : Nat × Nat :=
  if 0 ≤ p.scale then (p.digits * tenPow p.scale.toNat, 1)
  else (p.digits, tenPow (-p.scale).toNat)

/-- The open or closed interval of quotients that round to a number, its ends
as numerators over a common denominator. -/
structure Rounding where
  low : Nat
  high : Nat
  den : Nat
  closed : Bool

/-- What rounds to `x`: half a step to either side, and only a quarter of the
step above to the lower side where the step changes.  The ends belong to it
when the significand is even. -/
def rounding (x : Binary64) : Rounding :=
  let (num, den) := (x.significand * 4, 4)
  let below := if x.fraction = 0 ∧ 1 < x.biased then 1 else 2
  let up := if 1075 ≤ x.exponent then twoPow (x.exponent - 1075) else 1
  let down := if 1075 ≤ x.exponent then 1 else twoPow (1075 - x.exponent)
  ⟨(num - below) * up, (num + 2) * up, den * down, x.significand % 2 == 0⟩

/-- Whether a quotient lies in the interval. -/
def Rounding.contains (r : Rounding) (num den : Nat) : Bool :=
  if r.closed then Nat.ble (r.low * den) (num * r.den) && Nat.ble (num * r.den) (r.high * den)
  else Nat.blt (r.low * den) (num * r.den) && Nat.blt (num * r.den) (r.high * den)

/-- The best point with `n + 1` digits: of the two neighbours of the value on
that grid, those that read back, the nearer first, the upper one on a tie. -/
def gridPoint? (x : Binary64) (n : Nat) : Option GridPoint :=
  let (num, den) := x.magnitude
  let scale := decimalExponent num den - n
  -- The value measured in grid steps.
  let (a, b) := if 0 ≤ scale then (num, den * tenPow scale.toNat)
    else (num * tenPow (-scale).toNat, den)
  let below : GridPoint := ⟨a / b, scale⟩
  let above : GridPoint := ⟨a / b + 1, scale⟩
  let fits (p : GridPoint) : Bool := x.rounding.contains p.ratio.1 p.ratio.2
  if fits below && fits above then
    if a % b * 2 < b then some below else some above
  else if fits below then some below
  else if fits above then some above
  else none

/-- A point one step above nine is the next power of ten. -/
def GridPoint.reduce (p : GridPoint) : GridPoint :=
  if p.digits = 10 then ⟨1, p.scale + 1⟩ else p

/-- **The fewest digits that read back as `x`**, for a finite positive magnitude.
Seventeen digits always do. -/
def shortest (x : Binary64) : GridPoint :=
  (((List.range 17).findSome? x.gridPoint?).getD ⟨0, 0⟩).reduce

/-! ## §4. Text. -/

/-- `digits · 10^scale` in positional notation. -/
def GridPoint.text (p : GridPoint) : String :=
  let cs := Nat.toDigits 10 p.digits
  if 0 ≤ p.scale then String.ofList (cs ++ List.replicate p.scale.toNat '0')
  else
    let places := (-p.scale).toNat
    -- Enough zeros in front for one digit before the point.
    let cs := List.replicate (places + 1 - cs.length) '0' ++ cs
    String.ofList (cs.take (cs.length - places) ++ '.' :: cs.drop (cs.length - places))

/-- **The text of a number.**  A whole number is written in full with one
zero after the point, any other with the fewest digits that read back and
never with an exponent. -/
def text (x : Binary64) : String :=
  let sign := if x.isNegative then "-" else ""
  if x.isNaN then "NaN"
  else if !x.isFinite then sign ++ "inf"
  else if x.isWhole then sign ++ toString (x.magnitude.1 / x.magnitude.2) ++ ".0"
  else sign ++ x.shortest.text

end Binary64

end BoundMarkup
