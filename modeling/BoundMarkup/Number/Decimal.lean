/-
  BoundMarkup.Number.Decimal
  ──────────────────────────
  **READING DECIMAL NUMERALS.**

  Whole numbers with an optional sign and a range; real numbers with an optional
  sign, fraction and exponent, or one of the words for infinity and not-a-number.
-/
import BoundMarkup.Number.Binary64

namespace BoundMarkup.Decimal

/-! ## §1. Whole numbers. -/

/-- The value of a run of decimal digits. -/
def digitsValue (cs : List Char) : Nat :=
  cs.foldl (fun n c => 10 * n + (c.toNat - '0'.toNat)) 0

/-- A run of one or more decimal digits. -/
def natural? (cs : List Char) : Option Nat :=
  if !cs.isEmpty && cs.all Char.isDigit then some (digitsValue cs) else none

/-- Digits after an optional plus sign. -/
def unsigned? : List Char → Option Nat
  | '+' :: cs => natural? cs
  | cs => natural? cs

/-- Digits after an optional sign. -/
def signed? : List Char → Option Int
  | '-' :: cs => (natural? cs).map (fun n => - Int.ofNat n)
  | cs => (unsigned? cs).map Int.ofNat

/-- A whole number that fits into `bits` bits of two's complement. -/
def fitting? (bits : Nat) (s : String) : Option Int :=
  (signed? s.toList).filter (fun n =>
    decide (- Int.ofNat (twoPow (bits - 1)) ≤ n) && decide (n < Int.ofNat (twoPow (bits - 1))))

/-! ## §2. Real numbers. -/

/-- A decimal numeral: `digits · 10^exponent`. -/
structure Numeral where
  digits : Nat
  exponent : Int
  deriving DecidableEq, Repr

/-- The number nearest to a numeral.  Outside the range of decimal exponents
that can matter the answer does not depend on the digits. -/
def Numeral.toBinary64 (negative : Bool) (n : Numeral) : Binary64 :=
  let size : Int := (Nat.toDigits 10 n.digits).length
  if n.digits = 0 ∨ n.exponent + size < -330 then Binary64.ofRatio negative 0 1
  else if 310 < n.exponent + size then Binary64.withSign negative Binary64.infinityBits
  else if 0 ≤ n.exponent then Binary64.ofRatio negative (n.digits * tenPow n.exponent.toNat) 1
  else Binary64.ofRatio negative n.digits (tenPow (-n.exponent).toNat)

/-- The exponent part: nothing, or a mark, an optional sign and digits. -/
def exponent? : List Char → Option Int
  | [] => some 0
  | c :: cs => if c = 'e' ∨ c = 'E' then signed? cs else none

/-- An unsigned numeral: digits with an optional point among or around them,
then an exponent. -/
def numeral? (cs : List Char) : Option Numeral :=
  let whole := cs.takeWhile Char.isDigit
  let rest := cs.dropWhile Char.isDigit
  let fraction := match rest with
    | '.' :: rest => rest.takeWhile Char.isDigit
    | _ => []
  let rest := match rest with
    | '.' :: rest => rest.dropWhile Char.isDigit
    | rest => rest
  if whole.isEmpty && fraction.isEmpty then none
  else (exponent? rest).map (fun e =>
    ⟨digitsValue (whole ++ fraction), e - Int.ofNat fraction.length⟩)

/-- Whether the text, its case aside, is one of the words for infinity. -/
def isInfinityWord (cs : List Char) : Bool :=
  let folded := cs.map Char.toLower
  folded == "inf".toList || folded == "infinity".toList

/-- An unsigned real number. -/
def magnitude? (negative : Bool) (cs : List Char) : Option Binary64 :=
  if isInfinityWord cs then some (Binary64.withSign negative Binary64.infinityBits)
  else if cs.map Char.toLower == "nan".toList then
    some (Binary64.withSign negative (Binary64.infinityBits + twoPow 51))
  else (numeral? cs).map (Numeral.toBinary64 negative)

/-- **A real number**: an optional sign, then a numeral or a word. -/
def real? (s : String) : Option Binary64 :=
  match s.toList with
  | '-' :: cs => magnitude? true cs
  | '+' :: cs => magnitude? false cs
  | cs => magnitude? false cs

end BoundMarkup.Decimal
