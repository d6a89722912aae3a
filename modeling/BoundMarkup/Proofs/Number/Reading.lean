/-
  BoundMarkup.Proofs.Number.Reading
  ─────────────────────────────────
  **THE TEXT OF A NUMBER READS BACK AS THE NUMBER.**

  Reading rounds the quotient that a numeral stands for, also where it takes a
  shortcut; the digits of a text are inside the interval of their number.
-/
import BoundMarkup.Proofs.Number.Shortest
import Mathlib.Data.List.TakeWhile

namespace BoundMarkup.Decimal

/-! ## §1. The quotient of a numeral. -/

/-- The quotient a numeral stands for. -/
def Numeral.ratio (n : Numeral) : Nat × Nat := (Binary64.GridPoint.mk n.digits n.exponent).ratio

/-- Below the range the answer is zero, whatever the digits. -/
theorem Numeral.magnitudeBits_small {n : Numeral}
    (small : n.exponent + (Nat.toDigits 10 n.digits).length < -330) :
    Binary64.magnitudeBits n.ratio.1 n.ratio.2 = 0 := by
  obtain ⟨digits, exponent⟩ := n
  have size := lt_tenPow_length digits
  dsimp only at small
  generalize (Nat.toDigits 10 digits).length = k at *
  obtain ⟨j, rfl⟩ : ∃ j : Nat, exponent = -j := ⟨exponent.natAbs, by omega⟩
  rw [Numeral.ratio, Binary64.GridPoint.ratio_neg]
  refine Binary64.magnitudeBits_eq_zero (tenPow_pos j).ne' ?_
  have range : twoPow 1075 ≤ tenPow 331 := by decide +kernel
  calc digits * twoPow 1075 ≤ tenPow k * tenPow 331 := Nat.mul_le_mul size.le range
    _ = tenPow (k + 331) := (tenPow_add _ _).symm
    _ ≤ tenPow j := tenPow_mono (by omega)

/-- Above the range it is infinity. -/
theorem Numeral.magnitudeBits_large {n : Numeral} (some_digits : n.digits ≠ 0)
    (large : 310 < n.exponent + (Nat.toDigits 10 n.digits).length) :
    Binary64.magnitudeBits n.ratio.1 n.ratio.2 = Binary64.infinityBits := by
  obtain ⟨digits, exponent⟩ := n
  have size := tenPow_length_le some_digits
  have range : twoPow 1024 ≤ tenPow 310 := by decide +kernel
  dsimp only at size large
  generalize (Nat.toDigits 10 digits).length = k at *
  obtain ⟨j, rfl | rfl⟩ := Int.eq_nat_or_neg exponent
  · rw [Numeral.ratio, Binary64.GridPoint.ratio_natCast]
    refine Binary64.magnitudeBits_eq_infinity Nat.one_ne_zero ?_
    calc 1 * twoPow 1024 ≤ tenPow 310 := (Nat.one_mul _).trans_le range
      _ ≤ tenPow (k - 1 + j) := tenPow_mono (by omega)
      _ = tenPow (k - 1) * tenPow j := tenPow_add _ _
      _ ≤ digits * tenPow j := Nat.mul_le_mul_right _ size
  · rw [Numeral.ratio, Binary64.GridPoint.ratio_neg]
    refine Binary64.magnitudeBits_eq_infinity (tenPow_pos j).ne' ?_
    calc tenPow j * twoPow 1024 ≤ tenPow j * tenPow 310 := Nat.mul_le_mul_left _ range
      _ = tenPow (j + 310) := (tenPow_add _ _).symm
      _ ≤ tenPow (k - 1) := tenPow_mono (by omega)
      _ ≤ digits := size

/-- **A numeral is read as the number nearest to its quotient**, without exception. -/
theorem Numeral.toBinary64_eq (negative : Bool) (n : Numeral) :
    n.toBinary64 negative = Binary64.ofRatio negative n.ratio.1 n.ratio.2 := by
  unfold Numeral.toBinary64
  dsimp only
  split
  · rename_i tiny
    have zero : Binary64.magnitudeBits n.ratio.1 n.ratio.2 = 0 := by
      rcases tiny with none | small
      · have : n.ratio.1 = 0 := by
          unfold Numeral.ratio Binary64.GridPoint.ratio
          split <;> simp [none]
        rw [this, Binary64.magnitudeBits, if_pos rfl]
      · exact Numeral.magnitudeBits_small small
    rw [Binary64.ofRatio, Binary64.ofRatio, zero]
    rfl
  · rename_i some
    split
    · rename_i huge
      rw [Binary64.ofRatio, Numeral.magnitudeBits_large (not_or.1 some).1 huge]
    · unfold Numeral.ratio Binary64.GridPoint.ratio
      split <;> rfl

/-! ## §2. Signs. -/

theorem isNegative_withSign {magnitude : Nat} (h : magnitude < twoPow 63) :
    (Binary64.withSign false magnitude).isNegative = false := by
  have sign : twoPow 63 = 9223372036854775808 := rfl
  rw [sign] at h
  have bits : (UInt64.ofNat magnitude).toNat = magnitude :=
    UInt64.toNat_ofNat_of_lt' (Nat.lt_trans h (by decide))
  simp only [Binary64.withSign, Binary64.isNegative, Bool.false_eq_true, if_false, Nat.add_zero,
    bits, sign, decide_eq_false_iff_not]
  omega

theorem magnitudeBits_le (num den : Nat) : Binary64.magnitudeBits num den ≤ Binary64.infinityBits := by
  unfold Binary64.magnitudeBits
  split
  · exact Nat.zero_le _
  · exact Nat.min_le_right _ _

/-- What is read without a minus sign has no sign. -/
theorem isNegative_magnitude? {cs : List Char} {x : Binary64} (h : magnitude? false cs = some x) :
    x.isNegative = false := by
  have range : Binary64.infinityBits + twoPow 51 < twoPow 63 := by decide +kernel
  unfold magnitude? at h
  split at h
  · cases h
    exact isNegative_withSign (by omega)
  · split at h
    · cases h
      exact isNegative_withSign range
    · obtain ⟨n, -, rfl⟩ := Option.map_eq_some_iff.1 h
      have := magnitudeBits_le n.ratio.1 n.ratio.2
      rw [Numeral.toBinary64_eq, Binary64.ofRatio]
      exact isNegative_withSign (by omega)

theorem isNegative_real? {text : String} {x : Binary64} (noSign : text.toList.head? ≠ some '-')
    (h : real? text = some x) : x.isNegative = false := by
  unfold real? at h
  split at h
  · rename_i front
    rw [front] at noSign
    exact absurd rfl noSign
  · exact isNegative_magnitude? h
  · exact isNegative_magnitude? h

/-! ## §3. The form of a text. -/

theorem toLower_of_isDigit {c : Char} (digit : c.isDigit = true) : c.toLower = c := by
  simp only [Char.isDigit, Bool.and_eq_true, decide_eq_true_eq] at digit
  refine dif_neg fun upper => ?_
  exact absurd (UInt32.le_trans upper.1 digit.2) (by decide)

/-- What starts with a digit is a numeral. -/
theorem real?_of_isDigit {c : Char} (digit : c.isDigit = true) (cs : List Char) :
    real? (String.ofList (c :: cs)) = (numeral? (c :: cs)).map (Numeral.toBinary64 false) := by
  have lower := toLower_of_isDigit digit
  -- A digit is neither a sign nor the start of a word for infinity or not-a-number.
  have letter (d : Char) (h : d.isDigit = false) : c ≠ d := by
    rintro rfl
    rw [digit] at h
    cases h
  have noSign : real? (String.ofList (c :: cs)) = magnitude? false (c :: cs) := by
    unfold real?
    rw [String.toList_ofList]
    split
    · rename_i eq
      exact absurd (List.cons.inj eq).1 (letter '-' (by decide))
    · rename_i eq
      exact absurd (List.cons.inj eq).1 (letter '+' (by decide))
    · rfl
  have i := letter 'i' (by decide)
  have n := letter 'n' (by decide)
  rw [noSign, magnitude?]
  simp [isInfinityWord, lower, i, n]

/-- Digits around a point. -/
theorem numeral?_point {w f : List Char} (some_digits : w ≠ []) (whole : ∀ c ∈ w, c.isDigit = true)
    (fraction : ∀ c ∈ f, c.isDigit = true) :
    numeral? (w ++ '.' :: f) = some ⟨digitsValue (w ++ f), -(f.length : Int)⟩ := by
  have point : Char.isDigit '.' = false := by decide
  have front : (w ++ '.' :: f).takeWhile Char.isDigit = w := by
    rw [List.takeWhile_append_of_pos whole, List.takeWhile_cons_of_neg (by simp), List.append_nil]
  have back : (w ++ '.' :: f).dropWhile Char.isDigit = '.' :: f := by
    rw [List.dropWhile_append_of_pos whole, List.dropWhile_cons_of_neg (by simp)]
  have all : f.takeWhile Char.isDigit = f := List.takeWhile_eq_self_iff.2 fraction
  have none : f.dropWhile Char.isDigit = [] := List.dropWhile_eq_nil_iff.2 fraction
  simp only [numeral?, front, back, all, none]
  simp [some_digits, exponent?]

end BoundMarkup.Decimal

namespace BoundMarkup.Binary64

open Decimal

variable {x : Binary64}

/-! ## §4. Texts. -/

/-- The parts of a text before and behind the point. -/
structure PointText (x : Binary64) (w f : List Char) : Prop where
  text : x.text = String.ofList (w ++ '.' :: f)
  some_whole : w ≠ []
  whole : ∀ c ∈ w, c.isDigit = true
  some_fraction : f ≠ []
  fraction : ∀ c ∈ f, c.isDigit = true
  inside : x.rounding.contains (digitsValue (w ++ f)) (tenPow f.length) = true

theorem isNaN_of_isFinite (finite : x.isFinite = true) : x.isNaN = false := by
  simp only [isFinite, bne_iff_ne] at finite
  simp [isNaN, finite]

theorem pointText_whole (positive : x.isNegative = false) (finite : x.isFinite = true)
    (whole : x.isWhole = true) :
    PointText x (Nat.toDigits 10 (x.magnitude.1 / x.magnitude.2)) ['0'] := by
  refine ⟨?_, Nat.toDigits_ne_nil, isDigit_toDigits, by simp, by simp, ?_⟩
  · simp only [text, positive, isNaN_of_isFinite finite, finite, whole]
    rw [← String.toList_inj]
    simp
  · rw [digitsValue_concat, digitsValue_toDigits]
    refine contains_congr (contains_whole whole) Nat.one_pos (tenPow_pos _) ?_
    rw [Nat.mul_one, Nat.mul_comm]
    rfl

/-- The digits of a point, with zeros in front up to one digit before the point. -/
theorem GridPoint.text_neg (digits places : Nat) :
    ∃ w f, (GridPoint.mk digits (-((places + 1 : Nat) : Int))).text = String.ofList (w ++ '.' :: f)
      ∧ w ≠ [] ∧ f.length = places + 1 ∧ (∀ c ∈ w ++ f, c.isDigit = true)
      ∧ digitsValue (w ++ f) = digits := by
  have sign : ¬ (0 : Int) ≤ -((places + 1 : Nat) : Int) := by omega
  have size : (- -((places + 1 : Nat) : Int)).toNat = places + 1 := by omega
  simp only [GridPoint.text, if_neg sign, size]
  generalize padded : List.replicate (places + 1 + 1 - (Nat.toDigits 10 digits).length) '0'
    ++ Nat.toDigits 10 digits = cs
  -- Zeros in front leave a digit before the point at least.
  have long : places + 1 < cs.length := by
    rw [← padded, List.length_append, List.length_replicate]
    omega
  have pieces : cs.take (cs.length - (places + 1)) ++ cs.drop (cs.length - (places + 1)) = cs :=
    List.take_append_drop _ _
  refine ⟨_, _, rfl, ?_, ?_, ?_, ?_⟩
  · intro none
    have := congrArg List.length none
    simp only [List.length_take, List.length_nil] at this
    omega
  · simp only [List.length_drop]
    omega
  · rw [pieces, ← padded]
    intro c mem
    rcases List.mem_append.1 mem with zero | digit
    · rw [(List.mem_replicate.1 zero).2]
      decide
    · exact isDigit_toDigits c digit
  · rw [pieces, ← padded, digitsValue_replicate_zero, digitsValue_toDigits]

/-- **The text of a number has digits around a point**, inside the interval of the number. -/
theorem exists_pointText (positive : x.isNegative = false) (finite : x.isFinite = true) :
    ∃ w f, PointText x w f := by
  cases whole : x.isWhole with
  | true => exact ⟨_, _, pointText_whole positive finite whole⟩
  | false =>
      obtain ⟨digits, places, shortest, inside⟩ := exists_places whole
      obtain ⟨w, f, text, some_whole, length, all, value⟩ := GridPoint.text_neg digits places
      refine ⟨w, f, ?_, some_whole, fun c mem => all c (List.mem_append_left _ mem), ?_,
        fun c mem => all c (List.mem_append_right _ mem), by rw [value, length]; exact inside⟩
      · simp only [Binary64.text, positive, isNaN_of_isFinite finite, finite, whole, shortest, text]
        simp
      · rintro rfl
        cases length

/-- **A finite number without a sign is read back from its text.** -/
theorem PointText.real? {w f : List Char} (h : PointText x w f) (positive : x.isNegative = false)
    (finite : x.isFinite = true) : Decimal.real? x.text = some x := by
  obtain ⟨c, w, rfl⟩ := List.exists_cons_of_ne_nil h.some_whole
  rw [h.text, List.cons_append, real?_of_isDigit (h.whole c List.mem_cons_self),
    ← List.cons_append, numeral?_point h.some_whole h.whole h.fraction, Option.map_some,
    Numeral.toBinary64_eq, Numeral.ratio, GridPoint.ratio_neg,
    ofRatio_of_contains positive finite (tenPow_pos _).ne' h.inside]

end BoundMarkup.Binary64
