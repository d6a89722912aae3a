/-
  BoundMarkup.Proofs.Number.Rounding
  ──────────────────────────────────
  **WHICH QUOTIENTS ROUND TO A NUMBER.**

  On the scale of the exponent `e` the quotient `num / den` is the significand
  `num · 2^1075` over `den · 2^e`.  A quotient near to a number on the scale of
  its exponent rounds to it.  Only below a power of two is the binade of the
  quotient another one than that of the number: there the steps are half as
  wide, and rounding carries out of the fraction.
-/
import BoundMarkup.Number.Binary64
import Mathlib.Tactic.Ring

namespace BoundMarkup.Binary64

/-! ## §1. Rounding to a natural number. -/

/-- A quotient within one half of `n` rounds to `n`, at just one half if `n` is even. -/
theorem roundHalfEven_eq {p q n : Nat} (pos : 0 < q) (low : 2 * n * q ≤ 2 * p + q)
    (high : 2 * p ≤ 2 * n * q + q)
    (strict : n % 2 = 1 → 2 * n * q < 2 * p + q ∧ 2 * p < 2 * n * q + q) :
    roundHalfEven p q = n := by
  have split := Nat.div_add_mod p q
  have below := Nat.mod_lt p pos
  unfold roundHalfEven
  generalize p / q = k at *
  generalize p % q = m at *
  -- The whole part is `n`, or one less with at least one half left.
  have whole : k = n ∨ k + 1 = n := by
    have lower : 2 * n * q < (2 * k + 3) * q := by
      calc 2 * n * q ≤ 2 * p + q := low
        _ < (2 * k + 3) * q := by rw [← split]; ring_nf; omega
    have upper : 2 * k * q < (2 * n + 2) * q := by
      calc 2 * k * q ≤ 2 * p := by rw [← split]; ring_nf; omega
        _ < (2 * n + 2) * q := by have : (2 * n + 2) * q = 2 * n * q + 2 * q := by ring
                                  omega
    have := Nat.lt_of_mul_lt_mul_right lower
    have := Nat.lt_of_mul_lt_mul_right upper
    omega
  rcases whole with rfl | rfl
  · have twice : 2 * k * q = 2 * (q * k) := by ring
    dsimp only
    split_ifs <;> omega
  · have twice : 2 * (k + 1) * q = 2 * (q * k) + 2 * q := by ring
    dsimp only
    split_ifs <;> omega

theorem roundHalfEven_scale (p q : Nat) {k : Nat} (pos : 0 < k) :
    roundHalfEven (p * k) (q * k) = roundHalfEven p q := by
  have twice : 2 * (p % q * k) = 2 * (p % q) * k := by ring
  simp only [roundHalfEven, Nat.mul_div_mul_right _ _ pos, Nat.mul_mod_mul_right, twice,
    Nat.mul_lt_mul_right pos]

/-! ## §2. Binades. -/

/-- `e` is the biased exponent of the binade of a quotient, or one below all binades. -/
structure Binade (num den e : Nat) : Prop where
  pos : 1 ≤ e
  below : num * twoPow 1023 < den * twoPow (e + 1)
  above : e = 1 ∨ den * twoPow e ≤ num * twoPow 1023

theorem twoPow_log2_le {n : Nat} (h : n ≠ 0) : twoPow n.log2 ≤ n := Nat.log2_self_le h

theorem lt_twoPow_log2 (n : Nat) : n < twoPow (n.log2 + 1) := Nat.lt_log2_self

/-- The exponent that rounding chooses. -/
theorem binade_scaleOf {num den : Nat} (some_num : num ≠ 0) (some_den : den ≠ 0) :
    Binade num den (max (scaleOf num den 1023) 1) := by
  have numLow := twoPow_log2_le some_num
  have numHigh := lt_twoPow_log2 num
  have denLow := twoPow_log2_le some_den
  have denHigh := lt_twoPow_log2 den
  unfold scaleOf
  generalize num.log2 = a at *
  generalize den.log2 = b at *
  -- One step above the guess is always too high, one step below never.
  have high : num * twoPow 1023 < den * twoPow (a + 1023 - b + 1) := by
    calc num * twoPow 1023 < twoPow (a + 1) * twoPow 1023 :=
          Nat.mul_lt_mul_of_pos_right numHigh (twoPow_pos _)
      _ = twoPow (a + 1 + 1023) := (twoPow_add _ _).symm
      _ ≤ twoPow (b + (a + 1023 - b + 1)) := twoPow_mono (by omega)
      _ = twoPow b * twoPow (a + 1023 - b + 1) := twoPow_add _ _
      _ ≤ den * twoPow (a + 1023 - b + 1) := Nat.mul_le_mul_right _ denLow
  have low (e : Nat) (h : b + 1 + e ≤ a + 1023) : den * twoPow e ≤ num * twoPow 1023 := by
    calc den * twoPow e ≤ twoPow (b + 1) * twoPow e := Nat.mul_le_mul_right _ denHigh.le
      _ = twoPow (b + 1 + e) := (twoPow_add _ _).symm
      _ ≤ twoPow (a + 1023) := twoPow_mono h
      _ = twoPow a * twoPow 1023 := twoPow_add _ _
      _ ≤ num * twoPow 1023 := Nat.mul_le_mul_right _ numLow
  have wider (e : Nat) : den * twoPow e ≤ den * twoPow (max e 1) :=
    Nat.mul_le_mul_left _ (twoPow_mono (Nat.le_max_left e 1))
  dsimp only
  generalize guess : a + 1023 - b = g at *
  split_ifs with less
  · refine ⟨Nat.le_max_right _ _, ?_, ?_⟩
    · refine less.trans_le (Nat.mul_le_mul_left _ (twoPow_mono ?_))
      omega
    · rcases Nat.lt_or_ge 1 (g - 1) with large | small
      · rw [Nat.max_eq_left large.le]
        exact Or.inr (low _ (by omega))
      · exact Or.inl (Nat.max_eq_right small)
  · refine ⟨Nat.le_max_right _ _, ?_, ?_⟩
    · refine high.trans_le (Nat.mul_le_mul_left _ (twoPow_mono ?_))
      omega
    · rcases Nat.lt_or_ge 1 g with large | small
      · rw [Nat.max_eq_left large.le]
        exact Or.inr (Nat.le_of_not_lt less)
      · exact Or.inl (Nat.max_eq_right small)

theorem Binade.le {num den e e' : Nat} (h : Binade num den e) (h' : Binade num den e') :
    e ≤ e' := by
  refine Nat.le_of_not_lt fun less => ?_
  rcases h.above with rfl | above
  · exact absurd h'.pos (by omega)
  · have : den * twoPow (e' + 1) ≤ den * twoPow e := Nat.mul_le_mul_left _ (twoPow_mono less)
    exact absurd (h'.below.trans_le this) (Nat.not_lt.2 above)

/-- A quotient lies in one binade. -/
theorem Binade.unique {num den e e' : Nat} (h : Binade num den e) (h' : Binade num den e') :
    e = e' :=
  Nat.le_antisymm (h.le h') (h'.le h)

/-- The significand of a quotient, on one scale for all exponents. -/
theorem roundHalfEven_scaled (num den e : Nat) :
    (if e ≤ 1075 then roundHalfEven (num * twoPow (1075 - e)) den
      else roundHalfEven num (den * twoPow (e - 1075)))
      = roundHalfEven (num * twoPow 1075) (den * twoPow e) := by
  split
  · rename_i small
    rw [← roundHalfEven_scale _ _ (twoPow_pos e), Nat.mul_assoc, ← twoPow_add,
      Nat.sub_add_cancel small]
  · rename_i large
    rw [← roundHalfEven_scale _ _ (twoPow_pos 1075), Nat.mul_assoc den, ← twoPow_add,
      Nat.sub_add_cancel (by omega)]

/-- Rounding in the binade of the quotient. -/
theorem magnitudeBits_eq {num den e : Nat} (some_num : num ≠ 0) (some_den : den ≠ 0)
    (binade : Binade num den e) :
    magnitudeBits num den = min (roundHalfEven (num * twoPow 1075) (den * twoPow e)
      + (e - 1) * twoPow 52) infinityBits := by
  rw [binade.unique (binade_scaleOf some_num some_den)]
  simp only [magnitudeBits, if_neg some_num, roundHalfEven_scaled]

/-! ## §3. Fields. -/

variable {x : Binary64}

theorem twoPow_52 : twoPow 52 = 4503599627370496 := rfl

theorem twoPow_53 : twoPow 53 = 2 * twoPow 52 := rfl

/-- The significand and the exponent make up the bits of a number without a sign. -/
theorem toNat_bits (positive : x.isNegative = false) :
    x.bits.toNat = x.significand + (x.exponent - 1) * twoPow 52 := by
  have bound : x.bits.toNat < twoPow 63 := Nat.lt_of_not_le (of_decide_eq_false positive)
  have sign : twoPow 63 = 9223372036854775808 := rfl
  have range : twoPow 11 = 2048 := rfl
  simp only [significand, exponent, biased, fraction, twoPow_52, range]
  split_ifs <;> omega

theorem fraction_lt (x : Binary64) : x.fraction < twoPow 52 := Nat.mod_lt _ (twoPow_pos 52)

theorem significand_lt (x : Binary64) : x.significand < twoPow 53 := by
  have := x.fraction_lt
  unfold significand
  split <;> rw [twoPow_53] <;> omega

/-- Above the lowest binade a significand has all its bits. -/
theorem le_significand (h : 1 < x.exponent) : twoPow 52 ≤ x.significand := by
  unfold exponent at h
  rw [significand, if_neg (by omega)]
  omega

theorem one_le_exponent (x : Binary64) : 1 ≤ x.exponent := Nat.le_max_right _ _

theorem exponent_lt (finite : x.isFinite = true) : x.exponent < 2047 := by
  have : x.biased < 2048 := Nat.mod_lt _ (twoPow_pos 11)
  simp only [isFinite, bne_iff_ne] at finite
  unfold exponent
  omega

theorem toNat_bits_lt (positive : x.isNegative = false) (finite : x.isFinite = true) :
    x.bits.toNat < infinityBits := by
  have := x.significand_lt
  have := exponent_lt finite
  rw [toNat_bits positive, infinityBits]
  rw [twoPow_53] at *
  generalize twoPow 52 = t at *
  have : (x.exponent - 1) * t ≤ 2045 * t := Nat.mul_le_mul_right _ (by omega)
  omega

/-! ## §4. Nearness. -/

/-- How far below `x` quotients round to it, in quarters of a step. -/
def reach (x : Binary64) : Nat := if x.fraction = 0 ∧ 1 < x.biased then 1 else 2

/-- Powers of two above the lowest binade reach less far down. -/
theorem reach_eq_one : x.reach = 1 ↔ x.significand = twoPow 52 ∧ 1 < x.exponent := by
  have := twoPow_pos 52
  simp only [reach, significand, exponent]
  split_ifs <;> omega

theorem reach_cases (x : Binary64) : x.reach = 1 ∨ x.reach = 2 := by
  unfold reach
  split
  · exact Or.inl rfl
  · exact Or.inr rfl

/-- The significand `p / q` is no further from that of `x` than half the way to the next
ones, and nearer if that of `x` is odd. -/
structure Near (x : Binary64) (p q : Nat) : Prop where
  low : (x.significand * 4 - x.reach) * q ≤ 4 * p
  high : 4 * p ≤ (x.significand * 4 + 2) * q
  strict : x.significand % 2 = 1 →
    (x.significand * 4 - x.reach) * q < 4 * p ∧ 4 * p < (x.significand * 4 + 2) * q

theorem le_iff_of_scaled {a b a' b' k k' : Nat} (pos : 0 < k) (pos' : 0 < k')
    (left : a * k = a' * k') (right : b * k = b' * k') : a ≤ b ↔ a' ≤ b' := by
  rw [← Nat.mul_le_mul_right_iff pos, left, right, Nat.mul_le_mul_right_iff pos']

theorem Rounding.contains_closed {r : Rounding} (closed : r.closed = true) (num den : Nat) :
    r.contains num den = true ↔ r.low * den ≤ num * r.den ∧ num * r.den ≤ r.high * den := by
  simp [contains, closed]

theorem Rounding.contains_open {r : Rounding} (closed : r.closed = false) (num den : Nat) :
    r.contains num den = true ↔ r.low * den < num * r.den ∧ num * r.den < r.high * den := by
  simp [contains, closed]

/-- **What lies in the interval of a number is near to it**, on the scale of its exponent. -/
theorem contains_iff (num den : Nat) :
    x.rounding.contains num den = true
      ↔ x.Near (num * twoPow 1075) (den * twoPow x.exponent) := by
  obtain ⟨up, down, pos, balance, low, high, scale⟩ : ∃ up down, 0 < down
      ∧ up * twoPow 1075 = down * twoPow x.exponent
      ∧ x.rounding.low = (x.significand * 4 - x.reach) * up
      ∧ x.rounding.high = (x.significand * 4 + 2) * up ∧ x.rounding.den = 4 * down := by
    refine ⟨_, _, ?_, ?_, rfl, rfl, rfl⟩
    · split
      · omega
      · exact twoPow_pos _
    · split
      · rw [← twoPow_add, Nat.sub_add_cancel ‹_›, Nat.one_mul]
      · rw [← twoPow_add, Nat.sub_add_cancel (by omega), Nat.one_mul]
  have ends (c : Nat) :
      c * up * den * twoPow 1075 = c * (den * twoPow x.exponent) * down := by
    calc c * up * den * twoPow 1075 = c * den * (up * twoPow 1075) := by ring
      _ = c * (den * twoPow x.exponent) * down := by rw [balance]; ring
  have middle : num * (4 * down) * twoPow 1075 = 4 * (num * twoPow 1075) * down := by ring
  have above (c : Nat) := le_iff_of_scaled (twoPow_pos 1075) pos (ends c) middle
  have below (c : Nat) := le_iff_of_scaled (twoPow_pos 1075) pos middle (ends c)
  rcases Nat.mod_two_eq_zero_or_one x.significand with even | odd
  · rw [Rounding.contains_closed (beq_iff_eq.2 even), low, high, scale, above, below]
    exact ⟨fun h => ⟨h.1, h.2, fun odd => by omega⟩, fun h => ⟨h.low, h.high⟩⟩
  · rw [Rounding.contains_open (beq_eq_false_iff_ne.2 (by omega)), low, high, scale,
      ← Nat.not_le, ← Nat.not_le, above, below, Nat.not_le, Nat.not_le]
    exact ⟨fun h => ⟨h.1.le, h.2.le, fun _ => h⟩, fun h => h.strict odd⟩

/-! ## §5. Rounding to a number. -/

/-- A quotient is in the binade on whose scale its significand has all bits and no more. -/
theorem binade_of_scaled {num den e : Nat} (pos : 1 ≤ e)
    (below : num * twoPow 1075 < 2 * twoPow 52 * (den * twoPow e))
    (above : e = 1 ∨ twoPow 52 * (den * twoPow e) ≤ num * twoPow 1075) : Binade num den e := by
  have scale : num * twoPow 1075 = num * twoPow 1023 * twoPow 52 := by
    rw [Nat.mul_assoc, ← twoPow_add]
  have double : 2 * twoPow 52 * (den * twoPow e) = den * twoPow (e + 1) * twoPow 52 := by
    rw [twoPow_succ e]; ring
  rw [scale] at below above
  rw [double] at below
  refine ⟨pos, Nat.lt_of_mul_lt_mul_right below, above.imp_right fun h => ?_⟩
  rw [Nat.mul_comm (twoPow 52)] at h
  exact Nat.le_of_mul_le_mul_right h (twoPow_pos 52)

/-- In its own binade a number's significand is what is nearest. -/
theorem Near.roundHalfEven_eq {p q : Nat} (near : x.Near p q) (pos : 0 < q) :
    roundHalfEven p q = x.significand := by
  have low := near.low
  have strict := near.strict
  have high : (x.significand * 4 + 2) * q = 4 * (x.significand * q) + 2 * q := by ring
  have wide : x.significand * 4 * q ≤ (x.significand * 4 - x.reach) * q + 2 * q := by
    rw [← Nat.add_mul]
    refine Nat.mul_le_mul_right q ?_
    rcases x.reach_cases with h | h <;> omega
  have twice : x.significand * 4 * q = 4 * (x.significand * q) := by ring
  have half : 2 * x.significand * q = 2 * (x.significand * q) := by ring
  have := near.high
  refine Binary64.roundHalfEven_eq pos ?_ ?_ fun odd => ?_
  · omega
  · omega
  · have := strict odd
    omega

/-- Only a power of two is near to something below its binade. -/
theorem Near.reach_eq_one {p q : Nat} (near : x.Near p q) (higher : 1 < x.exponent)
    (below : p < twoPow 52 * q) : x.reach = 1 := by
  refine Binary64.reach_eq_one.2 ⟨?_, higher⟩
  have := le_significand higher
  have up : (x.significand * 4 - x.reach) * q < 4 * twoPow 52 * q := by
    rw [Nat.mul_assoc 4]
    exact near.low.trans_lt (Nat.mul_lt_mul_of_pos_left below (by decide))
  have := Nat.lt_of_mul_lt_mul_right up
  have := x.reach_cases
  omega

/-- Just below a power of two the next lower binade carries into it. -/
theorem Near.roundHalfEven_carry {p q : Nat} (near : x.Near p (2 * q)) (pos : 0 < q)
    (power : x.reach = 1) (below : p < twoPow 52 * (2 * q)) :
    roundHalfEven p q = 2 * twoPow 52 := by
  have low := near.low
  rw [power, (Binary64.reach_eq_one.1 power).1, Nat.sub_mul] at low
  generalize twoPow 52 = t at *
  have full : t * 4 * (2 * q) = 8 * (t * q) := by ring
  have double : t * (2 * q) = 2 * (t * q) := by ring
  have quadruple : 2 * (2 * t) * q = 4 * (t * q) := by ring
  refine Binary64.roundHalfEven_eq pos ?_ ?_ fun odd => ?_ <;> omega

/-- Only zero is near to zero. -/
theorem Near.eq_zero {q : Nat} (near : x.Near 0 q) (pos : 0 < q) :
    x.significand = 0 ∧ x.exponent = 1 := by
  have low := near.low
  rw [Nat.mul_zero, Nat.le_zero, Nat.mul_eq_zero] at low
  have := low.resolve_right pos.ne'
  have := x.reach_cases
  have := x.one_le_exponent
  have := le_significand (x := x)
  have := twoPow_pos 52
  omega

/-- A number's significand is below the next power of two by more than it reaches up. -/
theorem Near.lt {p q : Nat} (near : x.Near p q) (pos : 0 < q) : p < 2 * twoPow 52 * q := by
  have := x.significand_lt
  have up : (x.significand * 4 + 2) * q < 4 * (2 * twoPow 52) * q :=
    Nat.mul_lt_mul_of_pos_right (by rw [twoPow_53] at this; omega) pos
  have := near.high
  rw [Nat.mul_assoc 4] at up
  omega

/-- What is near to a power of two from below is in the next lower binade. -/
theorem Near.binade_below {num den e : Nat}
    (near : x.Near (num * twoPow 1075) (2 * (den * twoPow (e + 1)))) (power : x.reach = 1)
    (below : num * twoPow 1075 < twoPow 52 * (2 * (den * twoPow (e + 1)))) :
    Binade num den (e + 1) := by
  have low := near.low
  rw [power, (Binary64.reach_eq_one.1 power).1, Nat.sub_mul] at low
  have narrow : den * twoPow (e + 1) ≤ twoPow 52 * (den * twoPow (e + 1)) :=
    Nat.le_mul_of_pos_left _ (twoPow_pos 52)
  have quarters : twoPow 52 * 4 * (2 * (den * twoPow (e + 1)))
      = 8 * (twoPow 52 * (den * twoPow (e + 1))) := by ring
  refine binade_of_scaled (Nat.le_add_left 1 e) ?_ (Or.inr ?_)
  · rw [Nat.mul_comm 2, Nat.mul_assoc]
    exact below
  · omega

/-- **What is near to a number rounds to its bits.** -/
theorem magnitudeBits_of_near {num den : Nat} (positive : x.isNegative = false)
    (finite : x.isFinite = true) (some_den : den ≠ 0)
    (near : x.Near (num * twoPow 1075) (den * twoPow x.exponent)) :
    magnitudeBits num den = x.bits.toNat := by
  have bits := toNat_bits positive
  have bounded := toNat_bits_lt positive finite
  have pos (e : Nat) : 0 < den * twoPow e :=
    Nat.mul_pos (Nat.pos_of_ne_zero some_den) (twoPow_pos e)
  rcases eq_or_ne num 0 with rfl | some_num
  · rw [Nat.zero_mul] at near
    obtain ⟨zero, lowest⟩ := near.eq_zero (pos _)
    rw [bits, zero, lowest, magnitudeBits, if_pos rfl]
    omega
  · have below := near.lt (pos _)
    by_cases own : x.exponent = 1 ∨
        twoPow 52 * (den * twoPow x.exponent) ≤ num * twoPow 1075
    · rw [magnitudeBits_eq some_num some_den (binade_of_scaled x.one_le_exponent below own),
        near.roundHalfEven_eq (pos _), ← bits]
      exact Nat.min_eq_left bounded.le
    · -- The quotient is in the binade below, on whose scale steps are half as wide.
      obtain ⟨higher, less⟩ := not_or.1 own
      have higher : 1 < x.exponent := Nat.lt_of_le_of_ne x.one_le_exponent (Ne.symm higher)
      have less := Nat.lt_of_not_le less
      obtain ⟨e, exponent⟩ : ∃ e, x.exponent = e + 2 := ⟨x.exponent - 2, by omega⟩
      have double : den * twoPow x.exponent = 2 * (den * twoPow (e + 1)) := by
        rw [exponent, twoPow_succ (e + 1)]; ring
      rw [double] at near less
      have power := near.reach_eq_one higher less
      have carried : 2 * twoPow 52 + (e + 1 - 1) * twoPow 52 = x.bits.toNat := by
        rw [bits, (reach_eq_one.1 power).1, exponent, Nat.add_sub_cancel,
          show e + 2 - 1 = e + 1 from rfl]
        ring
      rw [magnitudeBits_eq some_num some_den (near.binade_below power less),
        near.roundHalfEven_carry (pos _) power less, carried]
      exact Nat.min_eq_left bounded.le

/-- **A number is what the quotients in its interval round to.** -/
theorem ofRatio_of_contains {num den : Nat} (positive : x.isNegative = false)
    (finite : x.isFinite = true) (some_den : den ≠ 0)
    (inside : x.rounding.contains num den = true) : ofRatio false num den = x := by
  have bits := magnitudeBits_of_near positive finite some_den ((contains_iff num den).1 inside)
  simp [ofRatio, withSign, bits]

/-! ## §6. Beyond the range. -/

theorem div_le_roundHalfEven (p q : Nat) : p / q ≤ roundHalfEven p q := by
  unfold roundHalfEven
  dsimp only
  split_ifs <;> omega

/-- Half of the smallest step and less rounds to zero. -/
theorem magnitudeBits_eq_zero {num den : Nat} (some_den : den ≠ 0)
    (small : num * twoPow 1075 ≤ den) : magnitudeBits num den = 0 := by
  refine magnitudeBits_of_near (x := ⟨0⟩) (by decide) (by decide) some_den ⟨?_, ?_, nofun⟩
  · exact (Nat.zero_mul _).trans_le (Nat.zero_le _)
  · have step : twoPow (⟨0⟩ : Binary64).exponent = 2 := by decide
    have bits : (⟨0⟩ : Binary64).significand = 0 := by decide
    rw [step, bits]
    omega

/-- The power of two above all finite numbers and more rounds to infinity. -/
theorem magnitudeBits_eq_infinity {num den : Nat} (some_den : den ≠ 0)
    (large : den * twoPow 1024 ≤ num) : magnitudeBits num den = infinityBits := by
  have pos := Nat.pos_of_ne_zero some_den
  have some_num : num ≠ 0 := (Nat.lt_of_lt_of_le (Nat.mul_pos pos (twoPow_pos _)) large).ne'
  have binade := binade_scaleOf some_num some_den
  rw [magnitudeBits_eq some_num some_den binade]
  generalize max (scaleOf num den 1023) 1 = e at *
  have high : 2047 ≤ e := by
    refine Nat.le_of_not_lt fun less => Nat.lt_irrefl (num * twoPow 1023) ?_
    calc num * twoPow 1023 < den * twoPow (e + 1) := binade.below
      _ ≤ den * twoPow (1024 + 1023) := Nat.mul_le_mul_left _ (twoPow_mono (by omega))
      _ = den * twoPow 1024 * twoPow 1023 := by rw [twoPow_add, Nat.mul_assoc]
      _ ≤ num * twoPow 1023 := Nat.mul_le_mul_right _ large
  have full : twoPow 52 ≤ roundHalfEven (num * twoPow 1075) (den * twoPow e) := by
    refine Nat.le_trans ?_ (div_le_roundHalfEven _ _)
    rw [Nat.le_div_iff_mul_le (Nat.mul_pos pos (twoPow_pos e))]
    have above := binade.above.resolve_left (by omega)
    calc twoPow 52 * (den * twoPow e) ≤ twoPow 52 * (num * twoPow 1023) :=
          Nat.mul_le_mul_left _ above
      _ = num * twoPow 1075 := by rw [show 1075 = 1023 + 52 from rfl, twoPow_add 1023]; ring
  have rest : 2046 * twoPow 52 ≤ (e - 1) * twoPow 52 := Nat.mul_le_mul_right _ (by omega)
  refine Nat.min_eq_right ?_
  rw [infinityBits]
  omega

end BoundMarkup.Binary64
