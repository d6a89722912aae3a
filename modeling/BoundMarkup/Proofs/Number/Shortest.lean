/-
  BoundMarkup.Proofs.Number.Shortest
  ──────────────────────────────────
  **THE SHORTEST DIGITS READ BACK.**

  Seventeen digits always suffice: a step of that grid is at most `10^-16` of the
  value, and the nearer of the two neighbours on the grid is within half of it,
  while the interval of a number reaches `2^-54` of it to either side.  So the
  search ends in a point of the interval.  The interval of a number that is not
  whole holds no whole number, so that its text has a point.
-/
import BoundMarkup.Proofs.Number.Digits
import BoundMarkup.Proofs.Number.Rounding

namespace BoundMarkup.Binary64

variable {x : Binary64}

/-! ## §1. Values. -/

/-- The magnitude as significand and exponent. -/
theorem magnitude_scaled (x : Binary64) :
    x.magnitude.1 * twoPow 1075 = x.significand * (x.magnitude.2 * twoPow x.exponent) := by
  unfold magnitude
  split
  · rw [Nat.mul_assoc, ← twoPow_add, Nat.sub_add_cancel ‹_›, Nat.one_mul]
  · rw [← twoPow_add, Nat.sub_add_cancel (by omega)]

theorem magnitude_den_pos (x : Binary64) : 0 < x.magnitude.2 := by
  unfold magnitude
  split
  · exact Nat.one_pos
  · exact twoPow_pos _

theorem magnitude_num_pos (some_bits : x.significand ≠ 0) : 0 < x.magnitude.1 := by
  unfold magnitude
  split
  · exact Nat.mul_pos (Nat.pos_of_ne_zero some_bits) (twoPow_pos _)
  · exact Nat.pos_of_ne_zero some_bits

/-- Nearness is about the value of the quotient. -/
theorem Near.congr {p q p' q' : Nat} (near : x.Near p q) (pos : 0 < q) (pos' : 0 < q')
    (same : p * q' = p' * q) : x.Near p' q' := by
  have ends (c : Nat) : c * q' * q = c * q * q' := by ring
  have middle : 4 * p' * q = 4 * p * q' := by rw [Nat.mul_assoc, ← same, Nat.mul_assoc]
  have above (c : Nat) := le_iff_of_scaled pos pos' (ends c) middle
  have below (c : Nat) := le_iff_of_scaled pos pos' middle (ends c)
  refine ⟨(above _).2 near.low, (below _).2 near.high, fun odd => ?_⟩
  rw [← Nat.not_le, ← Nat.not_le, above, below, Nat.not_le, Nat.not_le]
  exact near.strict odd

/-- So is the interval. -/
theorem contains_congr {num den num' den' : Nat} (h : x.rounding.contains num den = true)
    (pos : 0 < den) (pos' : 0 < den') (same : num * den' = num' * den) :
    x.rounding.contains num' den' = true := by
  rw [contains_iff] at *
  have scale := twoPow_pos x.exponent
  refine h.congr (Nat.mul_pos pos scale) (Nat.mul_pos pos' scale) ?_
  calc num * twoPow 1075 * (den' * twoPow x.exponent)
      = num * den' * twoPow 1075 * twoPow x.exponent := by ring
    _ = num' * twoPow 1075 * (den * twoPow x.exponent) := by rw [same]; ring

/-- A number is near to itself. -/
theorem near_self (x : Binary64) : x.Near x.significand 1 := by
  have := x.reach_cases
  refine ⟨?_, ?_, fun odd => ?_⟩ <;> omega

/-! ## §2. The grid. -/

/-- A positive quotient is at least the power of ten of its decimal exponent. -/
theorem decimalExponent_spec {num den : Nat} (some_num : num ≠ 0) (some_den : den ≠ 0) :
    (∃ k : Nat, decimalExponent num den = k ∧ den * tenPow k ≤ num)
      ∨ ∃ k : Nat, decimalExponent num den = -k ∧ den ≤ num * tenPow k := by
  unfold decimalExponent
  split
  · rename_i large
    refine Or.inl ⟨_, rfl, ?_⟩
    have := Decimal.tenPow_length_le (Nat.div_ne_zero_iff.2 ⟨some_den, large⟩)
    rw [Nat.mul_comm]
    exact (Nat.le_div_iff_mul_le (Nat.pos_of_ne_zero some_den)).1 this
  · have size := Decimal.lt_tenPow_length (den / num)
    have pos := Nat.length_toDigits_pos (b := 10) (n := den / num)
    dsimp only
    generalize (Nat.toDigits 10 (den / num)).length = k at *
    split
    · rename_i exact
      exact Or.inr ⟨_, rfl, exact.ge⟩
    · refine Or.inr ⟨_, rfl, ?_⟩
      rw [Nat.sub_add_cancel pos, Nat.mul_comm]
      exact ((Nat.div_lt_iff_lt_mul (Nat.pos_of_ne_zero some_num)).1 size).le

/-- A quotient in steps of `10^scale`. -/
def inSteps (num den : Nat) (scale : Int) : Nat × Nat :=
  if 0 ≤ scale then (num, den * tenPow scale.toNat) else (num * tenPow (-scale).toNat, den)

theorem inSteps_natCast (num den j : Nat) : inSteps num den j = (num, den * tenPow j) := by
  rw [inSteps, if_pos (Int.natCast_nonneg j), Int.toNat_natCast]

theorem inSteps_neg (num den j : Nat) : inSteps num den (-j) = (num * tenPow j, den) := by
  unfold inSteps
  split
  · obtain rfl : j = 0 := by omega
    simp [tenPow_zero]
  · rw [Int.neg_neg, Int.toNat_natCast]

theorem inSteps_den_pos (num : Nat) {den : Nat} (pos : 0 < den) (scale : Int) :
    0 < (inSteps num den scale).2 := by
  unfold inSteps
  split
  · exact Nat.mul_pos pos (tenPow_pos _)
  · exact pos

/-- With `n + 1` digits there are at least `10^n` steps. -/
theorem tenPow_le_inSteps {num den : Nat} (some_num : num ≠ 0) (some_den : den ≠ 0) (n : Nat) :
    tenPow n * (inSteps num den (decimalExponent num den - n)).2
      ≤ (inSteps num den (decimalExponent num den - n)).1 := by
  obtain ⟨k, exponent, bound⟩ | ⟨k, exponent, bound⟩ := decimalExponent_spec some_num some_den
  · rcases Nat.le_total n k with enough | few
    · obtain ⟨j, rfl⟩ := Nat.exists_eq_add_of_le enough
      rw [exponent, show ((n + j : Nat) : Int) - n = j by omega, inSteps_natCast]
      calc tenPow n * (den * tenPow j) = den * tenPow (n + j) := by rw [tenPow_add]; ring
        _ ≤ num := bound
    · obtain ⟨j, rfl⟩ := Nat.exists_eq_add_of_le few
      rw [exponent, show (k : Int) - ((k + j : Nat) : Int) = -j by omega, inSteps_neg]
      calc tenPow (k + j) * den = den * tenPow k * tenPow j := by rw [tenPow_add]; ring
        _ ≤ num * tenPow j := Nat.mul_le_mul_right _ bound
  · rw [exponent, show -(k : Int) - n = -((k + n : Nat) : Int) by omega, inSteps_neg]
    calc tenPow n * den ≤ tenPow n * (num * tenPow k) := Nat.mul_le_mul_left _ bound
      _ = num * tenPow (k + n) := by rw [tenPow_add]; ring

theorem GridPoint.ratio_natCast (d j : Nat) : (GridPoint.mk d j).ratio = (d * tenPow j, 1) := by
  rw [GridPoint.ratio, if_pos (Int.natCast_nonneg j), Int.toNat_natCast]

theorem GridPoint.ratio_neg (d j : Nat) : (GridPoint.mk d (-j)).ratio = (d, tenPow j) := by
  unfold GridPoint.ratio
  split
  · obtain rfl : j = 0 := by simp only at *; omega
    exact congrArg (·, 1) (Nat.mul_one d)
  · exact congrArg (d, tenPow ·) (by simp)

/-- A point of the grid is inside if its digits are near to the value in steps. -/
theorem contains_of_inSteps (d : Nat) (scale : Int) (some_bits : x.significand ≠ 0)
    (near : x.Near (d * (inSteps x.magnitude.1 x.magnitude.2 scale).2 * x.significand)
      (inSteps x.magnitude.1 x.magnitude.2 scale).1) :
    x.rounding.contains (GridPoint.mk d scale).ratio.1 (GridPoint.mk d scale).ratio.2 = true := by
  have value := x.magnitude_scaled
  have num := magnitude_num_pos some_bits
  have pos := twoPow_pos x.exponent
  rw [contains_iff]
  obtain ⟨j, rfl | rfl⟩ := Int.eq_nat_or_neg scale
  · rw [inSteps_natCast] at near
    rw [GridPoint.ratio_natCast]
    refine near.congr num (Nat.mul_pos Nat.one_pos pos) ?_
    dsimp only
    calc d * (x.magnitude.2 * tenPow j) * x.significand * (1 * twoPow x.exponent)
        = d * tenPow j * (x.significand * (x.magnitude.2 * twoPow x.exponent)) := by ring
      _ = d * tenPow j * twoPow 1075 * x.magnitude.1 := by rw [← value]; ring
  · rw [inSteps_neg] at near
    rw [GridPoint.ratio_neg]
    refine near.congr (Nat.mul_pos num (tenPow_pos j)) (Nat.mul_pos (tenPow_pos j) pos) ?_
    dsimp only
    calc d * x.magnitude.2 * x.significand * (tenPow j * twoPow x.exponent)
        = d * tenPow j * (x.significand * (x.magnitude.2 * twoPow x.exponent)) := by ring
      _ = d * twoPow 1075 * (x.magnitude.1 * tenPow j) := by rw [← value]; ring

/-! ## §3. The search. -/

/-- A number reaches more than `2^-54` of its value to either side. -/
theorem two_mul_significand_lt (x : Binary64) : 2 * x.significand < x.reach * tenPow 16 := by
  have bound := x.significand_lt
  have ten : tenPow 16 = 10000000000000000 := rfl
  rw [twoPow_53, twoPow_52] at bound
  rcases x.reach_cases with power | wide
  · rw [(reach_eq_one.1 power).1, power, twoPow_52, ten]
    decide
  · rw [wide, ten]
    omega

/-- **Half a step of a fine grid is within reach.** -/
theorem near_of_close {a b d : Nat} (some_bits : x.significand ≠ 0) (pos : 0 < b)
    (fine : tenPow 16 * b ≤ a) (low : 2 * a ≤ 2 * (d * b) + b) (high : 2 * (d * b) ≤ 2 * a + b) :
    x.Near (d * b * x.significand) a := by
  have reach : 2 * x.significand * b < x.reach * a := by
    calc 2 * x.significand * b < x.reach * tenPow 16 * b :=
          Nat.mul_lt_mul_of_pos_right x.two_mul_significand_lt pos
      _ = x.reach * (tenPow 16 * b) := Nat.mul_assoc _ _ _
      _ ≤ x.reach * a := Nat.mul_le_mul_left _ fine
  have reach_le : x.reach * a ≤ 2 * a := by
    refine Nat.mul_le_mul_right a ?_
    rcases x.reach_cases with h | h <;> omega
  have low := Nat.mul_le_mul_left x.significand low
  have high := Nat.mul_le_mul_left x.significand high
  have some : a ≤ x.significand * a := Nat.le_mul_of_pos_left a (Nat.pos_of_ne_zero some_bits)
  rw [show x.significand * (2 * a) = 2 * (x.significand * a) by ring,
    show x.significand * (2 * (d * b) + b) = 2 * (d * b * x.significand) + x.significand * b by ring]
    at low
  rw [show x.significand * (2 * (d * b)) = 2 * (d * b * x.significand) by ring,
    show x.significand * (2 * a + b) = 2 * (x.significand * a) + x.significand * b by ring] at high
  rw [Nat.mul_assoc] at reach
  have strict : (x.significand * 4 - x.reach) * a < 4 * (d * b * x.significand)
      ∧ 4 * (d * b * x.significand) < (x.significand * 4 + 2) * a := by
    rw [Nat.sub_mul, Nat.add_mul, show x.significand * 4 * a = 4 * (x.significand * a) by ring]
    omega
  exact ⟨strict.1.le, strict.2.le, fun _ => strict⟩

/-- The test of a candidate in the search. -/
def fits (x : Binary64) (p : GridPoint) : Bool := x.rounding.contains p.ratio.1 p.ratio.2

/-- The two candidates with `n + 1` digits. -/
theorem gridPoint?_eq (x : Binary64) (n : Nat) :
    let scale := decimalExponent x.magnitude.1 x.magnitude.2 - n
    let a := (inSteps x.magnitude.1 x.magnitude.2 scale).1
    let b := (inSteps x.magnitude.1 x.magnitude.2 scale).2
    x.gridPoint? n =
      if x.fits ⟨a / b, scale⟩ && x.fits ⟨a / b + 1, scale⟩ then
        if a % b * 2 < b then some ⟨a / b, scale⟩ else some ⟨a / b + 1, scale⟩
      else if x.fits ⟨a / b, scale⟩ then some ⟨a / b, scale⟩
      else if x.fits ⟨a / b + 1, scale⟩ then some ⟨a / b + 1, scale⟩
      else none := rfl

theorem fits_of_gridPoint? {n : Nat} {p : GridPoint} (h : x.gridPoint? n = some p) :
    x.fits p = true := by
  rw [gridPoint?_eq] at h
  split at h
  · rename_i both
    rw [Bool.and_eq_true] at both
    split at h <;> cases h
    · exact both.1
    · exact both.2
  · split at h
    · cases h
      assumption
    · split at h <;> cases h
      assumption

/-- **With seventeen digits there is always a point.** -/
theorem gridPoint?_isSome (some_bits : x.significand ≠ 0) : (x.gridPoint? 16).isSome = true := by
  have num := magnitude_num_pos some_bits
  have den := x.magnitude_den_pos
  have fine := tenPow_le_inSteps num.ne' den.ne' 16
  rw [gridPoint?_eq]
  generalize decimalExponent x.magnitude.1 x.magnitude.2 - (16 : Nat) = scale at *
  have inside (d : Nat) := contains_of_inSteps d scale some_bits
  have pos := inSteps_den_pos x.magnitude.1 den scale
  generalize (inSteps x.magnitude.1 x.magnitude.2 scale).1 = a at *
  generalize (inSteps x.magnitude.1 x.magnitude.2 scale).2 = b at *
  have split := Nat.div_add_mod a b
  have less := Nat.mod_lt a pos
  have below : a / b * b = b * (a / b) := Nat.mul_comm _ _
  have above : (a / b + 1) * b = b * (a / b) + b := by rw [Nat.add_mul, below, Nat.one_mul]
  -- The nearer of the two neighbours is at most half a step away.
  have found : x.fits ⟨a / b, scale⟩ = true ∨ x.fits ⟨a / b + 1, scale⟩ = true := by
    rcases Nat.le_total (2 * (a % b)) b with lower | upper
    · exact Or.inl (inside _ (near_of_close some_bits pos fine (by omega) (by omega)))
    · exact Or.inr (inside _ (near_of_close some_bits pos fine (by omega) (by omega)))
  split_ifs <;> simp_all

/-- The next power of ten is the same point. -/
theorem fits_reduce {p : GridPoint} (h : x.fits p = true) : x.fits p.reduce = true := by
  obtain ⟨d, scale⟩ := p
  unfold GridPoint.reduce
  split
  · rename_i ten
    obtain rfl : d = 10 := ten
    obtain ⟨j, rfl | rfl⟩ := Int.eq_nat_or_neg scale
    · have up : (j : Int) + 1 = (j + 1 : Nat) := rfl
      rw [fits, GridPoint.ratio_natCast] at h
      rw [fits, up, GridPoint.ratio_natCast, tenPow_succ, Nat.one_mul, Nat.mul_comm]
      exact h
    · cases j with
      | zero => exact h
      | succ j =>
          have up : -((j + 1 : Nat) : Int) + 1 = -(j : Int) := by omega
          rw [fits, GridPoint.ratio_neg] at h
          rw [fits, up, GridPoint.ratio_neg]
          refine contains_congr h (tenPow_pos _) (tenPow_pos _) ?_
          rw [tenPow_succ, Nat.one_mul, Nat.mul_comm]
  · exact h

/-- **The shortest digits are inside the interval.** -/
theorem fits_shortest (some_bits : x.significand ≠ 0) : x.fits x.shortest = true := by
  have some : ((List.range 17).findSome? x.gridPoint?).isSome = true := by
    rw [List.findSome?_isSome_iff]
    exact ⟨16, List.mem_range.2 (by decide), gridPoint?_isSome some_bits⟩
  obtain ⟨p, found⟩ := Option.isSome_iff_exists.1 some
  obtain ⟨n, -, here⟩ := List.exists_of_findSome?_eq_some found
  rw [shortest, found]
  exact fits_reduce (fits_of_gridPoint? here)

/-- **A number that is not whole has no whole number in its interval.** -/
theorem scale_neg_of_fits {p : GridPoint} (part : x.isWhole = false) (h : x.fits p = true) :
    p.scale < 0 := by
  refine Int.lt_of_not_ge fun scale => ?_
  obtain ⟨d, s⟩ := p
  obtain ⟨j, rfl⟩ := Int.eq_ofNat_of_zero_le scale
  rw [fits, GridPoint.ratio_natCast, contains_iff] at h
  have rest : x.magnitude.1 % x.magnitude.2 ≠ 0 := by simpa [isWhole] using part
  unfold magnitude at rest
  split at rest
  · exact rest (Nat.mod_one _)
  · rename_i low
    -- On the scale of the significand the whole number is the significand itself.
    have near : x.Near (d * tenPow j * twoPow (1075 - x.exponent)) 1 := by
      refine h.congr (Nat.mul_pos Nat.one_pos (twoPow_pos _)) Nat.one_pos ?_
      rw [show 1075 = 1075 - x.exponent + x.exponent by omega, twoPow_add]
      rw [Nat.add_sub_cancel]
      ring
    have reach := x.reach_cases
    have below := near.low
    have above := near.high
    have : d * tenPow j * twoPow (1075 - x.exponent) = x.significand := by omega
    rw [← this] at rest
    exact rest (Nat.mul_mod_left _ _)

/-- The digits of a number that is not whole have places behind the point. -/
theorem exists_places (part : x.isWhole = false) :
    ∃ digits places, x.shortest = ⟨digits, -((places + 1 : Nat) : Int)⟩
      ∧ x.rounding.contains digits (tenPow (places + 1)) = true := by
  have some_bits : x.significand ≠ 0 := by
    intro zero
    have num : x.magnitude.1 = 0 := by unfold magnitude; split <;> simp [zero]
    simp [isWhole, num] at part
  have inside := fits_shortest some_bits
  have scale := scale_neg_of_fits part inside
  generalize x.shortest = p at *
  obtain ⟨digits, s⟩ := p
  obtain ⟨places, rfl⟩ := Int.eq_negSucc_of_lt_zero scale
  rw [fits, Int.negSucc_eq, ← Int.natCast_succ, GridPoint.ratio_neg] at inside
  exact ⟨digits, places, rfl, inside⟩

/-- A whole number is inside its interval. -/
theorem contains_whole (whole : x.isWhole = true) :
    x.rounding.contains (x.magnitude.1 / x.magnitude.2) 1 = true := by
  have exact : x.magnitude.2 * (x.magnitude.1 / x.magnitude.2) = x.magnitude.1 :=
    Nat.mul_div_cancel' (Nat.dvd_of_mod_eq_zero (beq_iff_eq.1 whole))
  have value := x.magnitude_scaled
  generalize x.magnitude.1 / x.magnitude.2 = n at *
  rw [contains_iff, Nat.one_mul]
  refine x.near_self.congr Nat.one_pos (twoPow_pos _) ?_
  refine Nat.eq_of_mul_eq_mul_left x.magnitude_den_pos ?_
  calc x.magnitude.2 * (x.significand * twoPow x.exponent)
      = x.significand * (x.magnitude.2 * twoPow x.exponent) := by ring
    _ = x.magnitude.2 * (n * twoPow 1075 * 1) := by rw [← value, ← exact]; ring

end BoundMarkup.Binary64
