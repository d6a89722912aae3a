/-
  BoundMarkup.Number.Power
  ────────────────────────
  **POWERS OF THE TWO RADICES.**

  Binary numbers are scaled by powers of two and decimal numerals by powers of
  ten; both are exact natural numbers.
-/
namespace BoundMarkup

/-- Two to the power `e`. -/
def twoPow (e : Nat) : Nat := Nat.pow 2 e

/-- Ten to the power `e`. -/
def tenPow (e : Nat) : Nat := Nat.pow 10 e

theorem twoPow_zero : twoPow 0 = 1 := rfl

theorem twoPow_succ (e : Nat) : twoPow (e + 1) = twoPow e * 2 := rfl

theorem twoPow_add (a b : Nat) : twoPow (a + b) = twoPow a * twoPow b := Nat.pow_add 2 a b

theorem twoPow_pos (e : Nat) : 0 < twoPow e := Nat.pow_pos (by decide)

theorem twoPow_mono {a b : Nat} (h : a ≤ b) : twoPow a ≤ twoPow b :=
  Nat.pow_le_pow_right (by decide) h

theorem tenPow_zero : tenPow 0 = 1 := rfl

theorem tenPow_succ (e : Nat) : tenPow (e + 1) = tenPow e * 10 := rfl

theorem tenPow_add (a b : Nat) : tenPow (a + b) = tenPow a * tenPow b := Nat.pow_add 10 a b

theorem tenPow_pos (e : Nat) : 0 < tenPow e := Nat.pow_pos (by decide)

theorem tenPow_mono {a b : Nat} (h : a ≤ b) : tenPow a ≤ tenPow b :=
  Nat.pow_le_pow_right (by decide) h

end BoundMarkup
