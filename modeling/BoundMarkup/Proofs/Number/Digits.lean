/-
  BoundMarkup.Proofs.Number.Digits
  ────────────────────────────────
  **RUNS OF DECIMAL DIGITS AND THEIR VALUES.**

  `Nat.toDigits 10` writes a number, `Decimal.digitsValue` reads a run of digits;
  the number of digits is the number's size.
-/
import BoundMarkup.Number.Decimal

namespace BoundMarkup.Decimal

/-! ## §1. The value of a run. -/

theorem digitsValue_append (cs ds : List Char) :
    digitsValue (cs ++ ds) = ds.foldl (fun n c => 10 * n + (c.toNat - '0'.toNat)) (digitsValue cs) :=
  List.foldl_append

theorem digitsValue_concat (cs : List Char) (c : Char) :
    digitsValue (cs ++ [c]) = 10 * digitsValue cs + (c.toNat - '0'.toNat) :=
  digitsValue_append cs [c]

/-- Zeros in front do not count. -/
theorem digitsValue_replicate_zero (n : Nat) (cs : List Char) :
    digitsValue (List.replicate n '0' ++ cs) = digitsValue cs := by
  induction n with
  | zero => rfl
  | succ n ih => exact ih

theorem digitsValue_toDigits (n : Nat) : digitsValue (Nat.toDigits 10 n) = n := by
  induction n using Nat.strongRecOn with
  | _ n ih =>
      rw [Nat.toDigits_eq_if (by decide)]
      split
      · rename_i small
        have := Nat.toNat_digitChar_of_lt_ten small
        rw [← List.nil_append [n.digitChar], digitsValue_concat, this]
        simp [digitsValue]
      · have := Nat.toNat_digitChar_of_lt_ten (Nat.mod_lt n (show 0 < 10 by decide))
        rw [digitsValue_concat, ih (n / 10) (by omega), this]
        simp
        omega

theorem isDigit_toDigits {n : Nat} : ∀ c ∈ Nat.toDigits 10 n, c.isDigit = true :=
  fun _ mem => Nat.isDigit_of_mem_toDigits (by decide) (by decide) mem

/-! ## §2. The size of a number. -/

theorem lt_tenPow_length (n : Nat) : n < tenPow (Nat.toDigits 10 n).length :=
  (Nat.length_toDigits_le_iff (by decide) Nat.length_toDigits_pos).1 (Nat.le_refl _)

/-- The first digit of a number that is not zero counts. -/
theorem tenPow_length_le {n : Nat} (h : n ≠ 0) : tenPow ((Nat.toDigits 10 n).length - 1) ≤ n := by
  have pos := Nat.length_toDigits_pos (b := 10) (n := n)
  rcases Nat.eq_or_lt_of_le (Nat.succ_le_of_lt pos) with one | more
  · rw [← one]
    exact Nat.pos_of_ne_zero h
  · refine Nat.le_of_not_lt fun less => ?_
    have := (Nat.length_toDigits_le_iff (by decide) (by omega)).2 less
    omega

end BoundMarkup.Decimal
