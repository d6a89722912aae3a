/-
  BoundMarkup.Text.Hex
  ────────────────────
  **HEXADECIMAL NUMERALS.**  Lower-case digits, without or with leading zeros.
-/

namespace BoundMarkup.Text

/-- The hexadecimal digits of `n`, without leading zeros. -/
def hexChars (n : Nat) : List Char := Nat.toDigits 16 n

/-- The hexadecimal digits of `n`, padded with zeros to `width`. -/
def paddedHex (width n : Nat) : String :=
  let digits := hexChars n
  String.ofList (List.replicate (width - digits.length) '0' ++ digits)

end BoundMarkup.Text
