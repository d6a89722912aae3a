/-
  BoundMarkup.Text.Blank
  ──────────────────────
  **BLANK CHARACTERS AND TRIMMING.**

  Blank is the `White_Space` property of the Unicode character database: the six
  ASCII blanks, the next-line control, and the spaces and separators beyond.
-/
import BoundMarkup.Text.Ranges

namespace BoundMarkup.Text

/-- The `White_Space` code points above ASCII. -/
def blankRanges : List CodeRange :=
  [(0x85, 0x85), (0xa0, 0xa0), (0x1680, 0x1680), (0x2000, 0x200a), (0x2028, 0x2029),
   (0x202f, 0x202f), (0x205f, 0x205f), (0x3000, 0x3000)]

/-- The ASCII blanks: the space, and tab to carriage return. -/
def isAsciiBlank (c : Char) : Bool :=
  c.val == 0x20 || (decide (0x09 ≤ c.val) && decide (c.val ≤ 0x0d))

/-- The `White_Space` property. -/
def isBlank : Char → Bool := classMember isAsciiBlank blankRanges

/-- Drop the blanks at the end. -/
def trimEndChars (cs : List Char) : List Char := (cs.reverse.dropWhile isBlank).reverse

/-- Drop the blanks at both ends. -/
def trimChars (cs : List Char) : List Char := trimEndChars (cs.dropWhile isBlank)

/-- The text without the blanks at both ends. -/
def trim (s : String) : String := String.ofList (trimChars s.toList)

/-- Nothing but blanks. -/
def allBlank (s : String) : Bool := s.toList.all isBlank

end BoundMarkup.Text
