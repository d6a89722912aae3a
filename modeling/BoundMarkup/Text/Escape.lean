/-
  BoundMarkup.Text.Escape
  ───────────────────────
  **TWO WAYS TO WRITE TEXT BETWEEN QUOTES.**

  Constants inside rendered expressions keep to printable ASCII: everything else
  becomes a numbered escape.  Strings of the emitted builder keep whatever prints
  as itself and escape only what does not.
-/
import BoundMarkup.Text.Extender
import BoundMarkup.Text.Hex
import BoundMarkup.Text.Printable

namespace BoundMarkup.Text

/-- A backslash followed by `c`. -/
def backslashed (c : Char) : List Char := ['\\', c]

/-- The numbered escape of a code point, hexadecimal digits between braces. -/
def numberedEscape (c : Char) : List Char :=
  ['\\', 'u', '\x7b'] ++ hexChars c.toNat ++ ['\x7d']

/-- A character of a rendered constant: printable ASCII stands for itself. -/
def escapeAscii (c : Char) : List Char :=
  match c with
  | '\t' => backslashed 't'
  | '\r' => backslashed 'r'
  | '\n' => backslashed 'n'
  | '\'' => backslashed '\''
  | '"' => backslashed '"'
  | '\\' => backslashed '\\'
  | c => if 0x20 ≤ c.val ∧ c.val ≤ 0x7e then [c] else numberedEscape c

/-- A character of a builder string: whatever prints as itself stands for itself. -/
def escapePrintable (c : Char) : List Char :=
  match c with
  | '\x00' => backslashed '0'
  | '\t' => backslashed 't'
  | '\r' => backslashed 'r'
  | '\n' => backslashed 'n'
  | '"' => backslashed '"'
  | '\\' => backslashed '\\'
  | c => if isExtender c || !isPrintable c then numberedEscape c else [c]

/-- The text with every character in the style of rendered constants. -/
def asciiText (s : String) : String := String.ofList (s.toList.flatMap escapeAscii)

/-- The text as a quoted string of the emitted builder. -/
def quoted (s : String) : String :=
  String.ofList ('"' :: s.toList.flatMap escapePrintable ++ ['"'])

end BoundMarkup.Text
