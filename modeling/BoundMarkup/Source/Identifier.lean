/-
  BoundMarkup.Source.Identifier
  ─────────────────────────────
  **CHARACTERS OF IDENTIFIERS.**

  Markup and bindings share one notion of identifier: a letter or an underscore,
  then letters, digits of any script and underscores.
-/
import BoundMarkup.Text.Alphabetic
import BoundMarkup.Text.Numeric

namespace BoundMarkup

/-- A character that may start an identifier. -/
def isIdentStart (c : Char) : Bool := Text.isAlphabetic c || c == '_'

/-- A character that may continue an identifier. -/
def isIdentContinue (c : Char) : Bool :=
  Text.isAlphabetic c || Text.isNumeric c || c == '_'

theorem isIdentContinue_of_start {c : Char} (h : isIdentStart c = true) :
    isIdentContinue c = true := by
  simp only [isIdentStart, isIdentContinue, Bool.or_eq_true] at *
  rcases h with h | h
  · exact Or.inl (Or.inl h)
  · exact Or.inr h

end BoundMarkup
