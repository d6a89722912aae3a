/-
  BoundMarkup.Text.CaseFold
  ─────────────────────────
  **COMPARISON THAT IGNORES THE CASE OF ASCII LETTERS.**

  Names in markup match without regard to the case of `A` to `Z`; all other
  characters are compared as they are.
-/

namespace BoundMarkup.Text

/-- The text with `A` to `Z` in lower case. -/
def foldCase (s : String) : String := String.ofList (s.toList.map Char.toLower)

/-- Equal up to the case of ASCII letters. -/
def sameIgnoringCase (a b : String) : Bool :=
  a.toList.map Char.toLower == b.toList.map Char.toLower

end BoundMarkup.Text
