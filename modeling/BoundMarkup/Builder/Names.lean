/-
  BoundMarkup.Builder.Names
  ─────────────────────────
  **THE NAMES OF EMITTED BUILDERS.**

  The name space of a builder follows the directory of its file and ends in a
  digest of the file name and its time of change, so that a changed file gets a
  fresh name space.  The class is named for the file.
-/
import BoundMarkup.Digest.XxHash64
import BoundMarkup.Text.Hex
import BoundMarkup.Text.Segments

namespace BoundMarkup

/-- The name space and class of a builder. -/
structure BuilderNames where
  space : String
  className : String
  deriving DecidableEq, Repr

namespace BuilderNames

/-- The name space above all builders. -/
def rootSpace : String := "DotHtml.Generated"

/-- A character of a file name in a generated name. -/
def nameChar (c : Char) : Char := if c.isAlphanum then c else '_'

/-- A piece of a file name as an identifier of ASCII letters, digits and
underscores that does not start with a digit. -/
def identifier (piece : String) : String :=
  let cs := piece.toList.map nameChar
  String.ofList (if cs.isEmpty || cs.head?.any Char.isDigit then '_' :: cs else cs)

/-- The digest of a file name and its time of change. -/
def digest (fileName : String) (modified : Nat) : String :=
  Text.paddedHex 16
    (Digest.hashText (fileName ++ String.singleton '\x00' ++ toString modified)).toNat

/-- **The names of the builder of a file**, changed so many seconds after the epoch. -/
def ofFile (fileName : String) (modified : Nat) : BuilderNames :=
  let (directory, file) := (Text.splitLast? '/' fileName).getD ("", fileName)
  let spaces := ((Text.segments '/' directory).filter (· ≠ "")).map identifier
  { space := Text.join "." (rootSpace :: spaces ++ ["_" ++ digest fileName modified])
    className := identifier (Text.beforeFirst '.' file) ++ "ControlBuilder" }

end BuilderNames

end BoundMarkup
