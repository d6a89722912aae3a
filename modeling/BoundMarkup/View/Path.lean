/-
  BoundMarkup.View.Path
  ─────────────────────
  **PATHS OF VIEWS.**

  A view is known by one spelling of its path: forward slashes, and nothing at
  the front that points to the root.  The extension says what the view is.
-/
import BoundMarkup.Text.Blank
import BoundMarkup.Text.CaseFold

namespace BoundMarkup

namespace ViewPath

/-- Forward slashes for backward ones. -/
def forwardSlash (c : Char) : Char := if c = '\\' then '/' else c

/-- The path without any number of `/`, `./` and `~/` at its front. -/
def dropRoots : List Char → List Char
  | '.' :: '/' :: cs => dropRoots cs
  | '/' :: cs => dropRoots cs
  | '~' :: '/' :: cs => dropRoots cs
  | cs => cs

/-- **The spelling under which a view is known.** -/
def normalize (path : String) : String :=
  String.ofList (dropRoots ((Text.trim path).toList.map forwardSlash))

end ViewPath

/-- What a view file becomes. -/
inductive ViewKind where
  | page | masterPage | markupControl
  deriving DecidableEq, Repr

namespace ViewKind

/-- The kind of a path, by its extension. -/
def ofPath (path : String) : ViewKind :=
  let folded := (Text.foldCase path).toList
  if ".dotmaster".toList.isSuffixOf folded then .masterPage
  else if ".dotcontrol".toList.isSuffixOf folded then .markupControl
  else .page

/-- The kind in words. -/
def text : ViewKind → String
  | page => "view"
  | masterPage => "master page"
  | markupControl => "markup control"

end ViewKind

end BoundMarkup
