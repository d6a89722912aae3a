/-
  BoundMarkup.Markup.Token
  ────────────────────────
  **WHAT A VIEW FILE SPLITS INTO.**

  Directives come first; after them start tags, end tags, text and inline
  bindings follow in the order of the file.  Comments leave no token.
-/
import BoundMarkup.Source.Span

namespace BoundMarkup.Markup

/-! ## §1. Names and bindings. -/

/-- The name of an element or attribute, possibly with a name space. -/
structure QName where
  space : Option String
  name : String
  deriving DecidableEq, Repr

/-- The name as written. -/
def QName.text (q : QName) : String :=
  match q.space with
  | some space => space ++ ":" ++ q.name
  | none => q.name

/-- What a binding does with its expression. -/
inductive BindingKind where
  | value | command | resource
  deriving DecidableEq, Repr

namespace BindingKind

/-- The word that introduces the binding. -/
def word : BindingKind → String
  | value => "value"
  | command => "command"
  | resource => "resource"

/-- The kind a word introduces. -/
def ofWord? (w : String) : Option BindingKind :=
  [value, command, resource].find? (fun k => k.word == w)

end BindingKind

/-- A binding whose expression has not been read yet. -/
structure BindingSource where
  kind : BindingKind
  expression : String
  /-- Position of the opening brace. -/
  span : Span
  /-- Position of the first character of the expression. -/
  expressionSpan : Span
  deriving DecidableEq, Repr

/-- The binding as written, with single braces. -/
def BindingSource.text (b : BindingSource) : String :=
  "\x7b" ++ b.kind.word ++ ": " ++ b.expression ++ "\x7d"

/-! ## §2. Tokens. -/

/-- A line `@name value` at the top of a file. -/
structure Directive where
  name : String
  value : String
  span : Span
  deriving DecidableEq, Repr

/-- What an attribute is set to. -/
inductive AttributeValue where
  /-- The attribute is only mentioned. -/
  | bare
  | text (text : String)
  | binding (source : BindingSource)
  deriving DecidableEq, Repr

structure Attribute where
  name : QName
  value : AttributeValue
  span : Span
  deriving DecidableEq, Repr

/-- A start tag. -/
structure StartTag where
  name : QName
  attributes : List Attribute
  selfClosing : Bool
  span : Span
  deriving DecidableEq, Repr

/-- An end tag. -/
structure EndTag where
  name : QName
  span : Span
  deriving DecidableEq, Repr

inductive Token where
  | directive (directive : Directive)
  | startTag (tag : StartTag)
  | endTag (tag : EndTag)
  | text (text : String) (span : Span)
  | binding (source : BindingSource)
  deriving DecidableEq, Repr

end BoundMarkup.Markup
