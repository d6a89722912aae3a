/-
  BoundMarkup.Markup.Document
  ───────────────────────────
  **THE TREE OF A VIEW FILE.**

  A document is a list of directives and a forest.  Elements are untyped: names
  are kept as written, and bindings are not read yet.  `Document.ofTokens` never
  fails: an element without an end tag is marked as unclosed, and an end tag
  without a start tag becomes a node of its own.
-/
import BoundMarkup.Markup.Token
import BoundMarkup.Text.Blank
import BoundMarkup.Text.CaseFold

namespace BoundMarkup.Markup

/-! ## §1. Trees. -/

/-- An element without its content. -/
structure Element where
  name : QName
  attributes : List Attribute
  selfClosing : Bool
  /-- No end tag was found for the element. -/
  unclosed : Bool
  /-- Position of the start tag. -/
  span : Span
  deriving DecidableEq, Repr

namespace Element

/-- The element a start tag opens. -/
def ofTag (tag : StartTag) : Element :=
  ⟨tag.name, tag.attributes, tag.selfClosing, false, tag.span⟩

/-- What is structurally wrong with the element. -/
def errors (e : Element) : List String :=
  if e.unclosed then ["element <" ++ e.name.text ++ "> is not closed"] else []

/-- The first attribute with the given name and no name space. -/
def attribute? (e : Element) (name : String) : Option Attribute :=
  e.attributes.find? (fun a => a.name.space.isNone && Text.sameIgnoringCase a.name.name name)

end Element

/-- A node of a document. -/
inductive Node where
  | element (head : Element) (children : List Node)
  | text (text : String) (span : Span)
  | binding (source : BindingSource)
  /-- An end tag that closes nothing. -/
  | stray (tag : EndTag)
  deriving Repr

/-- What is wrong with an end tag that closes nothing. -/
def EndTag.strayMessage (tag : EndTag) : String :=
  "closing tag </" ++ tag.name.text ++ "> has no matching start tag"

/-- A view file. -/
structure Document where
  directives : List Directive
  nodes : List Node
  deriving Repr

mutual

/-- The elements of a tree, parents first. -/
def Node.elements : Node → List Element
  | .element head children => head :: Node.elementsOf children
  | .text _ _ => []
  | .binding _ => []
  | .stray _ => []

/-- The elements of a forest, parents first. -/
def Node.elementsOf : List Node → List Element
  | [] => []
  | n :: ns => n.elements ++ Node.elementsOf ns

end

namespace Document

/-- The directives with the given name, its case aside. -/
def directivesNamed (d : Document) (name : String) : List Directive :=
  d.directives.filter (fun x => Text.sameIgnoringCase x.name name)

/-- The first directive with the given name. -/
def directive? (d : Document) (name : String) : Option Directive :=
  (d.directivesNamed name).head?

/-- The elements of the document, parents first. -/
def elements (d : Document) : List Element := Node.elementsOf d.nodes

end Document

/-! ## §2. Building the tree. -/

/-- The elements that never have content or an end tag. -/
def voidElements : List String :=
  ["area", "base", "br", "col", "embed", "hr", "img", "input", "link", "meta", "param",
   "source", "track", "wbr"]

/-- A void element: one of the names above, without a name space. -/
def QName.isVoid (q : QName) : Bool :=
  q.space.isNone && voidElements.any (Text.sameIgnoringCase q.name ·)

/-- An end tag with name `close` ends an element with name `q`. -/
def QName.closedBy (q close : QName) : Bool :=
  match q.space, close.space with
  | none, none => Text.sameIgnoringCase q.name close.name
  | some a, some b => a == b && q.name == close.name
  | _, _ => false

/-- An element whose end tag has not been seen, with the content so far, the
latest node first. -/
structure OpenElement where
  head : Element
  content : List Node

/-- The tree under construction: the open elements, innermost first, and what
stands outside all of them, the latest node first. -/
structure Builder where
  directives : List Directive
  opened : List OpenElement
  outer : List Node

namespace Builder

/-- Nothing has been read. -/
def empty : Builder := ⟨[], [], []⟩

/-- Add a node to the innermost open element. -/
def append (b : Builder) (n : Node) : Builder :=
  match b.opened with
  | [] => { b with outer := n :: b.outer }
  | top :: rest => { b with opened := { top with content := n :: top.content } :: rest }

/-- The innermost open element becomes a node. -/
def close (b : Builder) (unclosed : Bool) : Builder :=
  match b.opened with
  | [] => b
  | top :: rest =>
      ({ b with opened := rest } : Builder).append
        (.element { top.head with unclosed := unclosed } top.content.reverse)

/-- Close the `n` innermost open elements, for which no end tag was seen. -/
def closeUnclosed : Nat → Builder → Builder
  | 0, b => b
  | n + 1, b => closeUnclosed n (b.close true)

/-- Take in one token. -/
def push (b : Builder) : Token → Builder
  | .directive d => { b with directives := d :: b.directives }
  | .text text span => b.append (.text text span)
  | .binding source => b.append (.binding source)
  | .startTag tag =>
      if tag.selfClosing || tag.name.isVoid then b.append (.element (.ofTag tag) [])
      else { b with opened := ⟨.ofTag tag, []⟩ :: b.opened }
  | .endTag tag =>
      if tag.name.isVoid then b
      else
        match b.opened.findIdx? (fun o => o.head.name.closedBy tag.name) with
        | some inner => (closeUnclosed inner b).close false
        | none => b.append (.stray tag)

/-- The document, once all tokens are in. -/
def finish (b : Builder) : Document :=
  let b := closeUnclosed b.opened.length b
  ⟨b.directives.reverse, b.outer.reverse⟩

end Builder

/-- **The tree of a sequence of tokens.** -/
def Document.ofTokens (tokens : List Token) : Document :=
  (tokens.foldl Builder.push Builder.empty).finish

end BoundMarkup.Markup
