/-
  BoundMarkup.Markup.Scanner
  ──────────────────────────
  **CUTTING A VIEW FILE INTO TOKENS.**

  Each scanner starts at a cursor and returns what it read with the cursor after
  it.  A tag, quote, comment or binding that does not end is a fault of the
  whole file; everything else that is not one of these is text.
-/
import BoundMarkup.Markup.Token
import BoundMarkup.Source.Cursor
import BoundMarkup.Source.Identifier
import BoundMarkup.Source.SyntaxError

namespace BoundMarkup.Markup

/-- A fault at a place. -/
def fault (p : Position) (cause : SyntaxCause) : Except SyntaxError α := .error ⟨cause, p.span⟩

/-! ## §1. Bindings. -/

def openBrace : Char := '\x7b'

def closeBrace : Char := '\x7d'

/-- How many braces delimit a binding: one in an attribute, two in text. -/
inductive Braces where
  | one | two
  deriving DecidableEq, Repr

namespace Braces

def count : Braces → Nat
  | one => 1
  | two => 2

def closing (b : Braces) : List Char := List.replicate b.count closeBrace

end Braces

/-- How many characters come before the closing braces.  Inside a string
literal braces do not count; a backslash there takes the next character with it. -/
def expressionLength (closing : List Char) : Option Char → List Char → Option Nat
  | _, [] => none
  | some _, '\\' :: [] => none
  | some q, '\\' :: _ :: cs => (expressionLength closing (some q) cs).map (· + 2)
  | some q, c :: cs =>
      (expressionLength closing (if c = q then none else some q) cs).map (· + 1)
  | none, c :: cs =>
      if c = '"' ∨ c = '\'' then (expressionLength closing (some c) cs).map (· + 1)
      else if closing.isPrefixOf (c :: cs) then some 0
      else (expressionLength closing none cs).map (· + 1)

/-- A binding, from its opening braces on. -/
def scanBinding (braces : Braces) (start : Cursor) :
    Except SyntaxError (BindingSource × Cursor) := do
  let word := (start.skip braces.count).skipBlank
  let (name, c) := word.takeWhile isIdentContinue
  match BindingKind.ofWord? (String.ofList name) with
  | none => fault word.pos (.unknownBindingKind (String.ofList name))
  | some kind =>
      let c := c.skipBlank
      match c.skipChar? ':' with
      | none => fault c.pos (.colonExpected c.rest.head?)
      | some c =>
          let body := c.skipBlank
          match expressionLength braces.closing none body.rest with
          | none => fault start.pos .unclosedBinding
          | some length =>
              let expression := String.ofList (Text.trimEndChars (body.rest.take length))
              .ok (⟨kind, expression, start.pos.span, body.pos.span⟩,
                body.skip (length + braces.count))

/-! ## §2. Names and attributes. -/

/-- A character of an element name. -/
def isNameChar (c : Char) : Bool := isIdentContinue c || c == '-' || c == '.'

/-- The next character may start an identifier. -/
def startsIdent (cs : List Char) : Bool := cs.head?.any isIdentStart

/-- An element name, with a name space if a colon and another name follow. -/
def scanName (start : Cursor) : Except SyntaxError (QName × Cursor) :=
  let (first, c) := start.takeWhile isNameChar
  if first.isEmpty then fault start.pos .elementNameExpected
  else
    match c.skipChar? ':' with
    | some after =>
        if startsIdent after.rest then
          let (second, c) := after.takeWhile isNameChar
          .ok (⟨some (String.ofList first), String.ofList second⟩, c)
        else .ok (⟨none, String.ofList first⟩, c)
    | none => .ok (⟨none, String.ofList first⟩, c)

/-- A character of an attribute name. -/
def isAttributeChar (c : Char) : Bool :=
  !(Text.isBlank c || c == '=' || c == '>' || c == '/' || c == '<' || c == '"' || c == '\'')

/-- An attribute name, cut at its first colon if both parts are there. -/
def attributeName (cs : List Char) : QName :=
  let space := cs.takeWhile (· != ':')
  let name := (cs.dropWhile (· != ':')).drop 1
  if space.isEmpty || name.isEmpty then ⟨none, String.ofList cs⟩
  else ⟨some (String.ofList space), String.ofList name⟩

/-- An attribute value after its quote: a binding that ends right before the
closing quote, or the text up to it. -/
def scanQuoted (start c : Cursor) (quote : Char) : Except SyntaxError (AttributeValue × Cursor) :=
  if c.rest.head? = some openBrace then do
    let (binding, after) ← scanBinding .one c
    match after.skipChar? quote with
    | some after => .ok (.binding binding, after)
    | none => .error ⟨.partialValue, binding.span⟩
  else
    let (text, after) := c.takeWhile (· != quote)
    match after.skipChar? quote with
    | some after => .ok (.text (String.ofList text), after)
    | none => fault start.pos .unterminatedValue

/-- A character of a value without quotes. -/
def isBareValueChar (c : Char) : Bool := !(Text.isBlank c || c == '>' || c == '/')

/-- An attribute value: quoted, a binding, or a run of characters. -/
def scanValue (start : Cursor) : Except SyntaxError (AttributeValue × Cursor) :=
  match start.rest.head? with
  | some '"' => scanQuoted start (start.skip 1) '"'
  | some '\'' => scanQuoted start (start.skip 1) '\''
  | some c =>
      if c = openBrace then
        (scanBinding .one start).map (fun (binding, after) => (.binding binding, after))
      else bareValue
  | none => bareValue
where
  bareValue : Except SyntaxError (AttributeValue × Cursor) :=
    let (text, after) := start.takeWhile isBareValueChar
    .ok (.text (String.ofList text), after)

/-- An attribute, its value after an equals sign.  Blanks after the name belong
to the attribute. -/
def scanAttribute (start : Cursor) : Except SyntaxError (Attribute × Cursor) := do
  let (raw, c) := start.takeWhile isAttributeChar
  if raw.isEmpty then
    fault start.pos (.unexpectedInTag (c.rest.head?.getD '\x00'))
  else
    let c := c.skipBlank
    let (value, c) ← match c.skipChar? '=' with
      | some after => scanValue after.skipBlank
      | none => .ok (.bare, c)
    .ok (⟨attributeName raw, value, start.pos.spanTo c.pos⟩, c)

/-! ## §3. Tags and comments. -/

/-- The attributes of the tag that starts at `start`, whether the tag closes
itself, and the cursor after it.  Every round takes at least one character. -/
def scanAttributes (start : Position) :
    Nat → Cursor → Except SyntaxError (List Attribute × Bool × Cursor)
  | 0, _ => fault start .unterminatedTag
  | rounds + 1, c => do
      let c := c.skipBlank
      if c.startsWith ['/', '>'] then .ok ([], true, c.skip 2)
      else if c.rest.head? = some '>' then .ok ([], false, c.skip 1)
      else if c.rest.isEmpty || c.rest.head? == some '<' then fault start .unterminatedTag
      else
        let (found, c) ← scanAttribute c
        let (more, selfClosing, c) ← scanAttributes start rounds c
        .ok (found :: more, selfClosing, c)

/-- A start tag. -/
def scanStartTag (start : Cursor) : Except SyntaxError (StartTag × Cursor) := do
  let (name, c) ← scanName (start.skip 1)
  let (attributes, selfClosing, c) ← scanAttributes start.pos (c.rest.length + 1) c
  .ok (⟨name, attributes, selfClosing, start.pos.spanTo c.pos⟩, c)

/-- An end tag. -/
def scanEndTag (start : Cursor) : Except SyntaxError (EndTag × Cursor) := do
  let (name, c) ← scanName (start.skip 2)
  match c.skipBlank.skipChar? '>' with
  | some c => .ok (⟨name, start.pos.spanTo c.pos⟩, c)
  | none => fault start.pos .unterminatedTag

/-- How many characters a comment takes after its opening, its end included. -/
def commentLength : List Char → Option Nat
  | [] => none
  | c :: cs =>
      if ['-', '-', '>'].isPrefixOf (c :: cs) then some 3 else (commentLength cs).map (· + 1)

/-- Pass over a comment. -/
def skipComment (start : Cursor) : Except SyntaxError Cursor :=
  let body := start.skip 4
  match commentLength body.rest with
  | some length => .ok (body.skip length)
  | none => fault start.pos .unterminatedComment

/-! ## §4. Text. -/

/-- Something other than text starts here: a tag, a comment or a binding. -/
def endsText : List Char → Bool
  | '<' :: c :: _ => isIdentStart c || c == '/' || c == '!'
  | c :: d :: _ => c == openBrace && d == openBrace
  | _ => false

/-- How many characters belong to a text that has already begun. -/
def textLength : List Char → Nat
  | [] => 0
  | c :: cs => if endsText (c :: cs) then 0 else textLength cs + 1

/-- A text, which always takes at least one character. -/
def scanText (start : Cursor) : Token × Cursor :=
  let length := textLength start.rest.tail + 1
  let stop := start.skip length
  (.text (String.ofList (start.rest.take length)) (start.pos.spanTo stop.pos), stop)

/-! ## §5. Files. -/

/-- The directives at the top of a file, and the cursor after them.  Blanks
after the last directive belong to the content. -/
def scanDirectives : Nat → Cursor → Except SyntaxError (List Directive × Cursor)
  | 0, c => .ok ([], c)
  | rounds + 1, c => do
      let start := c.skipBlank
      match start.skipChar? '@' with
      | none => .ok ([], c)
      | some after =>
          let (name, after) := after.takeWhile isIdentContinue
          if name.isEmpty then fault start.pos .directiveNameMissing
          else
            let after := after.skipWhile (fun c => c == ' ' || c == '\t')
            let (value, after) := after.takeWhile (fun c => c != '\n' && c != '\r')
            let directive : Directive := ⟨String.ofList name,
              String.ofList (Text.trimChars value), start.pos.spanTo after.pos⟩
            let (more, after) ← scanDirectives rounds after
            .ok (directive :: more, after)

/-- One piece of the content: its token, none for a comment, and the cursor
after it. -/
def scanPiece (c : Cursor) : Except SyntaxError (Option Token × Cursor) :=
  if c.startsWith ['<', '!', '-', '-'] then (skipComment c).map (none, ·)
  else if c.startsWith ['<', '/'] then
    (scanEndTag c).map (fun (tag, after) => (some (.endTag tag), after))
  else if c.rest.head? = some '<' ∧ startsIdent c.rest.tail then
    (scanStartTag c).map (fun (tag, after) => (some (.startTag tag), after))
  else if c.startsWith [openBrace, openBrace] then
    (scanBinding .two c).map (fun (source, after) => (some (.binding source), after))
  else
    let (token, after) := scanText c
    .ok (some token, after)

/-- The tokens of the content.  Every round takes at least one character. -/
def scanContent : Nat → Cursor → Except SyntaxError (List Token)
  | 0, _ => .ok []
  | rounds + 1, c => do
      if c.rest.isEmpty then .ok []
      else
        let (token, after) ← scanPiece c
        let more ← scanContent rounds after
        .ok (token.toList ++ more)

/-- **All tokens of a view file.** -/
def tokenize (source : String) : Except SyntaxError (List Token) := do
  let cs := source.toList
  let (directives, content) ← scanDirectives (cs.length + 1) (Cursor.ofChars cs)
  let tokens ← scanContent content.rest.length content
  .ok (directives.map .directive ++ tokens)

end BoundMarkup.Markup
