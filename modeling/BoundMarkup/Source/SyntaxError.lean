/-
  BoundMarkup.Source.SyntaxError
  ──────────────────────────────
  **WHAT CAN BE WRONG WITH THE TEXT OF A VIEW.**

  Faults of the binding lexer, of the binding parser and of the markup scanner
  are causes.  Each cause has a category and a message; the wording is decided
  here and nowhere else.
-/
import BoundMarkup.Binding.Token

namespace BoundMarkup

open Binding (TokenKind)

/-! ## §1. The binding lexer. -/

/-- A fault found while cutting a binding into tokens. -/
inductive LexError where
  | unexpectedChar (ch : Char) (span : Span)
  | unterminatedString (span : Span)
  | missingExponent (span : Span)
  | numberSuffix (ch : Char) (span : Span)
  deriving DecidableEq, Repr

namespace LexError

def span : LexError → Span
  | unexpectedChar _ span => span
  | unterminatedString span => span
  | missingExponent span => span
  | numberSuffix _ span => span

def message : LexError → String
  | unexpectedChar ch span => "unexpected character '" ++ ch.toString ++ "' at " ++ span.text
  | unterminatedString span => "unterminated string at " ++ span.text
  | missingExponent span => "invalid number at " ++ span.text ++ ": missing exponent digits"
  | numberSuffix ch span =>
      "invalid number at " ++ span.text ++ ": unexpected suffix '" ++ ch.toString ++ "'"

end LexError

/-! ## §2. Categories. -/

/-- The category of a syntax error. -/
inductive SyntaxErrorKind where
  | expectedToken | unexpectedToken | unexpectedEof
  | expectedExpression | expectedIdentifier
  | invalidBinding | invalidDirective | mismatchedElement | invalidLiteral
  deriving DecidableEq, Repr

/-- How diagnostics call the category. -/
def SyntaxErrorKind.text : SyntaxErrorKind → String
  | expectedToken => "expected token"
  | unexpectedToken => "unexpected token"
  | unexpectedEof => "unexpected end of input"
  | expectedExpression => "expected expression"
  | expectedIdentifier => "expected identifier"
  | invalidBinding => "invalid binding"
  | invalidDirective => "invalid directive"
  | mismatchedElement => "mismatched element"
  | invalidLiteral => "invalid literal"

/-! ## §3. Causes. -/

/-- Why a text is not well formed. -/
inductive SyntaxCause where
  /-- The binding does not split into tokens. -/
  | lexical (error : LexError)
  /-- Tokens are left after a complete expression. -/
  | trailing (found : TokenKind)
  | expected (kind found : TokenKind)
  | expressionExpected (found : TokenKind)
  | memberNameExpected (found : TokenKind)
  | literalOutOfRange (lexeme : String)
  | literalNotNumber (lexeme : String)
  | directiveNameMissing
  | unterminatedComment
  | elementNameExpected
  | unterminatedTag
  | unexpectedInTag (found : Char)
  | unterminatedValue
  /-- Text follows a binding inside a quoted attribute value. -/
  | partialValue
  | unknownBindingKind (name : String)
  | colonExpected (found : Option Char)
  | unclosedBinding
  deriving DecidableEq, Repr

namespace SyntaxCause

def kind : SyntaxCause → SyntaxErrorKind
  | lexical (.unexpectedChar ..) => .unexpectedToken
  | lexical (.unterminatedString ..) => .unexpectedEof
  | lexical (.missingExponent ..) => .invalidLiteral
  | lexical (.numberSuffix ..) => .invalidLiteral
  | trailing _ => .unexpectedToken
  | expected _ found => if found = .eof then .unexpectedEof else .expectedToken
  | expressionExpected found => if found = .eof then .unexpectedEof else .expectedExpression
  | memberNameExpected _ => .expectedIdentifier
  | literalOutOfRange _ => .invalidLiteral
  | literalNotNumber _ => .invalidLiteral
  | directiveNameMissing => .invalidDirective
  | unterminatedComment => .unexpectedEof
  | elementNameExpected => .expectedIdentifier
  | unterminatedTag => .unexpectedEof
  | unexpectedInTag _ => .unexpectedToken
  | unterminatedValue => .unexpectedEof
  | partialValue => .invalidBinding
  | unknownBindingKind _ => .invalidBinding
  | colonExpected _ => .expectedToken
  | unclosedBinding => .invalidBinding

/-- The wording, without the category. -/
def detail : SyntaxCause → String
  | lexical error => error.message
  | trailing found => "unexpected " ++ found.description
  | expected kind found => "expected " ++ kind.description ++ ", found " ++ found.description
  | expressionExpected found => "expected expression, found " ++ found.description
  | memberNameExpected found => "expected member name, found " ++ found.description
  | literalOutOfRange lexeme => "invalid literal '" ++ lexeme ++ "': out of range"
  | literalNotNumber lexeme => "invalid literal '" ++ lexeme ++ "': not a number"
  | directiveNameMissing => "expected directive name after '@'"
  | unterminatedComment => "unterminated comment"
  | elementNameExpected => "expected element name"
  | unterminatedTag => "tag is not terminated with '>'"
  | unexpectedInTag found => "unexpected '" ++ found.toString ++ "' in tag"
  | unterminatedValue => "unterminated attribute value"
  | partialValue => "binding must be the whole attribute value"
  | unknownBindingKind name => "unknown binding kind '" ++ name ++ "'"
  | colonExpected (some found) => "expected ':', found '" ++ found.toString ++ "'"
  | colonExpected none => "expected ':', found end of file"
  | unclosedBinding => "binding is not closed"

end SyntaxCause

/-- A cause and the place it was found at. -/
structure SyntaxError where
  cause : SyntaxCause
  span : Span
  deriving DecidableEq, Repr

namespace SyntaxError

def kind (e : SyntaxError) : SyntaxErrorKind := e.cause.kind

def message (e : SyntaxError) : String := e.kind.text ++ ": " ++ e.cause.detail

/-- A lexer fault, at its own place. -/
def ofLex (e : LexError) : SyntaxError := ⟨.lexical e, e.span⟩

end SyntaxError

end BoundMarkup
