/-
  BoundMarkup.Binding.Token
  ─────────────────────────
  **THE TOKENS OF BINDING EXPRESSIONS.**

  A token is a kind, the text it was read from, and where that text stands.
  There is no token for a right shift: the parser joins two adjacent `>`, so
  that nested generic argument lists can close.
-/
import BoundMarkup.Binding.Operator
import BoundMarkup.Source.Span

namespace BoundMarkup.Binding

/-- The kinds of tokens. -/
inductive TokenKind where
  | intLiteral | realLiteral | decimalLiteral | stringLiteral
  | identifier | true_ | false_ | null_
  | dot | comma | colon
  | leftParen | rightParen | leftBracket | rightBracket
  | question | questionQuestion
  | plus | minus | star | slash | percent | bang | tilde
  | amp | ampAmp | pipe | pipePipe | caret
  | less | lessEqual | lessLess | greater | greaterEqual
  | equal | equalEqual | bangEqual
  | eof
  deriving DecidableEq, Repr

namespace TokenKind

/-- How diagnostics call the kind. -/
def description : TokenKind → String
  | intLiteral | realLiteral | decimalLiteral => "number"
  | stringLiteral => "string"
  | identifier => "identifier"
  | true_ => "'true'"
  | false_ => "'false'"
  | null_ => "'null'"
  | dot => "'.'"
  | comma => "','"
  | colon => "':'"
  | leftParen => "'('"
  | rightParen => "')'"
  | leftBracket => "'['"
  | rightBracket => "']'"
  | question => "'?'"
  | questionQuestion => "'??'"
  | plus => "'+'"
  | minus => "'-'"
  | star => "'*'"
  | slash => "'/'"
  | percent => "'%'"
  | bang => "'!'"
  | tilde => "'~'"
  | amp => "'&'"
  | ampAmp => "'&&'"
  | pipe => "'|'"
  | pipePipe => "'||'"
  | caret => "'^'"
  | less => "'<'"
  | lessEqual => "'<='"
  | lessLess => "'<<'"
  | greater => "'>'"
  | greaterEqual => "'>='"
  | equal => "'='"
  | equalEqual => "'=='"
  | bangEqual => "'!='"
  | eof => "end of binding"

/-- The binary operator that one token stands for. -/
def binaryOp? : TokenKind → Option BinaryOp
  | questionQuestion => some .coalesce
  | pipePipe => some .orElse
  | ampAmp => some .andAlso
  | pipe => some .bitOr
  | caret => some .bitXor
  | amp => some .bitAnd
  | equalEqual => some .equal
  | bangEqual => some .notEqual
  | less => some .less
  | lessEqual => some .lessEqual
  | greater => some .greater
  | greaterEqual => some .greaterEqual
  | lessLess => some .shiftLeft
  | plus => some .add
  | minus => some .sub
  | star => some .mul
  | slash => some .div
  | percent => some .mod
  | _ => none

/-- The unary operator that a token stands for. -/
def unaryOp? : TokenKind → Option UnaryOp
  | bang => some .not
  | minus => some .neg
  | plus => some .plus
  | tilde => some .bitNot
  | _ => none

/-- The token is a constant by itself. -/
def isLiteral : TokenKind → Bool
  | intLiteral | realLiteral | decimalLiteral | stringLiteral | true_ | false_ | null_ => true
  | _ => false

end TokenKind

/-- A token, with the text it was read from. -/
structure Token where
  kind : TokenKind
  lexeme : String
  span : Span
  deriving DecidableEq, Repr

namespace Token

/-- The token at the end of a binding. -/
def eof (span : Span) : Token := ⟨.eof, "", span⟩

/-- What is read where no token is left. -/
def missing : Token := eof ⟨0, 0, 0⟩

end Token

end BoundMarkup.Binding
