/-
  BoundMarkup.Binding.Lexer
  ─────────────────────────
  **CUTTING A BINDING INTO TOKENS.**

  `lexeme?` looks at the front of the text and says what kind of token stands
  there and how many characters it covers; `lex` repeats it, skipping blanks,
  until the text is used up.  Operators take the longest spelling, except that
  `>` is always taken alone unless `=` follows.
-/
import BoundMarkup.Source.Cursor
import BoundMarkup.Source.Identifier
import BoundMarkup.Source.SyntaxError

namespace BoundMarkup.Binding

/-! ## §1. Faults relative to the front of the text. -/

/-- Why no token stands at the front of the text. -/
inductive LexFault where
  | unexpectedChar (ch : Char)
  | unterminatedString
  /-- The exponent of a number has no digits, after `length` characters. -/
  | missingExponent (length : Nat)
  /-- A number of `length` characters runs into a name character. -/
  | numberSuffix (length : Nat) (ch : Char)
  deriving DecidableEq, Repr

/-- The fault at its place in the text. -/
def LexFault.at (f : LexFault) (p : Position) : LexError :=
  match f with
  | unexpectedChar ch => .unexpectedChar ch p.span
  | unterminatedString => .unterminatedString p.span
  | missingExponent length => .missingExponent ⟨p.line, p.col, length⟩
  | numberSuffix length ch => .numberSuffix ch ⟨p.line, p.col, length⟩

/-! ## §2. Names, numbers and strings. -/

/-- The kind of a name: one of three words, or an identifier. -/
def wordKind (cs : List Char) : TokenKind :=
  if cs = "true".toList then .true_
  else if cs = "false".toList then .false_
  else if cs = "null".toList then .null_
  else .identifier

/-- How many digits stand in front. -/
def digitRun (cs : List Char) : Nat := (cs.takeWhile Char.isDigit).length

/-- How many characters a fraction takes: a point and at least one digit. -/
def fractionLength : List Char → Nat
  | '.' :: cs => if digitRun cs = 0 then 0 else digitRun cs + 1
  | _ => 0

/-- How many characters an exponent takes: a mark, an optional sign and digits. -/
def exponentLength : List Char → Except Nat Nat
  | c :: cs =>
      if c = 'e' ∨ c = 'E' then
        let sign := if cs.head? = some '-' ∨ cs.head? = some '+' then 1 else 0
        let digits := digitRun (cs.drop sign)
        if digits = 0 then .error (sign + 1) else .ok (sign + digits + 1)
      else .ok 0
  | [] => .ok 0

/-- The kind of a number once its suffix is known, and the suffix's length. -/
def numberKind (kind : TokenKind) : Option Char → TokenKind × Nat
  | some 'm' | some 'M' => (.decimalLiteral, 1)
  | some 'l' | some 'L' => if kind = .intLiteral then (kind, 1) else (kind, 0)
  | some 'd' | some 'D' => (.realLiteral, 1)
  | _ => (kind, 0)

/-- The number in front: its kind and length. -/
def numberLexeme (cs : List Char) : Except LexFault (TokenKind × Nat) := do
  let whole := digitRun cs
  let mantissa := whole + fractionLength (cs.drop whole)
  match exponentLength (cs.drop mantissa) with
  | .error length => .error (.missingExponent (mantissa + length))
  | .ok exponent =>
      let digits := mantissa + exponent
      let kind := if digits = whole then .intLiteral else .realLiteral
      let (kind, suffix) := numberKind kind (cs.drop digits).head?
      match (cs.drop (digits + suffix)).head? with
      | some c =>
          if isIdentContinue c then .error (.numberSuffix (digits + suffix) c)
          else .ok (kind, digits + suffix)
      | none => .ok (kind, digits + suffix)

/-- How many characters follow up to the closing quote, that quote included.
A backslash takes the next character with it. -/
def quoteLength (quote : Char) : List Char → Option Nat
  | [] => none
  | '\\' :: [] => none
  | '\\' :: _ :: cs => (quoteLength quote cs).map (· + 2)
  | c :: cs => if c = quote then some 1 else (quoteLength quote cs).map (· + 1)

/-! ## §3. Operators. -/

/-- The kind and length of an operator or punctuation mark. -/
def operatorLexeme : List Char → Option (TokenKind × Nat)
  | '?' :: '?' :: _ => some (.questionQuestion, 2)
  | '!' :: '=' :: _ => some (.bangEqual, 2)
  | '&' :: '&' :: _ => some (.ampAmp, 2)
  | '|' :: '|' :: _ => some (.pipePipe, 2)
  | '<' :: '=' :: _ => some (.lessEqual, 2)
  | '<' :: '<' :: _ => some (.lessLess, 2)
  | '>' :: '=' :: _ => some (.greaterEqual, 2)
  | '=' :: '=' :: _ => some (.equalEqual, 2)
  | '.' :: _ => some (.dot, 1)
  | ',' :: _ => some (.comma, 1)
  | ':' :: _ => some (.colon, 1)
  | '(' :: _ => some (.leftParen, 1)
  | ')' :: _ => some (.rightParen, 1)
  | '[' :: _ => some (.leftBracket, 1)
  | ']' :: _ => some (.rightBracket, 1)
  | '+' :: _ => some (.plus, 1)
  | '-' :: _ => some (.minus, 1)
  | '*' :: _ => some (.star, 1)
  | '/' :: _ => some (.slash, 1)
  | '%' :: _ => some (.percent, 1)
  | '~' :: _ => some (.tilde, 1)
  | '^' :: _ => some (.caret, 1)
  | '?' :: _ => some (.question, 1)
  | '!' :: _ => some (.bang, 1)
  | '&' :: _ => some (.amp, 1)
  | '|' :: _ => some (.pipe, 1)
  | '<' :: _ => some (.less, 1)
  | '>' :: _ => some (.greater, 1)
  | '=' :: _ => some (.equal, 1)
  | _ => none

/-! ## §4. The lexer. -/

/-- The token in front of a non-blank text: its kind and length. -/
def lexeme? (c : Char) (cs : List Char) : Except LexFault (TokenKind × Nat) :=
  if isIdentStart c then
    let word := (c :: cs).takeWhile isIdentContinue
    .ok (wordKind word, word.length)
  else if c.isDigit then numberLexeme (c :: cs)
  else if c = '"' ∨ c = '\'' then
    match quoteLength c cs with
    | some n => .ok (.stringLiteral, n + 1)
    | none => .error .unterminatedString
  else
    match operatorLexeme (c :: cs) with
    | some found => .ok found
    | none => .error (.unexpectedChar c)

/-- The tokens from a cursor on.  Every round but the last takes at least one
character, so the characters that are left bound the number of rounds. -/
def lexFrom : Nat → Cursor → Except LexError (List Token)
  | 0, at_ => .ok [Token.eof at_.pos.span]
  | rounds + 1, at_ =>
      let start := at_.skipBlank
      match start.rest with
      | [] => .ok [Token.eof start.pos.span]
      | c :: cs =>
          match lexeme? c cs with
          | .error fault => .error (fault.at start.pos)
          | .ok (kind, length) =>
              let stop := start.skip length
              let token : Token :=
                ⟨kind, String.ofList (start.rest.take length), start.pos.spanTo stop.pos⟩
              (lexFrom rounds stop).map (token :: ·)

/-- **All tokens of a binding**, the end of the binding last. -/
def lex (source : String) : Except LexError (List Token) :=
  let cs := source.toList
  lexFrom (cs.length + 1) (Cursor.ofChars cs)

end BoundMarkup.Binding
