/-
  BoundMarkup.Binding.Parser
  ──────────────────────────
  **FROM TOKENS TO EXPRESSIONS.**

  Operands are extended by postfix forms and operators as long as these bind at
  least as tightly as a minimum power; a right operand is read with the right
  power of its operator as the minimum.  After a name, `<` is tried as the start
  of a list of type arguments, which counts only if `(` follows its end;
  otherwise it is a comparison.
-/
import BoundMarkup.Binding.Expr
import BoundMarkup.Binding.Lexer
import BoundMarkup.Binding.Literal

namespace BoundMarkup.Binding

/-! ## §1. Looking at tokens. -/

/-- The next token. -/
def next : List Token → Token
  | [] => Token.missing
  | t :: _ => t

/-- The kind of the next token. -/
def nextKind (ts : List Token) : TokenKind := (next ts).kind

/-- Two adjacent `>` are a right shift. -/
def atShiftRight : List Token → Bool
  | a :: b :: _ =>
      a.kind == .greater && b.kind == .greater && a.span.line == b.span.line
        && a.span.col + 1 == b.span.col
  | _ => false

/-- A fault at the next token. -/
def faultAt (ts : List Token) (cause : TokenKind → SyntaxCause) : Except SyntaxError α :=
  .error ⟨cause (nextKind ts), (next ts).span⟩

/-- The next token if it is of the given kind, and the tokens after it. -/
def expect (kind : TokenKind) : List Token → Except SyntaxError (Token × List Token)
  | t :: ts => if t.kind = kind then .ok (t, ts) else faultAt (t :: ts) (.expected kind)
  | [] => faultAt [] (.expected kind)

/-! ## §2. Type arguments. -/

/-- The rest of a dotted type name that starts with `name`, and where it ends. -/
def dottedName (name : String) (last : Span) : List Token → String × Span × List Token
  | d :: i :: ts =>
      if d.kind = .dot ∧ i.kind = .identifier then
        dottedName (name ++ "." ++ i.lexeme) i.span ts
      else (name, last, d :: i :: ts)
  | ts => (name, last, ts)

/-- The suffixes of a type, and where they end. -/
def typeSuffixes (last : Span) : List Token → List TypeSuffix × Span × List Token
  | a :: b :: ts =>
      if a.kind = .leftBracket ∧ b.kind = .rightBracket then
        let (suffixes, last, ts) := typeSuffixes b.span ts
        (.array :: suffixes, last, ts)
      else if a.kind = .question then
        let (suffixes, last, ts) := typeSuffixes a.span (b :: ts)
        (.nullable :: suffixes, last, ts)
      else ([], last, a :: b :: ts)
  | ts => ([], last, ts)

mutual

/-- A type, its last position, and the tokens after it. -/
def typeExpr? : Nat → List Token → Option (TypeExpr × List Token)
  | rounds + 1, first :: ts =>
      if first.kind ≠ .identifier then none
      else
        let (name, last, ts) := dottedName first.lexeme first.span ts
        let args? :=
          if nextKind ts = .less then typeArgs? rounds ts else some ([], last, ts)
        args?.bind (fun (args, last, ts) =>
          let (suffixes, last, ts) := typeSuffixes last ts
          some (.mk name args suffixes (first.span.merge last), ts))
  | _, _ => none

/-- A list of types in angle brackets, where it ends, and the tokens after it. -/
def typeArgs? : Nat → List Token → Option (List TypeExpr × Span × List Token)
  | rounds + 1, open_ :: ts =>
      if open_.kind ≠ .less then none
      else (typeList? rounds ts).bind (fun (args, ts) =>
        match ts with
        | close :: ts => if close.kind = .greater then some (args, close.span, ts) else none
        | [] => none)
  | _, _ => none

/-- One or more types between commas. -/
def typeList? : Nat → List Token → Option (List TypeExpr × List Token)
  | rounds + 1, ts =>
      (typeExpr? rounds ts).bind (fun (t, ts) =>
        match ts with
        | comma :: rest =>
            if comma.kind = .comma then
              (typeList? rounds rest).map (fun (types, ts) => (t :: types, ts))
            else some ([t], comma :: rest)
        | [] => some ([t], []))
  | 0, _ => none

end

/-- The type arguments of a call: a list in angle brackets directly followed by
`(`.  Without one, nothing is read and the name ends at `last`. -/
def callTypeArgs (last : Span) (ts : List Token) : List TypeExpr × Span × List Token :=
  match typeArgs? (3 * ts.length + 3) ts with
  | some (args, close, rest) =>
      if nextKind rest = .leftParen then (args, close, rest) else ([], last, ts)
  | none => ([], last, ts)

/-! ## §3. Expressions. -/

/-- The operator at the front of the tokens, with the tokens after it. -/
def operator? (ts : List Token) : Option (BinaryOp × List Token) :=
  if atShiftRight ts then some (.shiftRight, ts.drop 2)
  else (nextKind ts).binaryOp?.map (·, ts.drop 1)

/-- The name of an argument written before a colon, and the tokens after both. -/
def argumentName : List Token → Option Ident × List Token
  | name :: colon :: ts =>
      if name.kind = .identifier ∧ colon.kind = .colon then
        (some ⟨name.lexeme, name.span⟩, ts)
      else (none, name :: colon :: ts)
  | ts => (none, ts)

mutual

/-- An expression whose operators bind with at least the power `least`. -/
def expr : Nat → Nat → List Token → Except SyntaxError (Expr × List Token)
  | 0, _, ts => faultAt ts .expressionExpected
  | rounds + 1, least, ts => do
      let (left, ts) ← operand rounds ts
      extend rounds least left ts

/-- An operand: a literal, a name, parentheses, or a unary operator before one. -/
def operand : Nat → List Token → Except SyntaxError (Expr × List Token)
  | rounds + 1, t :: ts =>
      match t.kind.unaryOp? with
      | some op => do
          let (inner, ts) ← expr rounds unaryPower ts
          .ok (.unary op inner (t.span.merge inner.span), ts)
      | none =>
          if t.kind.isLiteral then
            match constantOf t with
            | .ok value => .ok (.literal value t.span, ts)
            | .error cause => .error ⟨cause, t.span⟩
          else if t.kind = .identifier then
            let (typeArgs, last, ts) := callTypeArgs t.span ts
            let span := if typeArgs.isEmpty then t.span else t.span.merge last
            .ok (.ident ⟨t.lexeme, t.span⟩ typeArgs span, ts)
          else if t.kind = .leftParen then do
            let (inner, ts) ← expr rounds 0 ts
            let (close, ts) ← expect .rightParen ts
            .ok (.paren inner (t.span.merge close.span), ts)
          else faultAt (t :: ts) .expressionExpected
  | _, ts => faultAt ts .expressionExpected

/-- `left` with everything after it that binds with at least the power `least`. -/
def extend : Nat → Nat → Expr → List Token → Except SyntaxError (Expr × List Token)
  | 0, _, _, ts => faultAt ts .expressionExpected
  | rounds + 1, least, left, ts =>
      match nextKind ts with
      | .dot =>
          if postfixPower < least then .ok (left, ts)
          else
            match ts.tail with
            | name :: rest =>
                if name.kind = .identifier then
                  let (typeArgs, last, rest) := callTypeArgs name.span rest
                  let member := Expr.member left ⟨name.lexeme, name.span⟩ typeArgs
                    (left.span.merge last)
                  extend rounds least member rest
                else faultAt ts.tail .memberNameExpected
            | [] => faultAt [] .memberNameExpected
      | .leftParen =>
          if postfixPower < least then .ok (left, ts)
          else do
            let (args, rest) ← arguments rounds ts.tail
            let (close, rest) ← expect .rightParen rest
            extend rounds least (.call left args (left.span.merge close.span)) rest
      | .leftBracket =>
          if postfixPower < least then .ok (left, ts)
          else do
            let (index, rest) ← expr rounds 0 ts.tail
            let (close, rest) ← expect .rightBracket rest
            extend rounds least (.index left index (left.span.merge close.span)) rest
      | .equal =>
          if assignPower.1 < least then .ok (left, ts)
          else do
            let (value, rest) ← expr rounds assignPower.2 ts.tail
            extend rounds least (.assign left value (left.span.merge value.span)) rest
      | _ =>
          match operator? ts with
          | none => .ok (left, ts)
          | some (op, rest) =>
              if op.power.1 < least then .ok (left, ts)
              else do
                let (right, rest) ← expr rounds op.power.2 rest
                extend rounds least (.binary left op right (left.span.merge right.span)) rest

/-- The arguments of a call, up to its closing parenthesis. -/
def arguments : Nat → List Token → Except SyntaxError (List Argument × List Token)
  | 0, ts => faultAt ts .expressionExpected
  | rounds + 1, ts =>
      if nextKind ts = .rightParen then .ok ([], ts) else argumentList rounds ts

/-- One or more arguments between commas. -/
def argumentList : Nat → List Token → Except SyntaxError (List Argument × List Token)
  | 0, ts => faultAt ts .expressionExpected
  | rounds + 1, ts => do
      let (name, rest) := argumentName ts
      let (value, rest) ← expr rounds 0 rest
      let argument := Argument.mk name value ((next ts).span.merge value.span)
      if nextKind rest = .comma then
        let (more, rest) ← argumentList rounds rest.tail
        .ok (argument :: more, rest)
      else .ok ([argument], rest)

end

/-! ## §4. Whole bindings. -/

/-- A complete expression: nothing but the end of the binding may follow it.
No chain of calls takes more than five rounds for one token. -/
def parseTokens (ts : List Token) : Except SyntaxError Expr := do
  let (e, rest) ← expr (5 * ts.length + 5) 0 ts
  if nextKind rest = .eof then .ok e else faultAt rest .trailing

/-- **The expression written in a binding.**  Positions count from its start. -/
def parse (source : String) : Except SyntaxError Expr :=
  match lex source with
  | .error e => .error (.ofLex e)
  | .ok ts => parseTokens ts

end BoundMarkup.Binding
