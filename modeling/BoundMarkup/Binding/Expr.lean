/-
  BoundMarkup.Binding.Expr
  ────────────────────────
  **THE TREE OF A BINDING EXPRESSION.**

  Nodes keep what was written: parentheses, explicit type arguments and argument
  names are nodes or fields of their own.  `Expr.text` writes a tree back in
  source form; it adds no parentheses, because those of the source are nodes.
-/
import BoundMarkup.Binding.Operator
import BoundMarkup.Source.Span
import BoundMarkup.Types.Constant

namespace BoundMarkup.Binding

/-! ## §1. Trees. -/

/-- A name and where it stands. -/
structure Ident where
  name : String
  span : Span
  deriving DecidableEq, Repr

/-- What may follow a type name: `[]` or `?`. -/
inductive TypeSuffix where
  | array | nullable
  deriving DecidableEq, Repr

/-- A type written in an explicit list of type arguments. -/
inductive TypeExpr where
  | mk (name : String) (args : List TypeExpr) (suffixes : List TypeSuffix) (span : Span)
  deriving Repr

namespace TypeExpr

/-- The dotted name as written. -/
def name : TypeExpr → String
  | mk name _ _ _ => name

def args : TypeExpr → List TypeExpr
  | mk _ args _ _ => args

def suffixes : TypeExpr → List TypeSuffix
  | mk _ _ suffixes _ => suffixes

def span : TypeExpr → Span
  | mk _ _ _ span => span

end TypeExpr

mutual

/-- A binding expression. -/
inductive Expr where
  | literal (value : Constant) (span : Span)
  | ident (ident : Ident) (typeArgs : List TypeExpr) (span : Span)
  | member (target : Expr) (member : Ident) (typeArgs : List TypeExpr) (span : Span)
  | call (callee : Expr) (args : List Argument) (span : Span)
  | index (target index : Expr) (span : Span)
  | unary (op : UnaryOp) (operand : Expr) (span : Span)
  | binary (left : Expr) (op : BinaryOp) (right : Expr) (span : Span)
  | assign (target value : Expr) (span : Span)
  | paren (inner : Expr) (span : Span)
  deriving Repr

/-- A call argument, by position or by name. -/
inductive Argument where
  | mk (name : Option Ident) (value : Expr) (span : Span)
  deriving Repr

end

/-- The region a tree covers. -/
def Expr.span : Expr → Span
  | literal _ span => span
  | ident _ _ span => span
  | member _ _ _ span => span
  | call _ _ span => span
  | index _ _ span => span
  | unary _ _ span => span
  | binary _ _ _ span => span
  | assign _ _ span => span
  | paren _ span => span

/-! ## §2. Text. -/

def TypeSuffix.text : TypeSuffix → String
  | array => "[]"
  | nullable => "?"

mutual

/-- The type as written. -/
def TypeExpr.text : TypeExpr → String
  | .mk name args suffixes _ =>
      name ++ TypeExpr.listText args ++ String.join (suffixes.map TypeSuffix.text)

/-- A list of type arguments in angle brackets; nothing for none. -/
def TypeExpr.listText : List TypeExpr → String
  | [] => ""
  | t :: ts => "<" ++ Text.join ", " (t.text :: TypeExpr.texts ts) ++ ">"

/-- The texts of the types. -/
def TypeExpr.texts : List TypeExpr → List String
  | [] => []
  | t :: ts => t.text :: TypeExpr.texts ts

end

mutual

/-- The expression as source text. -/
def Expr.text : Expr → String
  | .literal value _ => value.text
  | .ident ident typeArgs _ => ident.name ++ TypeExpr.listText typeArgs
  | .member target member typeArgs _ =>
      target.text ++ "." ++ member.name ++ TypeExpr.listText typeArgs
  | .call callee args _ => callee.text ++ "(" ++ Text.join ", " (Argument.texts args) ++ ")"
  | .index target index _ => target.text ++ "[" ++ index.text ++ "]"
  | .unary op operand _ => op.text ++ operand.text
  | .binary left op right _ => left.text ++ " " ++ op.text ++ " " ++ right.text
  | .assign target value _ => target.text ++ " = " ++ value.text
  | .paren inner _ => "(" ++ inner.text ++ ")"

/-- The argument as source text. -/
def Argument.text : Argument → String
  | .mk (some name) value _ => name.name ++ ": " ++ value.text
  | .mk none value _ => value.text

/-- The texts of the arguments. -/
def Argument.texts : List Argument → List String
  | [] => []
  | a :: as => a.text :: Argument.texts as

end

end BoundMarkup.Binding
