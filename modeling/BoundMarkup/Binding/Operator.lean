/-
  BoundMarkup.Binding.Operator
  ────────────────────────────
  **THE OPERATORS OF BINDING EXPRESSIONS.**

  Each operator has a spelling, a pair of binding powers that fix precedence and
  associativity, and the name of the static method that overloads it.
-/

namespace BoundMarkup

/-! ## §1. Binary operators. -/

inductive BinaryOp where
  | coalesce | orElse | andAlso
  | bitOr | bitXor | bitAnd
  | equal | notEqual
  | less | lessEqual | greater | greaterEqual
  | shiftLeft | shiftRight
  | add | sub
  | mul | div | mod
  deriving DecidableEq, Repr

namespace BinaryOp

/-- All binary operators, loosest first. -/
def all : List BinaryOp :=
  [coalesce, orElse, andAlso, bitOr, bitXor, bitAnd, equal, notEqual, less, lessEqual,
   greater, greaterEqual, shiftLeft, shiftRight, add, sub, mul, div, mod]

/-- Left and right binding power.  An operator whose right power is the larger
groups to the left; only `??` groups to the right. -/
def power : BinaryOp → Nat × Nat
  | coalesce => (4, 3)
  | orElse => (5, 6)
  | andAlso => (7, 8)
  | bitOr => (9, 10)
  | bitXor => (11, 12)
  | bitAnd => (13, 14)
  | equal | notEqual => (15, 16)
  | less | lessEqual | greater | greaterEqual => (17, 18)
  | shiftLeft | shiftRight => (19, 20)
  | add | sub => (21, 22)
  | mul | div | mod => (23, 24)

/-- The operator as written. -/
def text : BinaryOp → String
  | coalesce => "??"
  | orElse => "||"
  | andAlso => "&&"
  | bitOr => "|"
  | bitXor => "^"
  | bitAnd => "&"
  | equal => "=="
  | notEqual => "!="
  | less => "<"
  | lessEqual => "<="
  | greater => ">"
  | greaterEqual => ">="
  | shiftLeft => "<<"
  | shiftRight => ">>"
  | add => "+"
  | sub => "-"
  | mul => "*"
  | div => "/"
  | mod => "%"

/-- An ordering comparison. -/
def isComparison : BinaryOp → Bool
  | less | lessEqual | greater | greaterEqual => true
  | _ => false

/-- `==` or `!=`. -/
def isEquality : BinaryOp → Bool
  | equal | notEqual => true
  | _ => false

/-- The comparison with its sides exchanged. -/
def flip : BinaryOp → BinaryOp
  | less => greater
  | lessEqual => greaterEqual
  | greater => less
  | greaterEqual => lessEqual
  | op => op

/-- The static method that overloads the operator; the short-circuiting ones
cannot be overloaded. -/
def methodName? : BinaryOp → Option String
  | coalesce | orElse | andAlso => none
  | add => some "op_Addition"
  | sub => some "op_Subtraction"
  | mul => some "op_Multiply"
  | div => some "op_Division"
  | mod => some "op_Modulus"
  | bitAnd => some "op_BitwiseAnd"
  | bitOr => some "op_BitwiseOr"
  | bitXor => some "op_ExclusiveOr"
  | shiftLeft => some "op_LeftShift"
  | shiftRight => some "op_RightShift"
  | equal => some "op_Equality"
  | notEqual => some "op_Inequality"
  | less => some "op_LessThan"
  | lessEqual => some "op_LessThanOrEqual"
  | greater => some "op_GreaterThan"
  | greaterEqual => some "op_GreaterThanOrEqual"

end BinaryOp

/-! ## §2. Unary operators. -/

inductive UnaryOp where
  | not | neg | plus | bitNot
  deriving DecidableEq, Repr

namespace UnaryOp

/-- All unary operators. -/
def all : List UnaryOp := [not, neg, plus, bitNot]

/-- The operator as written. -/
def text : UnaryOp → String
  | not => "!"
  | neg => "-"
  | plus => "+"
  | bitNot => "~"

/-- The static method that overloads the operator. -/
def methodName : UnaryOp → String
  | not => "op_LogicalNot"
  | neg => "op_UnaryNegation"
  | plus => "op_UnaryPlus"
  | bitNot => "op_OnesComplement"

end UnaryOp

/-! ## §3. The other powers. -/

/-- Left and right power of assignment: loosest, and grouping to the right. -/
def assignPower : Nat × Nat := (2, 1)

/-- The power with which a unary operator binds its operand. -/
def unaryPower : Nat := 25

/-- The power of member access, calls and indexing. -/
def postfixPower : Nat := 27

end BoundMarkup
