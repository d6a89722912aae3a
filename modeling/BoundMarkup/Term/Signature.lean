/-
  BoundMarkup.Term.Signature
  ──────────────────────────
  **THE OPERATORS OF THE BUILT-IN TYPES.**

  A signature says which types the operands are converted to and what type the
  result has.  Numbers are promoted to the wider of the two types, and at least
  to `int`; `decimal` does not mix with floating point.  Nullable operands have
  no signature.
-/
import BoundMarkup.Binding.Operator
import BoundMarkup.Types.Primitive

namespace BoundMarkup

/-! ## §1. Promotion. -/

namespace Primitive

/-- How wide a numeric type is. -/
def rank? : Primitive → Option Nat
  | char | int32 => some 0
  | int64 => some 1
  | single => some 2
  | double => some 3
  | decimal => some 4
  | bool | string | object => none

/-- The numeric type of a width. -/
def ofRank : Nat → Primitive
  | 0 => int32
  | 1 => int64
  | 2 => single
  | 3 => double
  | _ => decimal

def isFloating : Primitive → Bool
  | single | double => true
  | _ => false

/-- **Binary promotion**: the wider of two numeric types, at least `int`. -/
def promote? (a b : Primitive) : Option Primitive :=
  match a.rank?, b.rank? with
  | some m, some n =>
      if (a == decimal && b.isFloating) || (b == decimal && a.isFloating) then none
      else some (ofRank (max m n))
  | _, _ => none

/-- The type in which bits are combined and shifted. -/
def promoteIntegral? : Primitive → Option Primitive
  | char | int32 => some int32
  | int64 => some int64
  | _ => none

end Primitive

/-! ## §2. Binary operators. -/

/-- The types the operands are converted to, and the type of the result. -/
structure Signature where
  left : TypeRef
  right : TypeRef
  result : TypeRef
  deriving DecidableEq, Repr

namespace Signature

/-- Operands and result of one type. -/
def uniform (t : TypeRef) : Signature := ⟨t, t, t⟩

/-- A test of two operands of one type. -/
def predicate (t : TypeRef) : Signature := ⟨t, t, .bool⟩

/-- `null` can be compared with a value of the type.  Declared types count, as
far as they are no built-in value types. -/
def comparesWithNull : TypeRef → Bool
  | .nullable _ | .array _ | .null => true
  | .named name args => !(TypeRef.named name args).primitive?.any Primitive.isValueType
  | _ => false

/-- Equality with the literal `null`. -/
def nullEquality? (left right : TypeRef) : Option Signature :=
  match left, right with
  | .null, .null => some (predicate .object)
  | .null, other => if comparesWithNull other then some (predicate other) else none
  | other, .null => if comparesWithNull other then some (predicate other) else none
  | _, _ => none

/-- The types equality of two built-in types compares in. -/
def equalityOperand? (a b : Primitive) : Option Primitive :=
  (a.promote? b).orElse (fun _ =>
    match a, b with
    | .bool, .bool => some .bool
    | .string, .string => some .string
    | _, _ => none)

/-- The type in which two built-in types are combined bit by bit. -/
def bitwiseOperand? (a b : Primitive) : Option Primitive :=
  match a, b with
  | .bool, .bool => some .bool
  | _, _ =>
      match a.promoteIntegral?, b.promoteIntegral? with
      | some m, some n => m.promote? n
      | _, _ => none

/-- A shift keeps the type of what is shifted; the distance is an `int`. -/
def shift? (a b : Primitive) : Option Signature :=
  match a.promoteIntegral?, b.promoteIntegral? with
  | some m, some .int32 => some ⟨m.type, .int32, m.type⟩
  | _, _ => none

/-- The signature of an operator on two built-in types. -/
def ofPrimitives? (op : BinaryOp) (a b : Primitive) : Option Signature :=
  match op with
  | .add | .sub | .mul | .div | .mod => (a.promote? b).map (fun p => uniform p.type)
  | .less | .lessEqual | .greater | .greaterEqual =>
      (a.promote? b).map (fun p => predicate p.type)
  | .equal | .notEqual => (equalityOperand? a b).map (fun p => predicate p.type)
  | .bitAnd | .bitOr | .bitXor => (bitwiseOperand? a b).map (fun p => uniform p.type)
  | .shiftLeft | .shiftRight => shift? a b
  | .coalesce | .andAlso | .orElse => none

/-- An addition with a text on either side joins texts. -/
def isJoin (op : BinaryOp) (left right : TypeRef) : Bool :=
  op == .add && (decide (left = .string) || decide (right = .string))

/-- The signature of an operator that does not compare with `null`. -/
def ofOperands? (op : BinaryOp) (left right : TypeRef) : Option Signature :=
  if isJoin op left right then
    if left.isUnusable || right.isUnusable then none else some (uniform .string)
  else
    match left.primitive?, right.primitive? with
    | some a, some b => ofPrimitives? op a b
    | _, _ => none

/-- **The built-in operator for two operand types.** -/
def binary? (op : BinaryOp) (left right : TypeRef) : Option Signature :=
  ((if op.isEquality then nullEquality? left right else none)).orElse
    (fun _ => ofOperands? op left right)

end Signature

/-! ## §3. Unary operators. -/

/-- The built-in type in which a unary operator works. -/
def UnaryOp.operand? (op : UnaryOp) (kind : Primitive) : Option Primitive :=
  match op with
  | .not => if kind = .bool then some .bool else none
  | .neg | .plus =>
      if kind = .char then some .int32 else if kind.isNumeric then some kind else none
  | .bitNot => kind.promoteIntegral?

/-- **The built-in unary operator for an operand type**: the type of both the
operand and the result. -/
def Signature.unary? (op : UnaryOp) (operand : TypeRef) : Option TypeRef :=
  (operand.primitive?.bind op.operand?).map Primitive.type

end BoundMarkup
