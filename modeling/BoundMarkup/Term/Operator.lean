/-
  BoundMarkup.Term.Operator
  ─────────────────────────
  **WHAT AN OPERATOR DOES.**

  An operator is, in this order: a built-in one; a method that overloads it on
  the type of either operand; for equality, a call of an equality method; for an
  ordering, the sign of a comparison; and at last the operator on the values
  inside nullable operands.
-/
import BoundMarkup.Term.Call
import BoundMarkup.Term.Equality
import BoundMarkup.Term.Member
import BoundMarkup.Term.Signature

namespace BoundMarkup.Term

/-! ## §1. Overloads. -/

/-- The methods of a list, each identity once. -/
def distinctMethods : List Method → List Method
  | [] => []
  | m :: ms => m :: (distinctMethods ms).filter (fun other => other.id != m.id)

/-- The methods that overload an operator on one of the operand types.  Built-in
types have none. -/
def overloads (r : Registry) (name : String) (operands : List TypeRef) : List Method :=
  distinctMethods (operands.flatMap (fun t =>
    match t with
    | .named _ _ => if t.primitive?.isSome then [] else r.methods t name true
    | _ => []))

/-- The overload that fits the operands best; none if none fits. -/
def overload? (r : Registry) (name : String) (operands : List Term) :
    Except ResolutionError (Option Candidate) :=
  match Candidate.viable r (overloads r name (operands.map Term.type)) [] operands [] with
  | [] => .ok none
  | viable => (Candidate.best name viable).map some

/-- A binary operator by an overload. -/
def overloadedBinary? (r : Registry) (left : Term) (op : BinaryOp) (right : Term) :
    Except ResolutionError (Option Term) :=
  match op.methodName? with
  | none => .ok none
  | some name =>
      (overload? r name [left, right]).map (fun found =>
        match found with
        | some ⟨method, a :: b :: _, _, _⟩ => some (.binary a op b method.returns (some method))
        | _ => none)

/-- A unary operator by an overload. -/
def overloadedUnary? (r : Registry) (op : UnaryOp) (operand : Term) :
    Except ResolutionError (Option Term) :=
  (overload? r op.methodName [operand]).map (fun found =>
    match found with
    | some ⟨method, a :: _, _, _⟩ => some (.unary op a method.returns (some method))
    | _ => none)

/-! ## §2. Nullable operands. -/

/-- The value inside a nullable term; other terms as they are. -/
def unwrapped (r : Registry) (t : Term) : Except ResolutionError Term :=
  if t.type.isNullable then t.member r "Value" [] else .ok t

/-! ## §3. Binary operators. -/

/-- An operator that has no meaning for the operands. -/
def noBinary (left : Term) (op : BinaryOp) (right : Term) : ResolutionError :=
  .noBinaryOperator op left.type right.type

/-- The built-in operator.  Where texts are joined, any value becomes text. -/
def builtinBinary? (r : Registry) (left : Term) (op : BinaryOp) (right : Term) : Option Term :=
  (Signature.binary? op left.type right.type).bind (fun s =>
    let joins := op == .add && decide (s.result = .string)
    let convert (t : Term) (target : TypeRef) : Option Term :=
      if joins then t.convertOrText? r target else t.convertTo? r target
    match convert left s.left, convert right s.right with
    | some a, some b => some (.binary a op b s.result none)
    | _, _ => none)

/-- Equality by a method; inequality is its negation. -/
def methodEquality? (r : Registry) (left : Term) (op : BinaryOp) (right : Term) : Option Term :=
  if op.isEquality then
    (equals? r left right).map (fun test =>
      if op = .notEqual then .unary .not test .bool none else test)
  else none

/-- An ordering by a comparison with zero. -/
def methodOrder? (r : Registry) (left : Term) (op : BinaryOp) (right : Term) : Option Term :=
  if op.isComparison then
    match compare r left right with
    | .ok c =>
        some (.binary c.call (if c.swapped then op.flip else op) (.literal (.int 0)) .bool none)
    | .error _ => none
  else none

/-- An operator on operands that are not unwrapped. -/
def directBinary? (r : Registry) (left : Term) (op : BinaryOp) (right : Term) :
    Except ResolutionError (Option Term) :=
  match builtinBinary? r left op right with
  | some t => .ok (some t)
  | none => do
      match ← overloadedBinary? r left op right with
      | some t => .ok (some t)
      | none =>
          .ok ((methodEquality? r left op right).orElse (fun _ => methodOrder? r left op right))

/-- The operator on what nullable operands wrap. -/
def liftedBinary (r : Registry) (left : Term) (op : BinaryOp) (right : Term) :
    Except ResolutionError Term := do
  let a ← left.unwrapped r
  let b ← right.unwrapped r
  match directBinary? r a op b with
  | .ok (some t) => .ok t
  | _ => .error (noBinary left op right)

/-- An operator that evaluates both operands. -/
def strictBinary (r : Registry) (left : Term) (op : BinaryOp) (right : Term) :
    Except ResolutionError Term := do
  match ← directBinary? r left op right with
  | some t => .ok t
  | none =>
      if left.type.isNullable || right.type.isNullable then liftedBinary r left op right
      else .error (noBinary left op right)

/-- `&&` and `||` take truth values. -/
def logical (r : Registry) (left : Term) (op : BinaryOp) (right : Term) :
    Except ResolutionError Term :=
  match left.convertTo? r .bool, right.convertTo? r .bool with
  | some a, some b => .ok (.binary a op b .bool none)
  | _, _ => .error (noBinary left op right)

/-- The type of `left ?? right`, if the left side can be absent. -/
def coalesceType? (r : Registry) (left right : TypeRef) : Option TypeRef :=
  match left with
  | .nullable inner => if (Conversion.find? r right inner).isSome then some inner else some left
  | .null => some right
  | .unknown | .void => none
  | _ => if r.isValueType left then none else some left

/-- `left ?? right`. -/
def coalesce (r : Registry) (left right : Term) : Except ResolutionError Term :=
  match (coalesceType? r left.type right.type).bind (fun t =>
      (right.convertTo? r t).map (fun b => Term.binary left .coalesce b t none)) with
  | some t => .ok t
  | none => .error (noBinary left .coalesce right)

/-- **A binary operator applied to two operands.** -/
def applyBinary (r : Registry) (left : Term) (op : BinaryOp) (right : Term) :
    Except ResolutionError Term :=
  match op with
  | .coalesce => coalesce r left right
  | .andAlso | .orElse => logical r left op right
  | _ => strictBinary r left op right

/-! ## §4. Unary operators. -/

/-- The built-in operator. -/
def builtinUnary? (r : Registry) (op : UnaryOp) (operand : Term) : Option Term :=
  (Signature.unary? op operand.type).bind (fun t =>
    (operand.convertTo? r t).map (fun a => .unary op a t none))

/-- An operator on an operand that is not unwrapped. -/
def directUnary? (r : Registry) (op : UnaryOp) (operand : Term) :
    Except ResolutionError (Option Term) :=
  match builtinUnary? r op operand with
  | some t => .ok (some t)
  | none => overloadedUnary? r op operand

/-- **A unary operator applied to an operand.** -/
def applyUnary (r : Registry) (op : UnaryOp) (operand : Term) : Except ResolutionError Term := do
  match ← directUnary? r op operand with
  | some t => .ok t
  | none =>
      if operand.type.isNullable then
        let inner ← operand.unwrapped r
        match directUnary? r op inner with
        | .ok (some t) => .ok t
        | _ => .error (.noUnaryOperator op operand.type)
      else .error (.noUnaryOperator op operand.type)

end BoundMarkup.Term
