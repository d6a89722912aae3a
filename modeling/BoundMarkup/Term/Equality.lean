/-
  BoundMarkup.Term.Equality
  ─────────────────────────
  **EQUALITY AND ORDER THROUGH METHODS.**

  Where no operator applies, two values are tested for equality by a method of
  the interface of equality on either side, then by the equality that every
  object has; they are ordered by a comparison method of either side.
-/
import BoundMarkup.Term.Error

namespace BoundMarkup

namespace Registry

/-- The type is the interface or has it among its supertypes. -/
def implements (r : Registry) (t iface : TypeRef) : Bool :=
  decide (t = iface) || decide (iface ∈ r.supertypes t)

/-- The instance method of a name whose only parameter has exactly the given
type. -/
def method? (r : Registry) (t : TypeRef) (name : String) (param : TypeRef) : Option Method :=
  (r.methods t name false).find? (fun m => m.params.map Parameter.type == [param])

end Registry

namespace Term

/-! ## §1. Equality. -/

/-- `left.Equals(right)`, if the left side has equality with the type of the
right one. -/
def equalsOn? (r : Registry) (left right : Term) : Option Term :=
  if r.implements left.type (.equatable right.type) then
    (r.method? left.type "Equals" right.type).map (fun m => .call left m [right])
  else none

/-- Equality that either side has with the type of the other. -/
def typedEquals? (r : Registry) (left right : Term) : Option Term :=
  (equalsOn? r left right).orElse (fun _ => equalsOn? r right left)

/-- Equality of a copied value with the other side converted to its type. -/
def convertedEquals? (r : Registry) (left right : Term) : Option Term :=
  let toLeft :=
    if r.isValueType left.type then
      (right.convertTo? r left.type).bind (typedEquals? r left)
    else none
  toLeft.orElse (fun _ =>
    if r.isValueType right.type then
      (left.convertTo? r right.type).bind (fun l => typedEquals? r l right)
    else none)

/-- The term can receive a call. -/
def isReceiver (t : Term) : Bool := t.isValue && !t.isNullLiteral

/-- The equality that every object has. -/
def objectEquals? (r : Registry) (left right : Term) : Option Term :=
  if left.isReceiver then
    (r.method? .object "Equals" .object).bind (fun m =>
      (right.convertTo? r .object).map (fun arg => .call left m [arg]))
  else none

/-- **A test for equality** of two values without an equality operator. -/
def equals? (r : Registry) (left right : Term) : Option Term :=
  if left.type.isUnusable || right.type.isUnusable then none
  else
    (typedEquals? r left right).orElse (fun _ =>
      (convertedEquals? r left right).orElse (fun _ => objectEquals? r left right))

/-! ## §2. Order. -/

/-- A call that orders two values: negative, zero or positive. -/
structure Comparison where
  call : Term
  /-- The right value is the receiver, so the result has the opposite sense. -/
  swapped : Bool
  deriving Repr

/-- The ordering call on the left value, if it can be compared with values of
the type of the right one, or else with any object. -/
def compareTo? (r : Registry) (left right : Term) : Option Term :=
  if left.isReceiver then
    let typed :=
      if r.implements left.type (.comparableTo right.type) then
        (r.method? left.type "CompareTo" right.type).map (fun m => .call left m [right])
      else none
    typed.orElse (fun _ =>
      if r.implements left.type .comparable then
        (r.method? left.type "CompareTo" .object).bind (fun m =>
          (right.convertTo? r .object).map (fun arg => .call left m [arg]))
      else none)
  else none

/-- **The comparison of two values**, on the left one if possible. -/
def compare (r : Registry) (left right : Term) : Except ResolutionError Comparison :=
  match compareTo? r left right with
  | some ordering => .ok ⟨ordering, false⟩
  | none =>
      match compareTo? r right left with
      | some ordering => .ok ⟨ordering, true⟩
      | none => .error (.comparisonNotSupported left.type right.type)

end Term

end BoundMarkup
