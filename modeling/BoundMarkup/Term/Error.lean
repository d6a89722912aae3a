/-
  BoundMarkup.Term.Error
  ──────────────────────
  **WHY AN EXPRESSION CANNOT BE RESOLVED.**

  A candidate that does not fit is no error; only the outcome of a whole
  resolution step is.  Each error has a class, used to sort reports, and a text.
-/
import BoundMarkup.Term.Basic

namespace BoundMarkup

/-- Why an expression cannot be resolved. -/
inductive ResolutionError where
  | unresolvedType (expr : String)
  | memberNotFound (member : String) (type : TypeRef) (isStatic : Bool)
  | methodGroupNotValue (name : String)
  | memberAccessOnMethodGroup (member group : String)
  | notCallable (expr : String) (type : TypeRef)
  /-- The arguments of the call, each with its name if it has one. -/
  | noApplicableOverload (name : String) (args : List (Option String × TypeRef))
  | ambiguousOverload (name first second : String)
  | noBinaryOperator (op : BinaryOp) (left right : TypeRef)
  | noUnaryOperator (op : UnaryOp) (operand : TypeRef)
  | comparisonNotSupported (left right : TypeRef)
  | indexerNotFound (type index : TypeRef)
  | ambiguousIndexer (type index : TypeRef)
  | noImplicitConversion (source target : TypeRef)
  | notAssignable (expr : String)
  | unknownIdentifier (name : String)
  | unknownType (name : String)
  deriving DecidableEq, Repr

namespace ResolutionError

/-- The class under which the error is reported. -/
def className : ResolutionError → String
  | unresolvedType _ => "UnresolvedType"
  | memberNotFound _ _ _ => "MemberNotFound"
  | methodGroupNotValue _ => "MethodGroupNotValue"
  | memberAccessOnMethodGroup _ _ => "MemberAccessOnMethodGroup"
  | notCallable _ _ => "NotCallable"
  | noApplicableOverload _ _ => "NoApplicableOverload"
  | ambiguousOverload _ _ _ => "AmbiguousOverload"
  | noBinaryOperator _ _ _ => "NoApplicableOperator"
  | noUnaryOperator _ _ => "NoApplicableOperator"
  | comparisonNotSupported _ _ => "ComparisonNotSupported"
  | indexerNotFound _ _ => "IndexerNotFound"
  | ambiguousIndexer _ _ => "AmbiguousIndexer"
  | noImplicitConversion _ _ => "NoImplicitConversion"
  | notAssignable _ => "NotAssignable"
  | unknownIdentifier _ => "UnknownIdentifier"
  | unknownType _ => "UnknownType"

/-- A text in single quotes. -/
def quote (s : String) : String := "'" ++ s ++ "'"

/-- An argument of a call that found no method. -/
def argumentText : Option String × TypeRef → String
  | (some name, type) => name ++ ": " ++ type.text
  | (none, type) => type.text

def message : ResolutionError → String
  | unresolvedType expr => "type of " ++ quote expr ++ " could not be resolved"
  | memberNotFound member type isStatic =>
      "could not find " ++ (if isStatic then "static" else "instance") ++ " member "
        ++ quote member ++ " on type " ++ quote type.text
  | methodGroupNotValue name => "method group " ++ quote name ++ " cannot be used as a value"
  | memberAccessOnMethodGroup member group =>
      "cannot access member " ++ quote member ++ " on method group " ++ quote group
  | notCallable expr type =>
      "expression " ++ quote expr ++ " of type " ++ quote type.text ++ " cannot be called"
  | noApplicableOverload name args =>
      "could not find method overload nor extension method that matched "
        ++ quote (name ++ "(" ++ Text.join ", " (args.map argumentText) ++ ")")
  | ambiguousOverload name first second =>
      "found ambiguous overloads of method " ++ quote name ++ ": " ++ first ++ " and " ++ second
  | noBinaryOperator op left right =>
      "cannot apply operator " ++ quote op.text ++ " to operands of type " ++ quote left.text
        ++ " and " ++ quote right.text
  | noUnaryOperator op operand =>
      "cannot apply operator " ++ quote op.text ++ " to operand of type " ++ quote operand.text
  | comparisonNotSupported left right =>
      "neither " ++ quote left.text ++ " nor " ++ quote right.text
        ++ " implements an ordering comparison"
  | indexerNotFound type index =>
      "could not find an indexer on type " ++ quote type.text ++ " accepting " ++ quote index.text
  | ambiguousIndexer type index =>
      "more than one indexer on type " ++ quote type.text ++ " accepts " ++ quote index.text
  | noImplicitConversion source target =>
      "cannot implicitly convert " ++ quote source.text ++ " to " ++ quote target.text
  | notAssignable expr => "expression " ++ quote expr ++ " cannot be assigned to"
  | unknownIdentifier name => "identifier " ++ quote name ++ " could not be resolved"
  | unknownType name => "type " ++ quote name ++ " could not be found"

end ResolutionError

/-- **Only values are operands**: method groups, type references and the
placeholder are refused. -/
def Term.value (t : Term) : Except ResolutionError Term :=
  match t with
  | .group name _ _ => .error (.methodGroupNotValue name)
  | .unknown => .error (.unresolvedType t.text)
  | .typeReference type => .error (.unknownIdentifier type.text)
  | t => .ok t

end BoundMarkup
