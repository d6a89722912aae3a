/-
  BoundMarkup.Term.Inference
  ──────────────────────────
  **INFERRING THE TYPE ARGUMENTS OF A CALL.**

  Explicit type arguments are taken in order.  Each type parameter after them is
  read off the first parameter whose declared type mentions it, by matching that
  type against the type of the argument: element with element, wrapped with
  wrapped, and generic arguments through the supertypes of the argument.
-/
import BoundMarkup.Registry.Lookup

namespace BoundMarkup

/-- The type arguments of a call, and how many of them were inferred. -/
structure InferredArgs where
  args : List TypeRef
  inferred : Nat
  deriving DecidableEq, Repr

namespace InferredArgs

/-- The type says nothing about a type parameter. -/
def isSilent : TypeRef → Bool
  | .unknown | .null => true
  | _ => false

/-- The generic arguments of a type seen as an instance of a definition, itself
or through its supertypes. -/
def argsAs? (r : Registry) (definition : TypeId) (actual : TypeRef) : Option (List TypeRef) :=
  if actual.definition? = some definition then some actual.genericArgs
  else ((r.supertypes actual).find? (fun t => t.definition? = some definition)).map
    TypeRef.genericArgs

mutual

/-- What the method's type parameter at `index` has to be for the declared type
to be the actual one. -/
def matchType (r : Registry) (index : Nat) : TypeRef → TypeRef → Option TypeRef
  | .param owner i _, actual => if owner = .method ∧ i = index then some actual else none
  | .array element, actual => actual.element?.bind (matchType r index element)
  | .nullable inner, actual => actual.nullableInner?.bind (matchType r index inner)
  | .named name (t :: ts), actual =>
      (argsAs? r (TypeId.ofName name) actual).bind (matchTypes r index (t :: ts))
  | _, _ => none

/-- The first match of declared types against actual ones. -/
def matchTypes (r : Registry) (index : Nat) : List TypeRef → List TypeRef → Option TypeRef
  | d :: ds, a :: as =>
      if isSilent a then matchTypes r index ds as
      else (matchType r index d a).orElse (fun _ => matchTypes r index ds as)
  | _, _ => none

end

/-- **The type arguments of a call** of a method with `count` type parameters,
if there are not too many explicit ones and all others can be inferred. -/
def of? (r : Registry) (count : Nat) (explicit params args : List TypeRef) :
    Option InferredArgs :=
  if count < explicit.length then none
  else
    ((List.range' explicit.length (count - explicit.length)).mapM
        (fun i => matchTypes r i params args)).map
      (fun found => ⟨explicit ++ found, found.length⟩)

end InferredArgs

end BoundMarkup
