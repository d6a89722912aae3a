/-
  BoundMarkup.Binding.Binder
  ──────────────────────────
  **FROM EXPRESSIONS TO TERMS.**

  An identifier is, in this order: a keyword of the data context, a member of
  `_this`, the name of a type.  A dotted chain whose head is none of these is
  tried as the qualified name of a type.  Every operation takes values only.
-/
import BoundMarkup.Binding.Context
import BoundMarkup.Binding.Parser
import BoundMarkup.Markup.Token
import BoundMarkup.Registry.Builtins
import BoundMarkup.Term.Index
import BoundMarkup.Term.Operator

namespace BoundMarkup.Binding

/-! ## §1. Errors. -/

/-- A resolution error and the place of the expression it is about. -/
structure BindFault where
  error : ResolutionError
  span : Span
  deriving DecidableEq, Repr

/-- Why a binding cannot be bound. -/
inductive BindingError where
  | malformed (error : SyntaxError)
  | unresolved (fault : BindFault)
  deriving DecidableEq, Repr

namespace BindingError

def message : BindingError → String
  | malformed error => error.message
  | unresolved fault => fault.error.message

def span : BindingError → Span
  | malformed error => error.span
  | unresolved fault => fault.span

/-- The class under which the error is reported. -/
def className : BindingError → String
  | malformed _ => "Parse"
  | unresolved fault => fault.error.className

/-- The error of a binding whose text starts at `base`. -/
def offset (base : Span) : BindingError → BindingError
  | malformed error => malformed { error with span := error.span.offset base }
  | unresolved fault => unresolved { fault with span := fault.span.offset base }

end BindingError

/-- The outcome of a resolution step for the expression at a place. -/
def locate {α : Type} (span : Span) : Except ResolutionError α → Except BindFault α
  | .ok a => .ok a
  | .error error => .error ⟨error, span⟩

/-! ## §2. Names. -/

/-- What names are looked up in. -/
structure Scope where
  types : Registry
  context : DataContext

namespace Scope

/-- The name spaces searched for types: those of the view, then the default ones. -/
def spaces (s : Scope) : List String := s.context.spaces ++ Builtins.defaultSpaces

/-- The term for `_this`. -/
def this (s : Scope) : Term := .parameter "_this" s.context.this

/-- The type of a name; with type arguments, one declared for that many. -/
def type? (s : Scope) (name : String) (typeArgs : List TypeRef) : Option TypeRef :=
  if typeArgs.isEmpty then s.types.resolve? name s.spaces
  else
    (s.types.resolve? (withArity name typeArgs.length) s.spaces).map (fun t =>
      Term.nestedType t typeArgs)

/-- The term for a type name. -/
def typeTerm? (s : Scope) (name : String) (typeArgs : List TypeRef) : Option Term :=
  (s.type? name typeArgs).map .typeReference

/-- The term for a keyword of the data context. -/
def keywordTerm? (s : Scope) (name : String) (typeArgs : List TypeRef) : Option Term :=
  if typeArgs.isEmpty then (s.context.keyword? name).map (.parameter name) else none

/-- The term for an identifier, if it means anything. -/
def identifier? (s : Scope) (name : String) (typeArgs : List TypeRef) :
    Except ResolutionError (Option Term) :=
  match s.keywordTerm? name typeArgs with
  | some t => .ok (some t)
  | none => do
      match ← s.this.member? s.types name typeArgs with
      | some t => .ok (some t)
      | none => .ok (s.typeTerm? name typeArgs)

end Scope

/-- The dotted name of a chain of identifiers without type arguments. -/
def dottedName? : Expr → Option String
  | .ident ident [] _ => some ident.name
  | .member target member [] _ => (dottedName? target).map (fun t => t ++ "." ++ member.name)
  | _ => none

/-- The leftmost identifier of a chain. -/
def headName : Expr → String
  | .ident ident _ _ => ident.name
  | .member target _ _ _ => headName target
  | _ => ""

/-- An expression that means nothing is an error about its leftmost name. -/
def required (e : Expr) (found : Option Term) : Except BindFault Term :=
  match found with
  | some t => .ok t
  | none => .error ⟨.unknownIdentifier (headName e), e.span⟩

/-! ## §3. Operations on values. -/

/-- The arguments of a call. -/
structure CallArguments where
  positional : List Term
  named : List NamedArgument

/-- One more argument in front. -/
def CallArguments.cons (name : Option Ident) (value : Term) (args : CallArguments) :
    CallArguments :=
  match name with
  | some name => { args with named := ⟨name.name, value⟩ :: args.named }
  | none => { args with positional := value :: args.positional }

/-- Arguments have to be values, the positional ones first. -/
def CallArguments.checked (args : CallArguments) : Except ResolutionError CallArguments := do
  let positional ← args.positional.mapM Term.value
  let named ← args.named.mapM (fun a =>
    (Term.value a.value).map (fun v => NamedArgument.mk a.name v))
  .ok ⟨positional, named⟩

/-- The target of a member access is a type or a value. -/
def memberTarget (t : Term) : Except ResolutionError Term :=
  if t.isTypeReference then .ok t else t.value

def callOn (r : Registry) (callee : Term) (args : CallArguments) : Except ResolutionError Term := do
  let args ← args.checked
  callee.callTerm r args.positional args.named

def indexInto (r : Registry) (target position : Term) : Except ResolutionError Term := do
  let target ← target.value
  let position ← position.value
  target.elementAt r position

def operate (r : Registry) (left : Term) (op : BinaryOp) (right : Term) :
    Except ResolutionError Term := do
  let left ← left.value
  let right ← right.value
  left.applyBinary r op right

def operateUnary (r : Registry) (op : UnaryOp) (operand : Term) : Except ResolutionError Term := do
  let operand ← operand.value
  operand.applyUnary r op

def store (r : Registry) (target value : Term) : Except ResolutionError Term := do
  let value ← value.value
  target.update r value

/-! ## §4. Binding. -/

/-- A type with the suffixes written after it. -/
def suffixed (t : TypeRef) (suffixes : List TypeSuffix) : TypeRef :=
  suffixes.foldl (fun t suffix =>
    match suffix with
    | .array => .array t
    | .nullable => .nullable t) t

mutual

/-- The type that an explicit type argument names. -/
def bindType (s : Scope) : TypeExpr → Except BindFault TypeRef
  | .mk name args suffixes span => do
      let typeArgs ← bindTypes s args
      match s.type? name typeArgs with
      | some t => .ok (suffixed t suffixes)
      | none => .error ⟨.unknownType (TypeExpr.mk name args suffixes span).text, span⟩

def bindTypes (s : Scope) : List TypeExpr → Except BindFault (List TypeRef)
  | [] => .ok []
  | t :: ts => do
      let type ← bindType s t
      let types ← bindTypes s ts
      .ok (type :: types)

end

mutual

/-- The term that an expression stands for; none for a name or a chain of names
that means nothing by itself. -/
def lookup (s : Scope) : Expr → Except BindFault (Option Term)
  | .literal value _ => .ok (some (.literal value))
  | .ident ident typeArgs span => do
      let types ← bindTypes s typeArgs
      locate span (s.identifier? ident.name types)
  | .member target member typeArgs span => do
      let types ← bindTypes s typeArgs
      match ← lookup s target with
      | some found =>
          let owner ← locate target.span (memberTarget found)
          let result ← locate span (owner.member s.types member.name types)
          .ok (some result)
      | none =>
          .ok ((dottedName? target).bind (fun qualifier =>
            s.typeTerm? (qualifier ++ "." ++ member.name) types))
  | .call callee args span => do
      let target ← required callee (← lookup s callee)
      let arguments ← lookupArguments s args
      let result ← locate span (callOn s.types target arguments)
      .ok (some result)
  | .index target index span => do
      let owner ← required target (← lookup s target)
      let position ← required index (← lookup s index)
      let result ← locate span (indexInto s.types owner position)
      .ok (some result)
  | .unary op operand span => do
      let value ← required operand (← lookup s operand)
      let result ← locate span (operateUnary s.types op value)
      .ok (some result)
  | .binary left op right span => do
      let a ← required left (← lookup s left)
      let b ← required right (← lookup s right)
      let result ← locate span (operate s.types a op b)
      .ok (some result)
  | .assign target value span => do
      let owner ← required target (← lookup s target)
      let stored ← required value (← lookup s value)
      let result ← locate span (store s.types owner stored)
      .ok (some result)
  | .paren inner _ => do
      let result ← required inner (← lookup s inner)
      .ok (some result)

/-- The terms that the arguments of a call stand for. -/
def lookupArguments (s : Scope) : List Argument → Except BindFault CallArguments
  | [] => .ok ⟨[], []⟩
  | .mk name value _ :: args => do
      let first ← required value (← lookup s value)
      let others ← lookupArguments s args
      .ok (others.cons name first)

end

/-- **The term that an expression stands for.** -/
def bind (s : Scope) (e : Expr) : Except BindFault Term := do
  required e (← lookup s e)

/-! ## §5. Bindings in markup. -/

/-- A binding and the value it stands for. -/
structure Bound where
  source : Markup.BindingSource
  term : Term
  deriving Repr

/-- The value of a whole expression. -/
def bindValue (s : Scope) (e : Expr) : Except BindFault Term := do
  let t ← bind s e
  locate e.span t.value

/-- The value of an expression as text, with places inside the text. -/
def bindText (s : Scope) (expression : String) : Except BindingError Term :=
  match parse expression with
  | .error error => .error (.malformed error)
  | .ok e =>
      match bindValue s e with
      | .error fault => .error (.unresolved fault)
      | .ok t => .ok t

/-- **A binding of a view, bound.**  Errors are located in the view. -/
def bindSource (s : Scope) (source : Markup.BindingSource) : Except BindingError Bound :=
  match bindText s source.expression with
  | .ok t => .ok ⟨source, t⟩
  | .error error => .error (error.offset source.expressionSpan)

end BoundMarkup.Binding
