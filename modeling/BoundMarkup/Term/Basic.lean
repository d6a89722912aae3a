/-
  BoundMarkup.Term.Basic
  ──────────────────────
  **RESOLVED EXPRESSIONS.**

  A term is an expression whose names have been resolved to members and whose
  conversions are explicit.  Every term has a type, except that a method group,
  which becomes a value only through a call, and the placeholder for what could
  not be resolved are of undetermined type.
-/
import BoundMarkup.Binding.Operator
import BoundMarkup.Term.Conversion

namespace BoundMarkup

/-! ## §1. Terms. -/

/-- A resolved expression. -/
inductive Term where
  | constant (value : Constant) (type : TypeRef)
  /-- A keyword of the data context, such as `_this`. -/
  | parameter (name : String) (type : TypeRef)
  /-- A property or field of a value. -/
  | access (target : Term) (member : Property)
  /-- A static property. -/
  | staticAccess (member : Property)
  /-- A capability property is read. -/
  | capabilityGet (target : Term) (property : Capability)
  /-- A capability property is written. -/
  | capabilitySet (target : Term) (property : Capability) (value : Term)
  /-- The methods of a name, of which a call has to pick one. -/
  | group (name : String) (target : Term) (typeArgs : List TypeRef)
  /-- A type, as the target of static members. -/
  | typeReference (type : TypeRef)
  /-- Something that could not be resolved. -/
  | unknown
  /-- A call of an instance method. -/
  | call (target : Term) (method : Method) (args : List Term)
  /-- A call of a static or extension method. -/
  | staticCall (method : Method) (args : List Term)
  /-- An element of an array, or an indexer. -/
  | index (target index : Term) (indexer : Option Indexer) (type : TypeRef)
  /-- The array made for the tail of a variadic call. -/
  | newArray (element : TypeRef) (items : List Term)
  | convert (inner : Term) (type : TypeRef) (kind : ConversionKind)
  /-- The method is there if the operator is overloaded. -/
  | binary (left : Term) (op : BinaryOp) (right : Term) (type : TypeRef) (method : Option Method)
  | unary (op : UnaryOp) (operand : Term) (type : TypeRef) (method : Option Method)
  | assign (target value : Term)
  deriving Repr, Inhabited

namespace Term

/-- A literal, of its natural type. -/
def literal (value : Constant) : Term := constant value value.type

/-- The type of the value, undetermined where there is none. -/
def type : Term → TypeRef
  | constant _ type => type
  | parameter _ type => type
  | access _ member => member.type
  | staticAccess member => member.type
  | capabilityGet _ property => property.type
  | capabilitySet _ _ _ => .void
  | group _ _ _ => .unknown
  | typeReference type => type
  | unknown => .unknown
  | call _ method _ => method.returns
  | staticCall method _ => method.returns
  | index _ _ _ type => type
  | newArray element _ => .array element
  | convert _ type _ => type
  | binary _ _ _ type _ => type
  | unary _ _ type _ => type
  | assign target _ => target.type

/-- The term can be used as a value. -/
def isValue : Term → Bool
  | group _ _ _ | typeReference _ | unknown => false
  | _ => true

def isTypeReference : Term → Bool
  | typeReference _ => true
  | _ => false

/-- The literal `null`. -/
def isNullLiteral : Term → Bool
  | constant .null _ => true
  | _ => false

/-- The term below any conversions. -/
def unconverted : Term → Term
  | convert inner _ _ => inner.unconverted
  | t => t

mutual

/-- The term and all terms inside it, parents first. -/
def subterms : Term → List Term
  | constant v t => [constant v t]
  | parameter n t => [parameter n t]
  | access target m => access target m :: target.subterms
  | staticAccess m => [staticAccess m]
  | capabilityGet target p => capabilityGet target p :: target.subterms
  | capabilitySet target p v => capabilitySet target p v :: (target.subterms ++ v.subterms)
  | group n target ts => group n target ts :: target.subterms
  | typeReference t => [typeReference t]
  | unknown => [unknown]
  | call target m args => call target m args :: (target.subterms ++ subtermsOf args)
  | staticCall m args => staticCall m args :: subtermsOf args
  | index target i x t => index target i x t :: (target.subterms ++ i.subterms)
  | newArray e items => newArray e items :: subtermsOf items
  | convert inner t k => convert inner t k :: inner.subterms
  | binary l op r t m => binary l op r t m :: (l.subterms ++ r.subterms)
  | unary op x t m => unary op x t m :: x.subterms
  | assign target v => assign target v :: (target.subterms ++ v.subterms)

/-- All terms of a list and the terms inside them, parents first. -/
def subtermsOf : List Term → List Term
  | [] => []
  | t :: ts => t.subterms ++ subtermsOf ts

end

/-! ## §2. Text. -/

mutual

/-- The term as rendered into diagnostics and emitted code. -/
def text : Term → String
  | constant value _ => value.text
  | parameter name _ => name
  | access target member => target.text ++ "." ++ member.name
  | staticAccess member => member.declaring.text ++ "." ++ member.name
  | capabilityGet target property => target.text ++ ".GetValue(" ++ property.name ++ "Property)"
  | capabilitySet target property value =>
      target.text ++ ".SetValue(" ++ property.name ++ "Property, " ++ value.text ++ ")"
  | group name target _ => target.text ++ "." ++ name
  | typeReference type => type.text
  | unknown => "?"
  | call target method args =>
      target.text ++ "." ++ method.name ++ "(" ++ Text.join ", " (texts args) ++ ")"
  | staticCall method args =>
      method.declaring.text ++ "." ++ method.name ++ "(" ++ Text.join ", " (texts args) ++ ")"
  | index target i _ _ => target.text ++ "[" ++ i.text ++ "]"
  | newArray element items =>
      "new " ++ element.text ++ "[] \x7b " ++ Text.join ", " (texts items) ++ " \x7d"
  | convert inner type _ => "((" ++ type.text ++ ")" ++ inner.text ++ ")"
  | binary left op right _ _ => "(" ++ left.text ++ " " ++ op.text ++ " " ++ right.text ++ ")"
  | unary op operand _ _ => op.text ++ operand.text
  | assign target value => target.text ++ " = " ++ value.text

/-- The texts of the terms. -/
def texts : List Term → List String
  | [] => []
  | t :: ts => t.text :: texts ts

end

end Term

/-! ## §3. Conversion of terms. -/

/-- The term converted to `target`; an exact conversion leaves it as it is. -/
def Conversion.apply (c : Conversion) (t : Term) (target : TypeRef) : Term :=
  if c.isExact then t else .convert t target c.kind

/-- **The term implicitly converted to a type.** -/
def Term.convertTo? (r : Registry) (t : Term) (target : TypeRef) : Option Term :=
  (Conversion.find? r t.type target).map (fun c => c.apply t target)

/-- A call of the parameterless method that writes a value as text. -/
def Term.toTextCall? (r : Registry) (t : Term) : Option Term :=
  ((r.methods t.type "ToString" false).find? (fun m => m.params.isEmpty)).map
    (fun m => .call t m [])

/-- The term implicitly converted to a type, where any value may become text. -/
def Term.convertOrText? (r : Registry) (t : Term) (target : TypeRef) : Option Term :=
  (t.convertTo? r target).orElse (fun _ =>
    if target = .string ∧ t.isValue then t.toTextCall? r else none)

end BoundMarkup
