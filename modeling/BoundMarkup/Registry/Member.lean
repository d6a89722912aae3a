/-
  BoundMarkup.Registry.Member
  ───────────────────────────
  **WHAT A TYPE OFFERS BY NAME.**

  Members are described in terms of the type that declares them: a member of a
  generic type mentions that type's open parameters.  `instantiate` closes a
  description over the arguments of a constructed type.
-/
import BoundMarkup.Types.Constant

namespace BoundMarkup

/-! ## §1. Parameters and methods. -/

/-- A parameter of a method or an indexer. -/
structure Parameter where
  name : String
  /-- For a variadic parameter, the array type of its tail. -/
  type : TypeRef
  /-- The value used when the argument is omitted. -/
  default? : Option Constant
  /-- Takes any number of trailing arguments. -/
  variadic : Bool
  deriving DecidableEq, Repr

namespace Parameter

/-- A parameter that needs an argument. -/
def required (name : String) (type : TypeRef) : Parameter := ⟨name, type, none, false⟩

/-- A parameter that may be omitted. -/
def optional (name : String) (type : TypeRef) (value : Constant) : Parameter :=
  ⟨name, type, some value, false⟩

/-- A tail of any number of arguments of type `element`. -/
def tail (name : String) (element : TypeRef) : Parameter := ⟨name, .array element, none, true⟩

/-- Close the parameters of `owner` in the type. -/
def substitute (owner : ParamOwner) (args : List TypeRef) (p : Parameter) : Parameter :=
  { p with type := p.type.substitute owner args }

end Parameter

/-- A method, possibly generic, possibly extending another type. -/
structure Method where
  id : TypeId
  name : String
  /-- The type that declares the method. -/
  declaring : TypeRef
  /-- The names of the method's own generic parameters. -/
  typeParams : List String
  params : List Parameter
  returns : TypeRef
  isStatic : Bool
  /-- Called on its first parameter as if it were a member of that type. -/
  isExtension : Bool
  deriving DecidableEq, Repr

namespace Method

def isGeneric (m : Method) : Bool := !m.typeParams.isEmpty

/-- The types of the parameters, by which methods of one name are told apart. -/
def signature (m : Method) : List TypeRef := m.params.map Parameter.type

/-- The last parameter takes any number of arguments. -/
def hasTail (m : Method) : Bool := m.params.getLast?.any Parameter.variadic

/-- The method as a member of the constructed type `declaring`. -/
def instantiate (m : Method) (declaring : TypeRef) : Method :=
  let args := declaring.genericArgs
  if args.isEmpty then m
  else
    { m with
      declaring := declaring
      params := m.params.map (Parameter.substitute .type args)
      returns := m.returns.substitute .type args }

/-- The method with its own generic parameters replaced by `args`. -/
def close (m : Method) (args : List TypeRef) : Method :=
  { m with
    params := m.params.map (Parameter.substitute .method args)
    returns := m.returns.substitute .method args }

end Method

/-! ## §2. Properties and members. -/

/-- A property or field. -/
structure Property where
  name : String
  type : TypeRef
  declaring : TypeRef
  isStatic : Bool
  writable : Bool
  isField : Bool
  deriving DecidableEq, Repr

/-- The property as a member of the constructed type `declaring`. -/
def Property.instantiate (p : Property) (declaring : TypeRef) : Property :=
  { p with
    type := p.type.substitute .type declaring.genericArgs
    declaring := declaring }

/-- Anything reachable by name on a type. -/
inductive Member where
  | method (method : Method)
  | property (property : Property)
  /-- A nested type, known to its outer type by a short name. -/
  | nested (name : String) (type : TypeRef)
  deriving DecidableEq, Repr

namespace Member

def name : Member → String
  | method m => m.name
  | property p => p.name
  | nested name _ => name

/-- Reached through the type rather than through a value; nested types always are. -/
def isStatic : Member → Bool
  | method m => m.isStatic
  | property p => p.isStatic
  | nested _ _ => true

def method? : Member → Option Method
  | method m => some m
  | _ => none

def isMethod (m : Member) : Bool := m.method?.isSome

/-- The member as a member of the constructed type `declaring`. -/
def instantiate (m : Member) (declaring : TypeRef) : Member :=
  match m with
  | method m => method (m.instantiate declaring)
  | property p => property (p.instantiate declaring)
  | nested name type => nested name type

end Member

/-! ## §3. Indexers. -/

/-- An indexer with one parameter. -/
structure Indexer where
  param : Parameter
  type : TypeRef
  declaring : TypeRef
  writable : Bool
  deriving DecidableEq, Repr

/-- The indexer as a member of the constructed type `declaring`. -/
def Indexer.instantiate (i : Indexer) (declaring : TypeRef) : Indexer :=
  let args := declaring.genericArgs
  { i with
    param := i.param.substitute .type args
    type := i.type.substitute .type args
    declaring := declaring }

/-! ## §4. Capability properties. -/

/-- How markup may set a capability property. -/
structure MarkupOptions where
  required : Bool
  allowBinding : Bool
  allowHardCoded : Bool
  /-- Takes command bindings in place of value bindings. -/
  isCommand : Bool
  deriving DecidableEq, Repr

namespace MarkupOptions

/-- Optional, set by a value binding or a plain value. -/
def standard : MarkupOptions := ⟨false, true, true, false⟩

/-- Set by a command binding only. -/
def command : MarkupOptions := { standard with allowHardCoded := false, isCommand := true }

/-- Set by a plain value only. -/
def hardCodedOnly : MarkupOptions := { standard with allowBinding := false }

/-- Set by a value binding only. -/
def bindingOnly : MarkupOptions := { standard with allowHardCoded := false }

/-- Has to be set. -/
def mandatory (o : MarkupOptions) : MarkupOptions := { o with required := true }

end MarkupOptions

/-- A property that bindable objects keep beside their ordinary members. -/
structure Capability where
  name : String
  type : TypeRef
  declaring : TypeRef
  markup : MarkupOptions
  default? : Option Constant
  deriving DecidableEq, Repr

end BoundMarkup
