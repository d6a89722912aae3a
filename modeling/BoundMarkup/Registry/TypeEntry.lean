/-
  BoundMarkup.Registry.TypeEntry
  ──────────────────────────────
  **THE DECLARATION OF A TYPE.**

  An entry starts with a name and grows by one declaration at a time.  Members
  keep the order in which they were declared.
-/
import BoundMarkup.Registry.Member

namespace BoundMarkup

/-! ## §1. Traits. -/

/-- What the resolvers ask about a type. -/
structure TypeFlags where
  /-- Copied by value. -/
  valueType : Bool
  interface : Bool
  /-- Holds static members only; the home of extension methods. -/
  staticClass : Bool
  /-- Has capability properties on top of ordinary members. -/
  bindable : Bool
  /-- May be used as a control in markup. -/
  control : Bool
  /-- A control that accepts content. -/
  allowsContent : Bool
  deriving DecidableEq, Repr

namespace TypeFlags

/-- No traits. -/
def empty : TypeFlags := ⟨false, false, false, false, false, false⟩

/-- The traits of either. -/
def union (a b : TypeFlags) : TypeFlags :=
  ⟨a.valueType || b.valueType, a.interface || b.interface, a.staticClass || b.staticClass,
   a.bindable || b.bindable, a.control || b.control, a.allowsContent || b.allowsContent⟩

end TypeFlags

/-! ## §2. Entries. -/

/-- A declared type. -/
structure TypeEntry where
  id : TypeId
  name : String
  /-- The module that defines the type. -/
  moduleName : String
  flags : TypeFlags
  /-- The names of the generic parameters. -/
  typeParams : List String
  /-- Base class and interfaces, in terms of the generic parameters. -/
  bases : List TypeRef
  members : List Member
  indexers : List Indexer
  capabilities : List Capability
  deriving DecidableEq, Repr

namespace TypeEntry

/-- A type of which only the name and module are known. -/
def declare (name moduleName : String) : TypeEntry :=
  ⟨TypeId.ofName name, name, moduleName, .empty, [], [], [], [], []⟩

/-- The type as seen from inside its own declaration. -/
def selfType (e : TypeEntry) : TypeRef :=
  .named e.name (e.typeParams.mapIdx TypeRef.typeParam)

/-- The part of the name before its last point. -/
def space (e : TypeEntry) : String :=
  match Text.splitLast? '.' e.name with
  | some (space, _) => space
  | none => ""

/-- The members of the given name, in order of declaration. -/
def membersNamed (e : TypeEntry) (name : String) : List Member :=
  e.members.filter (fun m => m.name == name)

/-- The capability property of the given name. -/
def capability? (e : TypeEntry) (name : String) : Option Capability :=
  e.capabilities.find? (fun c => c.name == name)

/-! ## §3. Declarations. -/

def withFlags (e : TypeEntry) (flags : TypeFlags) : TypeEntry :=
  { e with flags := e.flags.union flags }

def generic (e : TypeEntry) (params : List String) : TypeEntry := { e with typeParams := params }

def derives (e : TypeEntry) (base : TypeRef) : TypeEntry := { e with bases := e.bases ++ [base] }

def addMember (e : TypeEntry) (m : Member) : TypeEntry := { e with members := e.members ++ [m] }

/-- The kinds of properties a type may declare. -/
inductive PropertyKind where
  | property | readonly | static_ | field
  deriving DecidableEq, Repr

/-- A property, a read-only property, a static property, or a field. -/
def addProperty (e : TypeEntry) (kind : PropertyKind) (name : String) (type : TypeRef) :
    TypeEntry :=
  e.addMember (.property
    { name := name
      type := type
      declaring := e.selfType
      isStatic := kind = .static_
      writable := kind = .property ∨ kind = .field
      isField := kind = .field })

/-- A nested type. -/
def addNested (e : TypeEntry) (name : String) : TypeEntry :=
  e.addMember (.nested name (.simple (e.name ++ "+" ++ name)))

/-- The declaration of a method, before it has an owner. -/
structure MethodDecl where
  name : String
  returns : TypeRef
  typeParams : List String
  params : List Parameter
  isStatic : Bool

namespace MethodDecl

/-- An instance method. -/
def instance_ (name : String) (returns : TypeRef) (params : List Parameter) : MethodDecl :=
  ⟨name, returns, [], params, false⟩

/-- A static method. -/
def static_ (name : String) (returns : TypeRef) (params : List Parameter) : MethodDecl :=
  ⟨name, returns, [], params, true⟩

/-- The method as declared in `owner`.  Its identity takes in the definitions
of its parameter types, where they have one. -/
def inOwner (d : MethodDecl) (owner : TypeEntry) (isExtension : Bool) : Method :=
  let params := d.params.map (fun p => p.type.definition?.getD TypeId.empty)
  { id := if isExtension then TypeId.ofExtension owner.id d.name params
      else TypeId.ofMember owner.id d.name params
    name := d.name
    declaring := owner.selfType
    typeParams := d.typeParams
    params := d.params
    returns := d.returns
    isStatic := d.isStatic
    isExtension := isExtension }

end MethodDecl

def addMethod (e : TypeEntry) (d : MethodDecl) : TypeEntry :=
  e.addMember (.method (d.inOwner e false))

/-- An extension method; it is static and makes the type a static class. -/
def addExtension (e : TypeEntry) (d : MethodDecl) : TypeEntry :=
  let e := e.withFlags { TypeFlags.empty with staticClass := true }
  e.addMember (.method (({ d with isStatic := true } : MethodDecl).inOwner e true))

def addIndexer (e : TypeEntry) (param : Parameter) (type : TypeRef) (writable : Bool) :
    TypeEntry :=
  { e with indexers := e.indexers ++ [⟨param, type, e.selfType, writable⟩] }

/-- A capability property; a later one replaces an earlier one of the same
name, and the type becomes bindable. -/
def addCapability (e : TypeEntry) (name : String) (type : TypeRef) (markup : MarkupOptions) :
    TypeEntry :=
  let e := e.withFlags { TypeFlags.empty with bindable := true }
  { e with
    capabilities := e.capabilities.filter (fun c => c.name != name)
      ++ [⟨name, type, e.selfType, markup, none⟩] }

end TypeEntry

end BoundMarkup
