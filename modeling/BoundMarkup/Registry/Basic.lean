/-
  BoundMarkup.Registry.Basic
  ─────────────────────────────
  **THE DECLARED TYPES.**

  Types are kept in the order of their registration and found by identity or by
  name.  Registration refuses a second type of the same identity, members that
  cannot be told apart, bases that are no declared types, and extension methods
  that extend nothing.
-/
import BoundMarkup.Registry.Hierarchy
import BoundMarkup.Registry.TypeEntry

namespace BoundMarkup

/-! ## §1. Why a type is refused. -/

/-- Why a type cannot be registered. -/
inductive RegistrationError where
  | duplicateType (name : String)
  | duplicateMember (typeName member : String)
  | invalidBase (typeName : String) (base : TypeRef)
  | invalidExtension (method : String)
  deriving DecidableEq, Repr

def RegistrationError.message : RegistrationError → String
  | duplicateType name => "duplicate type: " ++ name
  | duplicateMember typeName member =>
      "duplicate member '" ++ member ++ "' on type '" ++ typeName ++ "'"
  | invalidBase typeName base =>
      "invalid declaration: '" ++ typeName ++ "' cannot derive from '" ++ base.text ++ "'"
  | invalidExtension method => "extension method '" ++ method ++ "' has no parameters"

namespace TypeEntry

/-- The members of one name cannot be told apart: two methods with the same
parameter types, or a member that is no method beside another member. -/
def hasClash (e : TypeEntry) (name : String) : Bool :=
  let members := e.membersNamed name
  let signatures : List (List TypeRef) :=
    members.filterMap (fun m => m.method?.map Method.signature)
  let others := members.filter (fun m => !m.isMethod)
  !decide signatures.Nodup || decide (1 < others.length)
    || (others.length == 1 && !signatures.isEmpty)

/-- The extension methods of the given name, in order of declaration. -/
def extensionsNamed (e : TypeEntry) (name : String) : List Method :=
  (e.membersNamed name).filterMap (fun m => m.method?.filter Method.isExtension)

/-- What is wrong with the declaration by itself. -/
def fault? (e : TypeEntry) : Option RegistrationError :=
  match e.members.find? (fun m => e.hasClash m.name) with
  | some m => some (.duplicateMember e.name m.name)
  | none =>
      match e.bases.find? (fun b => b.definition?.isNone) with
      | some base => some (.invalidBase e.name base)
      | none =>
          (e.members.filterMap Member.method?).find? (fun m => m.isExtension && m.params.isEmpty)
            |>.map (fun m => .invalidExtension m.name)

end TypeEntry

/-! ## §2. Registries. -/

/-- The declared types and their hierarchy. -/
structure Registry where
  entries : List TypeEntry
  hierarchy : Hierarchy
  deriving Repr

namespace Registry

/-- No types are declared. -/
def empty : Registry := ⟨[], .empty⟩

/-- The type with the given identity. -/
def find? (r : Registry) (id : TypeId) : Option TypeEntry :=
  r.entries.find? (fun e => e.id == id)

/-- The type with the given qualified name. -/
def findName? (r : Registry) (name : String) : Option TypeEntry :=
  r.entries.find? (fun e => e.name == name)

/-- The declaration behind a reference; arrays and nullable wrappers have none. -/
def entryOf? (r : Registry) (t : TypeRef) : Option TypeEntry := t.definition?.bind r.find?

/-- Add a valid declaration. -/
def insert (r : Registry) (e : TypeEntry) : Registry :=
  ⟨r.entries ++ [e], e.bases.foldl (fun h base => h.addBase e.id base) r.hierarchy⟩

/-- **Register a type.** -/
def register (r : Registry) (e : TypeEntry) : Except RegistrationError Registry :=
  if (r.find? e.id).isSome then .error (.duplicateType e.name)
  else
    match e.fault? with
    | some fault => .error fault
    | none => .ok (r.insert e)

/-- How many types are declared. -/
def size (r : Registry) : Nat := r.entries.length

/-- The extension methods of the given name, in order of registration. -/
def extensionsNamed (r : Registry) (name : String) : List Method :=
  r.entries.flatMap (fun e => e.extensionsNamed name)

end Registry

end BoundMarkup
