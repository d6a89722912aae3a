/-
  BoundMarkup.Term.Member
  ───────────────────────
  **MEMBERS OF A VALUE OR A TYPE.**

  A name is looked up among the capability properties of a value, then among
  ordinary members, then among extension methods.  A single property is an
  access, a single nested type a type reference; everything else is a method
  group, which a call resolves later.
-/
import BoundMarkup.Term.Error

namespace BoundMarkup.Term

/-! ## §1. Lookup. -/

/-- The nested types called `name` with `count` generic parameters. -/
def genericNested (r : Registry) (t : TypeRef) (name : String) (count : Nat) (isStatic : Bool) :
    List Member :=
  (r.members t (withArity name count) isStatic).filter (fun m =>
    match m with
    | .nested _ _ => true
    | _ => false)

/-- The ordinary members of a name.  With type arguments, a nested type has to
be declared for that many of them. -/
def candidateMembers (r : Registry) (t : TypeRef) (name : String) (typeArgs : List TypeRef)
    (isStatic : Bool) : List Member :=
  let members := r.members t name isStatic
  if typeArgs.isEmpty then members
  else
    members.filter (fun m =>
      match m with
      | .nested _ _ => false
      | _ => true)
      ++ genericNested r t name typeArgs.length isStatic

/-- The type a nested type stands for, once type arguments are given. -/
def nestedType (type : TypeRef) (typeArgs : List TypeRef) : TypeRef :=
  match type with
  | .named name _ => if typeArgs.isEmpty then type else .named name typeArgs
  | _ => type

/-- The term that a single member or a group of members stands for. -/
def ofMembers (target : Term) (name : String) (typeArgs : List TypeRef) : List Member → Term
  | [.property p] => if target.isTypeReference then staticAccess p else access target p
  | [.nested _ type] => typeReference (nestedType type typeArgs)
  | _ => group name target typeArgs

/-- The capability property that a member name reads, without type arguments
and on values only. -/
def capabilityRead? (r : Registry) (target : Term) (name : String) (typeArgs : List TypeRef) :
    Option Term :=
  if typeArgs.isEmpty && !target.isTypeReference then
    (r.capability? target.type name).map (capabilityGet target)
  else none

/-- The members a name stands for on a target; extension methods count only if
there is nothing else. -/
def membersOn (r : Registry) (target : Term) (name : String) (typeArgs : List TypeRef) :
    List Member :=
  match candidateMembers r target.type name typeArgs target.isTypeReference with
  | [] => (r.extensions target.type name).map .method
  | members => members

/-- **The member of a name on a target**, if there is one.  A method group has
no members at all, and nothing is known about a target of undetermined type. -/
def member? (r : Registry) (target : Term) (name : String) (typeArgs : List TypeRef) :
    Except ResolutionError (Option Term) :=
  match target with
  | .group groupName _ _ => .error (.memberAccessOnMethodGroup name groupName)
  | _ =>
      if target.type = .unknown then .ok none
      else
        match capabilityRead? r target name typeArgs with
        | some read => .ok (some read)
        | none =>
            match membersOn r target name typeArgs with
            | [] => .ok none
            | members => .ok (some (ofMembers target name typeArgs members))

/-- The member of a name on a target, which has to be there. -/
def member (r : Registry) (target : Term) (name : String) (typeArgs : List TypeRef) :
    Except ResolutionError Term := do
  match ← member? r target name typeArgs with
  | some found => .ok found
  | none =>
      if target.type = .unknown then .error (.unresolvedType target.text)
      else .error (.memberNotFound name target.type target.isTypeReference)

/-! ## §2. Update. -/

/-- The term can be the target of an assignment as it stands. -/
def isAssignable : Term → Bool
  | access _ p => p.writable
  | staticAccess p => p.writable
  | parameter _ _ => true
  | index _ _ i _ => i.all Indexer.writable
  | _ => false

/-- The value converted for storing; any value can be stored as text. -/
def storable (r : Registry) (value : Term) (type : TypeRef) : Except ResolutionError Term :=
  match value.convertOrText? r type with
  | some converted => .ok converted
  | none => .error (.noImplicitConversion value.type type)

/-- The term that stores a value, if the target can be written: an assignment,
or the write of a capability property that the target reads. -/
def update? (r : Registry) (target value : Term) : Except ResolutionError (Option Term) :=
  if target.isAssignable then
    (storable r value target.type).map (fun v => some (assign target v))
  else
    match target.unconverted with
    | .capabilityGet owner p =>
        (storable r value p.type).map (fun v => some (capabilitySet owner p v))
    | _ => .ok none

/-- The term that stores a value. -/
def update (r : Registry) (target value : Term) : Except ResolutionError Term := do
  match ← update? r target value with
  | some stored => .ok stored
  | none => .error (.notAssignable target.text)

end BoundMarkup.Term
