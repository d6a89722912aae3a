/-
  BoundMarkup.Registry.Lookup
  ───────────────────────────
  **QUESTIONS ABOUT DECLARED TYPES.**

  All answers follow the levels of supertypes: nearer declarations come first
  and hide farther ones, while declarations at one distance stand side by side.
  What is returned is closed over the arguments of the type asked about.
-/
import BoundMarkup.Registry.Basic

namespace BoundMarkup.Registry

/-! ## §1. Supertypes. -/

/-- The supertypes of a type by distance, the type itself first and `object`
last.  Arrays can be enumerated; nullable wrappers and open parameters are only
objects; what is no type of values has no levels. -/
def levels (r : Registry) (t : TypeRef) : List (List TypeRef) :=
  let own := match t with
    | .array element => [[t], [.enumerable element]]
    | .nullable _ | .param _ _ _ => [[t]]
    | .named _ _ => r.hierarchy.levels t
    | .unknown | .void | .null => []
  if own.isEmpty || t.isObject then own
  else
    (own.map (fun level => level.filter (· ≠ .object))).filter (fun level => !level.isEmpty)
      ++ [[.object]]

/-- The type and its supertypes, nearest first. -/
def lineage (r : Registry) (t : TypeRef) : List TypeRef := (r.levels t).flatten

/-- The supertypes of a type, nearest first. -/
def supertypes (r : Registry) (t : TypeRef) : List TypeRef := ((r.levels t).drop 1).flatten

/-- Whether a value of one type can stand for the other without a change of
representation. -/
def isAssignable (r : Registry) (source target : TypeRef) : Bool :=
  if source = target then true
  else
    match source with
    | .unknown | .void | .null => false
    | _ => decide (target ∈ r.supertypes source)

/-! ## §2. Members. -/

/-- The member that arrays and nullable wrappers have by nature. -/
def intrinsic? (t : TypeRef) (name : String) : Option Member :=
  let property (type : TypeRef) : Member := .property
    { name := name, type := type, declaring := t,
      isStatic := false, writable := false, isField := false }
  match t with
  | .array _ => if name = "Length" then some (property .int32) else none
  | .nullable inner =>
      if name = "HasValue" then some (property .bool)
      else if name = "Value" then some (property inner)
      else none
  | _ => none

/-- The members of a name that a constructed type itself declares. -/
def declaredMembers (r : Registry) (name : String) (isStatic : Bool) (t : TypeRef) :
    List Member :=
  match r.entryOf? t with
  | some e =>
      ((e.membersNamed name).filter (fun m => m.isStatic == isStatic)).map (·.instantiate t)
  | none => []

/-- What nearer members hide: everything once one of them is no method, and
methods with the same parameter types. -/
structure Hiding where
  all : Bool
  signatures : List (List TypeRef)

/-- The member is hidden. -/
def Hiding.hides (h : Hiding) (m : Member) : Bool :=
  h.all || m.method?.any (fun m => decide (m.signature ∈ h.signatures))

/-- What is hidden once the given members are visible too. -/
def Hiding.add (h : Hiding) (members : List Member) : Hiding :=
  ⟨h.all || members.any (fun m => !m.isMethod),
   h.signatures ++ members.filterMap (fun m => m.method?.map Method.signature)⟩

/-- The visible members of the given levels. -/
def visibleMembers (r : Registry) (name : String) (isStatic : Bool) :
    Hiding → List (List TypeRef) → List Member
  | _, [] => []
  | hidden, level :: levels =>
      let found := Hierarchy.distinct
        ((level.flatMap (r.declaredMembers name isStatic)).filter (fun m => !hidden.hides m))
      found ++ r.visibleMembers name isStatic (hidden.add found) levels

/-- **The members of a name**, static or not, that are visible on a type. -/
def members (r : Registry) (t : TypeRef) (name : String) (isStatic : Bool) : List Member :=
  let intrinsic := if isStatic then [] else (intrinsic? t name).toList
  intrinsic ++ r.visibleMembers name isStatic ((Hiding.mk false []).add intrinsic) (r.levels t)

/-- The methods among the visible members. -/
def methods (r : Registry) (t : TypeRef) (name : String) (isStatic : Bool) : List Method :=
  (r.members t name isStatic).filterMap Member.method?

/-! ## §3. Extension methods. -/

/-- A value whose type has the given lineage can be the first argument of an
extension method that extends `first`. -/
def receives (lineage : List TypeRef) (first : TypeRef) : Bool :=
  match first with
  | .param owner _ _ => owner == .method
  | _ =>
      if first.mentions .method then
        lineage.any (fun t => t.definition?.isSome && t.definition? == first.definition?)
      else decide (first ∈ lineage)

/-- The extension methods of a name that can be called on a type. -/
def extensions (r : Registry) (t : TypeRef) (name : String) : List Method :=
  let lineage := r.lineage t
  (r.extensionsNamed name).filter (fun m => m.params.head?.any (fun p => receives lineage p.type))

/-! ## §4. Capability properties and indexers. -/

/-- The capability property of a name, from the nearest bindable type that
declares one. -/
def capability? (r : Registry) (t : TypeRef) (name : String) : Option Capability :=
  (r.lineage t).findSome? (fun t =>
    (r.entryOf? t).bind (fun e => if e.flags.bindable then e.capability? name else none))

/-- The capability properties a type itself declares, sorted by name. -/
def declaredCapabilities (r : Registry) (t : TypeRef) : List Capability :=
  match r.entryOf? t with
  | some e => e.capabilities.mergeSort (fun a b => decide (a.name ≤ b.name))
  | none => []

/-- All capability properties of a type, nearest first, each name once. -/
def capabilities (r : Registry) (t : TypeRef) : List Capability :=
  ((r.lineage t).flatMap r.declaredCapabilities).foldl
    (fun seen c => if seen.any (fun s => s.name == c.name) then seen else seen ++ [c]) []

/-- The indexers a constructed type itself declares. -/
def declaredIndexers (r : Registry) (t : TypeRef) : List Indexer :=
  match r.entryOf? t with
  | some e => e.indexers.map (·.instantiate t)
  | none => []

/-- The indexers of the given levels that do not take a parameter type that
`found` takes already. -/
def visibleIndexers (r : Registry) : List Indexer → List (List TypeRef) → List Indexer
  | found, [] => found
  | found, level :: levels =>
      let fresh := (level.flatMap r.declaredIndexers).filter
        (fun i => !found.any (fun f => f.param.type == i.param.type))
      r.visibleIndexers (found ++ fresh) levels

/-- The indexers that are visible on a type. -/
def indexers (r : Registry) (t : TypeRef) : List Indexer := r.visibleIndexers [] (r.levels t)

/-! ## §5. Names and traits. -/

/-- Values of the type are copied. -/
def isValueType (r : Registry) (t : TypeRef) : Bool :=
  match t with
  | .nullable _ => true
  | .named _ _ =>
      match t.primitive? with
      | some kind => kind.isValueType
      | none => (r.entryOf? t).any (fun e => e.flags.valueType)
  | _ => false

/-- The traits of the declaration behind a type. -/
def flags (r : Registry) (t : TypeRef) : TypeFlags :=
  ((r.entryOf? t).map TypeEntry.flags).getD .empty

/-- The type a written name stands for: as it is, or else in the first of the
name spaces that has one. -/
def resolve? (r : Registry) (name : String) (spaces : List String) : Option TypeRef :=
  ((name :: spaces.map (fun space => space ++ "." ++ name)).findSome? r.findName?).map
    TypeEntry.selfType

/-- The module that defines a type, or the element of an array or wrapper. -/
def moduleOf? (r : Registry) : TypeRef → Option String
  | .array inner => r.moduleOf? inner
  | .nullable inner => r.moduleOf? inner
  | .named name args => (r.entryOf? (.named name args)).map TypeEntry.moduleName
  | _ => none

end BoundMarkup.Registry
