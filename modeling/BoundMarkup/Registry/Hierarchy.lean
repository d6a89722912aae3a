/-
  BoundMarkup.Registry.Hierarchy
  ──────────────────────────────
  **INHERITANCE BETWEEN TYPES.**

  An edge leads from a definition to one of its bases, written in terms of the
  definition's generic parameters.  The supertypes of a constructed type are
  found level by level, closing each base over the arguments at hand.

  Bases may grow their arguments without end, so the search has a depth limit.
  A search that ends by itself within the limit does not depend on it.
-/
import BoundMarkup.Types.Primitive

namespace BoundMarkup

/-! ## §1. Edges. -/

/-- A direct base of a definition. -/
structure BaseEdge where
  derived : TypeId
  base : TypeRef
  deriving DecidableEq, Repr

/-- The declared bases, in order of declaration. -/
structure Hierarchy where
  edges : List BaseEdge
  /-- How many levels a search descends at most. -/
  reach : Nat
  deriving DecidableEq, Repr

namespace Hierarchy

/-- No bases are known.  Four thousand million levels are beyond any search
that ends in practice. -/
def empty : Hierarchy := ⟨[], 4294967296⟩

/-- Record a direct base.  Only a declared type can be one. -/
def addBase (h : Hierarchy) (derived : TypeId) (base : TypeRef) : Hierarchy :=
  match base.definition? with
  | some _ => { h with edges := h.edges ++ [⟨derived, base⟩] }
  | none => h

/-- The direct bases of a constructed type, closed over its arguments. -/
def directBases (h : Hierarchy) (t : TypeRef) : List TypeRef :=
  match t.definition? with
  | some id =>
      (h.edges.filter (fun e => e.derived == id)).map
        (fun e => e.base.substitute .type t.genericArgs)
  | none => []

/-! ## §2. Levels. -/

/-- The list without repetitions, first occurrences kept in order. -/
def distinct [DecidableEq α] (xs : List α) : List α :=
  xs.foldl (fun seen x => if x ∈ seen then seen else seen ++ [x]) []

/-- The bases of a level that have not been seen before. -/
def nextLevel (h : Hierarchy) (seen level : List TypeRef) : List TypeRef :=
  distinct ((level.flatMap h.directBases).filter (fun t => decide (t ∉ seen)))

/-- `level` and up to `depth` levels after it. -/
def levelsFrom (h : Hierarchy) : Nat → List TypeRef → List TypeRef → List (List TypeRef)
  | 0, _, level => [level]
  | depth + 1, seen, level =>
      match h.nextLevel seen level with
      | [] => [level]
      | t :: ts => level :: h.levelsFrom depth (seen ++ (t :: ts)) (t :: ts)

/-- **The supertypes of a type by distance**, the type itself first.  A base
reached along several paths stands at its shallowest level only. -/
def levels (h : Hierarchy) (t : TypeRef) : List (List TypeRef) := h.levelsFrom h.reach [t] [t]

/-! ## §3. Definitions. -/

/-- The definition occurs at one end of an edge. -/
def knows (h : Hierarchy) (id : TypeId) : Bool :=
  h.edges.any (fun e => e.derived == id || e.base.definition? == some id)

/-- The definitions one edge away. -/
def directDefinitions (h : Hierarchy) (id : TypeId) : List TypeId :=
  (h.edges.filter (fun e => e.derived == id)).filterMap (fun e => e.base.definition?)

/-- The definitions at most `n` edges away from one of `ids`. -/
def definitionsWithin (h : Hierarchy) : Nat → List TypeId → List TypeId
  | 0, ids => ids
  | n + 1, ids =>
      h.definitionsWithin n (distinct (ids ++ ids.flatMap h.directDefinitions))

/-- Whether a definition reaches another through inheritance.  A path without
repetitions has at most as many steps as there are edges. -/
def derivesFrom (h : Hierarchy) (id ancestor : TypeId) : Bool :=
  h.knows id && h.knows ancestor
    && decide (ancestor ∈ h.definitionsWithin h.edges.length [id])

end Hierarchy

end BoundMarkup
