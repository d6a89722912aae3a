/-
  BoundMarkup.Term.Index
  ──────────────────────
  **ELEMENTS BY INDEX.**

  An array is indexed by `int`.  Any other type has to have exactly one indexer
  whose parameter accepts the index.
-/
import BoundMarkup.Term.Error

namespace BoundMarkup.Term

/-- The indexers of a type that accept an index, with the index converted. -/
def acceptingIndexers (r : Registry) (t : TypeRef) (index : Term) : List (Indexer × Term) :=
  (r.indexers t).filterMap (fun i =>
    (index.convertTo? r i.param.type).map (fun converted => (i, converted)))

/-- **The element of a target at an index.** -/
def elementAt (r : Registry) (target position : Term) : Except ResolutionError Term :=
  match target.type with
  | .array element =>
      match position.convertTo? r .int32 with
      | some i => .ok (.index target i none element)
      | none => .error (.indexerNotFound target.type position.type)
  | t =>
      match acceptingIndexers r t position with
      | [] => .error (.indexerNotFound t position.type)
      | [(indexer, i)] => .ok (.index target i (some indexer) indexer.type)
      | _ => .error (.ambiguousIndexer t position.type)

end BoundMarkup.Term
