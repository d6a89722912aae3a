/-
  BoundMarkup.Term.Candidate
  ──────────────────────────
  **METHODS THAT FIT THE ARGUMENTS OF A CALL.**

  A candidate is a method, closed over its type arguments, with one converted
  argument for each parameter.  Candidates are ranked by the number of changed
  representations and defaults, then by the number of inferred type arguments,
  then by having a variadic tail.
-/
import BoundMarkup.Term.Arguments
import BoundMarkup.Term.Error
import BoundMarkup.Term.Inference

namespace BoundMarkup

/-! ## §1. Candidates and ranks. -/

/-- A method that fits, with its arguments. -/
structure Candidate where
  method : Method
  /-- One argument for each parameter. -/
  args : List Term
  /-- Arguments and tail items that change representation, and defaults. -/
  casts : Nat
  /-- Inferred type arguments. -/
  inferred : Nat
  deriving Repr

namespace Candidate

/-- What candidates are ranked by; the lower the better. -/
structure Rank where
  casts : Nat
  inferred : Nat
  hasTail : Bool
  deriving DecidableEq, Repr

/-- One rank is strictly better. -/
def Rank.isBetter (a b : Rank) : Bool :=
  decide (a.casts < b.casts)
    || (a.casts == b.casts
      && (decide (a.inferred < b.inferred)
        || (a.inferred == b.inferred && !a.hasTail && b.hasTail)))

def rank (c : Candidate) : Rank := ⟨c.casts, c.inferred, c.method.hasTail⟩

/-- The method as shown in diagnostics. -/
def description (c : Candidate) : String :=
  c.method.declaring.text ++ "." ++ c.method.name
    ++ "(" ++ Text.join ", " (c.method.params.map (fun p => p.type.text)) ++ ")"

/-! ## §2. Fitting a method. -/

/-- An argument converted to a type, and whether its representation changes. -/
def convertArg? (r : Registry) (t : Term) (target : TypeRef) : Option (Term × Nat) :=
  (Conversion.find? r t.type target).map
    (fun c => (c.apply t target, if c.isExact then 0 else 1))

/-- All items of a variadic tail converted to its element type. -/
def convertItems? (r : Registry) (element : TypeRef) : List Term → Option (List Term × Nat)
  | [] => some ([], 0)
  | t :: ts =>
      (convertArg? r t element).bind (fun (converted, cast) =>
        (convertItems? r element ts).map (fun (rest, casts) =>
          (converted :: rest, cast + casts)))

/-- The element type of a variadic tail. -/
def tailElement (p : Parameter) : TypeRef := p.type.element?.getD .unknown

/-- A single last argument is passed through as the whole tail if it is an
array or `null` and converts to the type of the tail. -/
def passesThrough (r : Registry) (t : Term) (tail : Parameter) : Bool :=
  let isArrayLike := match t.type with
    | .array _ | .null => true
    | _ => false
  isArrayLike && (Conversion.find? r t.type tail.type).isSome

/-- What a call supplies besides the slots: its positional arguments, whether
the method has a tail, and how many parameters it has. -/
structure Supply where
  positional : List Term
  hasTail : Bool
  paramCount : Nat

/-- The argument at position `i` is collected into an array with all positional
arguments after it. -/
def Supply.collects (s : Supply) (r : Registry) (i : Nat) (t : Term) (p : Parameter) : Bool :=
  s.hasTail && i + 1 == s.paramCount && decide (i < s.positional.length)
    && !(s.positional.length == s.paramCount && passesThrough r t p)

/-- The argument for one parameter and the casts it costs. -/
def fillSlot? (r : Registry) (s : Supply) (i : Nat) (slot : Slot) (p : Parameter) :
    Option (Term × Nat) :=
  match slot with
  | .default value => some (.constant value p.type, 0)
  | .emptyTail => some (.newArray (tailElement p) [], 0)
  | .value t =>
      if s.collects r i t p then
        (convertItems? r (tailElement p) (s.positional.drop i)).map
          (fun (items, casts) => (.newArray (tailElement p) items, casts))
      else convertArg? r t p.type

/-- The arguments for the parameters from position `i` on. -/
def fillSlots? (r : Registry) (s : Supply) : Nat → List Slot → List Parameter →
    Option (List Term × Nat)
  | i, slot :: slots, p :: ps =>
      (fillSlot? r s i slot p).bind (fun (arg, cast) =>
        (fillSlots? r s (i + 1) slots ps).map (fun (args, casts) => (arg :: args, cast + casts)))
  | _, _, _ => some ([], 0)

/-- The declared types that inference reads: a tail stands for its element. -/
def inferenceTypes (m : Method) : List TypeRef :=
  let types := m.signature
  if m.hasTail then types.dropLast ++ (types.getLast?.map (fun t => t.element?.getD t)).toList
  else types

/-- What a slot tells inference. -/
def slotType : Slot → TypeRef
  | .value t => t.type
  | .default _ | .emptyTail => .unknown

/-- The method closed over its type arguments, and how many were inferred. -/
def closeOver? (r : Registry) (m : Method) (typeArgs : List TypeRef) (slots : List Slot) :
    Option (Method × Nat) :=
  if m.isGeneric then
    (InferredArgs.of? r m.typeParams.length typeArgs (inferenceTypes m) (slots.map slotType)).map
      (fun found => (m.close found.args, found.inferred))
  else if typeArgs.isEmpty then some (m, 0)
  else none

/-- **The candidate a method makes for a call**, if it fits. -/
def of? (r : Registry) (m : Method) (typeArgs : List TypeRef) (positional : List Term)
    (named : List NamedArgument) : Option Candidate := do
  let arrangement ← Arrangement.of? m.params positional named
  let (closed, inferred) ← closeOver? r m typeArgs arrangement.slots
  let supply : Supply := ⟨positional, m.hasTail, m.params.length⟩
  let (args, casts) ← fillSlots? r supply 0 arrangement.slots closed.params
  some ⟨closed, args, arrangement.defaults + casts, inferred⟩

/-- The candidates that the methods make. -/
def viable (r : Registry) (methods : List Method) (typeArgs : List TypeRef)
    (positional : List Term) (named : List NamedArgument) : List Candidate :=
  methods.filterMap (fun m => of? r m typeArgs positional named)

/-! ## §3. The best candidate. -/

/-- The best rank among the candidates. -/
def bestRank? : List Candidate → Option Rank
  | [] => none
  | c :: cs =>
      match bestRank? cs with
      | some best => some (if best.isBetter c.rank then best else c.rank)
      | none => some c.rank

/-- **The one candidate of the best rank.**  Two of them are ambiguous. -/
def best (name : String) (candidates : List Candidate) : Except ResolutionError Candidate :=
  match candidates.filter (fun c => bestRank? candidates == some c.rank) with
  | [] => .error (.noApplicableOverload name [])
  | [c] => .ok c
  | c :: d :: _ => .error (.ambiguousOverload name c.description d.description)

end Candidate

end BoundMarkup
