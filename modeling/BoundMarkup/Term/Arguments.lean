/-
  BoundMarkup.Term.Arguments
  ──────────────────────────
  **WHICH ARGUMENT GOES TO WHICH PARAMETER.**

  Positional arguments fill the parameters from the left.  Named arguments fill
  only parameters after these, and each of them has to be used.  What is left
  takes its default, or nothing for a variadic tail.  Arguments beyond the
  parameters are left to a variadic tail.
-/
import BoundMarkup.Term.Basic

namespace BoundMarkup

/-- An argument given by name. -/
structure NamedArgument where
  name : String
  value : Term
  deriving Repr

/-- What fills a parameter. -/
inductive Slot where
  | value (term : Term)
  /-- The default of the parameter. -/
  | default (value : Constant)
  /-- A variadic tail without arguments. -/
  | emptyTail
  deriving Repr

/-- One slot for each parameter. -/
structure Arrangement where
  slots : List Slot
  /-- How many slots take their default. -/
  defaults : Nat
  deriving Repr

namespace Arrangement

/-- The slots of the parameters after the positional arguments, how many of them
take their default, and how many named arguments they use. -/
def rest (named : List NamedArgument) : List Parameter → Option (List Slot × Nat × Nat)
  | [] => some ([], 0, 0)
  | p :: ps =>
      match named.find? (fun a => a.name == p.name) with
      | some a =>
          (rest named ps).map (fun (slots, defaults, used) =>
            (.value a.value :: slots, defaults, used + 1))
      | none =>
          match p.default? with
          | some value =>
              (rest named ps).map (fun (slots, defaults, used) =>
                (.default value :: slots, defaults + 1, used))
          | none => if p.variadic && ps.isEmpty then some ([.emptyTail], 0, 0) else none

/-- The last parameter takes any number of arguments. -/
def hasTail (params : List Parameter) : Bool := params.getLast?.any Parameter.variadic

/-- Whether the number of positional arguments can do.  Without a tail there
may not be more of them than parameters.  With one, the fixed parameters
without an argument must have defaults. -/
def countFits (params : List Parameter) (count : Nat) : Bool :=
  if hasTail params then
    let fixed := params.length - 1
    let defaults := ((params.drop count).filter (fun p => p.default?.isSome)).length
    fixed ≤ count || fixed ≤ defaults + count
  else count ≤ params.length

/-- **The arrangement of arguments**, if they fit the parameters. -/
def of? (params : List Parameter) (positional : List Term) (named : List NamedArgument) :
    Option Arrangement :=
  if countFits params positional.length then
    (rest named (params.drop positional.length)).bind (fun (slots, defaults, used) =>
      if used = named.length then
        some ⟨(positional.take params.length).map .value ++ slots, defaults⟩
      else none)
  else none

end Arrangement

end BoundMarkup
