/-
  BoundMarkup.Term.Call
  ─────────────────────
  **CALLS.**

  The methods of the receiver are tried first; if none of them fits a call on a
  value, extension methods are tried with the receiver as the first argument.
-/
import BoundMarkup.Term.Candidate

namespace BoundMarkup

/-- The candidates among the members of the receiver. -/
def memberCandidates (r : Registry) (receiver : Term) (name : String) (typeArgs : List TypeRef)
    (positional : List Term) (named : List NamedArgument) : List Candidate :=
  Candidate.viable r (r.methods receiver.type name receiver.isTypeReference) typeArgs positional
    named

/-- The candidates among extension methods, for a receiver that is a value. -/
def extensionCandidates (r : Registry) (receiver : Term) (name : String)
    (typeArgs : List TypeRef) (positional : List Term) (named : List NamedArgument) :
    List Candidate :=
  if receiver.isTypeReference then []
  else Candidate.viable r (r.extensions receiver.type name) typeArgs (receiver :: positional) named

/-- The call that a member of the receiver makes. -/
def Candidate.memberCall (c : Candidate) (receiver : Term) : Term :=
  if c.method.isStatic then .staticCall c.method c.args else .call receiver c.method c.args

/-- **A call of a method by name.** -/
def Term.callMethod (r : Registry) (receiver : Term) (name : String) (typeArgs : List TypeRef)
    (positional : List Term) (named : List NamedArgument) : Except ResolutionError Term :=
  match memberCandidates r receiver name typeArgs positional named with
  | c :: cs => (Candidate.best name (c :: cs)).map (fun best => best.memberCall receiver)
  | [] =>
      match extensionCandidates r receiver name typeArgs positional named with
      | c :: cs =>
          (Candidate.best name (c :: cs)).map (fun best => .staticCall best.method best.args)
      | [] => .error (.noApplicableOverload name
          (positional.map (fun t => (none, t.type))
            ++ named.map (fun a => (some a.name, a.value.type))))

/-- A call of a term, which has to be a method group. -/
def Term.callTerm (r : Registry) (callee : Term) (positional : List Term)
    (named : List NamedArgument) : Except ResolutionError Term :=
  match callee with
  | .group name target typeArgs => target.callMethod r name typeArgs positional named
  | _ => .error (.notCallable callee.text callee.type)

end BoundMarkup
