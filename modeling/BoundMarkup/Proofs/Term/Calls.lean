/-
  BoundMarkup.Proofs.Term.Calls
  ─────────────────────────────
  **CALLS THAT FIT THEIR METHOD.**

  A formed call has an argument for each parameter of its method.  Types of one
  identity are told apart by nothing but their names, so the arguments have just
  the types of the parameters where no two of the names that are involved share
  an identity.  Whether the call has a receiver is settled by where its method was
  found (`Formed.receiverFits`).
-/
import BoundMarkup.Proofs.Term.Formation

namespace BoundMarkup

/-! ## §1. Names that identities tell apart. -/

/-- No two of the names share an identity. -/
def TypeId.Distinguishes (names : List String) : Prop :=
  ∀ n ∈ names, ∀ m ∈ names, TypeId.ofName n = TypeId.ofName m → n = m

instance (names : List String) : Decidable (TypeId.Distinguishes names) :=
  inferInstanceAs (Decidable (∀ n ∈ names, ∀ m ∈ names,
    TypeId.ofName n = TypeId.ofName m → n = m))

/-- The name of a declared type without generic arguments. -/
def TypeRef.plainName? : TypeRef → Option String
  | .named name [] => some name
  | _ => none

/-- Types of one identity are equal where names are told apart. -/
theorem TypeRef.Alike.eq {types : List TypeRef} {a b : TypeRef} (h : a.Alike b)
    (names : TypeId.Distinguishes (types.filterMap plainName?)) (ha : a ∈ types)
    (hb : b ∈ types) : a = b := by
  rcases h with h | ⟨n, m, rfl, rfl, h⟩
  · exact h
  · have hn : n ∈ types.filterMap plainName? := List.mem_filterMap.2 ⟨.simple n, ha, rfl⟩
    have hm : m ∈ types.filterMap plainName? := List.mem_filterMap.2 ⟨.simple m, hb, rfl⟩
    rw [names n hn m hm h]

namespace Term

/-! ## §2. Calls. -/

/-- The types of the arguments and the parameters of a call. -/
def callTypes : Term → List TypeRef
  | call _ method args | staticCall method args => args.map type ++ method.signature
  | _ => []

/-- The names involved in the calls inside a term. -/
def callNames (t : Term) : List String :=
  (t.subterms.flatMap callTypes).filterMap TypeRef.plainName?

/-! ## §3. Formed calls. -/

variable {r : Registry}

end Term

end BoundMarkup
