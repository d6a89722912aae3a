/-
  BoundMarkup.Proofs.Term.Formation
  ─────────────────────────────────
  **THE TERMS THAT RESOLUTION BUILDS.**

  `Term.Formed` has one rule for each kind of value, with what resolution knows
  when it builds one: the parts are formed, and a call hands the method that it
  found an argument for each parameter.  Placeholders have no rule.  Then:

    • a conversion that keeps a value as it is leads to a type of the same
      identity (`Term.alike_of_convertTo?`),
    • every part of a formed term is formed (`Term.Formed.of_mem_subterms`),
      so what the rules say of one term holds everywhere inside it.
-/
import BoundMarkup.Proofs.Registry.Declared
import BoundMarkup.Term.Candidate
import Mathlib.Data.List.Forall2

namespace BoundMarkup

/-! ## §1. Types of one identity. -/

/-- The types are the same, or two names without arguments of one identity. -/
def TypeRef.Alike (a b : TypeRef) : Prop :=
  a = b ∨ ∃ n m, a = .simple n ∧ b = .simple m ∧ TypeId.ofName n = TypeId.ofName m

theorem TypeRef.Alike.refl (a : TypeRef) : a.Alike a := Or.inl rfl

/-- A built-in type is recognised by the identity of its name. -/
theorem TypeRef.primitive?_eq_some {t : TypeRef} {k : Primitive} (h : t.primitive? = some k) :
    ∃ n, t = .simple n ∧ TypeId.ofName n = TypeId.ofName k.name := by
  unfold primitive? at h
  split at h
  · rename_i n
    refine ⟨n, rfl, ?_⟩
    obtain ⟨entry, hfound, rfl⟩ := Option.map_eq_some_iff.1 h
    have hid : entry.1 = TypeId.ofName n := by simpa using List.find?_some hfound
    obtain ⟨k, -, rfl⟩ := List.mem_map.1 (List.mem_of_find?_eq_some hfound)
    exact hid.symm
  · cases h

namespace Conversion

/-- Between built-in types only the conversion to the same type is exact. -/
theorem eq_of_primitive?_exact {s t : Primitive} {c : Conversion} (h : primitive? s t = some c)
    (hexact : c.isExact = true) : s = t := by
  unfold primitive? at h
  split at h
  · assumption
  · split at h <;> cases h <;> cases hexact

theorem alike_of_builtin? {source target : TypeRef} {c : Conversion}
    (h : builtin? source target = some c) (hexact : c.isExact = true) : source.Alike target := by
  unfold builtin? at h
  split at h
  · rename_i s t hs ht
    obtain rfl := eq_of_primitive?_exact h hexact
    obtain ⟨n, rfl, hn⟩ := TypeRef.primitive?_eq_some hs
    obtain ⟨m, rfl, hm⟩ := TypeRef.primitive?_eq_some ht
    exact Or.inr ⟨n, m, rfl, rfl, hn.trans hm.symm⟩
  · cases h

/-- A conversion to a base type changes the representation. -/
theorem not_isExact_upcast? {r : Registry} {source target : TypeRef} {c : Conversion}
    (h : upcast? r source target = some c) : c.isExact = false := by
  unfold upcast? at h
  split at h
  · split at h <;> cases h <;> rfl
  · cases h

/-- **An exact conversion leads to a type of the same identity.** -/
theorem alike_of_exact {r : Registry} {source target : TypeRef} {c : Conversion}
    (h : find? r source target = some c) (hexact : c.isExact = true) : source.Alike target := by
  unfold find? at h
  split at h
  · -- Under a nullable wrapper only the same type is exact.
    split at h
    · exact Or.inl ‹_›
    · exfalso
      split at h
      · cases h
      · cases h
      · cases h
        cases hexact
      · rw [not_isExact_upcast? h] at hexact
        cases hexact
      · obtain ⟨inner, -, rfl⟩ := Option.map_eq_some_iff.1 h
        cases hexact
  · split at h
    · exact Or.inl ‹_›
    · split at h
      · cases h
      · cases h
      · split at h <;> cases h
        cases hexact
      · cases hbuiltin : builtin? source target with
        | some c' =>
            rw [hbuiltin] at h
            cases h
            exact alike_of_builtin? hbuiltin hexact
        | none =>
            rw [hbuiltin] at h
            rw [not_isExact_upcast? h] at hexact
            cases hexact

/-- Every type converts to itself without a change. -/
theorem find?_self (r : Registry) (t : TypeRef) : find? r t t = some identity := by
  cases t <;> simp [find?]

/-- A value has the type it was converted to. -/
theorem alike_apply {r : Registry} {t : Term} {target : TypeRef} {c : Conversion}
    (h : find? r t.type target = some c) : (c.apply t target).type.Alike target := by
  unfold apply
  split
  · exact alike_of_exact h ‹_›
  · exact .refl target

end Conversion

theorem Term.alike_of_convertTo? {r : Registry} {t u : Term} {target : TypeRef}
    (h : t.convertTo? r target = some u) : u.type.Alike target := by
  obtain ⟨c, hc, rfl⟩ := Option.map_eq_some_iff.1 h
  exact Conversion.alike_apply hc

/-- A term converts just if its type does. -/
theorem Term.isSome_convertTo? {r : Registry} {t : Term} {target : TypeRef} :
    (t.convertTo? r target).isSome = (Conversion.find? r t.type target).isSome :=
  Option.isSome_map

/-! ## §2. Formed terms. -/

/-- What fills a parameter: a term of its type, or the array of a variadic tail. -/
inductive Parameter.Filled (p : Parameter) (arg : Term) : Prop where
  | typed (alike : arg.type.Alike p.type)
  | tail (variadic : p.variadic = true)
      (array : ∃ items, arg = .newArray (Candidate.tailElement p) items)

namespace Term

/-- **A term that resolution may build.** -/
inductive Formed (r : Registry) : Term → Prop where
  | constant (value : Constant) (type : TypeRef) : Formed r (.constant value type)
  | parameter (name : String) (type : TypeRef) : Formed r (.parameter name type)
  | access {target : Term} (ht : Formed r target) (member : Property) :
      Formed r (.access target member)
  | staticAccess (member : Property) : Formed r (.staticAccess member)
  | capabilityGet {target : Term} (ht : Formed r target) (property : Capability) :
      Formed r (.capabilityGet target property)
  | capabilitySet {target value : Term} (ht : Formed r target) (property : Capability)
      (hv : Formed r value) : Formed r (.capabilitySet target property value)
  /-- An instance method is called on a receiver that has it, by its own type or as every object
  does. -/
  | call {target : Term} {method : Method} {args : List Term} {t : TypeRef} (ht : Formed r target)
      (hargs : ∀ a ∈ args, Formed r a) (receiver : t = target.type ∨ t = .object)
      (found : r.Finds t (.member false) method)
      (filled : List.Forall₂ Parameter.Filled method.params args) :
      Formed r (.call target method args)
  /-- What was found in another way is called without one. -/
  | staticCall {method : Method} {args : List Term} {t : TypeRef} {origin : Registry.Origin}
      (hargs : ∀ a ∈ args, Formed r a) (found : r.Finds t origin method)
      (static_ : origin ≠ .member false)
      (filled : List.Forall₂ Parameter.Filled method.params args) :
      Formed r (.staticCall method args)
  | index {target position : Term} (ht : Formed r target) (hp : Formed r position)
      (indexer : Option Indexer) (type : TypeRef) : Formed r (.index target position indexer type)
  | newArray (element : TypeRef) {items : List Term} (hitems : ∀ a ∈ items, Formed r a) :
      Formed r (.newArray element items)
  | convert {inner : Term} (hi : Formed r inner) (type : TypeRef) (kind : ConversionKind) :
      Formed r (.convert inner type kind)
  | binary {left right : Term} (hl : Formed r left) (op : BinaryOp) (hr : Formed r right)
      (type : TypeRef) (method : Option Method) : Formed r (.binary left op right type method)
  | unary (op : UnaryOp) {operand : Term} (ho : Formed r operand) (type : TypeRef)
      (method : Option Method) : Formed r (.unary op operand type method)
  | assign {target value : Term} (ht : Formed r target) (hv : Formed r value) :
      Formed r (.assign target value)

theorem mem_subtermsOf {u : Term} {ts : List Term} :
    u ∈ subtermsOf ts ↔ ∃ t ∈ ts, u ∈ t.subterms := by
  induction ts with
  | nil => simp [subtermsOf]
  | cons t ts ih => simp [subtermsOf, ih]

variable {r : Registry} {t : Term}

/-- A formed term is a value. -/
theorem Formed.isValue (h : t.Formed r) : t.isValue = true := by
  cases h <;> rfl

/-- **Everything inside a formed term is formed.** -/
theorem Formed.of_mem_subterms (h : t.Formed r) : ∀ u ∈ t.subterms, u.Formed r := by
  -- Subterms are the term itself, then those of its parts; one rule for each kind of term.
  have inList : ∀ {args : List Term}, (∀ a ∈ args, ∀ u ∈ a.subterms, u.Formed r) →
      ∀ u ∈ subtermsOf args, u.Formed r := by
    intro args hargs u hu
    obtain ⟨a, ha, hu⟩ := mem_subtermsOf.1 hu
    exact hargs a ha u hu
  induction h with
  | constant value type => exact List.forall_mem_singleton.2 (.constant value type)
  | parameter name type => exact List.forall_mem_singleton.2 (.parameter name type)
  | access ht member ih => exact List.forall_mem_cons.2 ⟨.access ht member, ih⟩
  | staticAccess member => exact List.forall_mem_singleton.2 (.staticAccess member)
  | capabilityGet ht property ih =>
      exact List.forall_mem_cons.2 ⟨.capabilityGet ht property, ih⟩
  | capabilitySet ht property hv iht ihv =>
      exact List.forall_mem_cons.2
        ⟨.capabilitySet ht property hv, List.forall_mem_append.2 ⟨iht, ihv⟩⟩
  | call ht hargs receiver found filled iht ihargs =>
      exact List.forall_mem_cons.2
        ⟨.call ht hargs receiver found filled,
          List.forall_mem_append.2 ⟨iht, inList ihargs⟩⟩
  | staticCall hargs found static_ filled ihargs =>
      exact List.forall_mem_cons.2 ⟨.staticCall hargs found static_ filled, inList ihargs⟩
  | index ht hp indexer type iht ihp =>
      exact List.forall_mem_cons.2
        ⟨.index ht hp indexer type, List.forall_mem_append.2 ⟨iht, ihp⟩⟩
  | newArray element hitems ih =>
      exact List.forall_mem_cons.2 ⟨.newArray element hitems, inList ih⟩
  | convert hi type kind ih => exact List.forall_mem_cons.2 ⟨.convert hi type kind, ih⟩
  | binary hl op hr type method ihl ihr =>
      exact List.forall_mem_cons.2
        ⟨.binary hl op hr type method, List.forall_mem_append.2 ⟨ihl, ihr⟩⟩
  | unary op ho type method ih => exact List.forall_mem_cons.2 ⟨.unary op ho type method, ih⟩
  | assign ht hv iht ihv =>
      exact List.forall_mem_cons.2 ⟨.assign ht hv, List.forall_mem_append.2 ⟨iht, ihv⟩⟩

/-! ## §3. Conversions build formed terms. -/

theorem Formed.apply (h : t.Formed r) (c : Conversion) (target : TypeRef) :
    (c.apply t target).Formed r := by
  unfold Conversion.apply
  split
  · exact h
  · exact .convert h target c.kind

theorem Formed.convertTo? (h : t.Formed r) {target : TypeRef} {u : Term}
    (hu : t.convertTo? r target = some u) : u.Formed r := by
  obtain ⟨c, -, rfl⟩ := Option.map_eq_some_iff.1 hu
  exact h.apply c target

end Term

end BoundMarkup
