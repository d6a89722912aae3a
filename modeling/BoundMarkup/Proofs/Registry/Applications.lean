/-
  BoundMarkup.Proofs.Registry.Applications
  ────────────────────────────────────────
  **SUPERTYPES OF A DEFINITION AND OF ITS APPLICATIONS.**

  The supertypes of a definition, its parameters left open, are those of every type
  constructed from it: putting the arguments into the open supertypes gives the
  supertypes of the constructed type (`Registry.supertypes_apply`).  Bases are
  closed one step at a time, so this rests on the law of two substitutions in a row
  (`TypeRef.substitute_substitute`), which asks for an argument wherever a base
  mentions a parameter (`Hierarchy.Filled`).

  A base that is named without arguments has none.  The parameters of its own bases
  then stay open, whatever the definition is applied to
  (`Registry.not_supertypes_apply_heap`).
-/
import BoundMarkup.Proofs.Registry.Closing
import BoundMarkup.Proofs.Registry.Distances

namespace BoundMarkup

/-! ## §1. One substitution after another. -/

namespace TypeRef

variable {inner args : List TypeRef}

mutual

/-- **Arguments may be put in before or after** a type is closed over types that mention their
parameters, if each parameter of the type has one. -/
theorem substitute_substitute : ∀ {p : TypeRef}, (∀ i ∈ p.typeIndices, i < inner.length) →
    (p.substitute .type inner).substitute .type args
      = p.substitute .type (inner.map (substitute .type args))
  | param .type i name, hp => by
      have hi : i < inner.length := hp i List.mem_cons_self
      rw [substitute, substitute, if_pos rfl, if_pos rfl, List.getElem?_map,
        List.getElem?_eq_getElem hi]
      rfl
  | param .method _ _, _ => rfl
  | array q, hp => congrArg array (substitute_substitute (p := q) hp)
  | nullable q, hp => congrArg nullable (substitute_substitute (p := q) hp)
  | named name ps, hp => congrArg (named name) (substituteAll_substituteAll ps hp)
  | unknown, _ => rfl
  | void, _ => rfl
  | null, _ => rfl

theorem substituteAll_substituteAll : ∀ ps : List TypeRef,
    (∀ i ∈ typeIndicesAll ps, i < inner.length) →
      substituteAll .type args (substituteAll .type inner ps)
        = substituteAll .type (inner.map (substitute .type args)) ps
  | [], _ => rfl
  | p :: ps, hps => by
      rw [substituteAll, substituteAll, substituteAll,
        substitute_substitute fun i hi => hps i (List.mem_append_left _ hi),
        substituteAll_substituteAll ps fun i hi => hps i (List.mem_append_right _ hi)]

end

/-- Whether a declared type is `object` does not depend on arguments. -/
theorem isObject_substitute (args : List TypeRef) (name : String) (ts : List TypeRef) :
    ((named name ts).substitute .type args).isObject = (named name ts).isObject := by
  cases ts with
  | nil => rfl
  | cons t ts => rfl

end TypeRef

open TypeRef (substitute)

/-- **A definition is applied** by putting arguments in place of its parameters. -/
theorem TypeEntry.selfType_substitute (e : TypeEntry) {args : List TypeRef}
    (arity : args.length = e.typeParams.length) :
    e.selfType.substitute .type args = .named e.name args := by
  rw [selfType, TypeRef.substitute, TypeRef.substituteAll_eq_map]
  refine congrArg (TypeRef.named e.name) (List.ext_getElem (by simp [arity]) fun i hi hi' => ?_)
  simp [TypeRef.substitute, List.getElem?_eq_getElem hi']

/-! ## §2. Supertypes of applications. -/

namespace Hierarchy

variable {h : Hierarchy} {t u v : TypeRef}

/-- **The type has an argument** for each parameter that its bases mention. -/
def Filled (h : Hierarchy) (t : TypeRef) : Prop :=
  ∀ e ∈ h.edges, t.definition? = some e.derived → ∀ i ∈ e.base.typeIndices,
    i < t.genericArgs.length

/-- The bases of an application are the bases with the arguments put in. -/
theorem Filled.directBases_substitute (hfilled : h.Filled t) {id : TypeId}
    (ht : t.definition? = some id) (args : List TypeRef) :
    h.directBases (t.substitute .type args) = (h.directBases t).map (substitute .type args) := by
  unfold directBases
  rw [TypeRef.definition?_substitute ht, TypeRef.genericArgs_substitute ht, ht]
  simp only [List.map_map]
  refine List.map_congr_left fun e he => ?_
  obtain ⟨he, hderived⟩ := List.mem_filter.1 he
  refine (TypeRef.substitute_substitute (hfilled e he ?_)).symm
  rw [ht, beq_iff_eq.1 hderived]

/-- All supertypes of a declared type are declared types. -/
theorem Declared.definition?_of_above (hdeclared : h.Declared) (ht : t.definition?.isSome = true)
    (hu : u ∈ h.above t) : u.definition?.isSome = true := by
  rw [Option.isSome_iff_ne_none] at ht ⊢
  exact fun hnone => ht (hdeclared.eq_of_above hu hnone ▸ hnone)

/-- **The supertypes of an application** are the supertypes with the arguments put in. -/
theorem above_substitute (hdeclared : h.Declared) (hfilled : ∀ u ∈ h.above t, h.Filled u)
    (ht : t.definition?.isSome = true) (args : List TypeRef) :
    h.above (t.substitute .type args) = substitute .type args '' h.above t := by
  have hbases : ∀ u ∈ h.above t, h.directBases (u.substitute .type args)
      = (h.directBases u).map (substitute .type args) := by
    intro u hu
    obtain ⟨id, hid⟩ := Option.isSome_iff_exists.1 (hdeclared.definition?_of_above ht hu)
    exact (hfilled u hu).directBases_substitute hid args
  apply Set.Subset.antisymm
  · refine above_subset ⟨t, mem_above_self h t, rfl⟩ ?_
    rintro _ ⟨u, hu, rfl⟩ v hv
    rw [hbases u hu] at hv
    obtain ⟨w, hw, rfl⟩ := List.mem_map.1 hv
    exact ⟨w, Relation.ReflTransGen.tail hu hw, rfl⟩
  · rintro _ ⟨u, hu, rfl⟩
    induction hu with
    | refl => exact mem_above_self h _
    | @tail v w hv hstep ih =>
        refine Relation.ReflTransGen.tail ih ?_
        show _ ∈ h.directBases _
        rw [hbases v hv]
        exact List.mem_map_of_mem hstep

/-- What the levels have, once the search has ended. -/
theorem mem_flatten_levels (hlast : h.level t h.reach = []) :
    u ∈ (h.levels t).flatten ↔ u ∈ h.above t := by
  rw [flatten_levels, mem_seen_iff hlast]

end Hierarchy

/-! ## §3. Declarations whose bases can be closed. -/

namespace Registry

variable {r : Registry} {t u : TypeRef}

/-- **Bases mention parameters of their own declaration only.** -/
def BasesMentionOwn (r : Registry) : Prop :=
  ∀ e ∈ r.entries, ∀ base ∈ e.bases, ∀ i ∈ base.typeIndices, i < e.typeParams.length

instance : DecidablePred BasesMentionOwn := fun r => inferInstanceAs
  (Decidable (∀ e ∈ r.entries, ∀ base ∈ e.bases, ∀ i ∈ base.typeIndices,
    i < e.typeParams.length))

/-- **Declared bases have arguments** for the parameters of what they name. -/
def DeclaredBasesApplied (r : Registry) : Prop :=
  ∀ e ∈ r.entries, ∀ base ∈ e.bases, r.Applied base

instance : DecidablePred DeclaredBasesApplied := fun r => inferInstanceAs
  (Decidable (∀ e ∈ r.entries, ∀ base ∈ e.bases, r.Applied base))

/-- A definition has its own parameters as arguments. -/
theorem applied_selfType {e : TypeEntry} (found : r.entryOf? e.selfType = some e) :
    r.Applied e.selfType := by
  intro d hd
  rw [found] at hd
  cases hd
  simp [TypeEntry.selfType, TypeRef.genericArgs]

section

variable (reached : r.Reached) (own : r.BasesMentionOwn) (applied : r.DeclaredBasesApplied)

include reached own in
/-- Where a declaration has its arguments, its bases can be closed. -/
theorem Applied.filled (ht : r.Applied t) : r.hierarchy.Filled t := by
  intro edge hedge hderived i hi
  obtain ⟨e, hfind, hbase⟩ := reached.exists_entry edge hedge
  have he : r.entryOf? t = some e := by
    rw [entryOf?, hderived]
    exact hfind
  exact Nat.lt_of_lt_of_le (own e (mem_entries_of_entryOf? he) edge.base hbase i hi) (ht e he)

include reached applied in
/-- **Supertypes have their arguments**, as their declared bases have them. -/
theorem Applied.of_mem_above (ht : r.Applied t) (hu : u ∈ r.hierarchy.above t) : r.Applied u := by
  obtain rfl | ⟨w, -, hw⟩ := Relation.ReflTransGen.cases_tail hu
  · exact ht
  · obtain ⟨edge, hedge, -, rfl⟩ := Hierarchy.mem_directBases.1 hw
    obtain ⟨e, hfind, hbase⟩ := reached.exists_entry edge hedge
    obtain ⟨id, hid⟩ := Option.isSome_iff_exists.1 (reached.declared edge hedge)
    exact (applied e (List.mem_of_find?_eq_some hfind) edge.base hbase).substitute hid _

end

/-! ## §4. Supertypes as they are answered. -/

/-- **A declared type and its supertypes**: what is above it, and `object`. -/
theorem mem_self_or_supertypes {name : String} {args : List TypeRef}
    (hlast : r.hierarchy.level (.named name args) r.hierarchy.reach = []) :
    (u = .named name args ∨ u ∈ r.supertypes (.named name args))
      ↔ u ∈ r.hierarchy.above (.named name args)
        ∨ (TypeRef.named name args).isObject = false ∧ u = .object := by
  have hvalue : TypeRef.named name args ∉ TypeRef.valueless := by simp [TypeRef.valueless]
  rw [mem_supertypes r hvalue, mem_behind hlast]
  by_cases hself : u = .named name args
  · subst hself
    exact iff_of_true (.inl rfl) (.inl (Hierarchy.mem_above_self _ _))
  · simp [hself]

/-- Supertypes with the arguments put in, and `object` among them or not as before. -/
theorem image_self_or_supertypes {name : String} {params args : List TypeRef}
    (hopen : r.hierarchy.level (.named name params) r.hierarchy.reach = [])
    (hclosed : r.hierarchy.level ((TypeRef.named name params).substitute .type args)
      r.hierarchy.reach = [])
    (habove : r.hierarchy.above ((TypeRef.named name params).substitute .type args)
      = substitute .type args '' r.hierarchy.above (.named name params)) :
    {u | u = (TypeRef.named name params).substitute .type args
        ∨ u ∈ r.supertypes ((TypeRef.named name params).substitute .type args)}
      = substitute .type args '' {u | u = .named name params
          ∨ u ∈ r.supertypes (.named name params)} := by
  have hobject := TypeRef.isObject_substitute args name params
  rw [TypeRef.substitute] at hclosed habove hobject ⊢
  simp only [mem_self_or_supertypes hclosed, mem_self_or_supertypes hopen, hobject, habove]
  -- `object` has no arguments to be replaced.
  ext u
  constructor
  · rintro (⟨w, hw, rfl⟩ | ⟨hother, rfl⟩)
    · exact ⟨w, .inl hw, rfl⟩
    · exact ⟨.object, .inr ⟨hother, rfl⟩, rfl⟩
  · rintro ⟨w, hw | ⟨hother, rfl⟩, rfl⟩
    · exact .inl ⟨w, hw, rfl⟩
    · exact .inr ⟨hother, rfl⟩

/-- **Supertypes commute with application.**  For a definition with finitely many open supertypes,
and a search that goes at least as deep as they are many: a type constructed from the definition
and its supertypes are the definition and its open supertypes with the arguments put in.  This
holds where bases mention parameters of their own declaration only, and have an argument for each
parameter of what they name. -/
theorem supertypes_apply (reached : r.Reached) (own : r.BasesMentionOwn)
    (applied : r.DeclaredBasesApplied) {e : TypeEntry} (found : r.entryOf? e.selfType = some e)
    (finite : (r.hierarchy.above e.selfType).Finite) {depth : Nat}
    (deep : (r.hierarchy.above e.selfType).ncard ≤ depth) {args : List TypeRef}
    (arity : args.length = e.typeParams.length) :
    let r := r.reaching depth
    {u | u ∈ (r.hierarchy.levels (.named e.name args)).flatten}
        = substitute .type args '' {u | u ∈ (r.hierarchy.levels e.selfType).flatten}
      ∧ {u | u = .named e.name args ∨ u ∈ r.supertypes (.named e.name args)}
        = substitute .type args '' {u | u = e.selfType ∨ u ∈ r.supertypes e.selfType} := by
  intro r'
  have habove : r'.hierarchy.above (e.selfType.substitute .type args)
      = substitute .type args '' r'.hierarchy.above e.selfType := by
    have hself := applied_selfType found
    exact Hierarchy.above_substitute reached.declared
      (fun u hu => (hself.of_mem_above reached applied hu).filled reached own) rfl args
  -- The constructed type has no more supertypes than the definition, so both searches end.
  have hends : ∀ t, (r.hierarchy.above t).Finite → (r.hierarchy.above t).ncard ≤ depth →
      r'.hierarchy.level t r'.hierarchy.reach = [] := fun t hfinite hdeep =>
    Hierarchy.level_eq_nil_of_le (Hierarchy.level_eq_nil_of_finite hfinite) hdeep
  have hopen := hends e.selfType finite deep
  have hclosed : r'.hierarchy.level (e.selfType.substitute .type args) r'.hierarchy.reach = [] := by
    refine hends _ ?_ ?_
    · exact habove ▸ finite.image (substitute .type args)
    · exact (congrArg Set.ncard habove).trans_le ((Set.ncard_image_le finite).trans deep)
  rw [← e.selfType_substitute arity]
  refine ⟨?_, image_self_or_supertypes hopen hclosed habove⟩
  simp only [Hierarchy.mem_flatten_levels hclosed, Hierarchy.mem_flatten_levels hopen]
  exact habove

/-! ## §5. Two definitions with bases of bases. -/

def pileName : String := withArity "App.Pile" 1

def stackName : String := withArity "App.Stack" 1

def deckName : String := withArity "App.Deck" 2

/-- A generic type, and one that derives from it. -/
def pileEntries : List TypeEntry :=
  [(TypeEntry.declare pileName "App").generic ["T"],
    ((TypeEntry.declare stackName "App").generic ["U"]).derives (.named pileName [.typeParam 0 "U"])]

/-- What can be dealt from either side: a stack of what each parameter can be enumerated as. -/
def deckEntry : TypeEntry :=
  (((TypeEntry.declare deckName "App").generic ["L", "R"]).derives
    (.named stackName [.enumerable (.typeParam 0 "L")])).derives
    (.named stackName [.enumerable (.typeParam 1 "R")])

def deckTypes : Registry := Builtins.registry.insertAll (pileEntries ++ [deckEntry])

theorem registerAll_deck :
    Builtins.registry.registerAll (pileEntries ++ [deckEntry]) = .ok deckTypes :=
  registerAll_eq_ok_iff.2 ⟨⟨by decide +kernel, by decide +kernel, by decide +kernel⟩, rfl⟩

/-- The open supertypes of the deck, the deck included. -/
def deckSupertypes : List TypeRef :=
  deckEntry.selfType :: [TypeRef.typeParam 0 "L", TypeRef.typeParam 1 "R"].flatMap fun p =>
    [.named stackName [.enumerable p], .named pileName [.enumerable p]]

theorem above_deck_subset : deckTypes.hierarchy.above deckEntry.selfType
    ⊆ {u | u ∈ deckSupertypes} := by
  have hclosed : ∀ u ∈ deckSupertypes, ∀ v ∈ deckTypes.hierarchy.directBases u,
      v ∈ deckSupertypes := by
    decide +kernel
  exact Hierarchy.above_subset List.mem_cons_self hclosed

/-- The stacks and the piles of the two sides are four open types, and two once both sides have
the same argument. -/
theorem supertypes_apply_deck : deckTypes.Reached ∧ deckTypes.BasesMentionOwn
    ∧ deckTypes.DeclaredBasesApplied ∧ deckTypes.entryOf? deckEntry.selfType = some deckEntry
    ∧ (deckTypes.hierarchy.above deckEntry.selfType).Finite
    ∧ (deckTypes.hierarchy.above deckEntry.selfType).ncard ≤ deckSupertypes.length
    ∧ [TypeRef.int32, .int32].length = deckEntry.typeParams.length
    ∧ let r := deckTypes.reaching deckSupertypes.length
      let deck := TypeRef.named deckName [.int32, .int32]
      {u | u = deck ∨ u ∈ r.supertypes deck}
        = substitute .type [.int32, .int32] ''
          {u | u = deckEntry.selfType ∨ u ∈ r.supertypes deckEntry.selfType} := by
  have reached : deckTypes.Reached := .registerAll .builtins registerAll_deck
  have own : deckTypes.BasesMentionOwn := by decide +kernel
  have applied : deckTypes.DeclaredBasesApplied := by decide +kernel
  have found : deckTypes.entryOf? deckEntry.selfType = some deckEntry := by decide +kernel
  have finite := (List.finite_toSet deckSupertypes).subset above_deck_subset
  have deep : (deckTypes.hierarchy.above deckEntry.selfType).ncard ≤ deckSupertypes.length := by
    refine (Set.ncard_le_ncard above_deck_subset (List.finite_toSet deckSupertypes)).trans ?_
    rw [← List.coe_toFinset, Set.ncard_coe_finset]
    exact List.toFinset_card_le deckSupertypes
  exact ⟨reached, own, applied, found, finite, deep, rfl,
    (supertypes_apply reached own applied found finite deep rfl).2⟩

def heapName : String := withArity "App.Heap" 1

/-- A generic type that derives from the stack without giving it an argument. -/
def heapEntry : TypeEntry :=
  ((TypeEntry.declare heapName "App").generic ["T"]).derives (.simple stackName)

def heapTypes : Registry := Builtins.registry.insertAll (pileEntries ++ [heapEntry])

theorem registerAll_heap :
    Builtins.registry.registerAll (pileEntries ++ [heapEntry]) = .ok heapTypes :=
  registerAll_eq_ok_iff.2 ⟨⟨by decide +kernel, by decide +kernel, by decide +kernel⟩, rfl⟩

/-- **A base without arguments is not closed by any.**  The pile of the open parameter of the
stack is above the heap and above `Heap<int>` alike, while putting `int` into the open supertypes
of the heap makes it a pile of `int`. -/
theorem not_supertypes_apply_heap : heapTypes.Reached ∧ heapTypes.BasesMentionOwn
    ∧ heapTypes.entryOf? heapEntry.selfType = some heapEntry
    ∧ (heapTypes.hierarchy.above heapEntry.selfType).Finite
    ∧ [TypeRef.int32].length = heapEntry.typeParams.length
    ∧ let heap := TypeRef.named heapName [.int32]
      {u | u ∈ (heapTypes.hierarchy.levels heap).flatten}
          ≠ substitute .type [.int32] '' {u | u ∈ (heapTypes.hierarchy.levels heapEntry.selfType).flatten}
        ∧ {u | u = heap ∨ u ∈ heapTypes.supertypes heap}
          ≠ substitute .type [.int32] ''
            {u | u = heapEntry.selfType ∨ u ∈ heapTypes.supertypes heapEntry.selfType} := by
  have reached : heapTypes.Reached := .registerAll .builtins registerAll_heap
  have hflat : heapTypes.hierarchy.Flat := by decide +kernel
  have finite := Hierarchy.finite_of_not_swells reached.declared hflat.not_swells heapEntry.selfType
  let pile := TypeRef.named pileName [.int32]
  refine ⟨reached, by decide +kernel, by decide +kernel, finite, rfl, fun heq => ?_, fun heq => ?_⟩
  · have hpile : pile ∉ (heapTypes.hierarchy.levels (.named heapName [.int32])).flatten := by
      decide +kernel
    have hopen : TypeRef.named pileName [.typeParam 0 "U"]
        ∈ (heapTypes.hierarchy.levels heapEntry.selfType).flatten := by
      decide +kernel
    exact hpile (heq.superset ⟨_, hopen, rfl⟩)
  · have hpile : ¬ (pile = .named heapName [.int32]
        ∨ pile ∈ heapTypes.supertypes (.named heapName [.int32])) := by
      decide +kernel
    have hopen : TypeRef.named pileName [.typeParam 0 "U"]
        ∈ heapTypes.supertypes heapEntry.selfType := by
      decide +kernel
    exact hpile (heq.superset ⟨_, .inr hopen, rfl⟩)

end Registry

end BoundMarkup
