/-
  BoundMarkup.Proofs.Registry.Instances
  ─────────────────────────────────────
  **ALL TYPES CONSTRUCTED FROM ONE DEFINITION.**

  A definition applied to fresh parameters has the supertypes of all types
  constructed from it: putting arguments in place of the parameters leads from one
  search to the other (`Hierarchy.above_mapParams`).  Arguments that no base
  mentions make no difference, so there are finitely many such applications to look
  at, and if every type has finitely many supertypes then one depth is enough for
  all types (`Hierarchy.exists_depth`).
-/
import BoundMarkup.Proofs.Registry.Swelling
import Mathlib.Data.Finset.Lattice.Fold

namespace BoundMarkup

/-! ## §1. Replacing parameters. -/

namespace TypeRef

mutual

/-- Replace the open parameters of a type. -/
def mapParams (σ : ParamOwner → Nat → String → TypeRef) : TypeRef → TypeRef
  | param owner i name => σ owner i name
  | array element => array (mapParams σ element)
  | nullable inner => nullable (mapParams σ inner)
  | named name ts => named name (mapParamsAll σ ts)
  | unknown => unknown
  | void => void
  | null => null

/-- `mapParams` in each of the types. -/
def mapParamsAll (σ : ParamOwner → Nat → String → TypeRef) : List TypeRef → List TypeRef
  | [] => []
  | t :: ts => mapParams σ t :: mapParamsAll σ ts

end

theorem mapParamsAll_eq_map (σ : ParamOwner → Nat → String → TypeRef) (ts : List TypeRef) :
    mapParamsAll σ ts = ts.map (mapParams σ) := by
  induction ts with
  | nil => rfl
  | cons t ts ih => rw [mapParamsAll, ih, List.map_cons]

/-- Only parameters of a containing type from position `bound` on are replaced. -/
def Beyond (bound : Nat) (σ : ParamOwner → Nat → String → TypeRef) : Prop :=
  ∀ owner i name, (owner = .type → i < bound) → σ owner i name = param owner i name

section

variable {bound : Nat} {σ : ParamOwner → Nat → String → TypeRef}

mutual

/-- **Arguments may be replaced before or after** they are put in their places. -/
theorem mapParams_substitute (hσ : Beyond bound σ) (args : List TypeRef) : ∀ {p : TypeRef},
    (∀ i ∈ p.typeIndices, i < bound) →
      (p.substitute .type args).mapParams σ = p.substitute .type (args.map (mapParams σ))
  | param .type i name, hp => by
      rw [substitute, substitute, if_pos rfl, if_pos rfl, List.getElem?_map]
      cases args[i]? with
      | none => exact hσ .type i name fun _ => hp i List.mem_cons_self
      | some x => rfl
  | param .method i name, _ => hσ .method i name nofun
  | array q, hp => congrArg array (mapParams_substitute hσ args (p := q) hp)
  | nullable q, hp => congrArg nullable (mapParams_substitute hσ args (p := q) hp)
  | named name ps, hp => congrArg (named name) (mapParamsAll_substituteAll hσ args ps hp)
  | unknown, _ => rfl
  | void, _ => rfl
  | null, _ => rfl

theorem mapParamsAll_substituteAll (hσ : Beyond bound σ) (args : List TypeRef) :
    ∀ ps : List TypeRef, (∀ i ∈ typeIndicesAll ps, i < bound) →
      mapParamsAll σ (substituteAll .type args ps)
        = substituteAll .type (args.map (mapParams σ)) ps
  | [], _ => rfl
  | p :: ps, hps => by
      rw [substituteAll, mapParamsAll, substituteAll,
        mapParams_substitute hσ args fun i hi => hps i (List.mem_append_left _ hi),
        mapParamsAll_substituteAll hσ args ps fun i hi => hps i (List.mem_append_right _ hi)]

end

mutual

/-- Arguments that are not mentioned make no difference. -/
theorem substitute_congr {args args' : List TypeRef} : ∀ {p : TypeRef},
    (∀ i ∈ p.typeIndices, args[i]? = args'[i]?) →
      p.substitute .type args = p.substitute .type args'
  | param .type i name, hp => by
      rw [substitute, substitute, hp i List.mem_cons_self]
  | param .method _ _, _ => rfl
  | array q, hp => congrArg array (substitute_congr (p := q) hp)
  | nullable q, hp => congrArg nullable (substitute_congr (p := q) hp)
  | named name ps, hp => congrArg (named name) (substituteAll_congr ps hp)
  | unknown, _ => rfl
  | void, _ => rfl
  | null, _ => rfl

theorem substituteAll_congr {args args' : List TypeRef} : ∀ ps : List TypeRef,
    (∀ i ∈ typeIndicesAll ps, args[i]? = args'[i]?) →
      substituteAll .type args ps = substituteAll .type args' ps
  | [], _ => rfl
  | p :: ps, hps => by
      rw [substituteAll, substituteAll,
        substitute_congr fun i hi => hps i (List.mem_append_left _ hi),
        substituteAll_congr ps fun i hi => hps i (List.mem_append_right _ hi)]

end

end

/-- Arguments in place of the parameters from position `bound` on. -/
def instantiation (bound : Nat) (args : List TypeRef) : ParamOwner → Nat → String → TypeRef
  | .type, i, name => if i < bound then param .type i name
      else (args[i - bound]?).getD (param .type i name)
  | .method, i, name => param .method i name

theorem beyond_instantiation (bound : Nat) (args : List TypeRef) :
    Beyond bound (instantiation bound args) := by
  intro owner i name hi
  cases owner with
  | method => rfl
  | type => exact if_pos (hi rfl)

/-- A definition applied to `count` parameters that no base mentions. -/
def fresh (bound count : Nat) (name : String) : TypeRef :=
  named name ((List.range count).map fun i => param .type (bound + i) name)

/-- Every type constructed from a definition comes from its application to fresh parameters. -/
theorem mapParams_fresh (bound : Nat) (name : String) (args : List TypeRef) :
    (fresh bound args.length name).mapParams (instantiation bound args) = named name args := by
  rw [fresh, mapParams, mapParamsAll_eq_map, List.map_map]
  refine congrArg (named name) (List.ext_getElem (by simp) fun i hi hi' => ?_)
  have hbeyond : ¬ bound + i < bound := by omega
  simp [mapParams, instantiation, hbeyond, List.getElem?_eq_getElem hi']

end TypeRef

/-! ## §2. Supertypes of instances. -/

namespace Hierarchy

open TypeRef

variable {h : Hierarchy} {bound : Nat} {σ : ParamOwner → Nat → String → TypeRef} {t t' : TypeRef}

/-- No base mentions a parameter from position `bound` on. -/
def Mentions (h : Hierarchy) (bound : Nat) : Prop :=
  ∀ e ∈ h.edges, ∀ i ∈ e.base.typeIndices, i < bound

theorem exists_mentions (h : Hierarchy) : ∃ bound, h.Mentions bound := by
  obtain ⟨bound, hbound⟩ :=
    (List.finite_toSet (h.edges.flatMap fun e => e.base.typeIndices)).bddAbove
  refine ⟨bound + 1, fun e he i hi => Nat.lt_succ_of_le (hbound ?_)⟩
  exact List.mem_flatMap.2 ⟨e, he, hi⟩

theorem definition?_mapParams {id : TypeId} (ht : t.definition? = some id) :
    (t.mapParams σ).definition? = some id := by
  cases t with
  | named name args => exact ht
  | _ => cases ht

/-- The bases of an instance are instances of the bases. -/
theorem exists_of_mem_directBases_mapParams {id : TypeId} {v : TypeRef}
    (hbound : h.Mentions bound) (hσ : Beyond bound σ) (ht : t.definition? = some id)
    (hv : v ∈ h.directBases (t.mapParams σ)) : ∃ u ∈ h.directBases t, u.mapParams σ = v := by
  obtain ⟨e, he, hderived, rfl⟩ := mem_directBases.1 hv
  rw [definition?_mapParams ht, ← ht] at hderived
  refine ⟨_, mem_directBases.2 ⟨e, he, hderived, rfl⟩, ?_⟩
  rw [mapParams_substitute hσ _ (hbound e he)]
  cases t with
  | named name args =>
      rw [mapParams, mapParamsAll_eq_map]
      rfl
  | _ => cases ht

/-- **The supertypes of an instance are instances of the supertypes.** -/
theorem above_mapParams (hdeclared : h.Declared) (hbound : h.Mentions bound)
    (hσ : Beyond bound σ) (ht : t.definition?.isSome = true) :
    h.above (t.mapParams σ) ⊆ mapParams σ '' h.above t := by
  have hsubset : h.above (t.mapParams σ)
      ⊆ mapParams σ '' {u | u ∈ h.above t ∧ u.definition?.isSome = true} := by
    refine above_subset ⟨t, ⟨mem_above_self h t, ht⟩, rfl⟩ ?_
    rintro _ ⟨u, ⟨hu, hdefinition⟩, rfl⟩ v hv
    obtain ⟨id, hid⟩ := Option.isSome_iff_exists.1 hdefinition
    obtain ⟨w, hw, rfl⟩ := exists_of_mem_directBases_mapParams hbound hσ hid hv
    exact ⟨w, ⟨Relation.ReflTransGen.tail hu hw, hdeclared.definition?_isSome hw⟩, rfl⟩
  exact hsubset.trans (Set.image_mono fun u hu => hu.1)

/-- Types with the same direct bases have the same supertypes, themselves aside. -/
theorem above_subset_insert (hbases : h.directBases t = h.directBases t') :
    h.above t ⊆ insert t (h.above t') := by
  refine above_subset (.inl rfl) fun u hu v hv => .inr ?_
  rcases hu with rfl | hu
  · rw [hbases] at hv
    exact Relation.ReflTransGen.single hv
  · exact Relation.ReflTransGen.tail hu hv

/-- Arguments that no base mentions, and the spelling of the name, make no difference. -/
theorem directBases_take (hbound : h.Mentions bound) {name name' : String}
    (hname : TypeId.ofName name = TypeId.ofName name') (args : List TypeRef) :
    h.directBases (named name args) = h.directBases (named name' (args.take bound)) := by
  have hsame : ∀ e ∈ h.edges, e.base.substitute .type args
      = e.base.substitute .type (args.take bound) := by
    refine fun e he => substitute_congr fun i hi => ?_
    rw [List.getElem?_take_of_lt (hbound e he i hi)]
  unfold directBases
  simp only [definition?, genericArgs, hname]
  exact List.map_congr_left fun e he => hsame e (List.mem_filter.1 he).1

/-! ## §3. One depth for all types. -/

/-- The number of supertypes of a type is bounded by those of an application to fresh
parameters. -/
theorem ncard_above_le (hdeclared : h.Declared) (hbound : h.Mentions bound)
    (hfinite : ∀ t, (h.above t).Finite) {name name' : String}
    (hname : TypeId.ofName name = TypeId.ofName name') (args : List TypeRef) :
    (h.above (named name args)).ncard
      ≤ (h.above (fresh bound (args.take bound).length name')).ncard + 1 := by
  have hinstance := mapParams_fresh bound name' (args.take bound)
  have himage := above_mapParams (t := fresh bound (args.take bound).length name') hdeclared hbound
    (beyond_instantiation bound (args.take bound)) rfl
  rw [hinstance] at himage
  have hfresh := hfinite (fresh bound (args.take bound).length name')
  calc (h.above (named name args)).ncard
      ≤ (insert (named name args) (h.above (named name' (args.take bound)))).ncard :=
        Set.ncard_le_ncard (above_subset_insert (directBases_take hbound hname args))
          ((hfinite _).insert _)
    _ ≤ (h.above (named name' (args.take bound))).ncard + 1 := Set.ncard_insert_le _ _
    _ ≤ (h.above (fresh bound (args.take bound).length name')).ncard + 1 :=
        Nat.succ_le_succ ((Set.ncard_le_ncard himage (hfresh.image _)).trans
          (Set.ncard_image_le hfresh))

/-- A type without bases is its only supertype. -/
theorem above_eq_singleton (hbases : h.directBases t = []) : h.above t = {t} := by
  refine Set.Subset.antisymm (above_subset rfl fun u hu v hv => ?_) ?_
  · rw [Set.mem_singleton_iff.1 hu, hbases] at hv
    cases hv
  · exact Set.singleton_subset_iff.2 (mem_above_self h t)

/-- Each identity has a name that stands for it, if any name has it. -/
theorem exists_names : ∃ name : TypeId → String,
    ∀ c, TypeId.ofName (name (TypeId.ofName c)) = TypeId.ofName c := by
  have hname : ∀ id : TypeId, ∃ name, ∀ c, TypeId.ofName c = id → TypeId.ofName name = id := by
    intro id
    by_cases hid : ∃ c, TypeId.ofName c = id
    · exact ⟨hid.choose, fun _ _ => hid.choose_spec⟩
    · exact ⟨"", fun c hc => absurd ⟨c, hc⟩ hid⟩
  choose name hname using hname
  exact ⟨name, fun c => hname (TypeId.ofName c) c rfl⟩

/-- **If all types have finitely many supertypes, one depth is enough for all of them.** -/
theorem exists_depth (hdeclared : h.Declared) (hfinite : ∀ t, (h.above t).Finite) :
    ∃ depth, ∀ t, h.level t depth = [] := by
  classical
  obtain ⟨bound, hbound⟩ := h.exists_mentions
  obtain ⟨name, hname⟩ := exists_names
  -- Each definition that has bases, with as many arguments as bases can mention.
  let places : Finset (TypeId × Nat) :=
    (h.edges.map BaseEdge.derived).toFinset ×ˢ Finset.range (bound + 1)
  let count : TypeId × Nat → Nat := fun p => (h.above (fresh bound p.2 (name p.1))).ncard
  have hcard : ∀ t, (h.above t).ncard ≤ places.sup count + 1 := by
    intro t
    by_cases hbases : h.directBases t = []
    · rw [above_eq_singleton hbases, Set.ncard_singleton]
      omega
    · obtain ⟨v, hv⟩ := List.exists_mem_of_ne_nil _ hbases
      obtain ⟨e, he, hderived, -⟩ := mem_directBases.1 hv
      cases t with
      | named c args =>
          have hid : TypeId.ofName c = e.derived := Option.some.inj hderived
          have hplace : (TypeId.ofName c, (args.take bound).length) ∈ places := by
            refine Finset.mem_product.2 ⟨List.mem_toFinset.2 ?_, ?_⟩
            · exact hid ▸ List.mem_map_of_mem he
            · rw [Finset.mem_range, List.length_take]
              omega
          have hle : count (TypeId.ofName c, (args.take bound).length) ≤ places.sup count :=
            Finset.le_sup hplace
          have hinstance := ncard_above_le hdeclared hbound hfinite (hname c).symm args
          exact hinstance.trans (Nat.succ_le_succ hle)
      | _ => cases hderived
  exact ⟨_, fun t => level_eq_nil_of_le (level_eq_nil_of_finite (hfinite t)) (hcard t)⟩

end Hierarchy

end BoundMarkup
