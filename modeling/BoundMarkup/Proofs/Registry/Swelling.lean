/-
  BoundMarkup.Proofs.Registry.Swelling
  ────────────────────────────────────
  **GENERIC ARGUMENTS THAT GROW.**

  A base hands the parameters of its declaration on to the parameters of another
  one, each as it is or inside a larger argument (`Hierarchy.Passes`,
  `Hierarchy.Grows`).  A hierarchy swells if a parameter can come back to itself
  and has grown on the way (`Hierarchy.Swells`).

  If it does, some type has supertypes without end
  (`Hierarchy.Swells.exists_infinite`).  If it does not, every type has finitely many
  (`Hierarchy.finite_of_not_swells`): places can be ranked so that an argument grows
  only from one rank to the next, and the arguments of each rank are finitely many
  if those of the rank before are.
-/
import BoundMarkup.Proofs.Registry.Search
import Mathlib.Data.Set.Finite.Lattice
import Mathlib.Data.Set.Finite.Lemmas

namespace BoundMarkup

/-! ## §1. Parameters inside a type. -/

namespace TypeRef

mutual

/-- The positions of the parameters of the containing type that occur. -/
def typeIndices : TypeRef → List Nat
  | param .type i _ => [i]
  | param .method _ _ => []
  | array element => typeIndices element
  | nullable inner => typeIndices inner
  | named _ args => typeIndicesAll args
  | unknown => []
  | void => []
  | null => []

/-- The positions in any of the types. -/
def typeIndicesAll : List TypeRef → List Nat
  | [] => []
  | t :: ts => typeIndices t ++ typeIndicesAll ts

end

/-- The type is an open parameter itself. -/
def isParam : TypeRef → Bool
  | param _ _ _ => true
  | _ => false

theorem definition?_substitute {t : TypeRef} {id : TypeId} (h : t.definition? = some id)
    (args : List TypeRef) : (t.substitute .type args).definition? = some id := by
  cases t with
  | named name ts => exact h
  | _ => cases h

theorem genericArgs_substitute {t : TypeRef} {id : TypeId} (h : t.definition? = some id)
    (args : List TypeRef) :
    (t.substitute .type args).genericArgs = t.genericArgs.map (substitute .type args) := by
  cases t with
  | named name ts => exact substituteAll_eq_map .type args ts
  | _ => cases h

mutual

/-- **What stands for a parameter is part of the result.** -/
theorem sizeOf_le_substitute {args : List TypeRef} {i : Nat} {x : TypeRef}
    (hx : args[i]? = some x) : ∀ {p : TypeRef}, i ∈ p.typeIndices →
      sizeOf x ≤ sizeOf (p.substitute .type args)
        ∧ (p.isParam = false → sizeOf x < sizeOf (p.substitute .type args))
  | param .type j n, hi => by
      obtain rfl := List.mem_singleton.1 hi
      rw [substitute, if_pos rfl, hx]
      exact ⟨Nat.le_refl _, nofun⟩
  | array q, hi => by
      have hq := (sizeOf_le_substitute hx (p := q) hi).1
      rw [substitute, array.sizeOf_spec]
      exact ⟨by omega, fun _ => by omega⟩
  | nullable q, hi => by
      have hq := (sizeOf_le_substitute hx (p := q) hi).1
      rw [substitute, nullable.sizeOf_spec]
      exact ⟨by omega, fun _ => by omega⟩
  | named name ps, hi => by
      have hps : sizeOf x < sizeOf (substituteAll .type args ps) := sizeOf_lt_substituteAll hx hi
      rw [substitute, named.sizeOf_spec]
      exact ⟨by omega, fun _ => by omega⟩

theorem sizeOf_lt_substituteAll {args : List TypeRef} {i : Nat} {x : TypeRef}
    (hx : args[i]? = some x) : ∀ {ps : List TypeRef}, i ∈ typeIndicesAll ps →
      sizeOf x < sizeOf (substituteAll .type args ps)
  | p :: ps, hi => by
      rw [substituteAll, List.cons.sizeOf_spec]
      rcases List.mem_append.1 hi with hi | hi
      · have hp := (sizeOf_le_substitute hx hi).1
        omega
      · have hps := sizeOf_lt_substituteAll hx hi
        omega

end

/-- All that a type becomes when its parameters are replaced by types of a set.  Those without
an argument stay. -/
def closures (p : TypeRef) (V : Set TypeRef) : Set TypeRef :=
  {y | ∃ args : List TypeRef, (∀ i ∈ p.typeIndices, ∀ x, args[i]? = some x → x ∈ V)
    ∧ p.substitute .type args = y}

mutual

/-- **From finitely many arguments come finitely many types.** -/
theorem finite_closures {V : Set TypeRef} (hV : V.Finite) :
    ∀ p : TypeRef, (p.closures V).Finite
  | param .type i n => by
      refine (hV.insert (param .type i n)).subset ?_
      rintro _ ⟨args, hargs, rfl⟩
      rw [substitute, if_pos rfl]
      cases hx : args[i]? with
      | none => exact .inl rfl
      | some x => exact .inr (hargs i List.mem_cons_self x hx)
  | param .method i n => by
      refine (Set.finite_singleton (param .method i n)).subset ?_
      rintro _ ⟨args, -, rfl⟩
      rfl
  | array q => by
      refine ((finite_closures hV q).image array).subset ?_
      rintro _ ⟨args, hargs, rfl⟩
      exact ⟨_, ⟨args, hargs, rfl⟩, rfl⟩
  | nullable q => by
      refine ((finite_closures hV q).image nullable).subset ?_
      rintro _ ⟨args, hargs, rfl⟩
      exact ⟨_, ⟨args, hargs, rfl⟩, rfl⟩
  | named name ps => by
      refine ((finite_closuresAll hV ps).image (named name)).subset ?_
      rintro _ ⟨args, hargs, rfl⟩
      exact ⟨_, ⟨args, hargs, rfl⟩, rfl⟩
  | unknown => (Set.finite_singleton unknown).subset fun _ ⟨_, _, hy⟩ => hy.symm
  | void => (Set.finite_singleton void).subset fun _ ⟨_, _, hy⟩ => hy.symm
  | null => (Set.finite_singleton null).subset fun _ ⟨_, _, hy⟩ => hy.symm

theorem finite_closuresAll {V : Set TypeRef} (hV : V.Finite) : ∀ ps : List TypeRef,
    {ys | ∃ args : List TypeRef, (∀ i ∈ typeIndicesAll ps, ∀ x, args[i]? = some x → x ∈ V)
      ∧ substituteAll .type args ps = ys}.Finite
  | [] => (Set.finite_singleton []).subset fun _ ⟨_, _, hy⟩ => hy.symm
  | p :: ps => by
      refine ((finite_closures hV p).image2 List.cons (finite_closuresAll hV ps)).subset ?_
      rintro _ ⟨args, hargs, rfl⟩
      exact ⟨_, ⟨args, fun i hi => hargs i (List.mem_append_left _ hi), rfl⟩, _,
        ⟨args, fun i hi => hargs i (List.mem_append_right _ hi), rfl⟩, rfl⟩

end

end TypeRef

/-! ## §2. Where parameters go. -/

namespace Hierarchy

/-- A generic parameter: its definition, and its position there. -/
structure Slot where
  definition : TypeId
  index : Nat

/-- `arg`, which mentions the parameter `s`, is what a base of its definition puts in the place
of the parameter `s'`. -/
def PassesAs (h : Hierarchy) (s s' : Slot) (arg : TypeRef) : Prop :=
  s.index ∈ arg.typeIndices ∧ ∃ e ∈ h.edges, e.derived = s.definition
    ∧ e.base.definition? = some s'.definition ∧ e.base.genericArgs[s'.index]? = some arg

/-- A parameter is handed on to another one. -/
def Passes (h : Hierarchy) (s s' : Slot) : Prop := ∃ arg, h.PassesAs s s' arg

/-- A parameter is handed on to another one inside a larger argument. -/
def Grows (h : Hierarchy) (s s' : Slot) : Prop := ∃ arg, h.PassesAs s s' arg ∧ arg.isParam = false

/-- **A parameter comes back to itself, and has grown on the way.** -/
def Swells (h : Hierarchy) : Prop :=
  ∃ s s', h.Grows s s' ∧ Relation.ReflTransGen h.Passes s' s

/-- All bases are declared types. -/
def Declared (h : Hierarchy) : Prop := ∀ e ∈ h.edges, e.base.definition?.isSome = true

variable {h : Hierarchy} {t u v x : TypeRef} {s s' : Slot}

theorem Grows.passes (hgrows : h.Grows s s') : h.Passes s s' := by
  obtain ⟨arg, hpasses, -⟩ := hgrows
  exact ⟨arg, hpasses⟩

/-- The direct bases of a type come from the edges of its definition. -/
theorem mem_directBases : v ∈ h.directBases t ↔ ∃ e ∈ h.edges,
    t.definition? = some e.derived ∧ e.base.substitute .type t.genericArgs = v := by
  unfold directBases
  cases t.definition? with
  | none => simp
  | some id =>
      simp only [List.mem_map, List.mem_filter, beq_iff_eq, Option.some.injEq]
      constructor
      · rintro ⟨e, ⟨he, rfl⟩, hv⟩
        exact ⟨e, he, rfl, hv⟩
      · rintro ⟨e, he, rfl, hv⟩
        exact ⟨e, ⟨he, rfl⟩, hv⟩

/-- Where bases are declared types, so are all of them that are constructed. -/
theorem Declared.definition?_isSome (hdeclared : h.Declared) (hv : v ∈ h.directBases t) :
    v.definition?.isSome = true := by
  obtain ⟨e, he, -, rfl⟩ := mem_directBases.1 hv
  obtain ⟨base, hbase⟩ := Option.isSome_iff_exists.1 (hdeclared e he)
  rw [TypeRef.definition?_substitute hbase]
  rfl

/-! ## §3. Types that grow without end. -/

/-- The type has `x` in the place of the parameter. -/
def Carries (u : TypeRef) (s : Slot) (x : TypeRef) : Prop :=
  u.definition? = some s.definition ∧ u.genericArgs[s.index]? = some x

/-- A base has at least the argument, and a larger one if it grows. -/
theorem Carries.step {arg : TypeRef} (hu : Carries u s x) (hpasses : h.PassesAs s s' arg) :
    ∃ v ∈ h.directBases u, ∃ y, Carries v s' y ∧ sizeOf x ≤ sizeOf y
      ∧ (arg.isParam = false → sizeOf x < sizeOf y) := by
  obtain ⟨hindex, e, he, hderived, hbase, harg⟩ := hpasses
  have hv : e.base.substitute .type u.genericArgs ∈ h.directBases u :=
    mem_directBases.2 ⟨e, he, by rw [hu.1, hderived], rfl⟩
  obtain ⟨hle, hlt⟩ := TypeRef.sizeOf_le_substitute hu.2 hindex
  refine ⟨_, hv, _, ⟨TypeRef.definition?_substitute hbase _, ?_⟩, hle, hlt⟩
  rw [TypeRef.genericArgs_substitute hbase, List.getElem?_map, harg]
  rfl

/-- Along any way of a parameter the argument stays or grows. -/
theorem Carries.run (hpasses : Relation.ReflTransGen h.Passes s s') (hu : Carries u s x) :
    ∃ v ∈ h.above u, ∃ y, Carries v s' y ∧ sizeOf x ≤ sizeOf y := by
  induction hpasses with
  | refl => exact ⟨u, mem_above_self h u, x, hu, Nat.le_refl _⟩
  | tail _ hstep ih =>
      obtain ⟨v, hv, y, hy, hle⟩ := ih
      obtain ⟨arg, hpasses⟩ := hstep
      obtain ⟨w, hw, z, hz, hle', -⟩ := hy.step hpasses
      exact ⟨w, Relation.ReflTransGen.tail hv hw, z, hz, hle.trans hle'⟩

/-- **A type that carries a growing parameter has supertypes without end.** -/
theorem Carries.infinite (hu : Carries u s x) (hgrows : h.Grows s s')
    (hback : Relation.ReflTransGen h.Passes s' s) : ¬ (h.above u).Finite := by
  have hround : ∀ n, ∃ v ∈ h.above u, ∃ y, Carries v s y ∧ n ≤ sizeOf y := by
    intro n
    induction n with
    | zero => exact ⟨u, mem_above_self h u, x, hu, Nat.zero_le _⟩
    | succ n ih =>
        obtain ⟨v, hv, y, hy, hn⟩ := ih
        obtain ⟨arg, hpasses, hparam⟩ := hgrows
        obtain ⟨w, hw, z, hz, -, hlt⟩ := hy.step hpasses
        obtain ⟨w', hw', z', hz', hle⟩ := hz.run hback
        refine ⟨w', above_trans (Relation.ReflTransGen.tail hv hw) hw', z', hz', ?_⟩
        have hsize := hlt hparam
        omega
  intro hfinite
  obtain ⟨bound, hbound⟩ := (hfinite.image sizeOf).bddAbove
  obtain ⟨v, hv, y, ⟨hdefinition, hy⟩, hsize⟩ := hround bound
  have hle : sizeOf v ≤ bound := hbound (Set.mem_image_of_mem _ hv)
  cases v with
  | named name args =>
      have hmem : sizeOf y < sizeOf args := List.sizeOf_lt_of_mem (List.mem_of_getElem? hy)
      rw [TypeRef.named.sizeOf_spec] at hle
      omega
  | _ => cases hdefinition

/-- **In a hierarchy that swells some type has supertypes without end.** -/
theorem Swells.exists_infinite (hswells : h.Swells) : ∃ t, ¬ (h.above t).Finite := by
  obtain ⟨s, s', hgrows, hback⟩ := hswells
  obtain ⟨arg, ⟨-, e, -, -, hbase, harg⟩, -⟩ := id hgrows
  -- The base itself carries the place the parameter grows into.
  have hstart : Carries e.base s' arg := ⟨hbase, harg⟩
  obtain ⟨v, hv, y, hy, -⟩ := hstart.run hback
  exact ⟨v, hy.infinite hgrows hback⟩

/-! ## §4. Ranks. -/

/-- The places that some argument grows into. -/
def targets (h : Hierarchy) : Set Slot := {s' | ∃ s, h.Grows s s'}

theorem finite_targets (h : Hierarchy) : h.targets.Finite := by
  have hplaces : (⋃ e ∈ {e | e ∈ h.edges}, ⋃ id ∈ {id | e.base.definition? = some id},
      (fun i => Slot.mk id i) '' {i | i < e.base.genericArgs.length}).Finite := by
    refine (List.finite_toSet h.edges).biUnion fun e _ => ?_
    refine Set.Finite.biUnion ?_ fun id _ => (Set.finite_lt_nat _).image _
    exact Set.Subsingleton.finite fun id hid id' hid' => Option.some.inj (hid.symm.trans hid')
  refine hplaces.subset ?_
  rintro ⟨id, i⟩ ⟨s, arg, ⟨-, e, he, -, hbase, harg⟩, -⟩
  refine Set.mem_biUnion he (Set.mem_biUnion hbase ⟨i, ?_, rfl⟩)
  exact (List.getElem?_eq_some_iff.1 harg).1

/-- How many places that an argument grows into lead to a parameter. -/
noncomputable def rank (h : Hierarchy) (s : Slot) : Nat :=
  {s' ∈ h.targets | Relation.ReflTransGen h.Passes s' s}.ncard

theorem rank_le_ncard_targets (h : Hierarchy) (s : Slot) : h.rank s ≤ h.targets.ncard :=
  Set.ncard_le_ncard (Set.sep_subset _ _) h.finite_targets

theorem rank_le_of_passes (hpasses : h.Passes s s') : h.rank s ≤ h.rank s' := by
  refine Set.ncard_le_ncard ?_ (h.finite_targets.subset (Set.sep_subset _ _))
  exact fun target ⟨htarget, hleads⟩ => ⟨htarget, hleads.tail hpasses⟩

/-- **Arguments grow from one rank to a higher one**, unless the hierarchy swells. -/
theorem rank_lt_of_grows (hswells : ¬ h.Swells) (hgrows : h.Grows s s') :
    h.rank s < h.rank s' := by
  refine Set.ncard_lt_ncard ?_ (h.finite_targets.subset (Set.sep_subset _ _))
  refine ⟨fun target ⟨htarget, hleads⟩ => ⟨htarget, hleads.tail hgrows.passes⟩, fun hsubset => ?_⟩
  -- The place itself leads to itself, but not back to where the argument came from.
  have hself : s' ∈ {r ∈ h.targets | Relation.ReflTransGen h.Passes r s'} := ⟨⟨s, hgrows⟩, .refl⟩
  exact hswells ⟨s, s', hgrows, (hsubset hself).2⟩

/-! ## §5. Finitely many arguments. -/

/-- The arguments that supertypes of a type can have in a place of at most the given rank,
counted from one. -/
def values (h : Hierarchy) (t : TypeRef) : Nat → Set TypeRef
  | 0 => {x | x ∈ t.genericArgs}
  | k + 1 => h.values t k
      ∪ ⋃ e ∈ {e | e ∈ h.edges}, ⋃ p ∈ {p | p ∈ e.base.genericArgs}, p.closures (h.values t k)

theorem finite_values (h : Hierarchy) (t : TypeRef) : ∀ k, (h.values t k).Finite
  | 0 => List.finite_toSet t.genericArgs
  | k + 1 => by
      have hbefore := finite_values h t k
      refine hbefore.union ((List.finite_toSet h.edges).biUnion fun e _ => ?_)
      exact (List.finite_toSet e.base.genericArgs).biUnion fun p _ =>
        TypeRef.finite_closures hbefore p

theorem values_mono {k l : Nat} (hle : k ≤ l) : h.values t k ⊆ h.values t l := by
  induction hle with
  | refl => exact fun x hx => hx
  | step _ ih => exact fun x hx => .inl (ih hx)

/-- What a base puts in a place comes from arguments of a lower rank, or is an argument. -/
theorem mem_values_of_substitute {arg : TypeRef} {e : BaseEdge} {args : List TypeRef} {i : Nat}
    {id : TypeId} (hswells : ¬ h.Swells) (he : e ∈ h.edges) (hbase : e.base.definition? = some id)
    (harg : e.base.genericArgs[i]? = some arg)
    (hargs : ∀ j y, args[j]? = some y → y ∈ h.values t (h.rank ⟨e.derived, j⟩ + 1)) :
    arg.substitute .type args ∈ h.values t (h.rank ⟨id, i⟩ + 1) := by
  have hpasses : ∀ j ∈ arg.typeIndices, h.PassesAs ⟨e.derived, j⟩ ⟨id, i⟩ arg :=
    fun j hj => ⟨hj, e, he, rfl, hbase, harg⟩
  have hclosure : (∀ j ∈ arg.typeIndices, ∀ y, args[j]? = some y →
      y ∈ h.values t (h.rank ⟨id, i⟩)) → arg.substitute .type args
        ∈ h.values t (h.rank ⟨id, i⟩ + 1) := by
    intro hlower
    exact .inr (Set.mem_biUnion he (Set.mem_biUnion (List.mem_of_getElem? harg) ⟨args, hlower, rfl⟩))
  cases hparam : arg.isParam with
  | false =>
      refine hclosure fun j hj y hy => values_mono ?_ (hargs j y hy)
      exact rank_lt_of_grows hswells ⟨arg, hpasses j hj, hparam⟩
  | true =>
      -- A parameter stands for its argument, in a place that may be of the same rank.
      cases arg with
      | param owner j name =>
          cases owner with
          | method => exact hclosure nofun
          | type =>
              have hj : j ∈ (TypeRef.param .type j name).typeIndices := List.mem_cons_self
              cases hy : args[j]? with
              | none =>
                  refine hclosure fun j' hj' y hy' => ?_
                  rw [List.mem_singleton.1 hj', hy] at hy'
                  cases hy'
              | some y =>
                  rw [TypeRef.substitute, if_pos rfl, hy]
                  refine values_mono (Nat.succ_le_succ ?_) (hargs j y hy)
                  exact rank_le_of_passes ⟨_, hpasses j hj⟩
      | _ => cases hparam

/-- **Supertypes have the arguments of their places.** -/
theorem mem_values_of_above (hdeclared : h.Declared) (hswells : ¬ h.Swells) (hu : u ∈ h.above t) :
    ∀ id, u.definition? = some id → ∀ i x, u.genericArgs[i]? = some x →
      x ∈ h.values t (h.rank ⟨id, i⟩ + 1) := by
  induction hu with
  | refl =>
      intro id _ i x hx
      exact values_mono (Nat.zero_le _) (List.mem_of_getElem? hx)
  | @tail u v _ hstep ih =>
      intro id hid i x hx
      obtain ⟨e, he, hderived, rfl⟩ := mem_directBases.1 hstep
      obtain ⟨base, hbase⟩ := Option.isSome_iff_exists.1 (hdeclared e he)
      rw [TypeRef.definition?_substitute hbase] at hid
      cases hid
      rw [TypeRef.genericArgs_substitute hbase, List.getElem?_map] at hx
      obtain ⟨arg, harg, rfl⟩ := Option.map_eq_some_iff.1 hx
      exact mem_values_of_substitute hswells he hbase harg (ih e.derived hderived)

/-- **In a hierarchy that does not swell every type has finitely many supertypes.** -/
theorem finite_of_not_swells (hdeclared : h.Declared) (hswells : ¬ h.Swells) (t : TypeRef) :
    (h.above t).Finite := by
  have hvalues := h.finite_values t (h.targets.ncard + 1)
  have hbases : (⋃ e ∈ {e | e ∈ h.edges},
      e.base.closures (h.values t (h.targets.ncard + 1))).Finite :=
    (List.finite_toSet h.edges).biUnion fun e _ => TypeRef.finite_closures hvalues e.base
  refine (hbases.insert t).subset fun u hu => ?_
  obtain rfl | ⟨w, hw, hstep⟩ := Relation.ReflTransGen.cases_tail hu
  · exact .inl rfl
  · obtain ⟨e, he, hderived, rfl⟩ := mem_directBases.1 hstep
    refine .inr (Set.mem_biUnion he ⟨w.genericArgs, fun i _ x hx => ?_, rfl⟩)
    refine values_mono (Nat.succ_le_succ (rank_le_ncard_targets h ⟨e.derived, i⟩)) ?_
    exact mem_values_of_above hdeclared hswells hw e.derived hderived i x hx

end Hierarchy

end BoundMarkup
