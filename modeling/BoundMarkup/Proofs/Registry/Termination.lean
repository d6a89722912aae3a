/-
  BoundMarkup.Proofs.Registry.Termination
  ───────────────────────────────────────
  **WHERE QUESTIONS HAVE ANSWERS.**

  Registration accepts bases whose arguments grow without end: the supertypes of
  `Chain<int>` never end if `Chain<T>` derives from `Chain<Chain<T>>`
  (`Registry.not_ends_chain`).  The searches of all types end just if no generic
  parameter comes back to itself and has grown on the way, and then one depth is
  enough for all of them, so that no answer depends on it any more
  (`Registry.ends_iff_not_swells`).  Bases that repeat, or that have the type itself
  as an argument, do no harm.
-/
import BoundMarkup.Proofs.Registry.Instances
import BoundMarkup.Proofs.Registry.Registration
import BoundMarkup.Proofs.Term.Overloads

namespace BoundMarkup

/-! ## §1. Hierarchies that are seen not to swell. -/

namespace Hierarchy

/-- Bases hand parameters on as they are: any other argument mentions none. -/
def Flat (h : Hierarchy) : Prop :=
  ∀ e ∈ h.edges, ∀ p ∈ e.base.genericArgs, p.isParam = true ∨ p.typeIndices = []

instance (h : Hierarchy) : Decidable h.Flat :=
  inferInstanceAs (Decidable
    (∀ e ∈ h.edges, ∀ p ∈ e.base.genericArgs, p.isParam = true ∨ p.typeIndices = []))

instance (h : Hierarchy) : Decidable h.Declared :=
  inferInstanceAs (Decidable (∀ e ∈ h.edges, e.base.definition?.isSome = true))

/-- Where nothing grows, nothing comes back larger. -/
theorem Flat.not_swells {h : Hierarchy} (hflat : h.Flat) : ¬ h.Swells := by
  rintro ⟨s, s', ⟨arg, ⟨hindex, e, he, -, -, harg⟩, hparam⟩, -⟩
  rcases hflat e he arg (List.mem_of_getElem? harg) with hisParam | hnone
  · rw [hisParam] at hparam
    cases hparam
  · rw [hnone] at hindex
    cases hindex

end Hierarchy

namespace Registry

/-! ## §2. Registries in use. -/

/-- A registry that registrations lead to, from nothing or from the built-in types. -/
inductive Reached : Registry → Prop where
  | empty : Reached .empty
  | builtins : Reached Builtins.registry
  | register {r r' : Registry} {e : TypeEntry} (h : Reached r) (hr : r.register e = .ok r') :
      Reached r'

variable {r r' : Registry}

/-- **Registration leaves only declared types as bases.** -/
theorem Reached.declared (h : r.Reached) : r.hierarchy.Declared := by
  induction h with
  | empty => exact nofun
  | builtins => decide +kernel
  | @register r r' e _ hr ih =>
      obtain ⟨-, -, rfl⟩ := register_eq_ok_iff.1 hr
      rw [insert_eq_insertAll]
      intro edge hedge
      rcases List.mem_append.1 hedge with hedge | hedge
      · exact ih edge hedge
      · rw [List.flatMap_singleton] at hedge
        obtain ⟨base, hbase, rfl⟩ := List.mem_map.1 hedge
        exact (List.mem_filter.1 hbase).2

theorem Reached.registerAll : ∀ {es : List TypeEntry} {r : Registry}, r.Reached →
    r.registerAll es = .ok r' → r'.Reached
  | [], r, h, hes => by
      cases hes
      exact h
  | e :: es, r, h, hes => by
      unfold Registry.registerAll at hes
      rw [List.foldlM_cons] at hes
      obtain ⟨mid, hmid, hes⟩ := exists_ok_of_bind hes
      exact Reached.registerAll (.register h hmid) hes

/-! ## §3. Answers that do not depend on the depth. -/

/-- The same registry, searched to another depth. -/
def reaching (r : Registry) (depth : Nat) : Registry :=
  { r with hierarchy := r.hierarchy.reaching depth }

/-- Calls ask for methods, extension methods, and whether they fit. -/
theorem callMethod_congr (hmethods : r.methods = r'.methods)
    (hextensions : r.extensions = r'.extensions) (hfit : Candidate.of? r = Candidate.of? r') :
    Term.callMethod r = Term.callMethod r' := by
  funext receiver name typeArgs positional named
  unfold Term.callMethod memberCandidates extensionCandidates Candidate.viable
  rw [hmethods, hextensions, hfit]

/-- **From the depth on, no answer depends on the depth**: the search of each type has reached
an empty level, and members, conversions and calls are what they are with any larger depth. -/
structure SettledFrom (r : Registry) (depth : Nat) : Prop where
  ends : ∀ t, r.hierarchy.level t depth = []
  answers : ∀ deeper ≥ depth, (r.reaching deeper).Agree (r.reaching depth)
  conversions : ∀ deeper ≥ depth, ∀ source target,
    Conversion.find? (r.reaching deeper) source target
      = Conversion.find? (r.reaching depth) source target
  calls : ∀ deeper ≥ depth, ∀ receiver name typeArgs positional named,
    Term.callMethod (r.reaching deeper) receiver name typeArgs positional named
      = Term.callMethod (r.reaching depth) receiver name typeArgs positional named

/-- **Answers are settled** once all searches have ended. -/
theorem settledFrom_of_ends {depth : Nat} (hends : ∀ t, r.hierarchy.level t depth = []) :
    r.SettledFrom depth := by
  have hlevels : ∀ deeper ≥ depth, (r.reaching deeper).levels = (r.reaching depth).levels := by
    intro deeper hdeeper
    funext t
    have hsame : (r.reaching deeper).hierarchy.levels t = (r.reaching depth).hierarchy.levels t :=
      Hierarchy.levels_reaching (hends t) hdeeper
    unfold levels
    rw [hsame]
  have hagree : ∀ deeper ≥ depth, (r.reaching deeper).Agree (r.reaching depth) :=
    fun deeper hdeeper => Agree.of_levels (hlevels deeper hdeeper) rfl rfl fun name => .refl _
  have halike : ∀ deeper ≥ depth, (r.reaching deeper).Alike (r.reaching depth) := by
    refine fun deeper hdeeper => ⟨hlevels deeper hdeeper, fun id => ?_, fun name => .refl _⟩
    have hfind : (r.reaching deeper).find? id = (r.reaching depth).find? id := rfl
    rw [hfind]
    cases (r.reaching depth).find? id with
    | none => exact .none
    | some e => exact .some (.refl e)
  constructor
  case ends => exact hends
  case answers => exact hagree
  case conversions => exact fun deeper hdeeper source => (halike deeper hdeeper).conversion source
  case calls =>
    intro deeper hdeeper receiver name typeArgs positional named
    have hmethods : (r.reaching deeper).methods = (r.reaching depth).methods := by
      funext t name isStatic
      unfold methods
      rw [(hagree deeper hdeeper).members]
    have hextensions : (r.reaching deeper).extensions = (r.reaching depth).extensions := by
      funext t name
      unfold extensions lineage
      rw [hlevels deeper hdeeper]
      rfl
    rw [callMethod_congr hmethods hextensions (halike deeper hdeeper).candidate]

/-- **One depth settles all answers** where every type has finitely many supertypes. -/
theorem exists_settled (hdeclared : r.hierarchy.Declared)
    (hfinite : ∀ t, (r.hierarchy.above t).Finite) : ∃ depth, r.SettledFrom depth := by
  obtain ⟨depth, hdepth⟩ := Hierarchy.exists_depth hdeclared hfinite
  exact ⟨depth, settledFrom_of_ends hdepth⟩

/-! ## §4. When all searches end. -/

/-- **Where searches end.**  The search of a type ends just if the type has finitely many
supertypes, or just if its levels stay the same from some depth on.  The searches of all types
end just if no generic parameter comes back to itself and has grown on the way, and then one
depth settles all answers. -/
theorem ends_iff_not_swells (reached : r.Reached) :
    (∀ t, (r.hierarchy.Ends t ↔ (r.hierarchy.above t).Finite)
        ∧ (r.hierarchy.Ends t ↔ ∃ depth, ∀ deeper ≥ depth,
          (r.hierarchy.reaching deeper).levels t = (r.hierarchy.reaching depth).levels t))
      ∧ ((∀ t, r.hierarchy.Ends t) ↔ ¬ r.hierarchy.Swells)
      ∧ (¬ r.hierarchy.Swells → ∃ depth, r.SettledFrom depth) := by
  have hfinite : ¬ r.hierarchy.Swells → ∀ t, (r.hierarchy.above t).Finite :=
    fun hswells => Hierarchy.finite_of_not_swells reached.declared hswells
  refine ⟨fun t => ⟨Hierarchy.ends_iff_finite, Hierarchy.ends_iff_levels_reaching⟩,
    ⟨fun hends hswells => ?_, fun hswells t => ?_⟩, fun hswells => ?_⟩
  · obtain ⟨t, ht⟩ := hswells.exists_infinite
    exact ht (Hierarchy.ends_iff_finite.1 (hends t))
  · exact Hierarchy.ends_iff_finite.2 (hfinite hswells t)
  · exact exists_settled reached.declared (hfinite hswells)

/-- A type that can be compared with itself, and two generic types that derive from each other
with their parameters exchanged. -/
def circularEntries : List TypeEntry :=
  let left := withArity "App.Left" 2
  let right := withArity "App.Right" 2
  let t := TypeRef.typeParam 0 "T"
  let u := TypeRef.typeParam 1 "U"
  [(TypeEntry.declare "App.Node" "App").derives (.comparableTo (.simple "App.Node")),
    ((TypeEntry.declare left "App").generic ["T", "U"]).derives (.named right [u, t]),
    ((TypeEntry.declare right "App").generic ["T", "U"]).derives (.named left [t, u])]

/-- The built-in types with these. -/
def circularTypes : Registry := Builtins.registry.insertAll circularEntries

theorem registerAll_circular : Builtins.registry.registerAll circularEntries = .ok circularTypes :=
  registerAll_eq_ok_iff.2 ⟨⟨by decide +kernel, by decide +kernel, by decide +kernel⟩, rfl⟩

theorem flat_circular : circularTypes.hierarchy.Flat := by decide +kernel

theorem ends_iff_not_swells_circular : circularTypes.Reached ∧ ¬ circularTypes.hierarchy.Swells
    ∧ (∀ t, circularTypes.hierarchy.Ends t) ∧ ∃ depth, circularTypes.SettledFrom depth := by
  have reached : circularTypes.Reached := .registerAll .builtins registerAll_circular
  obtain ⟨-, hends, hsettled⟩ := ends_iff_not_swells reached
  exact ⟨reached, flat_circular.not_swells, hends.2 flat_circular.not_swells,
    hsettled flat_circular.not_swells⟩

/-! ## §5. A search without end. -/

def chainName : String := withArity "App.Chain" 1

/-- A generic type that derives from itself with a larger argument. -/
def chainEntry : TypeEntry :=
  ((TypeEntry.declare chainName "App").generic ["T"]).derives
    (.named chainName [.named chainName [.typeParam 0 "T"]])

/-- The built-in types with it. -/
def chainTypes : Registry := Builtins.registry.insert chainEntry

/-- **The type is accepted, and its supertypes never end.** -/
theorem not_ends_chain : Builtins.registry.register chainEntry = .ok chainTypes
    ∧ chainTypes.Reached
    ∧ ¬ chainTypes.hierarchy.Ends (.named chainName [.int32]) := by
  have hregistered : Builtins.registry.register chainEntry = .ok chainTypes :=
    register_eq_ok_iff.2 ⟨by decide +kernel, by decide +kernel, rfl⟩
  refine ⟨hregistered, .register .builtins hregistered, ?_⟩
  rw [Hierarchy.ends_iff_finite]
  let s : Hierarchy.Slot := ⟨TypeId.ofName chainName, 0⟩
  have hedge : (⟨chainEntry.id, .named chainName [.named chainName [.typeParam 0 "T"]]⟩ : BaseEdge)
      ∈ chainTypes.hierarchy.edges := by
    unfold chainTypes
    rw [insert_eq_insertAll]
    exact List.mem_append_right _ List.mem_cons_self
  have hgrows : chainTypes.hierarchy.Grows s s :=
    ⟨.named chainName [.typeParam 0 "T"], ⟨List.mem_cons_self, _, hedge, rfl, rfl, rfl⟩, rfl⟩
  have hcarries : Hierarchy.Carries (.named chainName [.int32]) s .int32 := ⟨rfl, rfl⟩
  exact hcarries.infinite hgrows .refl

end Registry

end BoundMarkup
