/-
  BoundMarkup.Proofs.Registry.Assignability
  ─────────────────────────────────────────
  **ASSIGNABILITY AS AN ORDER.**

  A type is assignable to itself, to its constructed supertypes, to what can be
  enumerated if it is an array, and to `object` (`Hierarchy.Stands`).  Over the
  built-in types, where neither `object` nor what can be enumerated has a base
  (`Hierarchy.Rooted`), this is transitive, and it is what the registry answers once
  its searches have ended (`Registry.isAssignable_iff_stands`).

  Types are known by 64 bits of their names.  A name with the bits of `object` is
  taken for `object` by the search, which adds no second `object` behind it, but is
  another type in comparisons: it is the only type of values that is not assignable
  to `object` (`Registry.isAssignable_ordered`, `Registry.not_isAssignable_namesake`).
-/
import BoundMarkup.Proofs.Registry.Termination

namespace BoundMarkup

/-! ## §1. The identity of `object`. -/

namespace TypeRef

/-- The identity of `object`. -/
def objectId : TypeId := TypeId.ofName Primitive.object.name

/-- A type without arguments whose name has the identity of `object`, but is another name. -/
def Namesake (t : TypeRef) : Prop :=
  ∃ name, t = simple name ∧ TypeId.ofName name = objectId ∧ name ≠ Primitive.object.name

/-- The types that no value has. -/
def valueless : List TypeRef := [unknown, void, null]

theorem definition?_of_valueless {t : TypeRef} (ht : t ∈ valueless) : t.definition? = none := by
  simp only [valueless, List.mem_cons, List.not_mem_nil, or_false] at ht
  rcases ht with rfl | rfl | rfl <;> rfl

theorem isObject_object : object.isObject = true := by decide +kernel

/-- **`object` is told by its identity.** -/
theorem isObject_iff {t : TypeRef} : t.isObject = true ↔ t = object ∨ t.Namesake := by
  have hbuiltin : ∀ entry ∈ Primitive.byId, entry.2 = .object → entry.1 = objectId := by
    decide +kernel
  constructor
  · intro h
    have hprimitive : t.primitive? = some .object := beq_iff_eq.1 h
    cases t with
    | named name args =>
        cases args with
        | cons _ _ => cases hprimitive
        | nil =>
            obtain ⟨entry, hentry, hkind⟩ := Option.map_eq_some_iff.1 hprimitive
            -- The built-in type was found by its identity, which is that of the name.
            have hid := List.find?_some (p := fun e : TypeId × Primitive => e.1 == _) hentry
            have hobject := hbuiltin entry (List.mem_of_find?_eq_some hentry) hkind
            by_cases hname : name = Primitive.object.name
            · exact .inl (congrArg simple hname)
            · exact .inr ⟨name, rfl, (beq_iff_eq.1 hid).symm.trans hobject, hname⟩
    | _ => cases hprimitive
  · rintro (rfl | ⟨name, rfl, hid, -⟩)
    · exact isObject_object
    · have hprimitive : (simple name).primitive? = object.primitive? := congrArg Primitive.ofId? hid
      unfold isObject
      rw [hprimitive]
      exact isObject_object

theorem not_namesake_object : ¬ object.Namesake := by
  rintro ⟨name, hname, -, hne⟩
  exact hne (named.inj hname).1.symm

theorem Namesake.definition? {t : TypeRef} (h : t.Namesake) : t.definition? = some objectId := by
  obtain ⟨name, rfl, hid, -⟩ := h
  exact congrArg some hid

end TypeRef

/-! ## §2. What can stand for what. -/

namespace Hierarchy

/-- **A value of one type can stand for the other.** -/
inductive Stands (h : Hierarchy) : TypeRef → TypeRef → Prop where
  /-- A type stands for itself and for its supertypes. -/
  | above {t u : TypeRef} (hu : u ∈ h.above t) : Stands h t u
  /-- An array can be enumerated. -/
  | element (e : TypeRef) : Stands h (.array e) (.enumerable e)
  /-- Any value is an object. -/
  | top {t : TypeRef} (hvalue : t ∉ TypeRef.valueless) (hname : ¬ t.Namesake) : Stands h t .object

/-- All bases are declared types, and the built-in types that every value or every array is
have no bases themselves. -/
structure Rooted (h : Hierarchy) : Prop where
  declared : h.Declared
  object : ∀ e ∈ h.edges, e.derived ≠ TypeRef.objectId
  enumerable : ∀ e ∈ h.edges, e.derived ≠ TypeId.ofName TypeRef.enumerableName

variable {h : Hierarchy} {t u v : TypeRef}

/-- A definition without edges has no bases. -/
theorem directBases_eq_nil {id : TypeId} (hid : t.definition? = some id)
    (hedges : ∀ e ∈ h.edges, e.derived ≠ id) : h.directBases t = [] := by
  refine List.eq_nil_iff_forall_not_mem.2 fun v hv => ?_
  obtain ⟨e, he, hderived, -⟩ := mem_directBases.1 hv
  rw [hid] at hderived
  exact hedges e he (Option.some.inj hderived).symm

/-- A type that is not declared is its only supertype. -/
theorem above_eq_singleton_of_undeclared (hnone : t.definition? = none) : h.above t = {t} := by
  refine above_eq_singleton ?_
  unfold directBases
  rw [hnone]

theorem eq_of_above_valueless (ht : t ∈ TypeRef.valueless) (hu : u ∈ h.above t) : u = t := by
  rw [above_eq_singleton_of_undeclared (TypeRef.definition?_of_valueless ht)] at hu
  exact hu

/-- Only declared types are supertypes of other types. -/
theorem Declared.eq_of_above (hdeclared : h.Declared) (hu : u ∈ h.above t)
    (hnone : u.definition? = none) : u = t := by
  rcases Relation.ReflTransGen.cases_tail hu with heq | ⟨w, -, hw⟩
  · exact heq
  · have hsome := hdeclared.definition?_isSome hw
    rw [hnone] at hsome
    cases hsome

/-- What has a base is a type of values, and is not taken for `object`. -/
theorem Rooted.of_mem_directBases (hrooted : h.Rooted) (hv : v ∈ h.directBases t) :
    t ∉ TypeRef.valueless ∧ ¬ t.Namesake := by
  constructor
  · intro hvalueless
    obtain ⟨e, -, hderived, -⟩ := mem_directBases.1 hv
    rw [TypeRef.definition?_of_valueless hvalueless] at hderived
    cases hderived
  · intro hname
    rw [directBases_eq_nil hname.definition? hrooted.object] at hv
    cases hv

/-- `object` is its only supertype. -/
theorem Rooted.above_object (hrooted : h.Rooted) : h.above .object = {.object} :=
  above_eq_singleton (directBases_eq_nil rfl hrooted.object)

theorem Rooted.above_enumerable (hrooted : h.Rooted) (e : TypeRef) :
    h.above (.enumerable e) = {.enumerable e} :=
  above_eq_singleton (directBases_eq_nil rfl hrooted.enumerable)

/-- **What stands for a type stands for all that the type stands for.** -/
theorem Rooted.stands_trans (hrooted : h.Rooted) (htu : h.Stands t u) (huv : h.Stands u v) :
    h.Stands t v := by
  cases htu with
  | above hu =>
      cases huv with
      | above hv => exact .above (above_trans hu hv)
      | element e =>
          -- No base is an array, so the array is the type itself.
          obtain rfl := hrooted.declared.eq_of_above hu rfl
          exact .element e
      | top hvalue hname =>
          -- Unless it is the type itself that is below `object`, the type has a base.
          rcases Relation.ReflTransGen.cases_head hu with rfl | ⟨w, hw, -⟩
          · exact .top hvalue hname
          · obtain ⟨hvalue, hname⟩ := hrooted.of_mem_directBases hw
            exact .top hvalue hname
  | element e =>
      generalize hbase : TypeRef.enumerable e = base at huv
      cases huv with
      | above hv =>
          rw [← hbase, hrooted.above_enumerable] at hv
          obtain rfl := hv
          exact .element e
      | element e' => cases hbase
      | top _ _ => exact .top (by simp [TypeRef.valueless]) (by rintro ⟨name, hname, -⟩; cases hname)
  | top hvalue hname =>
      generalize hbase : TypeRef.object = base at huv
      cases huv with
      | above hv =>
          rw [← hbase, hrooted.above_object] at hv
          obtain rfl := hv
          exact .top hvalue hname
      | element e => cases hbase
      | top _ _ => exact .top hvalue hname

end Hierarchy

/-! ## §3. What the registry answers. -/

namespace Registry

open TypeRef (valueless)

variable {r : Registry} {t u : TypeRef}

/-- The levels behind a type, before `object` is put at their end. -/
def behind (r : Registry) : TypeRef → List (List TypeRef)
  | .array element => [[.enumerable element]]
  | .named name args => (r.hierarchy.levels (.named name args)).tail
  | _ => []

/-- The levels of a type of values, with `object` at their end. -/
theorem levels_eq (r : Registry) (hvalue : t ∉ valueless) : r.levels t =
    if t.isObject then [t] :: r.behind t
    else ((([t] :: r.behind t).map (fun level => level.filter (· ≠ .object))).filter
      (fun level => !level.isEmpty)) ++ [[.object]] := by
  cases t with
  | named name args =>
      unfold levels behind
      rw [← Hierarchy.levels_eq_cons]
      simp only
      rw [Hierarchy.levels_eq_cons]
      rfl
  | array e => rfl
  | nullable e => rfl
  | param o i n => rfl
  | unknown => exact absurd (by decide) hvalue
  | void => exact absurd (by decide) hvalue
  | null => exact absurd (by decide) hvalue

/-- The level of a type by itself keeps the type, if that is not taken for `object`. -/
theorem filter_ne_object (hobject : t.isObject = false) :
    [t].filter (· ≠ TypeRef.object) = [t] := by
  have hne : t ≠ .object := by
    intro h
    rw [h, TypeRef.isObject_object] at hobject
    cases hobject
  exact List.filter_cons_of_pos (decide_eq_true hne)

/-- **The supertypes of a type of values**: what is behind it, and `object`. -/
theorem mem_supertypes (r : Registry) (hvalue : t ∉ valueless) : u ∈ r.supertypes t ↔
    u ∈ (r.behind t).flatten ∨ t.isObject = false ∧ u = .object := by
  unfold supertypes
  rw [levels_eq r hvalue]
  cases hobject : t.isObject with
  | true => simp
  | false =>
      rw [if_neg Bool.false_ne_true, List.map_cons, filter_ne_object hobject,
        List.filter_cons_of_pos rfl, List.cons_append, List.drop_one, List.tail_cons,
        List.flatten_append, List.flatten_filter_not_isEmpty, ← List.filter_flatten, List.mem_append, List.mem_filter]
      -- `object` is taken out of the levels, but comes back behind them.
      by_cases hu : u = .object
      · simp [hu]
      · simp [hu]

/-- What is behind a type, once the search of the type has ended. -/
theorem mem_behind (hends : r.hierarchy.level t r.hierarchy.reach = []) :
    u ∈ (r.behind t).flatten ↔ (u ∈ r.hierarchy.above t ∧ u ≠ t)
      ∨ ∃ e, t = .array e ∧ u = .enumerable e := by
  cases t with
  | named name args => simp [behind, Hierarchy.mem_levels_tail hends]
  | array e =>
      rw [Hierarchy.above_eq_singleton_of_undeclared rfl]
      simp [behind]
  | _ =>
      rw [Hierarchy.above_eq_singleton_of_undeclared rfl]
      simp [behind]

/-- What is behind a type of the hierarchy is above it, whether the search has ended or not. -/
theorem mem_above_of_mem_behind {name : String} {args : List TypeRef}
    (hu : u ∈ (r.behind (.named name args)).flatten) :
    u ∈ r.hierarchy.above (.named name args) := by
  have hseen : u ∈ r.hierarchy.seen (.named name args) (0 + r.hierarchy.reach) := by
    rw [← Hierarchy.levelsFrom_seen]
    exact List.mem_append_right _ hu
  exact Hierarchy.seen_subset_above u hseen

/-- What has no values is assignable to itself only. -/
theorem isAssignable_of_valueless (hvalueless : t ∈ valueless) :
    r.isAssignable t u = true ↔ t = u := by
  unfold isAssignable
  by_cases hself : t = u
  · simp [hself]
  · simp only [valueless, List.mem_cons, List.not_mem_nil, or_false] at hvalueless
    rcases hvalueless with rfl | rfl | rfl <;> simp [hself]

/-- A type of values is assignable to other types if they are its supertypes. -/
theorem isAssignable_of_ne (hvalue : t ∉ valueless) (hne : t ≠ u) :
    r.isAssignable t u = true ↔ u ∈ r.supertypes t := by
  unfold isAssignable
  rw [if_neg hne]
  cases t with
  | unknown => exact absurd (by decide) hvalue
  | void => exact absurd (by decide) hvalue
  | null => exact absurd (by decide) hvalue
  | _ => exact decide_eq_true_iff

/-- **Assignability is standing for**, once the searches of all types have ended. -/
theorem isAssignable_iff_stands (hends : ∀ t, r.hierarchy.level t r.hierarchy.reach = []) :
    r.isAssignable t u = true ↔ r.hierarchy.Stands t u := by
  by_cases hself : t = u
  · subst hself
    exact iff_of_true (if_pos rfl) (.above (Hierarchy.mem_above_self _ t))
  by_cases hvalue : t ∈ valueless
  · rw [isAssignable_of_valueless hvalue]
    refine iff_of_false hself fun hstands => ?_
    cases hstands with
    | above hu => exact hself (Hierarchy.eq_of_above_valueless hvalue hu).symm
    | element e => exact absurd hvalue (by simp [valueless])
    | top hvalue' _ => exact hvalue' hvalue
  rw [isAssignable_of_ne hvalue hself, mem_supertypes r hvalue, mem_behind (hends t)]
  constructor
  · rintro ((⟨hu, -⟩ | ⟨e, rfl, rfl⟩) | ⟨hobject, rfl⟩)
    · exact .above hu
    · exact .element e
    · refine .top hvalue fun hname => ?_
      rw [TypeRef.isObject_iff.2 (.inr hname)] at hobject
      cases hobject
  · intro hstands
    cases hstands with
    | above hu => exact .inl (.inl ⟨hu, fun heq => hself heq.symm⟩)
    | element e => exact .inl (.inr ⟨e, rfl, rfl⟩)
    | top _ hname =>
        refine .inr ⟨Bool.eq_false_iff.2 fun hobject => ?_, rfl⟩
        exact (TypeRef.isObject_iff.1 hobject).elim hself hname

/-! ## §4. The order. -/

/-- The registry's assignability is **a preorder with a top**: all types of values are below
`object`, but for the types that bear another name of its identity. -/
structure Ordered (r : Registry) : Prop where
  refl : ∀ t, r.isAssignable t t = true
  trans : ∀ t u v, r.isAssignable t u = true → r.isAssignable u v = true →
    r.isAssignable t v = true
  top : ∀ t, r.isAssignable t .object = true ↔
    t ∉ valueless ∧ ¬ t.Namesake

/-- Once its searches have ended, a registry over the built-in types is ordered. -/
theorem ordered_of_ends (hrooted : r.hierarchy.Rooted)
    (hends : ∀ t, r.hierarchy.level t r.hierarchy.reach = []) : r.Ordered := by
  constructor
  case refl => exact fun t => if_pos rfl
  case trans =>
    intro t u v htu huv
    rw [isAssignable_iff_stands hends] at htu huv ⊢
    exact hrooted.stands_trans htu huv
  case top =>
    intro t
    rw [isAssignable_iff_stands hends]
    refine ⟨fun hstands => ?_, fun ⟨hvalue, hname⟩ => .top hvalue hname⟩
    generalize htop : TypeRef.object = top at hstands
    cases hstands with
    | above hu =>
        rcases Relation.ReflTransGen.cases_head hu with rfl | ⟨v, hv, -⟩
        · subst htop
          exact ⟨by decide, TypeRef.not_namesake_object⟩
        · exact hrooted.of_mem_directBases hv
    | element e => cases (TypeRef.named.inj htop).2
    | top hvalue hname => exact ⟨hvalue, hname⟩

/-- Registration gives no bases to a definition that was declared before. -/
theorem derived_ne_insertAll {base : Registry} {es : List TypeEntry} {id : TypeId}
    (hfresh : ∀ e ∈ es, base.find? e.id = none) (hid : (base.find? id).isSome = true)
    (hedges : ∀ e ∈ base.hierarchy.edges, e.derived ≠ id) :
    ∀ e ∈ (base.insertAll es).hierarchy.edges, e.derived ≠ id := by
  intro e he
  rcases List.mem_append.1 he with he | he
  · exact hedges e he
  · obtain ⟨entry, hentry, he⟩ := List.mem_flatMap.1 he
    obtain ⟨b, -, rfl⟩ := List.mem_map.1 he
    rintro rfl
    rw [hfresh entry hentry] at hid
    cases hid

/-- **Registration over the built-in types leaves `object` and what can be enumerated without
bases.** -/
theorem rooted_of_registerAll {es : List TypeEntry}
    (registered : Builtins.registry.registerAll es = .ok r) : r.hierarchy.Rooted := by
  have hdeclared : r.hierarchy.Declared := (Reached.builtins.registerAll registered).declared
  obtain ⟨⟨-, hfresh, -⟩, rfl⟩ := registerAll_eq_ok_iff.1 registered
  exact ⟨hdeclared, derived_ne_insertAll hfresh (by decide +kernel) (by decide +kernel),
    derived_ne_insertAll hfresh (by decide +kernel) (by decide +kernel)⟩

/-- **Assignability is a preorder with `object` at the top**, over the built-in types and any
types registered after them, if every type has finitely many supertypes: some depth settles
all answers, and with any depth that does assignability is ordered. -/
theorem isAssignable_ordered {es : List TypeEntry}
    (registered : Builtins.registry.registerAll es = .ok r)
    (finite : ∀ t, (r.hierarchy.above t).Finite) :
    (∃ depth, r.SettledFrom depth) ∧ ∀ depth, r.SettledFrom depth → (r.reaching depth).Ordered := by
  have hrooted := rooted_of_registerAll registered
  refine ⟨exists_settled hrooted.declared finite, fun depth hsettled => ?_⟩
  have hrooted' : (r.reaching depth).hierarchy.Rooted :=
    ⟨hrooted.declared, hrooted.object, hrooted.enumerable⟩
  refine ordered_of_ends hrooted' fun t => ?_
  have hlevel : (r.reaching depth).hierarchy.level t depth = r.hierarchy.level t depth :=
    congrArg Prod.snd (Hierarchy.stage_reaching r.hierarchy depth t depth)
  exact hlevel.trans (hsettled.ends t)

theorem isAssignable_ordered_circular :
    Builtins.registry.registerAll circularEntries = .ok circularTypes
      ∧ (∀ t, (circularTypes.hierarchy.above t).Finite)
      ∧ ∃ depth, circularTypes.SettledFrom depth ∧ (circularTypes.reaching depth).Ordered := by
  have hdeclared := (Reached.builtins.registerAll registerAll_circular).declared
  have finite := Hierarchy.finite_of_not_swells hdeclared flat_circular.not_swells
  obtain ⟨⟨depth, hsettled⟩, hordered⟩ := isAssignable_ordered registerAll_circular finite
  exact ⟨registerAll_circular, finite, depth, hsettled, hordered depth hsettled⟩

/-- **Another name with the 64 bits of `object`**, found by running the hash backwards, is not
below `object`, though it is a type of values and every type has finitely many supertypes. -/
theorem not_isAssignable_namesake : (∀ t, (Builtins.registry.hierarchy.above t).Finite)
    ∧ TypeRef.simple "App.WwismusyFVDH" ∉ valueless
    ∧ Builtins.registry.isAssignable (.simple "App.WwismusyFVDH") .object = false := by
  have hflat : Builtins.registry.hierarchy.Flat := by decide +kernel
  refine ⟨Hierarchy.finite_of_not_swells Reached.builtins.declared hflat.not_swells, by decide, ?_⟩
  decide +kernel

end Registry

end BoundMarkup
