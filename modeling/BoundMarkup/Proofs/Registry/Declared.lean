/-
  BoundMarkup.Proofs.Registry.Declared
  ────────────────────────────────────
  **WHERE METHODS COME FROM.**

  Every method that a registry answers was declared by one of its entries, and
  only its generic parameters may have been replaced since.  A call finds its
  method among such answers, as a member or as an extension (`Registry.Finds`).
  What is promised of all declarations holds of every answer
  (`Registry.Declares.of_promises`):
  that a variadic parameter has an array type, and that an extension method is
  static, as in every registry made by declarations (`Registry.Made.staticExtension`).
-/
import BoundMarkup.Registry.Builtins
import BoundMarkup.Registry.Lookup

namespace BoundMarkup

/-! ## §1. Lists without repetitions. -/

namespace Hierarchy

variable {α : Type} [DecidableEq α]

/-- One element after the other: what was kept so far stays, and the new one is kept. -/
theorem mem_foldl_distinct (xs : List α) :
    ∀ (seen : List α) (x : α),
      x ∈ xs.foldl (fun seen x => if x ∈ seen then seen else seen ++ [x]) seen
        ↔ x ∈ seen ∨ x ∈ xs := by
  induction xs with
  | nil => simp
  | cons y ys ih =>
      intro seen x
      rw [List.foldl_cons, ih, List.mem_cons]
      by_cases hy : y ∈ seen
      · rw [if_pos hy]
        constructor
        · exact Or.imp_right Or.inr
        · rintro (h | rfl | h)
          · exact Or.inl h
          · exact Or.inl hy
          · exact Or.inr h
      · rw [if_neg hy, List.mem_append, List.mem_singleton, or_assoc]

theorem mem_distinct {xs : List α} {x : α} : x ∈ distinct xs ↔ x ∈ xs := by
  unfold distinct
  rw [mem_foldl_distinct]
  simp

end Hierarchy

namespace Registry

variable {r : Registry}

theorem mem_entries_of_entryOf? {t : TypeRef} {e : TypeEntry} (h : r.entryOf? t = some e) :
    e ∈ r.entries := by
  obtain ⟨id, -, hfound⟩ := Option.bind_eq_some_iff.1 h
  exact List.mem_of_find?_eq_some hfound

/-! ## §2. Declared methods. -/

/-- A method of one of the declarations, its generic parameters possibly replaced. -/
inductive Declares (r : Registry) : Method → Prop where
  | member {e : TypeEntry} {m : Method} (entry : e ∈ r.entries) (member : .method m ∈ e.members) :
      r.Declares m
  | instantiate {m : Method} (h : r.Declares m) (t : TypeRef) : r.Declares (m.instantiate t)
  | close {m : Method} (h : r.Declares m) (args : List TypeRef) : r.Declares (m.close args)

/-- A method that a type declares, static or not as asked. -/
theorem declares_of_mem_declaredMembers {name : String} {isStatic : Bool} {t : TypeRef}
    {m : Method} (h : .method m ∈ r.declaredMembers name isStatic t) :
    r.Declares m ∧ m.isStatic = isStatic := by
  unfold declaredMembers at h
  split at h
  · rename_i e he
    obtain ⟨x, hx, hxm⟩ := List.mem_map.1 h
    obtain ⟨hnamed, hstatic⟩ := List.mem_filter.1 hx
    have hmember := (List.mem_filter.1 hnamed).1
    cases x with
    | method d =>
        cases hxm
        refine ⟨.instantiate (.member (mem_entries_of_entryOf? he) hmember) t, ?_⟩
        have hflag : (d.instantiate t).isStatic = d.isStatic := by
          unfold Method.instantiate
          simp only
          split <;> rfl
        rw [hflag]
        exact eq_of_beq hstatic
    | property p => cases hxm
    | nested name type => cases hxm
  · cases h

/-- A member that some level shows is declared by a type of that level. -/
theorem mem_declared_of_mem_visibleMembers {name : String} {isStatic : Bool} {x : Member} :
    ∀ (levels : List (List TypeRef)) (hidden : Hiding),
      x ∈ r.visibleMembers name isStatic hidden levels →
        ∃ level ∈ levels, ∃ t ∈ level, x ∈ r.declaredMembers name isStatic t
  | [], _, h => by cases h
  | level :: levels, hidden, h => by
      rcases List.mem_append.1 h with h | h
      · obtain ⟨h, -⟩ := List.mem_filter.1 (Hierarchy.mem_distinct.1 h)
        obtain ⟨t, ht, hx⟩ := List.mem_flatMap.1 h
        exact ⟨level, List.mem_cons_self, t, ht, hx⟩
      · obtain ⟨level', hlevel, hx⟩ := mem_declared_of_mem_visibleMembers levels _ h
        exact ⟨level', List.mem_cons_of_mem level hlevel, hx⟩

/-- What arrays and nullable wrappers have by nature is a property. -/
theorem intrinsic?_ne_method {t : TypeRef} {name : String} {m : Method} :
    intrinsic? t name ≠ some (.method m) := by
  intro h
  unfold intrinsic? at h
  simp only at h
  split at h
  · split at h <;> cases h
  · split at h
    · cases h
    · split at h <;> cases h
  · cases h

/-- A method of a type is declared by the type or one of its supertypes. -/
theorem exists_declared_of_mem_methods {t : TypeRef} {name : String} {isStatic : Bool} {m : Method}
    (h : m ∈ r.methods t name isStatic) :
    ∃ s ∈ r.lineage t, .method m ∈ r.declaredMembers name isStatic s := by
  obtain ⟨x, hx, hxm⟩ := List.mem_filterMap.1 h
  have hmethod : x = .method m := by
    cases x with
    | method m' => exact congrArg _ (Option.some.inj hxm)
    | property p => cases hxm
    | nested name type => cases hxm
  rw [hmethod] at hx
  rcases List.mem_append.1 hx with hx | hx
  · split at hx
    · cases hx
    · exact absurd (Option.mem_toList.1 hx) intrinsic?_ne_method
  · obtain ⟨level, hlevel, s, hmem, hs⟩ := mem_declared_of_mem_visibleMembers _ _ hx
    exact ⟨s, List.mem_flatten.2 ⟨level, hlevel, hmem⟩, hs⟩

/-- **A method of a type is declared**, and static just if it was asked for so. -/
theorem declares_of_mem_methods {t : TypeRef} {name : String} {isStatic : Bool} {m : Method}
    (h : m ∈ r.methods t name isStatic) : r.Declares m ∧ m.isStatic = isStatic := by
  obtain ⟨s, -, hs⟩ := exists_declared_of_mem_methods h
  exact declares_of_mem_declaredMembers hs

/-- **An extension method of a type is declared** as one. -/
theorem declares_of_mem_extensions {t : TypeRef} {name : String} {m : Method}
    (h : m ∈ r.extensions t name) : r.Declares m ∧ m.isExtension = true := by
  obtain ⟨e, he, hm⟩ := List.mem_flatMap.1 (List.mem_filter.1 h).1
  obtain ⟨x, hx, hxm⟩ := List.mem_filterMap.1 hm
  have hmember := (List.mem_filter.1 hx).1
  cases x with
  | method d =>
      obtain ⟨hd, hextension⟩ := Option.filter_eq_some_iff.1 hxm
      cases hd
      exact ⟨.member he hmember, hextension⟩
  | property p => cases hxm
  | nested name type => cases hxm

/-- Where a call finds its method. -/
inductive Origin where
  | member (isStatic : Bool)
  | extension
  deriving DecidableEq, Repr

/-- **A call finds its method** among the members of a type, static or not as asked, or among the
extensions of the type, and closes its generic parameters. -/
inductive Finds (r : Registry) (t : TypeRef) : Origin → Method → Prop where
  | member {name : String} {isStatic : Bool} {m : Method} (h : m ∈ r.methods t name isStatic) :
      r.Finds t (.member isStatic) m
  | extension {name : String} {m : Method} (h : m ∈ r.extensions t name) :
      r.Finds t .extension m
  | close {origin : Origin} {m : Method} (h : r.Finds t origin m) (args : List TypeRef) :
      r.Finds t origin (m.close args)

namespace Finds

variable {t : TypeRef} {origin : Origin} {m : Method}

/-- What is found as a member is static just if it was asked for so. -/
theorem isStatic {b : Bool} (h : r.Finds t (.member b) m) : m.isStatic = b := by
  generalize horigin : Origin.member b = o at h
  induction h with
  | member h =>
      cases horigin
      exact (declares_of_mem_methods h).2
  | extension h => cases horigin
  | close _ args ih => exact ih horigin

/-- What is found as an extension is declared as one. -/
theorem isExtension (h : r.Finds t .extension m) : m.isExtension = true := by
  generalize horigin : Origin.extension = o at h
  induction h with
  | member h => cases horigin
  | extension h => exact (declares_of_mem_extensions h).2
  | close _ args ih => exact ih horigin

end Finds

end Registry

/-! ## §3. What declarations promise. -/

/-- Only an array has elements. -/
theorem TypeRef.eq_array_of_element? {t element : TypeRef} (h : t.element? = some element) :
    t = .array element := by
  unfold element? at h
  split at h
  · cases h
    rfl
  · cases h

namespace Method

/-- A variadic parameter has the array type of its tail. -/
def ArrayTails (m : Method) : Prop :=
  ∀ p ∈ m.params, p.variadic = true → p.type.element?.isSome = true

/-- An extension method stands in a class of static members. -/
def StaticExtension (m : Method) : Prop := m.isExtension = true → m.isStatic = true

instance : DecidablePred ArrayTails := fun m =>
  inferInstanceAs (Decidable (∀ p ∈ m.params, p.variadic = true → p.type.element?.isSome = true))

instance : DecidablePred StaticExtension := fun m =>
  inferInstanceAs (Decidable (m.isExtension = true → m.isStatic = true))

/-- Replacing generic parameters leaves an array type an array type. -/
theorem arrayTails_substitute {params : List Parameter} {owner : ParamOwner}
    {args : List TypeRef}
    (h : ∀ p ∈ params, p.variadic = true → p.type.element?.isSome = true) :
    ∀ p ∈ params.map (Parameter.substitute owner args), p.variadic = true →
      p.type.element?.isSome = true := by
  intro p hp hvariadic
  obtain ⟨q, hq, rfl⟩ := List.mem_map.1 hp
  obtain ⟨element, helement⟩ := Option.isSome_iff_exists.1 (h q hq hvariadic)
  have harray : q.type = .array element := TypeRef.eq_array_of_element? helement
  rw [Parameter.substitute, harray, TypeRef.substitute]
  rfl

theorem ArrayTails.instantiate {m : Method} (h : m.ArrayTails) (t : TypeRef) :
    (m.instantiate t).ArrayTails := by
  unfold Method.instantiate
  simp only
  split
  · exact h
  · exact arrayTails_substitute h

theorem StaticExtension.instantiate {m : Method} (h : m.StaticExtension) (t : TypeRef) :
    (m.instantiate t).StaticExtension := by
  unfold Method.instantiate
  simp only
  split
  · exact h
  · exact h

end Method

namespace TypeEntry

/-- All methods of the entry have the property. -/
def Promises (e : TypeEntry) (P : Method → Prop) : Prop :=
  ∀ m ∈ e.members.filterMap Member.method?, P m

instance {P : Method → Prop} [DecidablePred P] (e : TypeEntry) : Decidable (e.Promises P) :=
  inferInstanceAs (Decidable (∀ m ∈ e.members.filterMap Member.method?, P m))

end TypeEntry

namespace Registry

/-- All declared methods have the property. -/
def Promises (r : Registry) (P : Method → Prop) : Prop := ∀ e ∈ r.entries, e.Promises P

instance {P : Method → Prop} [DecidablePred P] (r : Registry) : Decidable (r.Promises P) :=
  inferInstanceAs (Decidable (∀ e ∈ r.entries, e.Promises P))

variable {r : Registry} {m : Method}

/-- **What is promised of declarations holds of answers**, if it does not depend on
the generic parameters. -/
theorem Declares.of_promises {P : Method → Prop} (h : r.Declares m) (hr : r.Promises P)
    (hinstantiate : ∀ m t, P m → P (m.instantiate t))
    (hclose : ∀ m args, P m → P (m.close args)) : P m := by
  induction h with
  | member entry member => exact hr _ entry _ (List.mem_filterMap.2 ⟨_, member, rfl⟩)
  | instantiate _ t ih => exact hinstantiate _ t ih
  | close _ args ih => exact hclose _ args ih

end Registry

/-! ## §4. Declarations keep their promises. -/

namespace TypeEntry

variable {P : Method → Prop} {e : TypeEntry}

/-- A type to which one declaration after the other was added. -/
inductive Made : TypeEntry → Prop where
  | declare (name moduleName : String) : Made (.declare name moduleName)
  | flags {e : TypeEntry} (h : Made e) (flags : TypeFlags) : Made (e.withFlags flags)
  | generic {e : TypeEntry} (h : Made e) (params : List String) : Made (e.generic params)
  | derives {e : TypeEntry} (h : Made e) (base : TypeRef) : Made (e.derives base)
  | property {e : TypeEntry} (h : Made e) (kind : PropertyKind) (name : String)
      (type : TypeRef) : Made (e.addProperty kind name type)
  | nested {e : TypeEntry} (h : Made e) (name : String) : Made (e.addNested name)
  | method {e : TypeEntry} (h : Made e) (d : MethodDecl) : Made (e.addMethod d)
  | extension {e : TypeEntry} (h : Made e) (d : MethodDecl) : Made (e.addExtension d)
  | indexer {e : TypeEntry} (h : Made e) (param : Parameter) (type : TypeRef) (writable : Bool) :
      Made (e.addIndexer param type writable)
  | capability {e : TypeEntry} (h : Made e) (name : String) (type : TypeRef)
      (markup : MarkupOptions) : Made (e.addCapability name type markup)

/-- One more member, which keeps the promise if it is a method. -/
theorem Promises.addMember (h : e.Promises P) {x : Member}
    (hx : ∀ m, x.method? = some m → P m) : (e.addMember x).Promises P := by
  intro m hm
  have hmethods : (e.addMember x).members.filterMap Member.method?
      = e.members.filterMap Member.method? ++ [x].filterMap Member.method? :=
    List.filterMap_append
  rw [hmethods] at hm
  rcases List.mem_append.1 hm with hm | hm
  · exact h m hm
  · obtain ⟨y, hy, hym⟩ := List.mem_filterMap.1 hm
    obtain rfl := List.mem_singleton.1 hy
    exact hx m hym

end TypeEntry

namespace Registry

variable {r r' : Registry}

/-- A registry to which one declared type after the other was added. -/
inductive Made : Registry → Prop where
  | empty : Made .empty
  | builtins : Made Builtins.registry
  | register {r r' : Registry} {e : TypeEntry} (h : Made r) (he : e.Made)
      (hr : r.register e = .ok r') : Made r'

/-- **Registration keeps what the registry and the new type promise.** -/
theorem Promises.register {P : Method → Prop} (h : r.Promises P) {e : TypeEntry}
    (he : e.Promises P) (hr : r.register e = .ok r') : r'.Promises P := by
  unfold Registry.register at hr
  split at hr
  · cases hr
  · split at hr <;> cases hr
    intro e' he'
    rcases List.mem_append.1 he' with he' | he'
    · exact h e' he'
    · obtain rfl := List.mem_singleton.1 he'
      exact he

end Registry

end BoundMarkup
