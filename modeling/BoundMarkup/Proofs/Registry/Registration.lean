/-
  BoundMarkup.Proofs.Registry.Registration
  ────────────────────────────────────────
  **THE ORDER OF REGISTRATION.**

  Registries agree (`Registry.Agree`) if every question has the same answer in
  both, extension methods up to their order.  All answers come from the levels of
  supertypes, the declarations by identity and by name, and the extension methods
  of a name (`Registry.Agree.of_levels`).

  Types may be registered in any order (`Registry.agree_of_perm`), a base after the
  types that derive from it too: the edges of a type come from its own declaration
  alone, so their order is the order of declaration.
-/
import BoundMarkup.Proofs.Registry.Reordering

namespace BoundMarkup.Registry

/-! ## §1. Registries that agree. -/

/-- **Every question has the same answer** in both registries. -/
structure Agree (r r' : Registry) : Prop where
  supertypes : ∀ t, r.supertypes t = r'.supertypes t
  isAssignable : ∀ source target, r.isAssignable source target = r'.isAssignable source target
  members : ∀ t name isStatic, r.members t name isStatic = r'.members t name isStatic
  indexers : ∀ t, r.indexers t = r'.indexers t
  capability : ∀ t name, r.capability? t name = r'.capability? t name
  capabilities : ∀ t, r.capabilities t = r'.capabilities t
  resolve : ∀ name spaces, r.resolve? name spaces = r'.resolve? name spaces
  moduleOf : ∀ t, r.moduleOf? t = r'.moduleOf? t
  isValueType : ∀ t, r.isValueType t = r'.isValueType t
  extensions : ∀ t name, (r.extensions t name).Perm (r'.extensions t name)

variable {r r' : Registry}

theorem entryOf?_congr (hentry : r.find? = r'.find?) : r.entryOf? = r'.entryOf? := by
  funext t
  unfold entryOf?
  rw [hentry]

theorem visibleMembers_congr (hentry : r.entryOf? = r'.entryOf?) (name : String)
    (isStatic : Bool) : ∀ (levels : List (List TypeRef)) (hidden : Hiding),
      r.visibleMembers name isStatic hidden levels = r'.visibleMembers name isStatic hidden levels
  | [], _ => rfl
  | level :: levels, hidden => by
      have hdeclared : r.declaredMembers name isStatic = r'.declaredMembers name isStatic := by
        funext t
        unfold declaredMembers
        rw [hentry]
      rw [visibleMembers, visibleMembers, hdeclared]
      simp only [visibleMembers_congr hentry name isStatic levels]

theorem visibleIndexers_congr (hentry : r.entryOf? = r'.entryOf?) :
    ∀ (levels : List (List TypeRef)) (found : List Indexer),
      r.visibleIndexers found levels = r'.visibleIndexers found levels
  | [], _ => rfl
  | level :: levels, found => by
      have hdeclared : r.declaredIndexers = r'.declaredIndexers := by
        funext t
        unfold declaredIndexers
        rw [hentry]
      rw [visibleIndexers, visibleIndexers, hdeclared]
      exact visibleIndexers_congr hentry levels _

theorem moduleOf?_congr (hentry : r.entryOf? = r'.entryOf?) :
    ∀ t : TypeRef, r.moduleOf? t = r'.moduleOf? t
  | .array inner => moduleOf?_congr hentry inner
  | .nullable inner => moduleOf?_congr hentry inner
  | .named name args => by
      unfold moduleOf?
      rw [hentry]
  | .unknown => rfl
  | .void => rfl
  | .null => rfl
  | .param _ _ _ => rfl

/-- **What answers come from**: the levels, the declarations by identity and by name, and the
extension methods of a name. -/
theorem Agree.of_levels (hlevels : r.levels = r'.levels) (hfind : r.find? = r'.find?)
    (hname : r.findName? = r'.findName?)
    (hextensions : ∀ name, (r.extensionsNamed name).Perm (r'.extensionsNamed name)) :
    r.Agree r' := by
  have hentry := entryOf?_congr hfind
  have hsupertypes : r.supertypes = r'.supertypes := by
    funext t
    unfold Registry.supertypes
    rw [hlevels]
  have hlineage : r.lineage = r'.lineage := by
    funext t
    unfold lineage
    rw [hlevels]
  have hdeclared : r.declaredCapabilities = r'.declaredCapabilities := by
    funext t
    unfold declaredCapabilities
    rw [hentry]
  constructor
  case supertypes => exact congrFun hsupertypes
  case isAssignable =>
    intro source target
    unfold Registry.isAssignable
    rw [hsupertypes]
  case members =>
    intro t name isStatic
    unfold Registry.members
    rw [hlevels]
    simp only [visibleMembers_congr hentry]
  case indexers =>
    intro t
    unfold Registry.indexers
    rw [hlevels, visibleIndexers_congr hentry]
  case capability =>
    intro t name
    unfold capability?
    rw [hlineage, hentry]
  case capabilities =>
    intro t
    unfold Registry.capabilities
    rw [hlineage, hdeclared]
  case resolve =>
    intro name spaces
    unfold resolve?
    rw [hname]
  case moduleOf => exact moduleOf?_congr hentry
  case isValueType =>
    intro t
    unfold Registry.isValueType
    rw [hentry]
  case extensions =>
    intro t name
    unfold Registry.extensions
    rw [hlineage]
    exact (hextensions name).filter _

/-! ## §2. Declarations by name. -/

/-- Declarations of different names are found by name in any order. -/
theorem findName?_eq_of_perm {es es' : List TypeEntry} (h : es.Perm es')
    (hnames : (es.map TypeEntry.name).Nodup) (name : String) :
    es.find? (fun e => e.name == name) = es'.find? (fun e => e.name == name) := by
  induction h with
  | nil => rfl
  | @cons e es es' _ ih =>
      rw [List.find?_cons, List.find?_cons, ih (List.nodup_cons.1 hnames).2]
  | @swap d e es =>
      obtain ⟨hne, -⟩ := List.nodup_cons.1 hnames
      simp only [List.find?_cons]
      by_cases hd : d.name = name
      · by_cases he : e.name = name
        · refine absurd ?_ hne
          rw [List.map_cons, he, ← hd]
          exact List.mem_cons_self
        · rw [beq_eq_false_iff_ne.2 he]
      · rw [beq_eq_false_iff_ne.2 hd]
  | @trans es mid es' h _ ih ih' =>
      exact (ih hnames).trans (ih' ((h.map TypeEntry.name).nodup_iff.1 hnames))

/-! ## §3. Registration in any order. -/

/-- Register one type after the other.  A type that is refused leaves the registry as it is. -/
def registerEach (r : Registry) (es : List TypeEntry) : Registry :=
  es.foldl (fun r e => (r.register e).toOption.getD r) r

/-- The type is not refused: its identity is not taken, and it is right by itself. -/
def accepts (r : Registry) (e : TypeEntry) : Bool :=
  (r.find? e.id).isNone && e.fault?.isNone

theorem accepts_iff {e : TypeEntry} :
    r.accepts e = true ↔ r.find? e.id = none ∧ e.fault? = none := by
  unfold accepts
  rw [Bool.and_eq_true, Option.isNone_iff_eq_none, Option.isNone_iff_eq_none]

theorem register_of_accepts {e : TypeEntry} (h : r.accepts e = true) :
    r.register e = .ok (r.insert e) :=
  register_eq_ok_iff.2 ⟨(accepts_iff.1 h).1, (accepts_iff.1 h).2, rfl⟩

theorem register_of_not_accepts {e : TypeEntry} (h : r.accepts e = false) :
    (r.register e).toOption = none := by
  cases hr : r.register e with
  | error fault => rfl
  | ok r' =>
      obtain ⟨hfind, hfault, -⟩ := register_eq_ok_iff.1 hr
      rw [accepts_iff.2 ⟨hfind, hfault⟩] at h
      cases h

/-- **Registration adds the types that are accepted at first**: a type of another identity does
not change that. -/
theorem registerEach_eq_insertAll : ∀ {es : List TypeEntry} (r : Registry),
    (es.map TypeEntry.id).Nodup → r.registerEach es = r.insertAll (es.filter r.accepts)
  | [], r, _ => by
      unfold insertAll
      rw [List.filter_nil, List.append_nil, List.flatMap_nil, List.append_nil]
      rfl
  | e :: es, r, hids => by
      obtain ⟨hfresh, hids⟩ := List.nodup_cons.1 hids
      have hstep : r.registerEach (e :: es)
          = ((r.register e).toOption.getD r).registerEach es := rfl
      rw [hstep]
      cases haccepts : r.accepts e with
      | false =>
          rw [register_of_not_accepts haccepts, List.filter_cons_of_neg (by rw [haccepts]; nofun)]
          exact registerEach_eq_insertAll r hids
      | true =>
          have hsame : es.filter (r.insert e).accepts = es.filter r.accepts := by
            refine List.filter_congr fun d hd => ?_
            have hne : e.id ≠ d.id := fun heq => hfresh (heq ▸ List.mem_map_of_mem hd)
            unfold accepts
            rw [insert_eq_insertAll, find?_insertAll, List.find?_singleton,
              beq_eq_false_iff_ne.2 hne, if_neg Bool.false_ne_true, Option.or_none]
          rw [register_of_accepts haccepts, List.filter_cons_of_pos haccepts, ← insertAll_cons,
            ← hsame]
          exact registerEach_eq_insertAll (r.insert e) hids

/-- **Types may be registered in any order**: if no two have the same name or identity, every
question has the same answer afterwards; and if no identity was taken before, none is refused. -/
theorem agree_of_perm {base : Registry} {es es' : List TypeEntry} (reordered : es.Perm es')
    (ids : (es.map TypeEntry.id).Nodup) (names : (es.map TypeEntry.name).Nodup)
    (valid : ∀ e ∈ es, e.fault? = none) :
    (base.registerEach es).Agree (base.registerEach es')
      ∧ ((∀ e ∈ es, base.find? e.id = none) →
        base.registerAll es = .ok (base.registerEach es)
          ∧ base.registerAll es' = .ok (base.registerEach es')) := by
  have ids' : (es'.map TypeEntry.id).Nodup := (reordered.map TypeEntry.id).nodup_iff.1 ids
  refine ⟨?_, fun fresh => ?_⟩
  · rw [registerEach_eq_insertAll base ids, registerEach_eq_insertAll base ids']
    have hperm : (es.filter base.accepts).Perm (es'.filter base.accepts) := reordered.filter _
    have hsublist : (es.filter base.accepts).Sublist es := List.filter_sublist
    have hids := (hsublist.map TypeEntry.id).nodup ids
    have hids' := (hperm.map TypeEntry.id).nodup_iff.1 hids
    have hnames := (hsublist.map TypeEntry.name).nodup names
    refine Agree.of_levels (levels_insertAll_congr (directBases_insertAll_congr hids hids'
      fun id => ?_)) ?_ ?_ fun name => ?_
    · rw [TypeEntry.find?_eq_of_perm hperm hids]
    · funext id
      rw [find?_insertAll, find?_insertAll, TypeEntry.find?_eq_of_perm hperm hids]
    · funext name
      unfold findName? insertAll
      rw [List.find?_append, List.find?_append, findName?_eq_of_perm hperm hnames]
    · unfold extensionsNamed insertAll
      rw [List.flatMap_append, List.flatMap_append]
      exact (hperm.flatMap_right _).append_left _
  · have haccepts : ∀ e ∈ es, base.accepts e = true :=
      fun e he => accepts_iff.2 ⟨fresh e he, valid e he⟩
    have haccepts' : ∀ e ∈ es', base.accepts e = true :=
      fun e he => haccepts e (reordered.mem_iff.2 he)
    rw [registerEach_eq_insertAll base ids, registerEach_eq_insertAll base ids',
      List.filter_eq_self.2 haccepts, List.filter_eq_self.2 haccepts']
    exact ⟨registerAll_eq_ok_iff.2 ⟨⟨ids, fresh, valid⟩, rfl⟩,
      registerAll_eq_ok_iff.2 ⟨⟨ids', fun e he => (accepts_iff.1 (haccepts' e he)).1,
        fun e he => (accepts_iff.1 (haccepts' e he)).2⟩, rfl⟩⟩

/-- A widget with a method. -/
def widget : TypeEntry :=
  (TypeEntry.declare "App.Widget" "App").addMethod
    (.instance_ "Show" .string [.required "depth" .int32])

/-- A type that derives from it. -/
def gauge : TypeEntry :=
  ((TypeEntry.declare "App.Gauge" "App").derives (.simple "App.Widget")).addProperty
    .property "Value" .double

/-- A base may come after what derives from it. -/
theorem agree_of_perm_gauge : [gauge, widget].Perm [widget, gauge]
    ∧ ([gauge, widget].map TypeEntry.id).Nodup ∧ ([gauge, widget].map TypeEntry.name).Nodup
    ∧ (∀ e ∈ [gauge, widget], e.fault? = none)
    ∧ (Builtins.registry.registerEach [gauge, widget]).Agree
      (Builtins.registry.registerEach [widget, gauge])
    ∧ (∀ e ∈ [gauge, widget], Builtins.registry.find? e.id = none)
    ∧ Builtins.registry.registerAll [gauge, widget]
      = .ok (Builtins.registry.registerEach [gauge, widget]) := by
  have ids : ([gauge, widget].map TypeEntry.id).Nodup := by decide +kernel
  have names : ([gauge, widget].map TypeEntry.name).Nodup := by decide +kernel
  have valid : ∀ e ∈ [gauge, widget], e.fault? = none := by decide +kernel
  have fresh : ∀ e ∈ [gauge, widget], Builtins.registry.find? e.id = none := by decide +kernel
  obtain ⟨hagree, hregistered⟩ :=
    agree_of_perm (List.Perm.swap widget gauge []) ids names valid
  exact ⟨.swap widget gauge [], ids, names, valid, hagree, fresh, (hregistered fresh).1⟩

end BoundMarkup.Registry
