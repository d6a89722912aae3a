/-
  BoundMarkup.Proofs.Registry.Closing
  ───────────────────────────────────
  **ANSWERS WITHOUT OPEN PARAMETERS.**

  What a declaration says of its generic parameters is closed over the arguments
  of the type that is asked about.  That leaves nothing open where declarations
  mention parameters of their own only (`Registry.MentionsOwn`), and where no base
  is without arguments (`Registry.BasesApplied`): then every type of the lineage
  is constructed out of closed arguments (`Registry.Constructed.of_mem_lineage`).

  Capability properties are answered as they were declared.  They are closed just
  if no type declares an open one (`Registry.closed_answers_iff`); a generic type
  may do so (`Registry.not_isClosed_shelf`).
-/
import BoundMarkup.Proofs.Registry.Assignability
import BoundMarkup.Proofs.Registry.Capabilities

namespace BoundMarkup

/-! ## §1. Closed types. -/

namespace TypeRef

/-- No parameter of a containing type is left open. -/
def IsClosed (t : TypeRef) : Prop := t.mentions .type = false

instance : DecidablePred IsClosed := fun t => inferInstanceAs (Decidable (t.mentions .type = false))

/-- The parameters that are open once an argument was put in the place of one. -/
def openAfter (args : List TypeRef) (i : Nat) : List Nat := (args[i]?).elim [i] typeIndices

variable {t : TypeRef} {args : List TypeRef}

mutual

theorem isClosed_iff : ∀ {t : TypeRef}, t.IsClosed ↔ t.typeIndices = []
  | param .type _ _ => iff_of_false nofun nofun
  | param .method _ _ => iff_of_true rfl rfl
  | array q => isClosed_iff (t := q)
  | nullable q => isClosed_iff (t := q)
  | named _ _ => mentionsAny_eq_false_iff
  | unknown => iff_of_true rfl rfl
  | void => iff_of_true rfl rfl
  | null => iff_of_true rfl rfl

theorem mentionsAny_eq_false_iff : ∀ {ts : List TypeRef},
    mentionsAny .type ts = false ↔ typeIndicesAll ts = []
  | [] => iff_of_true rfl rfl
  | t :: ts => by
      rw [mentionsAny, typeIndicesAll, Bool.or_eq_false_iff, List.append_eq_nil_iff]
      exact and_congr isClosed_iff mentionsAny_eq_false_iff

end

mutual

/-- **Each parameter leaves open what its argument does**, or itself if it has none. -/
theorem typeIndices_substitute : ∀ t : TypeRef,
    (t.substitute .type args).typeIndices = t.typeIndices.flatMap (openAfter args)
  | param .type i n => by
      rw [substitute, if_pos rfl, typeIndices, List.flatMap_singleton, openAfter]
      cases args[i]? <;> rfl
  | param .method i n => rfl
  | array q => typeIndices_substitute q
  | nullable q => typeIndices_substitute q
  | named _ ps => typeIndicesAll_substituteAll ps
  | unknown => rfl
  | void => rfl
  | null => rfl

theorem typeIndicesAll_substituteAll : ∀ ts : List TypeRef,
    typeIndicesAll (substituteAll .type args ts) = (typeIndicesAll ts).flatMap (openAfter args)
  | [] => rfl
  | t :: ts => by
      rw [substituteAll, typeIndicesAll, typeIndicesAll, List.flatMap_append,
        typeIndices_substitute t, typeIndicesAll_substituteAll ts]

end

mutual

/-- Without arguments nothing is replaced. -/
theorem substitute_nil : ∀ t : TypeRef, t.substitute .type [] = t
  | param .type _ _ => rfl
  | param .method _ _ => rfl
  | array q => congrArg array (substitute_nil q)
  | nullable q => congrArg nullable (substitute_nil q)
  | named name ps => congrArg (named name) (substituteAll_nil ps)
  | unknown => rfl
  | void => rfl
  | null => rfl

theorem substituteAll_nil : ∀ ts : List TypeRef, substituteAll .type [] ts = ts
  | [] => rfl
  | t :: ts => congrArg₂ List.cons (substitute_nil t) (substituteAll_nil ts)

end

/-- **Closed arguments for all parameters** leave a closed type. -/
theorem isClosed_substitute (hargs : ∀ a ∈ args, a.IsClosed)
    (hbound : ∀ i ∈ t.typeIndices, i < args.length) : (t.substitute .type args).IsClosed := by
  rw [isClosed_iff, typeIndices_substitute, List.flatMap_eq_nil_iff]
  intro i hi
  obtain ⟨a, ha⟩ : ∃ a, args[i]? = some a := ⟨_, List.getElem?_eq_getElem (hbound i hi)⟩
  rw [openAfter, ha]
  exact isClosed_iff.1 (hargs a (List.mem_of_getElem? ha))

theorem IsClosed.of_mem_genericArgs (h : t.IsClosed) : ∀ a ∈ t.genericArgs, a.IsClosed := by
  cases t with
  | named name ts =>
      intro a ha
      have hnone : ts.any (mentions .type) = false := (mentionsAny_eq_any .type ts).symm.trans h
      exact Bool.eq_false_iff.2 fun hopen => List.any_eq_false.1 hnone a ha hopen
  | _ => exact nofun

end TypeRef

/-! ## §2. Types in declarations. -/

/-- The types of the parameters and of the result, or the type of the property.  A nested type
has neither. -/
def Member.types : Member → List TypeRef
  | .method m => m.returns :: m.signature
  | .property p => [p.type]
  | .nested _ _ => []

def Indexer.types (i : Indexer) : List TypeRef := [i.param.type, i.type]

/-- **As a member of a constructed type**, a member has its types closed over the arguments. -/
theorem Member.types_instantiate (m : Member) (t : TypeRef) :
    (m.instantiate t).types = m.types.map (TypeRef.substitute .type t.genericArgs) := by
  cases m with
  | method m =>
      show (m.instantiate t).returns :: (m.instantiate t).signature
        = (m.returns :: m.signature).map (TypeRef.substitute .type t.genericArgs)
      unfold Method.instantiate
      simp only
      by_cases hargs : t.genericArgs.isEmpty = true
      · -- The method is left alone, as closing it over no arguments would.
        have hsame : TypeRef.substitute .type [] = id := funext TypeRef.substitute_nil
        rw [if_pos hargs, List.isEmpty_iff.1 hargs, hsame, List.map_id]
      · rw [if_neg hargs]
        simp only [Method.signature, List.map_cons, List.map_map]
        rfl
  | property p => rfl
  | nested name type => rfl

namespace TypeEntry

/-- The types that the declaration is made of. -/
def types (e : TypeEntry) : List TypeRef :=
  e.bases ++ e.members.flatMap Member.types ++ e.indexers.flatMap Indexer.types
    ++ e.capabilities.map Capability.type

variable {e : TypeEntry} {u : TypeRef}

theorem mem_types_of_base (hu : u ∈ e.bases) : u ∈ e.types := by
  unfold types
  simp only [List.mem_append, hu, true_or]

theorem mem_types_of_member {m : Member} (hm : m ∈ e.members) (hu : u ∈ m.types) :
    u ∈ e.types := by
  have hmem : u ∈ e.members.flatMap Member.types := List.mem_flatMap.2 ⟨m, hm, hu⟩
  unfold types
  simp only [List.mem_append, hmem, or_true, true_or]

theorem mem_types_of_indexer {i : Indexer} (hi : i ∈ e.indexers) (hu : u ∈ i.types) :
    u ∈ e.types := by
  have hmem : u ∈ e.indexers.flatMap Indexer.types := List.mem_flatMap.2 ⟨i, hi, hu⟩
  unfold types
  simp only [List.mem_append, hmem, or_true, true_or]

/-- **The declaration mentions generic parameters of its own only.** -/
def MentionsOwn (e : TypeEntry) : Prop :=
  ∀ t ∈ e.types, ∀ i ∈ t.typeIndices, i < e.typeParams.length

instance : DecidablePred MentionsOwn := fun e => inferInstanceAs
  (Decidable (∀ t ∈ e.types, ∀ i ∈ t.typeIndices, i < e.typeParams.length))

end TypeEntry

namespace Registry

open TypeRef (valueless)

/-- So do all declarations. -/
def MentionsOwn (r : Registry) : Prop := ∀ e ∈ r.entries, e.MentionsOwn

instance : DecidablePred MentionsOwn := fun r => inferInstanceAs
  (Decidable (∀ e ∈ r.entries, e.MentionsOwn))

/-- If the type is declared, it has an argument for each generic parameter. -/
def Applied (r : Registry) (t : TypeRef) : Prop :=
  ∀ e ∈ r.entryOf? t, e.typeParams.length ≤ t.genericArgs.length

instance (r : Registry) : DecidablePred r.Applied := fun t => inferInstanceAs
  (Decidable (∀ e ∈ r.entryOf? t, e.typeParams.length ≤ t.genericArgs.length))

/-- What a type may have as a base, by its declaration or by nature. -/
inductive IsBase (r : Registry) : TypeRef → Prop where
  | declared {e : TypeEntry} {base : TypeRef} (entry : e ∈ r.entries) (mem : base ∈ e.bases) :
      r.IsBase base
  | object : r.IsBase .object
  | element (t : TypeRef) : r.IsBase (.enumerable t)

/-- **No base is without arguments** for the parameters of its declaration. -/
def BasesApplied (r : Registry) : Prop := ∀ t, r.IsBase t → r.Applied t

theorem basesApplied_iff {r : Registry} : r.BasesApplied ↔
    (∀ e ∈ r.entries, ∀ base ∈ e.bases, r.Applied base)
      ∧ r.Applied .object ∧ r.Applied (.enumerable .object) := by
  constructor
  · intro h
    exact ⟨fun e he base hbase => h base (.declared he hbase), h _ .object, h _ (.element .object)⟩
  · intro ⟨hdeclared, hobject, helement⟩ t ht
    cases ht with
    | declared entry mem => exact hdeclared _ entry _ mem
    | object => exact hobject
    | element t => exact helement

instance : DecidablePred BasesApplied := fun _ => decidable_of_iff' _ basesApplied_iff

/-- **The type is constructed** out of closed arguments, one for each parameter. -/
structure Constructed (r : Registry) (t : TypeRef) : Prop where
  closed : t.IsClosed
  applied : r.Applied t

variable {r : Registry} {t u : TypeRef}

/-- Closing a type changes neither its declaration nor the number of its arguments. -/
theorem Applied.substitute (ht : r.Applied t) {id : TypeId} (hid : t.definition? = some id)
    (args : List TypeRef) : r.Applied (t.substitute .type args) := by
  intro d hd
  rw [entryOf?, TypeRef.definition?_substitute hid, ← hid] at hd
  rw [TypeRef.genericArgs_substitute hid, List.length_map]
  exact ht d hd

/-- An edge of the hierarchy is a base of the declaration that is found for it. -/
theorem Reached.exists_entry (reached : r.Reached) : ∀ edge ∈ r.hierarchy.edges,
    ∃ e, r.find? edge.derived = some e ∧ edge.base ∈ e.bases := by
  induction reached with
  | empty => exact nofun
  | builtins =>
      have hall : ∀ edge ∈ Builtins.registry.hierarchy.edges,
          (Builtins.registry.find? edge.derived).any (fun e => decide (edge.base ∈ e.bases))
            = true := by
        decide +kernel
      intro edge hedge
      obtain ⟨e, he, hbase⟩ := (Option.any_eq_true _ _).1 (hall edge hedge)
      exact ⟨e, he, of_decide_eq_true hbase⟩
  | @register r r' e _ hr ih =>
      obtain ⟨hfresh, -, rfl⟩ := register_eq_ok_iff.1 hr
      rw [insert_eq_insertAll]
      intro edge hedge
      rw [find?_insertAll]
      rcases List.mem_append.1 hedge with hedge | hedge
      · obtain ⟨d, hd, hbase⟩ := ih edge hedge
        rw [hd]
        exact ⟨d, rfl, hbase⟩
      · rw [List.flatMap_singleton] at hedge
        obtain ⟨base, hbase, rfl⟩ := List.mem_map.1 hedge
        rw [hfresh, Option.none_or, List.find?_singleton, beq_self_eq_true, if_pos rfl]
        exact ⟨e, rfl, (List.mem_filter.1 hbase).1⟩

section Constructed

variable (reached : r.Reached) (own : r.MentionsOwn) (applied : r.BasesApplied)

include own in
/-- **What a constructed type takes over from its declaration is closed.** -/
theorem Constructed.isClosed_substitute (ht : r.Constructed t) {e : TypeEntry}
    (he : r.entryOf? t = some e) (hu : u ∈ e.types) :
    (u.substitute .type t.genericArgs).IsClosed := by
  refine TypeRef.isClosed_substitute ht.closed.of_mem_genericArgs fun i hi => ?_
  exact Nat.lt_of_lt_of_le (own e (mem_entries_of_entryOf? he) u hu i hi) (ht.applied e he)

include reached own applied in
/-- The direct bases of a constructed type are constructed. -/
theorem Constructed.of_mem_directBases (ht : r.Constructed t)
    (hu : u ∈ r.hierarchy.directBases t) : r.Constructed u := by
  obtain ⟨edge, hedge, hderived, rfl⟩ := Hierarchy.mem_directBases.1 hu
  obtain ⟨e, hfind, hbase⟩ := reached.exists_entry edge hedge
  have he : r.entryOf? t = some e := by
    rw [entryOf?, hderived]
    exact hfind
  obtain ⟨id, hid⟩ := Option.isSome_iff_exists.1 (reached.declared edge hedge)
  have hbases : r.Applied edge.base := applied edge.base (.declared (mem_entries_of_entryOf? he) hbase)
  exact ⟨ht.isClosed_substitute own he (TypeEntry.mem_types_of_base hbase), hbases.substitute hid _⟩

include reached own applied in
/-- So are all supertypes. -/
theorem Constructed.of_mem_above (ht : r.Constructed t) (hu : u ∈ r.hierarchy.above t) :
    r.Constructed u := by
  induction hu with
  | refl => exact ht
  | tail _ hstep ih => exact ih.of_mem_directBases reached own applied hstep

include reached own applied in
theorem Constructed.of_mem_behind (ht : r.Constructed t) (hu : u ∈ (r.behind t).flatten) :
    r.Constructed u := by
  cases t with
  | named name args => exact ht.of_mem_above reached own applied (mem_above_of_mem_behind hu)
  | array q =>
      obtain rfl : u = .enumerable q := List.mem_singleton.1 hu
      refine ⟨?_, applied _ (.element q)⟩
      show (q.mentions .type || false) = false
      rw [Bool.or_false]
      exact ht.closed
  | _ => cases hu

/-- A type of values is the first of its lineage. -/
theorem lineage_eq_cons (hvalue : t ∉ valueless) : r.lineage t = t :: r.supertypes t := by
  have hlevels : ∃ levels, r.levels t = [t] :: levels := by
    rw [levels_eq r hvalue]
    cases hobject : t.isObject with
    | true => exact ⟨_, rfl⟩
    | false =>
        rw [if_neg Bool.false_ne_true, List.map_cons, filter_ne_object hobject,
          List.filter_cons_of_pos rfl]
        exact ⟨_, rfl⟩
  obtain ⟨levels, hlevels⟩ := hlevels
  unfold lineage supertypes
  rw [hlevels]
  rfl

theorem lineage_of_valueless (hvalueless : t ∈ valueless) : r.lineage t = [] := by
  simp only [valueless, List.mem_cons, List.not_mem_nil, or_false] at hvalueless
  rcases hvalueless with rfl | rfl | rfl <;> rfl

include reached own applied in
/-- **The whole lineage of a constructed type is constructed.** -/
theorem Constructed.of_mem_lineage (ht : r.Constructed t) (hu : u ∈ r.lineage t) :
    r.Constructed u := by
  by_cases hvalue : t ∈ valueless
  · rw [lineage_of_valueless hvalue] at hu
    cases hu
  · rw [lineage_eq_cons hvalue, List.mem_cons, mem_supertypes r hvalue] at hu
    rcases hu with rfl | hu | ⟨-, rfl⟩
    · exact ht
    · exact ht.of_mem_behind reached own applied hu
    · exact ⟨rfl, applied _ .object⟩

end Constructed

/-! ## §4. Closed answers. -/

section Answers

variable (reached : r.Reached) (own : r.MentionsOwn) (applied : r.BasesApplied)

include own in
/-- The members that a constructed type declares have closed types. -/
theorem Constructed.isClosed_declaredMembers (ht : r.Constructed t) {name : String}
    {isStatic : Bool} {m : Member} (hm : m ∈ r.declaredMembers name isStatic t) :
    ∀ u ∈ m.types, u.IsClosed := by
  unfold declaredMembers at hm
  cases he : r.entryOf? t with
  | none =>
      rw [he] at hm
      cases hm
  | some e =>
      rw [he] at hm
      obtain ⟨d, hd, rfl⟩ := List.mem_map.1 hm
      have hmember : d ∈ e.members := List.mem_of_mem_filter (List.mem_of_mem_filter hd)
      rw [Member.types_instantiate, List.forall_mem_map]
      intro u hu
      exact ht.isClosed_substitute own he (TypeEntry.mem_types_of_member hmember hu)

include own in
/-- So have its indexers. -/
theorem Constructed.isClosed_declaredIndexers (ht : r.Constructed t) {i : Indexer}
    (hi : i ∈ r.declaredIndexers t) : ∀ u ∈ i.types, u.IsClosed := by
  unfold declaredIndexers at hi
  cases he : r.entryOf? t with
  | none =>
      rw [he] at hi
      cases hi
  | some e =>
      rw [he] at hi
      obtain ⟨d, hd, rfl⟩ := List.mem_map.1 hi
      show ∀ u ∈ d.types.map (TypeRef.substitute .type t.genericArgs), u.IsClosed
      rw [List.forall_mem_map]
      intro u hu
      exact ht.isClosed_substitute own he (TypeEntry.mem_types_of_indexer hd hu)

/-- What a closed type has by nature has closed types. -/
theorem isClosed_intrinsic? (ht : t.IsClosed) {name : String} {m : Member}
    (hm : intrinsic? t name = some m) : ∀ u ∈ m.types, u.IsClosed := by
  unfold intrinsic? at hm
  simp only at hm
  split at hm
  · split at hm
    · cases hm
      exact List.forall_mem_singleton.2 rfl
    · cases hm
  · split at hm
    · cases hm
      exact List.forall_mem_singleton.2 rfl
    · split at hm
      · cases hm
        exact List.forall_mem_singleton.2 ht
      · cases hm
  · cases hm

/-- An indexer that some level shows is declared by a type of that level. -/
theorem mem_declared_of_mem_visibleIndexers {i : Indexer} :
    ∀ (levels : List (List TypeRef)) (found : List Indexer),
      i ∈ r.visibleIndexers found levels →
        i ∈ found ∨ ∃ level ∈ levels, ∃ t ∈ level, i ∈ r.declaredIndexers t
  | [], _, h => .inl h
  | level :: levels, found, h => by
      rcases mem_declared_of_mem_visibleIndexers levels _ h with h | ⟨level', hlevel, hi⟩
      · rcases List.mem_append.1 h with h | h
        · exact .inl h
        · obtain ⟨t, ht, hi⟩ := List.mem_flatMap.1 (List.mem_of_mem_filter h)
          exact .inr ⟨level, List.mem_cons_self, t, ht, hi⟩
      · exact .inr ⟨level', List.mem_cons_of_mem level hlevel, hi⟩

include reached own applied in
/-- What stands on the levels of a constructed type is constructed. -/
theorem Constructed.of_mem_level (ht : r.Constructed t) {level : List TypeRef}
    (hlevel : level ∈ r.levels t) (hu : u ∈ level) : r.Constructed u :=
  ht.of_mem_lineage reached own applied (List.mem_flatten.2 ⟨level, hlevel, hu⟩)

include reached own applied in
theorem Constructed.isClosed_supertypes (ht : r.Constructed t) :
    ∀ u ∈ r.supertypes t, u.IsClosed := by
  intro u hu
  obtain ⟨level, hlevel, hu⟩ := List.mem_flatten.1 hu
  exact (ht.of_mem_level reached own applied (List.mem_of_mem_drop hlevel) hu).closed

include reached own applied in
theorem Constructed.isClosed_members (ht : r.Constructed t) (name : String) (isStatic : Bool) :
    ∀ m ∈ r.members t name isStatic, ∀ u ∈ m.types, u.IsClosed := by
  intro m hm
  rcases List.mem_append.1 hm with hm | hm
  · by_cases hstatic : isStatic = true
    · rw [if_pos hstatic] at hm
      cases hm
    · rw [if_neg hstatic] at hm
      exact isClosed_intrinsic? ht.closed (Option.mem_toList.1 hm)
  · obtain ⟨level, hlevel, u, hu, hm⟩ := mem_declared_of_mem_visibleMembers _ _ hm
    exact (ht.of_mem_level reached own applied hlevel hu).isClosed_declaredMembers own hm

include reached own applied in
theorem Constructed.isClosed_indexers (ht : r.Constructed t) :
    ∀ i ∈ r.indexers t, ∀ u ∈ i.types, u.IsClosed := by
  intro i hi
  obtain ⟨level, hlevel, u, hu, hi⟩ :=
    (mem_declared_of_mem_visibleIndexers _ _ hi).resolve_left List.not_mem_nil
  exact (ht.of_mem_level reached own applied hlevel hu).isClosed_declaredIndexers own hi

/-- A type comes first in its lineage, so the capability properties that it declares itself are
answered. -/
theorem mem_capabilities_of_declared {name : String} {c : Capability}
    (hc : r.declaredCapability? t name = some c) : c ∈ r.capabilities t := by
  have hvalue : t ∉ valueless := by
    intro hvalueless
    rw [declaredCapability?, entryOf?, TypeRef.definition?_of_valueless hvalueless] at hc
    cases hc
  obtain ⟨e, -, hfind⟩ := Option.bind_eq_some_iff.1 hc
  have hname : c.name = name :=
    beq_iff_eq.1 (List.find?_some (p := fun d : Capability => d.name == name) hfind)
  rw [mem_capabilities, lineage_eq_cons hvalue, List.findSome?_cons, hname, hc]

include reached own applied in
/-- **Which answers are closed.**  The supertypes of a constructed type, its members and its
indexers are.  So are the capability properties of all constructed types just if none of them
is declared with an open type. -/
theorem closed_answers_iff :
    (∀ t, r.Constructed t →
        (∀ u ∈ r.supertypes t, u.IsClosed)
        ∧ (∀ name isStatic, ∀ m ∈ r.members t name isStatic, ∀ u ∈ m.types, u.IsClosed)
        ∧ ∀ i ∈ r.indexers t, ∀ u ∈ i.types, u.IsClosed)
      ∧ ((∀ t, r.Constructed t →
          (∀ name, ∀ c ∈ r.capability? t name, c.type.IsClosed)
          ∧ ∀ c ∈ r.capabilities t, c.type.IsClosed)
        ↔ ∀ t, r.Constructed t → ∀ name, ∀ c ∈ r.declaredCapability? t name, c.type.IsClosed) := by
  refine ⟨fun t ht => ⟨ht.isClosed_supertypes reached own applied,
    ht.isClosed_members reached own applied, ht.isClosed_indexers reached own applied⟩, ?_, ?_⟩
  · intro hclosed t ht name c hc
    exact (hclosed t ht).2 c (mem_capabilities_of_declared hc)
  · -- Whatever is answered, a constructed type of the lineage declares it.
    intro hdeclared t ht
    constructor
    · intro name c hc
      obtain ⟨u, hu, hc⟩ := exists_of_capability?_eq_some hc
      exact hdeclared u (ht.of_mem_lineage reached own applied hu) name c hc
    · intro c hc
      obtain ⟨u, hu, hc⟩ := List.exists_of_findSome?_eq_some (mem_capabilities.1 hc)
      exact hdeclared u (ht.of_mem_lineage reached own applied hu) c.name c hc

end Answers

/-! ## §5. Open answers. -/

def shelfName : String := withArity "App.Shelf" 1

/-- A generic type with a property and a capability property of its parameter. -/
def shelfEntry : TypeEntry :=
  (((TypeEntry.declare shelfName "App").generic ["T"]).addProperty .readonly "Item"
    (.typeParam 0 "T")).addCapability "Value" (.typeParam 0 "T") .standard

def shelfTypes : Registry := Builtins.registry.insert shelfEntry

theorem register_shelf : Builtins.registry.register shelfEntry = .ok shelfTypes :=
  register_eq_ok_iff.2 ⟨by decide +kernel, by decide +kernel, rfl⟩

theorem closed_answers_iff_shelf : shelfTypes.Reached ∧ shelfTypes.MentionsOwn
    ∧ shelfTypes.BasesApplied ∧ shelfTypes.Constructed (.named shelfName [.int32])
    ∧ ∀ m ∈ shelfTypes.members (.named shelfName [.int32]) "Item" false,
      ∀ u ∈ m.types, u.IsClosed := by
  have reached : shelfTypes.Reached := .register .builtins register_shelf
  have own : shelfTypes.MentionsOwn := by decide +kernel
  have applied : shelfTypes.BasesApplied := by decide +kernel
  have ht : shelfTypes.Constructed (.named shelfName [.int32]) :=
    ⟨by decide +kernel, by decide +kernel⟩
  exact ⟨reached, own, applied, ht,
    ((closed_answers_iff reached own applied).1 _ ht).2.1 "Item" false⟩

/-- **The capability property of `Shelf<int>` is of the open type `T`**, while its ordinary
property of the same type is closed. -/
theorem not_isClosed_shelf : shelfTypes.Reached ∧ shelfTypes.MentionsOwn
    ∧ shelfTypes.BasesApplied ∧ shelfTypes.Constructed (.named shelfName [.int32])
    ∧ (∃ c ∈ shelfTypes.capability? (.named shelfName [.int32]) "Value", ¬ c.type.IsClosed)
    ∧ ∃ c ∈ shelfTypes.capabilities (.named shelfName [.int32]), ¬ c.type.IsClosed := by
  let value : Capability := ⟨"Value", .typeParam 0 "T", shelfEntry.selfType, .standard, none⟩
  have hopen : ¬ value.type.IsClosed := by decide
  have hanswer : shelfTypes.capability? (.named shelfName [.int32]) "Value" = some value := by
    decide +kernel
  have hlisted : value ∈ shelfTypes.capabilities (.named shelfName [.int32]) := by
    decide +kernel
  exact ⟨.register .builtins register_shelf, by decide +kernel, by decide +kernel,
    ⟨by decide +kernel, by decide +kernel⟩, ⟨value, hanswer, hopen⟩, value, hlisted, hopen⟩

/-- A type that derives from the generic one without giving it an argument. -/
def crateEntry : TypeEntry := (TypeEntry.declare "App.Crate" "App").derives (.simple shelfName)

def crateTypes : Registry := shelfTypes.insert crateEntry

/-- **A base without arguments is accepted**, and leaves the members that come from it open. -/
theorem not_isClosed_crate : shelfTypes.register crateEntry = .ok crateTypes
    ∧ crateTypes.MentionsOwn ∧ crateTypes.Constructed (.simple "App.Crate")
    ∧ ∃ m ∈ crateTypes.members (.simple "App.Crate") "Item" false,
      ∃ u ∈ m.types, ¬ u.IsClosed := by
  let item : Member := .property
    ⟨"Item", .typeParam 0 "T", .simple shelfName, false, false, false⟩
  have hitem : item ∈ crateTypes.members (.simple "App.Crate") "Item" false := by
    decide +kernel
  exact ⟨register_eq_ok_iff.2 ⟨by decide +kernel, by decide +kernel, rfl⟩, by decide +kernel,
    ⟨by decide +kernel, by decide +kernel⟩, item, hitem, _, List.mem_cons_self, by decide⟩

end Registry

end BoundMarkup
