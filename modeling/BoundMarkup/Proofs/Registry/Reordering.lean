/-
  BoundMarkup.Proofs.Registry.Reordering
  ──────────────────────────────────────
  **THE ORDER OF DECLARATIONS.**

  Registries are alike (`Registry.Alike`) if all types have the same supertypes,
  declarations differ at most in the order of their members, and the extension
  methods of a name at most in their order.  What alike registries answer differs
  at most in order as well.

  Registering types in another order, each with its members in another order,
  gives a registry that is alike (`Registry.alike_of_rearranged`): every type has
  its own edges in the hierarchy, and is found by its own identity.
-/
import BoundMarkup.Proofs.Registry.Declared
import BoundMarkup.Proofs.Steps
import Mathlib.Data.List.Forall2
import Mathlib.Data.List.Nodup
import Mathlib.Data.List.Perm.Basic

namespace BoundMarkup

/-! ## §1. Lists without repetitions. -/

namespace Hierarchy

variable {α : Type} [DecidableEq α]

theorem nodup_foldl_distinct (xs : List α) : ∀ (seen : List α), seen.Nodup →
    (xs.foldl (fun seen x => if x ∈ seen then seen else seen ++ [x]) seen).Nodup := by
  induction xs with
  | nil => exact fun seen h => h
  | cons y ys ih =>
      intro seen h
      rw [List.foldl_cons]
      by_cases hy : y ∈ seen
      · rw [if_pos hy]
        exact ih seen h
      · rw [if_neg hy]
        exact ih _ (List.nodup_append.2
          ⟨h, List.nodup_singleton y, fun a ha b hb => by
            rw [List.mem_singleton.1 hb]
            exact ne_of_mem_of_not_mem ha hy⟩)

/-- Repetitions are dropped whatever their order. -/
theorem perm_distinct {xs ys : List α} (h : xs.Perm ys) : (distinct xs).Perm (distinct ys) := by
  refine (List.perm_ext_iff_of_nodup (nodup_foldl_distinct xs [] List.nodup_nil)
    (nodup_foldl_distinct ys [] List.nodup_nil)).2 fun x => ?_
  exact mem_distinct.trans (h.mem_iff.trans mem_distinct.symm)

/-- **Levels depend on the direct bases alone**, and on how far a search may go. -/
theorem levelsFrom_congr {h h' : Hierarchy} (hbases : h.directBases = h'.directBases) :
    ∀ (depth : Nat) (seen level : List TypeRef),
      h.levelsFrom depth seen level = h'.levelsFrom depth seen level := by
  have hnext : h.nextLevel = h'.nextLevel := by
    funext seen level
    unfold nextLevel
    rw [hbases]
  intro depth
  induction depth with
  | zero =>
      intro seen level
      rfl
  | succ depth ih =>
      intro seen level
      unfold levelsFrom
      rw [hnext]
      split
      · rfl
      · rw [ih]

end Hierarchy

/-! ## §2. Declarations. -/

namespace TypeEntry

/-- The same declaration with its members in another order. -/
def Reordered (e e' : TypeEntry) : Prop :=
  ∃ members, e.members.Perm members ∧ e' = { e with members := members }

/-- The same declarations in another order, each possibly with its members in another order. -/
def Rearranged (es es' : List TypeEntry) : Prop :=
  ∃ mid, List.Forall₂ Reordered es mid ∧ mid.Perm es'

/-- The edges that the declaration adds to the hierarchy. -/
def edges (e : TypeEntry) : List BaseEdge :=
  (e.bases.filter (fun base => base.definition?.isSome)).map (fun base => ⟨e.id, base⟩)

variable {e e' : TypeEntry}

theorem Reordered.refl (e : TypeEntry) : e.Reordered e := ⟨e.members, .refl _, rfl⟩

theorem Reordered.id_eq (h : e.Reordered e') : e.id = e'.id := by
  obtain ⟨members, -, rfl⟩ := h
  rfl

theorem Reordered.edges_eq (h : e.Reordered e') : e.edges = e'.edges := by
  obtain ⟨members, -, rfl⟩ := h
  rfl

theorem Reordered.flags_eq (h : e.Reordered e') : e.flags = e'.flags := by
  obtain ⟨members, -, rfl⟩ := h
  rfl

theorem Reordered.membersNamed (h : e.Reordered e') (name : String) :
    (e.membersNamed name).Perm (e'.membersNamed name) := by
  obtain ⟨members, hperm, rfl⟩ := h
  exact hperm.filter _

theorem Reordered.extensionsNamed (h : e.Reordered e') (name : String) :
    (e.extensionsNamed name).Perm (e'.extensionsNamed name) :=
  (h.membersNamed name).filterMap _

/-- Members clash in any order. -/
theorem Reordered.hasClash (h : e.Reordered e') (name : String) :
    e.hasClash name = e'.hasClash name := by
  have hnamed := h.membersNamed name
  have hsignatures := hnamed.filterMap (fun m => m.method?.map Method.signature)
  have hothers := (hnamed.filter (fun m => !m.isMethod)).length_eq
  unfold TypeEntry.hasClash
  simp only [decide_eq_decide.2 hsignatures.nodup_iff, hothers, hsignatures.isEmpty_eq]

/-- **A declaration by itself is right** if no members clash, all bases are declared types and
all extension methods extend something. -/
theorem fault?_eq_none_iff : e.fault? = none ↔
    (∀ m ∈ e.members, ¬ e.hasClash m.name = true)
      ∧ (∀ base ∈ e.bases, ¬ base.definition?.isNone = true)
      ∧ ∀ m ∈ e.members.filterMap Member.method?, ¬ (m.isExtension && m.params.isEmpty) = true := by
  unfold TypeEntry.fault?
  split
  · rename_i m hm
    have hfault := List.find?_some hm
    exact iff_of_false nofun fun h => h.1 m (List.mem_of_find?_eq_some hm) hfault
  · rename_i hclash
    split
    · rename_i base hbase
      have hfault := List.find?_some hbase
      exact iff_of_false nofun fun h => h.2.1 base (List.mem_of_find?_eq_some hbase) hfault
    · rename_i hbases
      rw [Option.map_eq_none_iff, List.find?_eq_none]
      exact ⟨fun h => ⟨List.find?_eq_none.1 hclash, List.find?_eq_none.1 hbases, h⟩,
        fun h => h.2.2⟩

theorem Reordered.fault? (h : e.Reordered e') (hvalid : e.fault? = none) : e'.fault? = none := by
  obtain ⟨hclash, hbases, hextensions⟩ := fault?_eq_none_iff.1 hvalid
  have hsame := h.hasClash
  obtain ⟨members, hperm, rfl⟩ := h
  refine fault?_eq_none_iff.2 ⟨fun m hm => ?_, hbases, fun m hm => ?_⟩
  · rw [← hsame]
    exact hclash m (hperm.mem_iff.2 hm)
  · exact hextensions m ((hperm.filterMap _).mem_iff.2 hm)

/-! ## §3. Declarations by identity. -/

/-- Declarations of different identities are found one at a time. -/
theorem find?_eq_some_iff_of_nodup {es : List TypeEntry} (hids : (es.map TypeEntry.id).Nodup)
    {id : TypeId} : es.find? (fun e => e.id == id) = some e ↔ e ∈ es ∧ e.id = id := by
  constructor
  · intro h
    exact ⟨List.mem_of_find?_eq_some h, by simpa using List.find?_some h⟩
  · rintro ⟨he, rfl⟩
    cases hfound : es.find? (fun d => d.id == e.id) with
    | none => exact absurd (beq_self_eq_true e.id) (List.find?_eq_none.1 hfound e he)
    | some d =>
        have hid : d.id = e.id := by simpa using List.find?_some hfound
        rw [List.inj_on_of_nodup_map hids (List.mem_of_find?_eq_some hfound) he hid]

/-- In any order the same declarations are found. -/
theorem find?_eq_of_perm {es es' : List TypeEntry} (h : es.Perm es')
    (hids : (es.map TypeEntry.id).Nodup) (id : TypeId) :
    es.find? (fun e => e.id == id) = es'.find? (fun e => e.id == id) := by
  have hids' : (es'.map TypeEntry.id).Nodup := (h.map TypeEntry.id).nodup_iff.1 hids
  refine Option.ext fun e => ?_
  rw [find?_eq_some_iff_of_nodup hids, find?_eq_some_iff_of_nodup hids', h.mem_iff]

/-- What is asked of a declaration apart from its members has one answer. -/
theorem map_eq_of_rel {α : Type} {f : TypeEntry → α}
    (hf : ∀ {e e' : TypeEntry}, e.Reordered e' → f e = f e') {found found' : Option TypeEntry}
    (h : Option.Rel Reordered found found') : found.map f = found'.map f := by
  cases h with
  | none => rfl
  | some he => exact congrArg some (hf he)

theorem Reordered.find? {es mid : List TypeEntry} (h : List.Forall₂ Reordered es mid)
    (id : TypeId) : Option.Rel Reordered (es.find? (fun e => e.id == id))
      (mid.find? (fun e => e.id == id)) := by
  induction h with
  | nil => exact .none
  | @cons e e' es mid he _ ih =>
      rw [List.find?_cons, List.find?_cons, he.id_eq]
      split
      · exact .some he
      · exact ih

theorem Reordered.exists_of_mem {es mid : List TypeEntry} (h : List.Forall₂ Reordered es mid) :
    ∀ e' ∈ mid, ∃ e ∈ es, e.Reordered e' := by
  induction h with
  | nil => exact nofun
  | @cons e e' es mid he _ ih =>
      refine List.forall_mem_cons.2 ⟨⟨e, List.mem_cons_self, he⟩, fun d' hd' => ?_⟩
      obtain ⟨d, hd, hreordered⟩ := ih d' hd'
      exact ⟨d, List.mem_cons_of_mem e hd, hreordered⟩

theorem Reordered.map_id {es mid : List TypeEntry} (h : List.Forall₂ Reordered es mid) :
    es.map TypeEntry.id = mid.map TypeEntry.id := by
  induction h with
  | nil => rfl
  | cons he _ ih => rw [List.map_cons, List.map_cons, he.id_eq, ih]

/-- **In any order the same declarations are found**, with their members in some order. -/
theorem Rearranged.find? {es es' : List TypeEntry} (h : Rearranged es es')
    (hids : (es.map TypeEntry.id).Nodup) (id : TypeId) :
    Option.Rel Reordered (es.find? (fun e => e.id == id)) (es'.find? (fun e => e.id == id)) := by
  obtain ⟨mid, hmid, hperm⟩ := h
  rw [Reordered.map_id hmid] at hids
  rw [← find?_eq_of_perm hperm hids]
  exact Reordered.find? hmid id

/-- **Every type has its own edges.** -/
theorem filter_edges {es : List TypeEntry} (hids : (es.map TypeEntry.id).Nodup) (id : TypeId) :
    (es.flatMap edges).filter (fun edge => edge.derived == id)
      = ((es.find? (fun e => e.id == id)).map edges).getD [] := by
  have hown : ∀ e : TypeEntry, ∀ edge ∈ e.edges, edge.derived = e.id := by
    intro e edge hedge
    obtain ⟨base, -, rfl⟩ := List.mem_map.1 hedge
    rfl
  induction es with
  | nil => rfl
  | cons e es ih =>
      obtain ⟨hfresh, hids⟩ := List.nodup_cons.1 hids
      rw [List.flatMap_cons, List.filter_append, List.find?_cons, ih hids]
      by_cases he : e.id = id
      · -- The edges of the type come first, and no other declaration has its identity.
        have hnone : es.find? (fun e => e.id == id) = none := by
          refine List.find?_eq_none.2 fun d hd hid => hfresh ?_
          rw [he, ← eq_of_beq hid]
          exact List.mem_map_of_mem hd
        have hall : e.edges.filter (fun edge => edge.derived == id) = e.edges := by
          refine List.filter_eq_self.2 fun edge hedge => ?_
          rw [hown e edge hedge, he]
          exact beq_self_eq_true id
        rw [hnone, hall, he, beq_self_eq_true]
        exact List.append_nil _
      · have hnone : e.edges.filter (fun edge => edge.derived == id) = [] := by
          refine List.filter_eq_nil_iff.2 fun edge hedge heq => he ?_
          rw [← hown e edge hedge]
          exact eq_of_beq heq
        rw [hnone, beq_eq_false_iff_ne.2 he]
        rfl

theorem Reordered.flatMap_extensionsNamed {es mid : List TypeEntry}
    (h : List.Forall₂ Reordered es mid) (name : String) :
    (es.flatMap (fun e => e.extensionsNamed name)).Perm
      (mid.flatMap (fun e => e.extensionsNamed name)) := by
  induction h with
  | nil => exact .nil
  | cons he _ ih =>
      rw [List.flatMap_cons, List.flatMap_cons]
      exact (he.extensionsNamed name).append ih

/-- The extension methods of a name, in some order. -/
theorem Rearranged.extensionsNamed {es es' : List TypeEntry} (h : Rearranged es es')
    (name : String) : (es.flatMap (fun e => e.extensionsNamed name)).Perm
      (es'.flatMap (fun e => e.extensionsNamed name)) := by
  obtain ⟨mid, hmid, hperm⟩ := h
  exact (Reordered.flatMap_extensionsNamed hmid name).trans (hperm.flatMap_right _)

end TypeEntry

/-! ## §4. Registries that are alike. -/

/-- **The registries differ at most in the order** of members and extension methods. -/
structure Registry.Alike (r r' : Registry) : Prop where
  levels : r.levels = r'.levels
  entry : ∀ id, Option.Rel TypeEntry.Reordered (r.find? id) (r'.find? id)
  extensions : ∀ name, (r.extensionsNamed name).Perm (r'.extensionsNamed name)

namespace Registry.Alike

variable {r r' : Registry}

theorem entryOf? (h : r.Alike r') (t : TypeRef) :
    Option.Rel TypeEntry.Reordered (r.entryOf? t) (r'.entryOf? t) := by
  unfold Registry.entryOf?
  cases t.definition? with
  | none => exact .none
  | some id => exact h.entry id

theorem isValueType (h : r.Alike r') : r.isValueType = r'.isValueType := by
  funext t
  have hflags (t : TypeRef) : (r.entryOf? t).any (fun e => e.flags.valueType)
      = (r'.entryOf? t).any (fun e => e.flags.valueType) := by
    have hmap := TypeEntry.map_eq_of_rel TypeEntry.Reordered.flags_eq (h.entryOf? t)
    have hany := congrArg (Option.any TypeFlags.valueType) hmap
    rwa [Option.any_map, Option.any_map] at hany
  unfold Registry.isValueType
  simp only [hflags]

theorem supertypes (h : r.Alike r') : r.supertypes = r'.supertypes := by
  funext t
  unfold Registry.supertypes
  rw [h.levels]

theorem lineage (h : r.Alike r') : r.lineage = r'.lineage := by
  funext t
  unfold Registry.lineage
  rw [h.levels]

theorem isAssignable (h : r.Alike r') : r.isAssignable = r'.isAssignable := by
  funext source target
  unfold Registry.isAssignable
  rw [h.supertypes]

theorem declaredMembers (h : r.Alike r') (name : String) (isStatic : Bool) (t : TypeRef) :
    (r.declaredMembers name isStatic t).Perm (r'.declaredMembers name isStatic t) := by
  have hentry := h.entryOf? t
  unfold Registry.declaredMembers
  generalize r.entryOf? t = found at hentry
  generalize r'.entryOf? t = found' at hentry
  cases hentry with
  | none => exact .nil
  | some he => exact ((he.membersNamed name).filter _).map _

/-- **The members that are visible do not depend on the order of declarations**: what hides
them is known by its signature. -/
theorem visibleMembers (h : r.Alike r') (name : String) (isStatic : Bool) :
    ∀ (levels : List (List TypeRef)) {hidden hidden' : Registry.Hiding},
      hidden.all = hidden'.all → hidden.signatures.Perm hidden'.signatures →
      (r.visibleMembers name isStatic hidden levels).Perm
        (r'.visibleMembers name isStatic hidden' levels)
  | [], hidden, hidden', _, _ => .nil
  | level :: levels, hidden, hidden', hall, hsignatures => by
      have hhides : hidden.hides = hidden'.hides := by
        funext m
        unfold Hiding.hides
        rw [hall]
        simp only [hsignatures.mem_iff]
      have hfound : (Hierarchy.distinct ((level.flatMap (r.declaredMembers name isStatic)).filter
            (fun m => !hidden.hides m))).Perm
          (Hierarchy.distinct ((level.flatMap (r'.declaredMembers name isStatic)).filter
            (fun m => !hidden'.hides m))) := by
        rw [hhides]
        refine Hierarchy.perm_distinct (List.Perm.filter _ ?_)
        exact List.Perm.flatMap_left level fun t _ => h.declaredMembers name isStatic t
      refine hfound.append (visibleMembers h name isStatic levels ?_ ?_)
      · unfold Hiding.add
        simp only [hall, hfound.any_eq]
      · exact hsignatures.append (hfound.filterMap _)

theorem members (h : r.Alike r') (t : TypeRef) (name : String) (isStatic : Bool) :
    (r.members t name isStatic).Perm (r'.members t name isStatic) := by
  unfold Registry.members
  rw [h.levels]
  exact (List.Perm.refl _).append (h.visibleMembers name isStatic _ rfl (.refl _))

/-- **The methods of a type**, in some order. -/
theorem methods (h : r.Alike r') (t : TypeRef) (name : String) (isStatic : Bool) :
    (r.methods t name isStatic).Perm (r'.methods t name isStatic) :=
  (h.members t name isStatic).filterMap _

/-- **The extension methods of a type**, in some order. -/
theorem extensionMethods (h : r.Alike r') (t : TypeRef) (name : String) :
    (r.extensions t name).Perm (r'.extensions t name) := by
  unfold Registry.extensions
  rw [h.lineage]
  exact (h.extensions name).filter _

end Registry.Alike

/-! ## §5. Registration. -/

namespace Registry

/-- Register one type after the other. -/
def registerAll (r : Registry) (es : List TypeEntry) : Except RegistrationError Registry :=
  es.foldlM register r

/-- The types can be registered: they are right by themselves, and no identity is taken. -/
structure Registrable (r : Registry) (es : List TypeEntry) : Prop where
  ids : (es.map TypeEntry.id).Nodup
  fresh : ∀ e ∈ es, r.find? e.id = none
  valid : ∀ e ∈ es, e.fault? = none

/-- The registry with the types added. -/
def insertAll (r : Registry) (es : List TypeEntry) : Registry :=
  ⟨r.entries ++ es, ⟨r.hierarchy.edges ++ es.flatMap TypeEntry.edges, r.hierarchy.reach⟩⟩

theorem foldl_addBase (id : TypeId) (bases : List TypeRef) : ∀ h : Hierarchy,
    bases.foldl (fun h base => h.addBase id base) h
      = ⟨h.edges ++ (bases.filter (fun base => base.definition?.isSome)).map
          (fun base => ⟨id, base⟩), h.reach⟩ := by
  induction bases with
  | nil =>
      intro h
      rw [List.foldl_nil, List.filter_nil, List.map_nil, List.append_nil]
  | cons base bases ih =>
      intro h
      rw [List.foldl_cons, ih]
      unfold Hierarchy.addBase
      cases hbase : base.definition? with
      | none =>
          rw [List.filter_cons_of_neg (by rw [hbase]; exact nofun)]
      | some definition =>
          rw [List.filter_cons_of_pos (by rw [hbase]; rfl), List.map_cons, List.append_assoc]
          rfl

theorem insert_eq_insertAll (r : Registry) (e : TypeEntry) : r.insert e = r.insertAll [e] := by
  unfold insert insertAll
  rw [foldl_addBase, List.flatMap_singleton]
  rfl

theorem insertAll_cons (r : Registry) (e : TypeEntry) (es : List TypeEntry) :
    (r.insert e).insertAll es = r.insertAll (e :: es) := by
  rw [insert_eq_insertAll]
  unfold insertAll
  simp only [List.append_assoc, List.flatMap_cons, List.flatMap_nil, List.append_nil,
    List.singleton_append]

theorem find?_insertAll (r : Registry) (es : List TypeEntry) (id : TypeId) :
    (r.insertAll es).find? id = (r.find? id).or (es.find? (fun e => e.id == id)) :=
  List.find?_append

/-- A type is registered if it is right by itself and its identity is not taken. -/
theorem register_eq_ok_iff {r r' : Registry} {e : TypeEntry} :
    r.register e = .ok r' ↔ r.find? e.id = none ∧ e.fault? = none ∧ r' = r.insert e := by
  unfold register
  cases hfound : r.find? e.id with
  | some d => exact iff_of_false nofun fun h => by cases h.1
  | none =>
      cases hfault : e.fault? with
      | some fault => exact iff_of_false nofun fun h => by cases h.2.1
      | none =>
          exact ⟨fun h => ⟨rfl, rfl, (Except.ok.inj h).symm⟩,
            fun h => congrArg Except.ok h.2.2.symm⟩

/-- **Registration of several types** succeeds for registrable ones, and adds them all. -/
theorem registerAll_eq_ok_iff : ∀ {es : List TypeEntry} {r r' : Registry},
    r.registerAll es = .ok r' ↔ r.Registrable es ∧ r' = r.insertAll es
  | [], r, r' => by
      have hnil : r.insertAll [] = r := by
        unfold insertAll
        rw [List.append_nil, List.flatMap_nil, List.append_nil]
      rw [hnil]
      exact ⟨fun h => ⟨⟨List.nodup_nil, nofun, nofun⟩, (Except.ok.inj h).symm⟩,
        fun h => congrArg _ h.2.symm⟩
  | e :: es, r, r' => by
      have hfresh : ∀ d, (r.insert e).find? d = none ↔ r.find? d = none ∧ e.id ≠ d := by
        intro d
        rw [insert_eq_insertAll, find?_insertAll, Option.or_eq_none_iff, List.find?_singleton]
        simp
      have hstep : r.registerAll (e :: es) = .ok r' ↔
          r.find? e.id = none ∧ e.fault? = none ∧ (r.insert e).registerAll es = .ok r' := by
        unfold registerAll
        rw [List.foldlM_cons]
        constructor
        · intro h
          obtain ⟨mid, hmid, h⟩ := exists_ok_of_bind h
          obtain ⟨hfind, hfault, rfl⟩ := register_eq_ok_iff.1 hmid
          exact ⟨hfind, hfault, h⟩
        · rintro ⟨hfind, hfault, h⟩
          rw [register_eq_ok_iff.2 ⟨hfind, hfault, rfl⟩]
          exact h
      rw [hstep, registerAll_eq_ok_iff, insertAll_cons]
      constructor
      · rintro ⟨hfind, hfault, hes, rfl⟩
        refine ⟨⟨List.nodup_cons.2 ⟨?_, hes.ids⟩, List.forall_mem_cons.2 ⟨hfind, ?_⟩,
          List.forall_mem_cons.2 ⟨hfault, hes.valid⟩⟩, rfl⟩
        · intro hid
          obtain ⟨d, hd, hid⟩ := List.mem_map.1 hid
          exact ((hfresh d.id).1 (hes.fresh d hd)).2 hid.symm
        · exact fun d hd => ((hfresh d.id).1 (hes.fresh d hd)).1
      · rintro ⟨h, rfl⟩
        obtain ⟨hfind, hfinds⟩ := List.forall_mem_cons.1 h.fresh
        obtain ⟨hfault, hfaults⟩ := List.forall_mem_cons.1 h.valid
        obtain ⟨hid, hids⟩ := List.nodup_cons.1 h.ids
        refine ⟨hfind, hfault, ⟨hids, fun d hd => (hfresh d.id).2 ⟨hfinds d hd, ?_⟩, hfaults⟩, rfl⟩
        intro heq
        exact hid (heq ▸ List.mem_map_of_mem hd)

/-- Rearranged types are as registrable. -/
theorem Registrable.rearranged {r : Registry} {es es' : List TypeEntry} (h : r.Registrable es)
    (hes : TypeEntry.Rearranged es es') : r.Registrable es' := by
  obtain ⟨mid, hmid, hperm⟩ := hes
  have hsource : ∀ e' ∈ es', ∃ e ∈ es, e.Reordered e' :=
    fun e' he' => TypeEntry.Reordered.exists_of_mem hmid e' (hperm.mem_iff.2 he')
  refine ⟨?_, fun e' he' => ?_, fun e' he' => ?_⟩
  · rw [← (hperm.map TypeEntry.id).nodup_iff, ← TypeEntry.Reordered.map_id hmid]
    exact h.ids
  · obtain ⟨e, he, hreordered⟩ := hsource e' he'
    rw [← hreordered.id_eq]
    exact h.fresh e he
  · obtain ⟨e, he, hreordered⟩ := hsource e' he'
    exact hreordered.fault? (h.valid e he)

/-- A type has the bases it has, and those that its new declaration adds. -/
theorem directBases_insertAll_congr {base : Registry} {es es' : List TypeEntry}
    (hids : (es.map TypeEntry.id).Nodup) (hids' : (es'.map TypeEntry.id).Nodup)
    (hedges : ∀ id, (es.find? (fun e => e.id == id)).map TypeEntry.edges
      = (es'.find? (fun e => e.id == id)).map TypeEntry.edges) :
    (base.insertAll es).hierarchy.directBases = (base.insertAll es').hierarchy.directBases := by
  funext t
  unfold Hierarchy.directBases
  cases t.definition? with
  | none => rfl
  | some id =>
      simp only [insertAll, List.filter_append, TypeEntry.filter_edges hids,
        TypeEntry.filter_edges hids', hedges id]

/-- Types with the same direct bases have the same levels. -/
theorem levels_insertAll_congr {base : Registry} {es es' : List TypeEntry}
    (hbases : (base.insertAll es).hierarchy.directBases
      = (base.insertAll es').hierarchy.directBases) :
    (base.insertAll es).levels = (base.insertAll es').levels := by
  have hlevels : (base.insertAll es).hierarchy.levels = (base.insertAll es').hierarchy.levels := by
    funext t
    exact Hierarchy.levelsFrom_congr hbases _ _ _
  funext t
  unfold levels
  rw [hlevels]

/-- **Rearranged declarations make registries that are alike.** -/
theorem alike_of_rearranged {base : Registry} {es es' : List TypeEntry}
    (hes : TypeEntry.Rearranged es es') (hids : (es.map TypeEntry.id).Nodup)
    (hids' : (es'.map TypeEntry.id).Nodup) : (base.insertAll es).Alike (base.insertAll es') := by
  have hentry := hes.find? hids
  have hedges (id : TypeId) := TypeEntry.map_eq_of_rel TypeEntry.Reordered.edges_eq (hentry id)
  refine ⟨levels_insertAll_congr (directBases_insertAll_congr hids hids' hedges), fun id => ?_,
    fun name => ?_⟩
  · rw [find?_insertAll, find?_insertAll]
    cases base.find? id with
    | none => exact hentry id
    | some e => exact .some (.refl e)
  · unfold extensionsNamed insertAll
    rw [List.flatMap_append, List.flatMap_append]
    exact (hes.extensionsNamed name).append_left _

end Registry

end BoundMarkup
