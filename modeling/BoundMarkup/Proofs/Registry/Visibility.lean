/-
  BoundMarkup.Proofs.Registry.Visibility
  ──────────────────────────────────────
  **WHICH METHODS CAN BE TOLD APART.**

  Registration refuses two methods of one name with the same parameter types in one
  type (`Registry.nodup_signatures_membersNamed`), and nearer methods hide farther
  ones with the same parameter types.  So where there is one type at each distance
  (`Registry.IsChain`), the visible methods of a name all have different parameter
  types (`Registry.nodup_signatures_methods`).

  Types at one distance do not hide each other's methods, and generic arguments may
  make parameter types equal that were not, so neither condition can go.
-/
import BoundMarkup.Proofs.Registry.Termination

namespace BoundMarkup

/-! ## §1. Signatures of members. -/

namespace Member

/-- The parameter types of a method; other members have none. -/
def signature? (m : Member) : Option (List TypeRef) := m.method?.map Method.signature

@[simp] theorem name_instantiate (m : Member) (t : TypeRef) : (m.instantiate t).name = m.name := by
  cases m with
  | method m =>
      show (m.instantiate t).name = m.name
      unfold Method.instantiate
      simp only
      split <;> rfl
  | property p => rfl
  | nested name type => rfl

@[simp] theorem isMethod_instantiate (m : Member) (t : TypeRef) :
    (m.instantiate t).isMethod = m.isMethod := by
  cases m <;> rfl

/-- A type without generic arguments leaves the parameter types as they are declared. -/
theorem signature?_instantiate_simple (m : Member) (name : String) :
    (m.instantiate (.simple name)).signature? = m.signature? := by
  cases m <;> rfl

end Member

/-- The list without repetitions is what is left of the list. -/
theorem Hierarchy.foldl_distinct_sublist {α : Type} [DecidableEq α] (xs : List α) :
    ∀ seen : List α,
      (xs.foldl (fun seen x => if x ∈ seen then seen else seen ++ [x]) seen).Sublist
        (seen ++ xs) := by
  induction xs with
  | nil =>
      intro seen
      rw [List.append_nil]
      exact .refl seen
  | cons x xs ih =>
      intro seen
      rw [List.foldl_cons]
      by_cases hx : x ∈ seen
      · rw [if_pos hx]
        exact (ih seen).trans ((List.sublist_cons_self x xs).append_left seen)
      · rw [if_neg hx]
        simpa using ih (seen ++ [x])

namespace Registry

variable {r : Registry} {name : String} {isStatic : Bool}

/-! ## §2. Names. -/

/-- What a type declares under a name has that name. -/
theorem name_of_mem_declaredMembers {t : TypeRef} {x : Member}
    (h : x ∈ r.declaredMembers name isStatic t) : x.name = name := by
  unfold declaredMembers at h
  split at h
  · obtain ⟨d, hd, rfl⟩ := List.mem_map.1 h
    have hnamed := (List.mem_filter.1 (List.mem_filter.1 hd).1).2
    rw [Member.name_instantiate]
    exact eq_of_beq hnamed
  · cases h

/-- **Methods of a type have the name they are asked for.** -/
theorem name_of_mem_methods {t : TypeRef} {m : Method} (h : m ∈ r.methods t name isStatic) :
    m.name = name := by
  obtain ⟨s, -, hs⟩ := exists_declared_of_mem_methods h
  exact name_of_mem_declaredMembers hs

/-! ## §3. What registration refuses. -/

/-- **All entries of a registry are right by themselves.** -/
theorem Reached.fault?_eq_none (h : r.Reached) : ∀ e ∈ r.entries, e.fault? = none := by
  induction h with
  | empty => exact nofun
  | builtins => decide +kernel
  | @register r r' e _ hr ih =>
      obtain ⟨-, hvalid, rfl⟩ := register_eq_ok_iff.1 hr
      intro e' he'
      rcases List.mem_append.1 he' with he' | he'
      · exact ih e' he'
      · obtain rfl := List.mem_singleton.1 he'
        exact hvalid

/-- **Methods of one name in one type have different parameter types.** -/
theorem nodup_signatures_membersNamed {e : TypeEntry} (h : e.fault? = none) (name : String) :
    ((e.membersNamed name).filterMap Member.signature?).Nodup := by
  cases hmembers : e.membersNamed name with
  | nil => exact List.nodup_nil
  | cons m ms =>
      have hm : m ∈ e.membersNamed name := by
        rw [hmembers]
        exact List.mem_cons_self
      obtain ⟨hm, hname⟩ := List.mem_filter.1 hm
      have hclash := (TypeEntry.fault?_eq_none_iff.1 h).1 m hm
      rw [eq_of_beq hname] at hclash
      unfold TypeEntry.hasClash at hclash
      simp only [Bool.or_eq_true, not_or, Bool.not_eq_true', decide_eq_false_iff_not,
        not_not] at hclash
      rw [← hmembers]
      exact hclash.1.1

/-- **A type has at most one member of a name that is no method.** -/
theorem eq_of_isMethod_eq_false {e : TypeEntry} (h : e.fault? = none) {x y : Member}
    (hx : x ∈ e.members) (hy : y ∈ e.members) (same : x.name = y.name)
    (hxm : x.isMethod = false) (hym : y.isMethod = false) : x = y := by
  have hclash := (TypeEntry.fault?_eq_none_iff.1 h).1 y hy
  unfold TypeEntry.hasClash at hclash
  simp only [Bool.or_eq_true, not_or, decide_eq_true_eq] at hclash
  have hlength := Nat.le_of_not_lt hclash.1.2
  have hothers {z : Member} (hz : z ∈ e.members) (hname : z.name = y.name)
      (hzm : z.isMethod = false) :
      z ∈ (e.membersNamed y.name).filter (fun m => !m.isMethod) := by
    refine List.mem_filter.2 ⟨List.mem_filter.2 ⟨hz, beq_iff_eq.2 hname⟩, ?_⟩
    rw [hzm]
    rfl
  have hxo := hothers hx same hxm
  have hyo := hothers hy rfl hym
  generalize (e.membersNamed y.name).filter (fun m => !m.isMethod) = others at hlength hxo hyo
  cases others with
  | nil => cases hxo
  | cons z others =>
      obtain rfl := List.length_eq_zero_iff.1 (Nat.le_zero.1 (Nat.le_of_succ_le_succ hlength))
      exact (List.mem_singleton.1 hxo).trans (List.mem_singleton.1 hyo).symm

/-! ## §4. What is visible. -/

/-- **The supertypes form a chain**: at each distance there is one type, and it has no generic
arguments. -/
def IsChain (r : Registry) (t : TypeRef) : Prop :=
  ∀ level ∈ r.levels t, ∃ name, level = [.simple name]

/-- The methods that one type of a chain declares have different parameter types. -/
theorem nodup_signatures_declaredMembers (valid : ∀ e ∈ r.entries, e.fault? = none)
    (type : String) :
    ((r.declaredMembers name isStatic (.simple type)).filterMap Member.signature?).Nodup := by
  unfold declaredMembers
  split
  · rename_i e he
    have hnodup := nodup_signatures_membersNamed (valid e (mem_entries_of_entryOf? he)) name
    rw [List.filterMap_map]
    simp only [Function.comp_def, Member.signature?_instantiate_simple]
    exact hnodup.sublist (List.filter_sublist.filterMap _)
  · exact List.nodup_nil

/-- What is hidden from now on: what was hidden, and what is visible now. -/
theorem signatures_add (hidden : Hiding) (members : List Member) :
    (hidden.add members).signatures = hidden.signatures ++ members.filterMap Member.signature? :=
  rfl

/-- A member that is not hidden does not have a hidden signature. -/
theorem signature_notMem_of_not_hides {hidden : Hiding} {x : Member} {s : List TypeRef}
    (h : hidden.hides x = false) (hs : x.signature? = some s) : s ∉ hidden.signatures := by
  obtain ⟨m, hm, rfl⟩ := Option.map_eq_some_iff.1 hs
  intro hmem
  have hhides : hidden.hides x = true := by
    unfold Hiding.hides
    rw [hm, Option.any_some, decide_eq_true hmem, Bool.or_true]
  rw [h] at hhides
  cases hhides

/-- **Along a chain, no two visible methods have the same parameter types**, and none has those
of a method that is hidden. -/
theorem nodup_signatures_visibleMembers (valid : ∀ e ∈ r.entries, e.fault? = none) :
    ∀ (levels : List (List TypeRef)) (hidden : Hiding),
      (∀ level ∈ levels, ∃ type, level = [.simple type]) →
      ((r.visibleMembers name isStatic hidden levels).filterMap Member.signature?).Nodup
        ∧ ∀ s ∈ (r.visibleMembers name isStatic hidden levels).filterMap Member.signature?,
          s ∉ hidden.signatures
  | [], hidden, _ => ⟨List.nodup_nil, nofun⟩
  | level :: levels, hidden, chain => by
      obtain ⟨hlevel, hlevels⟩ := List.forall_mem_cons.1 chain
      obtain ⟨type, rfl⟩ := hlevel
      unfold visibleMembers
      -- What the level adds is a part of what its only type declares.
      generalize hfound : Hierarchy.distinct (([TypeRef.simple type].flatMap
        (r.declaredMembers name isStatic)).filter (fun m => !hidden.hides m)) = found
      have hpart : found.Sublist ((r.declaredMembers name isStatic (.simple type)).filter
          (fun m => !hidden.hides m)) := by
        rw [← hfound, List.flatMap_singleton]
        exact Hierarchy.foldl_distinct_sublist _ []
      have hown : (found.filterMap Member.signature?).Nodup :=
        (nodup_signatures_declaredMembers valid type).sublist
          ((hpart.trans List.filter_sublist).filterMap _)
      have hfresh : ∀ s ∈ found.filterMap Member.signature?, s ∉ hidden.signatures := by
        intro s hs
        obtain ⟨x, hx, hxs⟩ := List.mem_filterMap.1 hs
        have hshown := (List.mem_filter.1 (hpart.subset hx)).2
        exact signature_notMem_of_not_hides (by simpa using hshown) hxs
      obtain ⟨hrest, hlater⟩ :=
        nodup_signatures_visibleMembers valid levels (hidden.add found) hlevels
      rw [List.filterMap_append]
      constructor
      · refine List.nodup_append.2 ⟨hown, hrest, fun s hs s' hs' heq => ?_⟩
        refine hlater s' hs' ?_
        rw [signatures_add, ← heq]
        exact List.mem_append_right _ hs
      · intro s hs
        rcases List.mem_append.1 hs with hs | hs
        · exact hfresh s hs
        · intro hmem
          refine hlater s hs ?_
          rw [signatures_add]
          exact List.mem_append_left _ hmem

/-- What a type has by nature has no signature. -/
theorem filterMap_signature?_intrinsic? (t : TypeRef) (name : String) :
    (intrinsic? t name).toList.filterMap Member.signature? = [] := by
  rw [List.filterMap_eq_nil_iff]
  intro x hx
  cases x with
  | method m => exact absurd (Option.mem_toList.1 hx) intrinsic?_ne_method
  | property p => rfl
  | nested name type => rfl

/-- **The visible methods of a name are told apart by their parameter types**, where the
supertypes form a chain. -/
theorem nodup_signatures_methods (valid : ∀ e ∈ r.entries, e.fault? = none) {t : TypeRef}
    (chain : r.IsChain t) : ((r.methods t name isStatic).map Method.signature).Nodup := by
  have hsignatures : (r.methods t name isStatic).map Method.signature
      = (r.members t name isStatic).filterMap Member.signature? := by
    unfold methods
    rw [List.map_filterMap]
    rfl
  rw [hsignatures]
  unfold members
  rw [List.filterMap_append]
  split
  · exact (nodup_signatures_visibleMembers valid _ _ chain).1
  · rw [filterMap_signature?_intrinsic?, List.nil_append]
    exact (nodup_signatures_visibleMembers valid _ _ chain).1

end Registry

end BoundMarkup
