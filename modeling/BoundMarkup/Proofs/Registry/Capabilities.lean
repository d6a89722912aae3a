/-
  BoundMarkup.Proofs.Registry.Capabilities
  ────────────────────────────────────────
  **THE CAPABILITY PROPERTIES OF A TYPE.**

  A type has a capability property just if that is the nearest declaration of its
  name (`Registry.mem_capabilities`): sorting the declarations of one type keeps
  those of one name in order, and of all that are collected the first of each name
  is kept.
-/
import BoundMarkup.Registry.Lookup
import Mathlib.Data.List.Basic

namespace BoundMarkup

variable {c : Capability}

/-! ## §1. The first of each name. -/

/-- The name of a thing finds a thing of that name. -/
theorem exists_find?_of_mem {α : Type} {f : α → String} {xs : List α} {x : α} (h : x ∈ xs) :
    ∃ y ∈ xs, f y = f x ∧ xs.find? (fun z => f z == f x) = some y := by
  cases hfind : xs.find? (fun z => f z == f x) with
  | none => exact absurd (beq_self_eq_true (f x)) (List.find?_eq_none.1 hfind x h)
  | some y =>
      exact ⟨y, List.mem_of_find?_eq_some hfind,
        beq_iff_eq.1 (List.find?_some (p := fun z => f z == f x) hfind), rfl⟩

/-- What is kept is what was kept before, and the first of each other name. -/
theorem Capability.mem_foldl_first (cs : List Capability) : ∀ seen : List Capability,
    c ∈ cs.foldl (fun seen c => if seen.any (fun s => s.name == c.name) then seen else seen ++ [c])
        seen
      ↔ c ∈ seen
        ∨ (∀ s ∈ seen, s.name ≠ c.name) ∧ cs.find? (fun d => d.name == c.name) = some c := by
  induction cs with
  | nil => simp
  | cons d ds ih =>
      intro seen
      rw [List.foldl_cons, List.find?_cons]
      by_cases hknown : seen.any (fun s => s.name == d.name) = true
      · -- The name is known, so nothing changes for any other one.
        rw [if_pos hknown, ih]
        obtain ⟨s, hs, hname⟩ := List.any_eq_true.1 hknown
        refine or_congr_right (and_congr_right fun hnew => ?_)
        have hother : (d.name == c.name) = false :=
          beq_eq_false_iff_ne.2 fun h => hnew s hs ((beq_iff_eq.1 hname).trans h)
        rw [hother]
      · have hnew : ∀ s ∈ seen, s.name ≠ d.name := by
          intro s hs hname
          exact hknown (List.any_eq_true.2 ⟨s, hs, beq_iff_eq.2 hname⟩)
        rw [if_neg hknown, ih, List.mem_append, List.mem_singleton, List.forall_mem_append,
          List.forall_mem_singleton]
        by_cases hname : d.name = c.name
        · rw [beq_iff_eq.2 hname, ← hname, Option.some.injEq]
          simp only [ne_eq, not_true_eq_false, and_false, false_and, or_false]
          constructor
          · rintro (hc | rfl)
            · exact .inl hc
            · exact .inr ⟨hnew, rfl⟩
          · rintro (hc | ⟨-, rfl⟩)
            · exact .inl hc
            · exact .inr rfl
        · have hne : c ≠ d := fun h => hname (congrArg Capability.name h).symm
          rw [beq_eq_false_iff_ne.2 hname]
          simp only [hne, or_false, hname, ne_eq, not_false_eq_true, and_true]

namespace TypeEntry

/-- **Sorting by name keeps the first of each name first.** -/
theorem find?_sorted (e : TypeEntry) (name : String) :
    (e.capabilities.mergeSort (fun a b => decide (a.name ≤ b.name))).find? (fun c => c.name == name)
      = e.capability? name := by
  let sorted := e.capabilities.mergeSort (fun a b => decide (a.name ≤ b.name))
  let named := e.capabilities.filter (fun c => c.name == name)
  have hordered : named.Pairwise (fun a b => decide (a.name ≤ b.name) = true) := by
    refine List.pairwise_of_forall_mem_list fun a ha b hb => ?_
    have hsame : a.name = b.name := (beq_iff_eq.1 (List.mem_filter.1 ha).2).trans
      (beq_iff_eq.1 (List.mem_filter.1 hb).2).symm
    have hle : a.name ≤ b.name := hsame ▸ String.le_refl a.name
    exact decide_eq_true hle
  have hsublist : named.Sublist sorted := by
    refine List.sublist_mergeSort ?_ ?_ hordered List.filter_sublist
    · intro a b c hab hbc
      rw [decide_eq_true_iff] at hab hbc ⊢
      exact String.le_trans hab hbc
    · intro a b
      rw [Bool.or_eq_true, decide_eq_true_iff, decide_eq_true_iff]
      exact String.le_total _ _
  have hfilter : named.Sublist (sorted.filter (fun c => c.name == name)) := by
    have hself : named.filter (fun c => c.name == name) = named :=
      List.filter_eq_self.2 fun c hc => (List.mem_filter.1 hc).2
    have h := hsublist.filter (fun c => c.name == name)
    rwa [hself] at h
  have hcount : named.length = (sorted.filter (fun c => c.name == name)).length :=
    ((List.mergeSort_perm _ _).filter _).length_eq.symm
  rw [capability?, ← List.head?_filter, ← List.head?_filter]
  exact congrArg List.head? (hfilter.eq_of_length hcount).symm

end TypeEntry

/-! ## §2. The nearest declaration. -/

namespace Registry

variable {r : Registry} {t : TypeRef}

/-- The capability property of a name that the declaration of a type has itself. -/
def declaredCapability? (r : Registry) (t : TypeRef) (name : String) : Option Capability :=
  (r.entryOf? t).bind (fun e => e.capability? name)

theorem find?_declaredCapabilities (name : String) :
    (r.declaredCapabilities t).find? (fun c => c.name == name) = r.declaredCapability? t name := by
  unfold declaredCapabilities declaredCapability?
  cases r.entryOf? t with
  | none => rfl
  | some e => exact e.find?_sorted name

/-- **A type has the nearest capability property of each name.** -/
theorem mem_capabilities : c ∈ r.capabilities t ↔
    (r.lineage t).findSome? (fun u => r.declaredCapability? u c.name) = some c := by
  unfold capabilities
  rw [Capability.mem_foldl_first, List.find?_flatMap]
  simp only [find?_declaredCapabilities]
  simp

/-- All capability properties of a type have names of their own, so each is found by its name. -/
theorem find?_capabilities_of_mem (hc : c ∈ r.capabilities t) :
    (r.capabilities t).find? (fun d => d.name == c.name) = some c := by
  obtain ⟨other, hother, hname, hfind⟩ := exists_find?_of_mem (f := Capability.name) hc
  have hsame := mem_capabilities.1 hother
  rw [hname, mem_capabilities.1 hc] at hsame
  rwa [← Option.some.inj hsame] at hfind

/-- One that a type has by itself, or by inheritance, is declared by a type of its lineage. -/
theorem exists_of_capability?_eq_some {name : String} (h : r.capability? t name = some c) :
    ∃ u ∈ r.lineage t, r.declaredCapability? u name = some c := by
  obtain ⟨u, hu, hc⟩ := List.exists_of_findSome?_eq_some h
  obtain ⟨e, he, hc⟩ := Option.bind_eq_some_iff.1 hc
  split at hc
  · exact ⟨u, hu, Option.bind_eq_some_iff.2 ⟨e, he, hc⟩⟩
  · cases hc

end Registry

end BoundMarkup
