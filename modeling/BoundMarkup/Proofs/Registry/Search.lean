/-
  BoundMarkup.Proofs.Registry.Search
  ──────────────────────────────────
  **THE SEARCH FOR SUPERTYPES.**

  The search goes on while a level brings types that have not been seen
  (`Hierarchy.level`).  It ends for a type just if the type has finitely many
  constructed supertypes (`Hierarchy.ends_iff_finite`), after as many levels as it
  has supertypes at most, and has then found them all (`Hierarchy.mem_seen_iff`).

  A limit on the depth shows the first levels only (`Hierarchy.levelsFrom_seen`), and
  makes no difference just if the search ends (`Hierarchy.ends_iff_levels_reaching`).
-/
import BoundMarkup.Proofs.Registry.Reordering
import Mathlib.Data.Set.Card
import Mathlib.Logic.Relation

namespace BoundMarkup.Hierarchy

/-! ## §1. Supertypes. -/

/-- One of the types is a direct base of the other. -/
def Derives (h : Hierarchy) (t base : TypeRef) : Prop := base ∈ h.directBases t

/-- **The constructed supertypes** of a type, by any number of bases, the type itself included. -/
def above (h : Hierarchy) (t : TypeRef) : Set TypeRef := {u | Relation.ReflTransGen h.Derives t u}

/-- The same hierarchy, searched to another depth. -/
def reaching (h : Hierarchy) (depth : Nat) : Hierarchy := { h with reach := depth }

variable {h : Hierarchy} {t u v : TypeRef}

theorem mem_above_self (h : Hierarchy) (t : TypeRef) : t ∈ h.above t := Relation.ReflTransGen.refl

theorem above_trans (hu : u ∈ h.above t) (hv : v ∈ h.above u) : v ∈ h.above t :=
  Relation.ReflTransGen.trans hu hv

/-- A set with a type and all bases of its members has all supertypes of the type. -/
theorem above_subset {s : Set TypeRef} (ht : t ∈ s) (hs : ∀ u ∈ s, ∀ v ∈ h.directBases u, v ∈ s) :
    h.above t ⊆ s := by
  intro u hu
  induction hu with
  | refl => exact ht
  | tail _ hstep ih => exact hs _ ih _ hstep

/-! ## §2. Stages of the search. -/

/-- What has been seen after `n` levels, and the last of them. -/
def stage (h : Hierarchy) (t : TypeRef) : Nat → List TypeRef × List TypeRef
  | 0 => ([t], [t])
  | n + 1 =>
      let next := h.nextLevel (h.stage t n).1 (h.stage t n).2
      ((h.stage t n).1 ++ next, next)

/-- All types up to a level. -/
def seen (h : Hierarchy) (t : TypeRef) (n : Nat) : List TypeRef := (h.stage t n).1

/-- The types at a distance, the type itself at no distance. -/
def level (h : Hierarchy) (t : TypeRef) (n : Nat) : List TypeRef := (h.stage t n).2

/-- **The search reaches an empty next level.** -/
def Ends (h : Hierarchy) (t : TypeRef) : Prop := ∃ n, h.level t n = []

theorem level_succ (h : Hierarchy) (t : TypeRef) (n : Nat) :
    h.level t (n + 1) = h.nextLevel (h.seen t n) (h.level t n) := rfl

theorem seen_succ (h : Hierarchy) (t : TypeRef) (n : Nat) :
    h.seen t (n + 1) = h.seen t n ++ h.level t (n + 1) := rfl

/-- A level has the bases of the level before it that are new. -/
theorem mem_nextLevel {seen level : List TypeRef} :
    v ∈ h.nextLevel seen level ↔ (∃ u ∈ level, v ∈ h.directBases u) ∧ v ∉ seen := by
  unfold nextLevel
  rw [mem_distinct, List.mem_filter, List.mem_flatMap, decide_eq_true_iff]

theorem seen_subset_succ {n : Nat} (hu : u ∈ h.seen t n) : u ∈ h.seen t (n + 1) := by
  rw [seen_succ]
  exact List.mem_append_left _ hu

/-- After an empty level there is nothing more. -/
theorem level_succ_eq_nil {n : Nat} (hn : h.level t n = []) : h.level t (n + 1) = [] := by
  rw [level_succ, hn]
  rfl

theorem level_eq_nil_of_le {n m : Nat} (hn : h.level t n = []) (hle : n ≤ m) :
    h.level t m = [] := by
  induction hle with
  | refl => exact hn
  | step _ ih => exact level_succ_eq_nil ih

/-- What has been seen is in the last level, or its bases have been seen too. -/
theorem mem_level_or_directBases_seen {n : Nat} : u ∈ h.seen t n →
    u ∈ h.level t n ∨ ∀ v ∈ h.directBases u, v ∈ h.seen t n := by
  induction n with
  | zero => exact .inl
  | succ n ih =>
      intro hu
      rcases List.mem_append.1 hu with hu | hu
      · refine .inr fun v hv => ?_
        by_cases hseen : v ∈ h.seen t n
        · exact seen_subset_succ hseen
        · rcases ih hu with hlevel | hbases
          · exact List.mem_append_right _ (mem_nextLevel.2 ⟨⟨u, hlevel, hv⟩, hseen⟩)
          · exact absurd (hbases v hv) hseen
      · exact .inl hu

/-- Only supertypes are seen. -/
theorem seen_subset_above {n : Nat} : ∀ u ∈ h.seen t n, u ∈ h.above t := by
  induction n with
  | zero =>
      intro u hu
      rw [List.mem_singleton.1 hu]
      exact mem_above_self h t
  | succ n ih =>
      intro v hv
      rcases List.mem_append.1 hv with hv | hv
      · exact ih v hv
      · obtain ⟨⟨u, hu, hbase⟩, -⟩ := mem_nextLevel.1 hv
        have hseen : u ∈ h.seen t n := by
          cases n with
          | zero => exact hu
          | succ n => exact List.mem_append_right _ hu
        exact Relation.ReflTransGen.tail (ih u hseen) hbase

/-- **Once a level is empty all supertypes have been seen**, and nothing else. -/
theorem mem_seen_iff {n : Nat} (hn : h.level t n = []) : u ∈ h.seen t n ↔ u ∈ h.above t := by
  refine ⟨seen_subset_above u, fun hu => ?_⟩
  have hself : t ∈ h.seen t n := by
    clear hn
    induction n with
    | zero => exact List.mem_singleton_self t
    | succ n ih => exact seen_subset_succ ih
  refine above_subset (s := {u | u ∈ h.seen t n}) hself (fun u hu v hv => ?_) hu
  rcases mem_level_or_directBases_seen hu with hlevel | hbases
  · rw [hn] at hlevel
    cases hlevel
  · exact hbases v hv

/-! ## §3. Ends of the search. -/

/-- No type is seen twice. -/
theorem nodup_seen (h : Hierarchy) (t : TypeRef) (n : Nat) : (h.seen t n).Nodup := by
  induction n with
  | zero => exact List.nodup_singleton t
  | succ n ih =>
      rw [seen_succ, List.nodup_append]
      refine ⟨ih, nodup_foldl_distinct _ [] List.nodup_nil, fun u hu v hv => ?_⟩
      exact ne_of_mem_of_not_mem hu (mem_nextLevel.1 hv).2

/-- Each level brings something new, until one is empty. -/
theorem lt_length_seen {n : Nat} (hn : h.level t n ≠ []) : n < (h.seen t n).length := by
  induction n with
  | zero => exact Nat.zero_lt_one
  | succ n ih =>
      have hbefore : h.level t n ≠ [] := fun hnil => hn (level_succ_eq_nil hnil)
      have hnew : 0 < (h.level t (n + 1)).length := List.length_pos_iff.2 hn
      have hseen := ih hbefore
      rw [seen_succ, List.length_append]
      omega

/-- **There are at most as many levels as supertypes.** -/
theorem level_eq_nil_of_finite (hfinite : (h.above t).Finite) :
    h.level t (h.above t).ncard = [] := by
  by_contra hne
  have hlength := lt_length_seen hne
  have hsubset : {u | u ∈ h.seen t (h.above t).ncard} ⊆ h.above t := fun u hu => seen_subset_above u hu
  have hcard := Set.ncard_le_ncard hsubset hfinite
  have hcount : {u | u ∈ h.seen t (h.above t).ncard}.ncard
      = (h.seen t (h.above t).ncard).length := by
    rw [← List.toFinset_card_of_nodup (nodup_seen h t _), ← Set.ncard_coe_finset]
    exact congrArg Set.ncard (Set.ext fun u => by simp)
  omega

/-- **The search ends just if there are finitely many supertypes.** -/
theorem ends_iff_finite : h.Ends t ↔ (h.above t).Finite := by
  constructor
  · rintro ⟨n, hn⟩
    refine (List.finite_toSet (h.seen t n)).subset fun u hu => ?_
    exact (mem_seen_iff hn).2 hu
  · exact fun hfinite => ⟨_, level_eq_nil_of_finite hfinite⟩

/-! ## §4. Levels up to a depth. -/

/-- The last level has nothing after it. -/
theorem levelsFrom_last {n : Nat} (hnext : h.level t (n + 1) = []) (depth : Nat) :
    h.levelsFrom depth (h.seen t n) (h.level t n) = [h.level t n] := by
  have hnil : h.nextLevel (h.seen t n) (h.level t n) = [] := hnext
  cases depth with
  | zero => rfl
  | succ depth => rw [levelsFrom, hnil]

/-- Any other level is followed by the next one. -/
theorem levelsFrom_next {n : Nat} (hnext : h.level t (n + 1) ≠ []) (depth : Nat) :
    h.levelsFrom (depth + 1) (h.seen t n) (h.level t n)
      = h.level t n :: h.levelsFrom depth (h.seen t (n + 1)) (h.level t (n + 1)) := by
  rw [levelsFrom]
  split
  · rename_i hnil
    exact absurd hnil hnext
  · rename_i hcons
    rw [seen_succ, level_succ, hcons]

/-- The levels start with the one the search is at. -/
theorem levelsFrom_eq_cons (h : Hierarchy) (depth : Nat) (seen level : List TypeRef) :
    h.levelsFrom depth seen level = level :: (h.levelsFrom depth seen level).tail := by
  cases depth with
  | zero => rfl
  | succ depth =>
      rw [levelsFrom]
      split <;> rfl

/-- **The levels up to a depth** have what is seen up to it. -/
theorem levelsFrom_seen (h : Hierarchy) (t : TypeRef) (depth : Nat) : ∀ n,
    h.seen t n ++ (h.levelsFrom depth (h.seen t n) (h.level t n)).tail.flatten
      = h.seen t (n + depth) := by
  induction depth with
  | zero => exact fun n => List.append_nil _
  | succ depth ih =>
      intro n
      by_cases hnext : h.level t (n + 1) = []
      · have hstays : ∀ m, h.seen t (n + m) = h.seen t n := by
          intro m
          induction m with
          | zero => rfl
          | succ m ihm =>
              have hnil : h.level t (n + m + 1) = [] := level_eq_nil_of_le hnext (by omega)
              rw [← Nat.add_assoc, seen_succ, hnil, List.append_nil, ihm]
        rw [levelsFrom_last hnext, hstays]
        exact List.append_nil _
      · rw [levelsFrom_next hnext, List.tail_cons, levelsFrom_eq_cons, List.flatten_cons,
          ← List.append_assoc, ← seen_succ, ih (n + 1), Nat.succ_add_eq_add_succ]

/-- The type itself is the first level. -/
theorem levels_eq_cons (h : Hierarchy) (t : TypeRef) : h.levels t = [t] :: (h.levels t).tail :=
  levelsFrom_eq_cons h h.reach [t] [t]

/-- **Behind the type stand its other supertypes**, if the search ends within its depth. -/
theorem mem_levels_tail (hlast : h.level t h.reach = []) :
    u ∈ (h.levels t).tail.flatten ↔ u ∈ h.above t ∧ u ≠ t := by
  have hseen : t :: (h.levels t).tail.flatten = h.seen t h.reach := by
    have hlevels := levelsFrom_seen h t h.reach 0
    rwa [Nat.zero_add] at hlevels
  have hnodup := nodup_seen h t h.reach
  rw [← mem_seen_iff hlast]
  rw [← hseen] at hnodup ⊢
  constructor
  · exact fun hu => ⟨List.mem_cons_of_mem _ hu, fun heq => (List.nodup_cons.1 hnodup).1 (heq ▸ hu)⟩
  · rintro ⟨hu, hne⟩
    exact (List.mem_cons.1 hu).resolve_left hne

/-- A deeper search shows nothing more after the last level. -/
theorem levelsFrom_deeper {depth : Nat} : ∀ {n : Nat}, h.level t (n + depth + 1) = [] → ∀ more,
    h.levelsFrom (depth + more) (h.seen t n) (h.level t n)
      = h.levelsFrom depth (h.seen t n) (h.level t n) := by
  induction depth with
  | zero =>
      intro n hlast more
      rw [levelsFrom_last hlast, levelsFrom_last hlast]
  | succ depth ih =>
      intro n hlast more
      by_cases hnext : h.level t (n + 1) = []
      · rw [levelsFrom_last hnext, levelsFrom_last hnext]
      · have hlast' : h.level t (n + 1 + depth + 1) = [] := by
          rwa [Nat.succ_add_eq_add_succ]
        rw [Nat.succ_add, levelsFrom_next hnext, levelsFrom_next hnext, ih hlast' more]

/-- Up to an empty level there is one more level with each step of the depth. -/
theorem length_levelsFrom {depth : Nat} : ∀ {n : Nat}, h.level t (n + depth) ≠ [] →
    (h.levelsFrom depth (h.seen t n) (h.level t n)).length = depth + 1 := by
  induction depth with
  | zero => exact fun _ => rfl
  | succ depth ih =>
      intro n hlast
      have hnext : h.level t (n + 1) ≠ [] :=
        fun hnil => hlast (level_eq_nil_of_le hnil (by omega))
      have hlast' : h.level t (n + 1 + depth) ≠ [] := by
        rwa [Nat.succ_add_eq_add_succ]
      rw [levelsFrom_next hnext, List.length_cons, ih hlast']

/-- The bases do not depend on the depth. -/
theorem directBases_reaching (h : Hierarchy) (depth : Nat) :
    (h.reaching depth).directBases = h.directBases := rfl

/-- Nor do the stages. -/
theorem stage_reaching (h : Hierarchy) (depth : Nat) (t : TypeRef) (n : Nat) :
    (h.reaching depth).stage t n = h.stage t n := by
  induction n with
  | zero => rfl
  | succ n ih =>
      unfold stage
      rw [ih]
      rfl

theorem levels_reaching_eq (h : Hierarchy) (t : TypeRef) (depth : Nat) :
    (h.reaching depth).levels t = h.levelsFrom depth (h.seen t 0) (h.level t 0) :=
  levelsFrom_congr (directBases_reaching h depth) depth [t] [t]

/-- **A search that ends within a depth does not depend on it.** -/
theorem levels_reaching {depth deeper : Nat} (hlast : h.level t depth = []) (hle : depth ≤ deeper) :
    (h.reaching deeper).levels t = (h.reaching depth).levels t := by
  obtain ⟨more, rfl⟩ := Nat.exists_eq_add_of_le hle
  have hafter : h.level t (0 + depth + 1) = [] := by
    rw [Nat.zero_add]
    exact level_succ_eq_nil hlast
  rw [levels_reaching_eq, levels_reaching_eq]
  exact levelsFrom_deeper hafter more

/-- **The search ends just if its levels do not depend on the depth** from some depth on. -/
theorem ends_iff_levels_reaching : h.Ends t ↔
    ∃ depth, ∀ deeper ≥ depth, (h.reaching deeper).levels t = (h.reaching depth).levels t := by
  constructor
  · rintro ⟨depth, hlast⟩
    exact ⟨depth, fun deeper hle => levels_reaching hlast hle⟩
  · rintro ⟨depth, hsame⟩
    by_contra hends
    have hlength : ∀ d, ((h.reaching d).levels t).length = d + 1 := by
      intro d
      rw [levels_reaching_eq]
      exact length_levelsFrom fun hnil => hends ⟨_, hnil⟩
    have hdeeper := congrArg List.length (hsame (depth + 1) (Nat.le_succ depth))
    rw [hlength, hlength] at hdeeper
    omega

end BoundMarkup.Hierarchy
