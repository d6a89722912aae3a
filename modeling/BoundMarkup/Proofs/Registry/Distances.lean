/-
  BoundMarkup.Proofs.Registry.Distances
  ─────────────────────────────────────
  **LEVELS ARE DISTANCES.**

  A supertype stands at the distance of the shortest chain of direct bases that
  leads to it (`Hierarchy.AtDistance`).  The search reaches each at just that level
  (`Hierarchy.mem_level_iff`), so its levels are the distances, as deep as it goes
  (`Hierarchy.exists_level_iff`).

  Arguments do not matter to which definitions are met on the way: those of the
  supertypes are the ones reached along the edges of definitions
  (`Hierarchy.exists_above_iff`), and a path that repeats no definition has no more
  steps than there are edges (`Hierarchy.mem_definitionsWithin_edges`).
-/
import BoundMarkup.Proofs.Registry.Declared
import BoundMarkup.Proofs.Registry.Swelling

namespace BoundMarkup.Hierarchy

variable {h : Hierarchy} {t u v : TypeRef} {j k n : Nat}

/-! ## §1. Distances. -/

/-- A chain of `n` direct bases leads from a type to another one. -/
inductive Chain (h : Hierarchy) (t : TypeRef) : Nat → TypeRef → Prop where
  | refl : Chain h t 0 t
  | step {n : Nat} {u v : TypeRef} (chain : Chain h t n u) (base : v ∈ h.directBases u) :
      Chain h t (n + 1) v

/-- **The distance of a supertype** is the length of the shortest chain to it. -/
structure AtDistance (h : Hierarchy) (t : TypeRef) (k : Nat) (u : TypeRef) : Prop where
  chain : h.Chain t k u
  shortest : ∀ j < k, ¬ h.Chain t j u

/-- What a level has is reached by a chain of its length. -/
theorem chain_of_mem_level : ∀ {n : Nat} {u : TypeRef}, u ∈ h.level t n → h.Chain t n u
  | 0, u, hu => by
      rw [List.mem_singleton.1 hu]
      exact .refl
  | n + 1, v, hv => by
      obtain ⟨⟨u, hu, hbase⟩, -⟩ := mem_nextLevel.1 hv
      exact (chain_of_mem_level hu).step hbase

/-- **What has been seen** is what chains of at most that length lead to. -/
theorem mem_seen_iff_chain : u ∈ h.seen t n ↔ ∃ j ≤ n, h.Chain t j u := by
  constructor
  · intro hu
    induction n with
    | zero =>
        rw [List.mem_singleton.1 hu]
        exact ⟨0, Nat.le_refl 0, .refl⟩
    | succ n ih =>
        rcases List.mem_append.1 hu with hu | hu
        · obtain ⟨j, hj, hchain⟩ := ih hu
          exact ⟨j, Nat.le_succ_of_le hj, hchain⟩
        · exact ⟨n + 1, Nat.le_refl _, chain_of_mem_level hu⟩
  · rintro ⟨j, hj, hchain⟩
    induction n generalizing j u with
    | zero =>
        obtain rfl := Nat.le_zero.1 hj
        cases hchain
        exact List.mem_singleton_self t
    | succ n ih =>
        cases hchain with
        | refl => exact seen_subset_succ (ih 0 (Nat.zero_le n) .refl)
        | @step j w _ hchain hbase =>
            -- The base before it has been seen, so its own bases have been, or are new.
            have hw := ih j (Nat.le_of_succ_le_succ hj) hchain
            by_cases hseen : u ∈ h.seen t n
            · exact seen_subset_succ hseen
            · rcases mem_level_or_directBases_seen hw with hlevel | hbases
              · exact List.mem_append_right _ (mem_nextLevel.2 ⟨⟨w, hlevel, hbase⟩, hseen⟩)
              · exact absurd (hbases u hbase) hseen

/-- **A level has the types at its distance**, and no others. -/
theorem mem_level_iff : u ∈ h.level t k ↔ h.AtDistance t k u := by
  cases k with
  | zero =>
      constructor
      · exact fun hu => ⟨chain_of_mem_level hu, nofun⟩
      · rintro ⟨hchain, -⟩
        cases hchain
        exact List.mem_singleton_self t
  | succ k =>
      constructor
      · intro hu
        have hnew := (mem_nextLevel.1 hu).2
        refine ⟨chain_of_mem_level hu, fun j hj hchain => hnew ?_⟩
        exact mem_seen_iff_chain.2 ⟨j, Nat.le_of_lt_succ hj, hchain⟩
      · rintro ⟨hchain, hshortest⟩
        have hseen : u ∈ h.seen t (k + 1) := mem_seen_iff_chain.2 ⟨k + 1, Nat.le_refl _, hchain⟩
        refine (List.mem_append.1 hseen).resolve_left fun hbefore => ?_
        obtain ⟨j, hj, hchain'⟩ := mem_seen_iff_chain.1 hbefore
        exact hshortest j (Nat.lt_succ_of_le hj) hchain'

/-- Where there are finitely many supertypes, none is as far away as they are many. -/
theorem AtDistance.lt_ncard (hu : h.AtDistance t k u) (hfinite : (h.above t).Finite) :
    k < (h.above t).ncard := by
  by_contra hle
  have hnil := level_eq_nil_of_le (level_eq_nil_of_finite hfinite) (Nat.le_of_not_lt hle)
  have hmem := mem_level_iff.2 hu
  rw [hnil] at hmem
  cases hmem

/-! ## §2. Levels. -/

/-- What stands behind the first levels of a search: the levels that are not empty, as deep as
the search goes. -/
theorem getElem?_levelsFrom {level : List TypeRef} : ∀ {k n depth : Nat}, h.level t n ≠ [] →
    ((h.levelsFrom depth (h.seen t n) (h.level t n))[k]? = some level
      ↔ k ≤ depth ∧ level = h.level t (n + k) ∧ level ≠ []) := by
  intro k
  induction k with
  | zero =>
      intro n depth hn
      rw [levelsFrom_eq_cons, List.getElem?_cons_zero, Option.some.injEq]
      constructor
      · rintro rfl
        exact ⟨Nat.zero_le depth, rfl, hn⟩
      · rintro ⟨-, rfl, -⟩
        rfl
  | succ k ih =>
      intro n depth hn
      by_cases hnext : h.level t (n + 1) = []
      · have hnil : h.level t (n + (k + 1)) = [] := level_eq_nil_of_le hnext (by omega)
        rw [levelsFrom_last hnext, hnil]
        exact ⟨nofun, fun ⟨_, heq, hne⟩ => absurd heq hne⟩
      · cases depth with
        | zero => exact ⟨nofun, fun ⟨hle, _⟩ => absurd hle (Nat.not_succ_le_zero k)⟩
        | succ depth =>
            rw [levelsFrom_next hnext, List.getElem?_cons_succ, ih hnext,
              Nat.succ_add_eq_add_succ, Nat.succ_le_succ_iff]

/-- No level is empty. -/
theorem ne_nil_of_mem_levels {level : List TypeRef} (hlevel : level ∈ h.levels t) :
    level ≠ [] := by
  obtain ⟨k, hk⟩ := List.mem_iff_getElem?.1 hlevel
  exact ((getElem?_levelsFrom (n := 0) (List.cons_ne_nil t [])).1 hk).2.2

/-- **The levels have the types at their distances**, as deep as the search goes. -/
theorem exists_level_iff : (∃ level, (h.levels t)[k]? = some level ∧ u ∈ level)
    ↔ k ≤ h.reach ∧ h.AtDistance t k u := by
  have hget (level : List TypeRef) : (h.levels t)[k]? = some level
      ↔ k ≤ h.reach ∧ level = h.level t (0 + k) ∧ level ≠ [] :=
    getElem?_levelsFrom (n := 0) (List.cons_ne_nil t [])
  rw [← mem_level_iff]
  constructor
  · rintro ⟨level, hlevel, hu⟩
    obtain ⟨hle, rfl, -⟩ := (hget level).1 hlevel
    rw [Nat.zero_add] at hu
    exact ⟨hle, hu⟩
  · rintro ⟨hle, hu⟩
    refine ⟨h.level t k, (hget _).2 ⟨hle, ?_, List.ne_nil_of_mem hu⟩, hu⟩
    rw [Nat.zero_add]

/-- What is in some level has been seen once the search stops. -/
theorem flatten_levels (h : Hierarchy) (t : TypeRef) :
    (h.levels t).flatten = h.seen t h.reach := by
  have hlevels := levelsFrom_seen h t h.reach 0
  rw [Nat.zero_add] at hlevels
  rw [← hlevels, levels_eq_cons]
  rfl

/-- **No type stands in two levels**, or in one twice. -/
theorem nodup_flatten_levels (h : Hierarchy) (t : TypeRef) : (h.levels t).flatten.Nodup := by
  rw [flatten_levels]
  exact nodup_seen h t h.reach

/-! ## §3. Definitions. -/

/-- One of the definitions is one edge away from the other. -/
def LeadsTo (h : Hierarchy) (a b : TypeId) : Prop := b ∈ h.directDefinitions a

variable {a b c : TypeId}

theorem leadsTo_iff : h.LeadsTo a b
    ↔ ∃ e ∈ h.edges, e.derived = a ∧ e.base.definition? = some b := by
  unfold LeadsTo directDefinitions
  rw [List.mem_filterMap]
  simp only [List.mem_filter, beq_iff_eq, and_assoc]

/-- One more edge, from any of the definitions. -/
def furtherDefinitions (h : Hierarchy) (ids : List TypeId) : List TypeId :=
  distinct (ids ++ ids.flatMap h.directDefinitions)

theorem mem_furtherDefinitions {ids : List TypeId} :
    b ∈ h.furtherDefinitions ids ↔ b ∈ ids ∨ ∃ a ∈ ids, h.LeadsTo a b := by
  unfold furtherDefinitions LeadsTo
  rw [mem_distinct, List.mem_append, List.mem_flatMap]

/-- The last edge of the search as its own step. -/
theorem definitionsWithin_succ (h : Hierarchy) : ∀ (n : Nat) (ids : List TypeId),
    h.definitionsWithin (n + 1) ids = h.furtherDefinitions (h.definitionsWithin n ids)
  | 0, _ => rfl
  | n + 1, ids => h.definitionsWithin_succ n (h.furtherDefinitions ids)

theorem mem_definitionsWithin_succ : b ∈ h.definitionsWithin (n + 1) [a]
    ↔ b ∈ h.definitionsWithin n [a] ∨ ∃ c ∈ h.definitionsWithin n [a], h.LeadsTo c b := by
  rw [definitionsWithin_succ, mem_furtherDefinitions]

/-- Only definitions along the edges are found. -/
theorem reaches_of_mem_definitionsWithin : ∀ {n : Nat} {b : TypeId},
    b ∈ h.definitionsWithin n [a] → Relation.ReflTransGen h.LeadsTo a b
  | 0, b, hb => by
      rw [List.mem_singleton.1 hb]
  | n + 1, b, hb => by
      rcases mem_definitionsWithin_succ.1 hb with hb | ⟨c, hc, hleads⟩
      · exact reaches_of_mem_definitionsWithin hb
      · exact (reaches_of_mem_definitionsWithin hc).tail hleads

theorem self_mem_definitionsWithin (h : Hierarchy) (a : TypeId) : ∀ n,
    a ∈ h.definitionsWithin n [a]
  | 0 => List.mem_singleton_self a
  | n + 1 => mem_definitionsWithin_succ.2 (.inl (h.self_mem_definitionsWithin a n))

/-- No edge leads out of what has been found. -/
def Saturated (h : Hierarchy) (a : TypeId) (n : Nat) : Prop :=
  ∀ c ∈ h.definitionsWithin n [a], ∀ b, h.LeadsTo c b → b ∈ h.definitionsWithin n [a]

theorem Saturated.succ (hsat : h.Saturated a n) : h.Saturated a (n + 1) := by
  intro c hc b hleads
  refine mem_definitionsWithin_succ.2 (.inr ⟨c, ?_, hleads⟩)
  rcases mem_definitionsWithin_succ.1 hc with hc | ⟨d, hd, hleads'⟩
  · exact hc
  · exact hsat d hd c hleads'

/-- The definitions that can be found: the first one, and the ends of edges. -/
def definitionsBehind (h : Hierarchy) (a : TypeId) : Finset TypeId :=
  insert a (h.edges.filterMap (fun e => e.base.definition?)).toFinset

theorem mem_definitionsBehind_of_leadsTo (hleads : h.LeadsTo c b) : b ∈ h.definitionsBehind a := by
  obtain ⟨e, he, -, hb⟩ := leadsTo_iff.1 hleads
  exact Finset.mem_insert_of_mem (List.mem_toFinset.2 (List.mem_filterMap.2 ⟨e, he, hb⟩))

theorem definitionsWithin_subset_behind (h : Hierarchy) (a : TypeId) (n : Nat) :
    (h.definitionsWithin n [a]).toFinset ⊆ h.definitionsBehind a := by
  intro b hb
  obtain rfl | ⟨c, -, hleads⟩ :=
    (reaches_of_mem_definitionsWithin (List.mem_toFinset.1 hb)).cases_tail
  · exact Finset.mem_insert_self _ _
  · exact mem_definitionsBehind_of_leadsTo hleads

theorem card_definitionsBehind_le (h : Hierarchy) (a : TypeId) :
    (h.definitionsBehind a).card ≤ h.edges.length + 1 := by
  refine (Finset.card_insert_le _ _).trans (Nat.succ_le_succ ?_)
  exact (List.toFinset_card_le _).trans (List.length_filterMap_le _ _)

/-- Each step finds something new, unless nothing is left to find. -/
theorem saturated_or_card (h : Hierarchy) (a : TypeId) : ∀ n,
    h.Saturated a n ∨ n + 1 ≤ (h.definitionsWithin n [a]).toFinset.card
  | 0 => .inr (Finset.card_pos.2 ⟨a, List.mem_toFinset.2 (List.mem_singleton_self a)⟩)
  | n + 1 => by
      rcases saturated_or_card h a n with hsat | hcard
      · exact .inl hsat.succ
      · by_cases hsat : h.Saturated a n
        · exact .inl hsat.succ
        · refine .inr (Nat.lt_of_le_of_lt hcard (Finset.card_lt_card ?_))
          simp only [Saturated, not_forall] at hsat
          obtain ⟨c, hc, b, hleads, hnew⟩ := hsat
          refine ⟨fun d hd => ?_, fun hsubset => hnew ?_⟩
          · exact List.mem_toFinset.2 (mem_definitionsWithin_succ.2 (.inl (List.mem_toFinset.1 hd)))
          · refine List.mem_toFinset.1 (hsubset (List.mem_toFinset.2 ?_))
            exact mem_definitionsWithin_succ.2 (.inr ⟨c, hc, hleads⟩)

/-- After as many steps as there are edges nothing is left to find. -/
theorem saturated_edges (h : Hierarchy) (a : TypeId) : h.Saturated a h.edges.length := by
  rcases saturated_or_card h a h.edges.length with hsat | hcard
  · exact hsat
  · have hall := Finset.eq_of_subset_of_card_le (h.definitionsWithin_subset_behind a h.edges.length)
      ((h.card_definitionsBehind_le a).trans hcard)
    intro c _ b hleads
    rw [← List.mem_toFinset, hall]
    exact mem_definitionsBehind_of_leadsTo hleads

/-- **The search of definitions finds all that edges lead to.** -/
theorem mem_definitionsWithin_edges :
    b ∈ h.definitionsWithin h.edges.length [a] ↔ Relation.ReflTransGen h.LeadsTo a b := by
  refine ⟨reaches_of_mem_definitionsWithin, fun hreaches => ?_⟩
  induction hreaches with
  | refl => exact h.self_mem_definitionsWithin a _
  | tail _ hleads ih => exact h.saturated_edges a _ ih _ hleads

/-- Between two definitions the answer is whether edges lead from one to the other. -/
theorem derivesFrom_iff_reaches (hne : a ≠ b) :
    h.derivesFrom a b = true ↔ Relation.ReflTransGen h.LeadsTo a b := by
  unfold derivesFrom
  rw [Bool.and_eq_true, Bool.and_eq_true, decide_eq_true_iff, mem_definitionsWithin_edges]
  refine ⟨And.right, fun hreaches => ⟨⟨?_, ?_⟩, hreaches⟩⟩
  · obtain heq | ⟨c, hleads, -⟩ := hreaches.cases_head
    · exact absurd heq hne
    · obtain ⟨e, he, rfl, -⟩ := leadsTo_iff.1 hleads
      exact List.any_eq_true.2 ⟨e, he, by simp⟩
  · obtain heq | ⟨c, -, hleads⟩ := hreaches.cases_tail
    · exact absurd heq.symm hne
    · obtain ⟨e, he, -, hb⟩ := leadsTo_iff.1 hleads
      exact List.any_eq_true.2 ⟨e, he, by simp [hb]⟩

/-! ## §4. Types and their definitions. -/

/-- **The definitions of supertypes** are those that edges lead to, whatever the arguments. -/
theorem exists_above_iff (hdeclared : h.Declared) (ht : t.definition? = some a) :
    (∃ u ∈ h.above t, u.definition? = some b) ↔ Relation.ReflTransGen h.LeadsTo a b := by
  constructor
  · rintro ⟨u, hu, hb⟩
    induction hu generalizing b with
    | refl =>
        rw [ht] at hb
        rw [Option.some.inj hb]
    | @tail u v _ hstep ih =>
        obtain ⟨e, he, hderived, rfl⟩ := mem_directBases.1 hstep
        obtain ⟨base, hbase⟩ := Option.isSome_iff_exists.1 (hdeclared e he)
        rw [TypeRef.definition?_substitute hbase] at hb
        cases hb
        exact (ih hderived).tail (leadsTo_iff.2 ⟨e, he, rfl, hbase⟩)
  · intro hreaches
    induction hreaches with
    | refl => exact ⟨t, mem_above_self h t, ht⟩
    | tail _ hleads ih =>
        obtain ⟨u, hu, hdefinition⟩ := ih
        obtain ⟨e, he, rfl, hbase⟩ := leadsTo_iff.1 hleads
        refine ⟨_, hu.tail (mem_directBases.2 ⟨e, he, hdefinition, rfl⟩), ?_⟩
        exact TypeRef.definition?_substitute hbase _

/-- The hierarchy with the given direct bases, recorded one after the other. -/
def ofBases (bases : List (TypeId × TypeRef)) : Hierarchy :=
  bases.foldl (fun h b => h.addBase b.1 b.2) .empty

/-- Only declared types are recorded as bases. -/
theorem Declared.addBase (hdeclared : h.Declared) (derived : TypeId) (base : TypeRef) :
    (h.addBase derived base).Declared := by
  unfold Hierarchy.addBase
  split
  · rename_i hbase
    refine List.forall_mem_append.2 ⟨hdeclared, List.forall_mem_singleton.2 ?_⟩
    rw [hbase]
    rfl
  · exact hdeclared

theorem declared_ofBases (bases : List (TypeId × TypeRef)) : (ofBases bases).Declared := by
  unfold ofBases
  exact List.foldlRecOn bases _ nofun fun h hdeclared b _ => hdeclared.addBase b.1 b.2

/-- **Levels are exact distances**, however bases were recorded.  For a type with finitely many
supertypes, and a search that goes at least as deep as they are many: the `k`-th level has just
the types at distance `k`, none of them twice or in another level, and no level is empty.
A definition derives from another one just if that is the definition of a type in the levels of
its types. -/
theorem levels_exact (bases : List (TypeId × TypeRef)) (t : TypeRef)
    (finite : ((ofBases bases).above t).Finite) (depth : Nat)
    (deep : ((ofBases bases).above t).ncard ≤ depth) :
    let h := (ofBases bases).reaching depth
    (∀ k u, (∃ level, (h.levels t)[k]? = some level ∧ u ∈ level) ↔ h.AtDistance t k u)
      ∧ (h.levels t).flatten.Nodup ∧ (∀ level ∈ h.levels t, level ≠ [])
      ∧ ∀ a b, t.definition? = some a → a ≠ b →
        (h.derivesFrom a b = true ↔ ∃ u ∈ (h.levels t).flatten, u.definition? = some b) := by
  intro h
  have habove : h.above t = (ofBases bases).above t := rfl
  rw [← habove] at finite deep
  have hlast : h.level t h.reach = [] := level_eq_nil_of_le (level_eq_nil_of_finite finite) deep
  refine ⟨fun k u => ?_, nodup_flatten_levels h t, fun level => ne_nil_of_mem_levels, ?_⟩
  · rw [exists_level_iff]
    refine ⟨And.right, fun hu => ⟨?_, hu⟩⟩
    exact Nat.le_of_lt (Nat.lt_of_lt_of_le (hu.lt_ncard finite) deep)
  · intro a b ha hne
    have hdeclared : h.Declared := declared_ofBases bases
    rw [derivesFrom_iff_reaches hne, ← exists_above_iff hdeclared ha, flatten_levels]
    simp only [mem_seen_iff hlast]

def boxName : String := withArity "App.Box" 1

def leaf : TypeRef := .simple "App.Leaf"

def boxedLeaf : TypeRef := .named boxName [leaf]

/-- Two ways from a leaf to its box, and from the box by the root back to the leaf. -/
def groveBases : List (TypeId × TypeRef) :=
  [(.ofName "App.Leaf", .simple "App.Branch"), (.ofName "App.Leaf", boxedLeaf),
    (.ofName "App.Branch", boxedLeaf), (.ofName boxName, .simple "App.Root"),
    (.ofName "App.Root", leaf)]

/-- The types above the leaf, the leaf itself included. -/
def grove : List TypeRef := [leaf, .simple "App.Branch", boxedLeaf, .simple "App.Root"]

theorem above_leaf_subset : (ofBases groveBases).above leaf ⊆ {u | u ∈ grove} := by
  have hclosed : ∀ u ∈ grove, ∀ v ∈ (ofBases groveBases).directBases u, v ∈ grove := by
    decide +kernel
  exact above_subset List.mem_cons_self hclosed

/-- The root is two steps away from the leaf, though no step leads to it from the branch. -/
theorem levels_exact_grove : ((ofBases groveBases).above leaf).Finite
    ∧ ((ofBases groveBases).above leaf).ncard ≤ grove.length
    ∧ ((ofBases groveBases).reaching grove.length).AtDistance leaf 2 (.simple "App.Root")
    ∧ ((ofBases groveBases).reaching grove.length).derivesFrom (.ofName "App.Leaf")
        (.ofName "App.Root") = true := by
  have finite := (List.finite_toSet grove).subset above_leaf_subset
  have deep : ((ofBases groveBases).above leaf).ncard ≤ grove.length := by
    refine (Set.ncard_le_ncard above_leaf_subset (List.finite_toSet grove)).trans ?_
    rw [← List.coe_toFinset, Set.ncard_coe_finset]
    exact List.toFinset_card_le grove
  obtain ⟨hlevels, -, -, hderives⟩ := levels_exact groveBases leaf finite grove.length deep
  refine ⟨finite, deep, (hlevels 2 _).1 ?_, (hderives _ _ rfl (by decide +kernel)).2 ?_⟩
  · exact ⟨[.simple "App.Root"], by decide +kernel, List.mem_cons_self⟩
  · exact ⟨.simple "App.Root", by decide +kernel, rfl⟩

end BoundMarkup.Hierarchy
