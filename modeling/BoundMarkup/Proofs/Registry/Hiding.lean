/-
  BoundMarkup.Proofs.Registry.Hiding
  ──────────────────────────────────
  **WHAT NEARER MEMBERS HIDE.**

  A type offers members at several depths: what it has by nature, then what the
  types of its first level declare, then those of the next.  Whether a member is
  visible is said without any state (`Registry.VisibleAt`): no member that is
  visible at a smaller depth hides it.  Main statements:

    • the answer lists exactly the visible members, nearer ones first and none
      twice (`Registry.members_visible`): what has been found so far hides what the
      visible members hide (`Registry.hides_add`),
    • of the methods with the same parameter types those at the least distance are
      visible, and all of them (`Registry.shows_iff_level_eq`).

  So a type and one of its supertypes may both show such a method, if they stand at
  the same distance (`Registry.not_hidden_reader`).
-/
import BoundMarkup.Proofs.Registry.Visibility

namespace BoundMarkup

/-! ## §1. One member hides another. -/

namespace Member

/-- **The member hides others of its name**: all of them if it is no method, and otherwise the
methods with its parameter types. -/
def Hides (near far : Member) : Prop :=
  near.isMethod = false ∨ ∃ s, near.signature? = some s ∧ far.signature? = some s

/-- Every member hides itself. -/
theorem hides_self (m : Member) : m.Hides m := by
  cases m with
  | method m => exact .inr ⟨m.signature, rfl, rfl⟩
  | property p => exact .inl rfl
  | nested name type => exact .inl rfl

/-- What is hidden depends on the parameter types alone. -/
theorem Hides.congr {near far far' : Member} (h : near.Hides far)
    (same : far.signature? = far'.signature?) : near.Hides far' := by
  rcases h with hall | ⟨s, hnear, hfar⟩
  · exact .inl hall
  · exact .inr ⟨s, hnear, same ▸ hfar⟩

end Member

namespace Registry

/-! ## §2. What is offered, and what is visible. -/

section Offers

variable (r : Registry) (t : TypeRef) (name : String) (isStatic : Bool)

/-- A type declares a member under the name, static or not as asked.  On the type itself the
generic parameters of the declaration are replaced. -/
inductive Owns (u : TypeRef) : Member → Prop where
  | declared {e : TypeEntry} {d : Member} (entry : r.entryOf? u = some e) (mem : d ∈ e.members)
      (named : d.name = name) (reached : d.isStatic = isStatic) : Owns u (d.instantiate u)

/-- A type stands in a level of the supertypes. -/
def StandsIn (k : Nat) (u : TypeRef) : Prop := ∃ level, (r.levels t)[k]? = some level ∧ u ∈ level

/-- **What is offered at each depth**: at no depth what the type has by nature, and then level
by level what the types of the level declare. -/
inductive Offered : Nat → Member → Prop where
  | nature {x : Member} (ofValue : isStatic = false) (intrinsic : intrinsic? t name = some x) :
      Offered 0 x
  | owned {k : Nat} {u : TypeRef} {x : Member} (stands : r.StandsIn t k u)
      (owns : r.Owns name isStatic u x) : Offered (k + 1) x

/-- **The member is visible at the depth**: it is offered there, and no member that is visible
at a smaller depth hides it. -/
def VisibleAt (k : Nat) (x : Member) : Prop :=
  r.Offered t name isStatic k x ∧ ∀ j, j < k → ∀ y, VisibleAt j y → ¬ y.Hides x
termination_by k

end Offers

variable {r : Registry} {t : TypeRef} {name : String} {isStatic : Bool}

theorem VisibleAt.offered {k : Nat} {x : Member} (h : r.VisibleAt t name isStatic k x) :
    r.Offered t name isStatic k x := by
  rw [VisibleAt] at h
  exact h.1

/-- What is visible is not hidden by what is visible nearer. -/
theorem VisibleAt.not_hides {j k : Nat} {x y : Member} (h : r.VisibleAt t name isStatic k x)
    (hj : j < k) (hy : r.VisibleAt t name isStatic j y) : ¬ y.Hides x := by
  rw [VisibleAt] at h
  exact h.2 j hj y hy

theorem mem_declaredMembers_iff {u : TypeRef} {x : Member} :
    x ∈ r.declaredMembers name isStatic u ↔ r.Owns name isStatic u x := by
  constructor
  · intro h
    unfold declaredMembers at h
    split at h
    · rename_i e he
      obtain ⟨d, hd, rfl⟩ := List.mem_map.1 h
      obtain ⟨hnamed, hstatic⟩ := List.mem_filter.1 hd
      obtain ⟨hmem, hname⟩ := List.mem_filter.1 hnamed
      exact .declared he hmem (eq_of_beq hname) (eq_of_beq hstatic)
    · cases h
  · rintro ⟨he, hmem, hname, hstatic⟩
    unfold declaredMembers
    rw [he]
    refine List.mem_map.2 ⟨_, List.mem_filter.2 ⟨List.mem_filter.2 ⟨hmem, ?_⟩, ?_⟩, rfl⟩
    · exact beq_iff_eq.2 hname
    · exact beq_iff_eq.2 hstatic

theorem offered_succ_iff {k : Nat} {x : Member} : r.Offered t name isStatic (k + 1) x ↔
    ∃ level, (r.levels t)[k]? = some level ∧
      x ∈ level.flatMap (r.declaredMembers name isStatic) := by
  constructor
  · rintro (_ | ⟨⟨level, hlevel, hu⟩, howns⟩)
    exact ⟨level, hlevel, List.mem_flatMap.2 ⟨_, hu, mem_declaredMembers_iff.2 howns⟩⟩
  · rintro ⟨level, hlevel, hx⟩
    obtain ⟨u, hu, hx⟩ := List.mem_flatMap.1 hx
    exact .owned ⟨level, hlevel, hu⟩ (mem_declaredMembers_iff.1 hx)

/-! ## §3. What has been found so far. -/

theorem hides_iff {hidden : Hiding} {x : Member} : hidden.hides x = true ↔
    hidden.all = true ∨ ∃ s ∈ hidden.signatures, x.signature? = some s := by
  unfold Hiding.hides Member.signature?
  cases x.method? <;> simp

/-- **One level more hides what its members hide.** -/
theorem hides_add {hidden : Hiding} {found : List Member} {x : Member} :
    (hidden.add found).hides x = true ↔ hidden.hides x = true ∨ ∃ y ∈ found, y.Hides x := by
  rw [hides_iff, hides_iff, signatures_add]
  have hall : (hidden.add found).all = true
      ↔ hidden.all = true ∨ ∃ y ∈ found, y.isMethod = false := by
    unfold Hiding.add
    simp
  rw [hall]
  constructor
  · rintro ((h | ⟨y, hy, hmethod⟩) | ⟨s, hs, hx⟩)
    · exact .inl (.inl h)
    · exact .inr ⟨y, hy, .inl hmethod⟩
    · rcases List.mem_append.1 hs with hs | hs
      · exact .inl (.inr ⟨s, hs, hx⟩)
      · obtain ⟨y, hy, hys⟩ := List.mem_filterMap.1 hs
        exact .inr ⟨y, hy, .inr ⟨s, hys, hx⟩⟩
  · rintro ((h | ⟨s, hs, hx⟩) | ⟨y, hy, hmethod | ⟨s, hys, hx⟩⟩)
    · exact .inl (.inl h)
    · exact .inr ⟨s, List.mem_append_left _ hs, hx⟩
    · exact .inl (.inr ⟨y, hy, hmethod⟩)
    · exact .inr ⟨s, List.mem_append_right _ (List.mem_filterMap.2 ⟨y, hy, hys⟩), hx⟩

theorem hides_add_eq_false_iff {hidden : Hiding} {found : List Member} {x : Member} :
    (hidden.add found).hides x = false
      ↔ hidden.hides x = false ∧ ∀ y ∈ found, ¬ y.Hides x := by
  rw [← Bool.not_eq_true, ← Bool.not_eq_true, hides_add, not_or]
  refine and_congr_right fun _ => ?_
  exact ⟨fun hnone y hy hhides => hnone ⟨y, hy, hhides⟩,
    fun hall ⟨y, hy, hhides⟩ => hall y hy hhides⟩

/-- The visible members, level by level. -/
def shownBy (r : Registry) (name : String) (isStatic : Bool) :
    Hiding → List (List TypeRef) → List (List Member)
  | _, [] => []
  | hidden, level :: levels =>
      let found := Hierarchy.distinct
        ((level.flatMap (r.declaredMembers name isStatic)).filter (fun m => !hidden.hides m))
      found :: r.shownBy name isStatic (hidden.add found) levels

theorem flatten_shownBy : ∀ (levels : List (List TypeRef)) (hidden : Hiding),
    (r.shownBy name isStatic hidden levels).flatten = r.visibleMembers name isStatic hidden levels
  | [], _ => rfl
  | level :: levels, hidden => by
      rw [shownBy, visibleMembers, List.flatten_cons, flatten_shownBy levels]

theorem length_shownBy : ∀ (levels : List (List TypeRef)) (hidden : Hiding),
    (r.shownBy name isStatic hidden levels).length = levels.length
  | [], _ => rfl
  | level :: levels, hidden => by
      rw [shownBy, List.length_cons, List.length_cons, length_shownBy levels]

/-- **A level shows what its types declare, and neither the levels before it nor what was
hidden before them hides.** -/
theorem mem_shownBy_iff {x : Member} : ∀ (levels : List (List TypeRef)) (hidden : Hiding) (k : Nat),
    x ∈ ((r.shownBy name isStatic hidden levels)[k]?).getD [] ↔
      (∃ level, levels[k]? = some level ∧ x ∈ level.flatMap (r.declaredMembers name isStatic))
        ∧ hidden.hides x = false
        ∧ ∀ j < k, ∀ y ∈ ((r.shownBy name isStatic hidden levels)[j]?).getD [], ¬ y.Hides x
  | [], hidden, k => by simp [shownBy]
  | level :: levels, hidden, 0 => by
      simp [shownBy, Hierarchy.mem_distinct]
  | level :: levels, hidden, k + 1 => by
      unfold shownBy
      generalize hfound : Hierarchy.distinct ((level.flatMap
        (r.declaredMembers name isStatic)).filter (fun m => !hidden.hides m)) = found
      simp only [List.getElem?_cons_succ]
      rw [mem_shownBy_iff levels (hidden.add found) k, hides_add_eq_false_iff]
      constructor
      · rintro ⟨hoffered, ⟨hhidden, hfirst⟩, hlater⟩
        refine ⟨hoffered, hhidden, fun j hj => ?_⟩
        cases j with
        | zero => exact hfirst
        | succ j => exact hlater j (Nat.lt_of_succ_lt_succ hj)
      · rintro ⟨hoffered, hhidden, hbefore⟩
        exact ⟨hoffered, ⟨hhidden, hbefore 0 (Nat.succ_pos k)⟩,
          fun j hj => hbefore (j + 1) (Nat.succ_lt_succ hj)⟩

/-- No member is shown twice, and none that was hidden before. -/
theorem nodup_visibleMembers : ∀ (levels : List (List TypeRef)) (hidden : Hiding),
    (r.visibleMembers name isStatic hidden levels).Nodup
      ∧ ∀ x ∈ r.visibleMembers name isStatic hidden levels, hidden.hides x = false
  | [], _ => ⟨List.nodup_nil, nofun⟩
  | level :: levels, hidden => by
      unfold visibleMembers
      generalize hfound : Hierarchy.distinct ((level.flatMap
        (r.declaredMembers name isStatic)).filter (fun m => !hidden.hides m)) = found
      have hown : found.Nodup := by
        rw [← hfound]
        exact Hierarchy.nodup_foldl_distinct _ [] List.nodup_nil
      have hshown : ∀ x ∈ found, hidden.hides x = false := by
        intro x hx
        rw [← hfound] at hx
        simpa using (List.mem_filter.1 (Hierarchy.mem_distinct.1 hx)).2
      obtain ⟨hrest, hlater⟩ := nodup_visibleMembers levels (hidden.add found)
      refine ⟨List.nodup_append.2 ⟨hown, hrest, fun x hx y hy heq => ?_⟩, fun x hx => ?_⟩
      · -- A member that is shown hides itself from then on.
        subst heq
        exact (hides_add_eq_false_iff.1 (hlater x hy)).2 x hx x.hides_self
      · rcases List.mem_append.1 hx with hx | hx
        · exact hshown x hx
        · exact (hides_add_eq_false_iff.1 (hlater x hx)).1

/-! ## §4. The members of a name. -/

/-- The visible members of a name: at no depth by nature, then level by level. -/
def shown (r : Registry) (t : TypeRef) (name : String) (isStatic : Bool) : List (List Member) :=
  let intrinsic := if isStatic then [] else (intrinsic? t name).toList
  intrinsic :: r.shownBy name isStatic ((Hiding.mk false []).add intrinsic) (r.levels t)

theorem members_eq_flatten : r.members t name isStatic = (r.shown t name isStatic).flatten := by
  unfold members shown
  rw [List.flatten_cons, flatten_shownBy]

theorem offered_zero_iff {x : Member} : r.Offered t name isStatic 0 x ↔
    x ∈ (if isStatic then [] else (intrinsic? t name).toList) := by
  cases isStatic with
  | true => exact iff_of_false (by rintro ⟨h, -⟩; cases h) nofun
  | false =>
      rw [if_neg Bool.false_ne_true, Option.mem_toList]
      exact ⟨fun | .nature _ h => h, fun h => .nature rfl h⟩

/-- **Each depth shows what is offered there and not hidden by what smaller depths show.** -/
theorem mem_shown_iff {x : Member} (k : Nat) : x ∈ ((r.shown t name isStatic)[k]?).getD [] ↔
    r.Offered t name isStatic k x
      ∧ ∀ j < k, ∀ y ∈ ((r.shown t name isStatic)[j]?).getD [], ¬ y.Hides x := by
  unfold shown
  generalize hintrinsic : (if isStatic then [] else (intrinsic? t name).toList) = intrinsic
  cases k with
  | zero =>
      rw [offered_zero_iff, hintrinsic]
      simp
  | succ k =>
      -- At first nothing is hidden.
      have hnone : (Hiding.mk false []).hides x = false := by simp [Hiding.hides]
      simp only [List.getElem?_cons_succ]
      rw [mem_shownBy_iff, ← offered_succ_iff, hides_add_eq_false_iff]
      constructor
      · rintro ⟨hoffered, ⟨-, hfirst⟩, hlater⟩
        refine ⟨hoffered, fun j hj => ?_⟩
        cases j with
        | zero => exact hfirst
        | succ j => exact hlater j (Nat.lt_of_succ_lt_succ hj)
      · rintro ⟨hoffered, hbefore⟩
        exact ⟨hoffered, ⟨hnone, hbefore 0 (Nat.succ_pos k)⟩,
          fun j hj => hbefore (j + 1) (Nat.succ_lt_succ hj)⟩

/-- So each depth shows what is visible there, by induction on the depth. -/
theorem mem_shown_iff_visibleAt (k : Nat) : ∀ x,
    x ∈ ((r.shown t name isStatic)[k]?).getD [] ↔ r.VisibleAt t name isStatic k x := by
  induction k using Nat.strongRecOn with
  | ind k ih =>
      intro x
      rw [mem_shown_iff, VisibleAt]
      refine and_congr_right fun _ => forall₂_congr fun j hj => ?_
      exact forall_congr' fun y => by rw [ih j hj y]

theorem mem_members_iff {x : Member} :
    x ∈ r.members t name isStatic ↔ ∃ k, r.VisibleAt t name isStatic k x := by
  rw [members_eq_flatten, List.mem_flatten]
  constructor
  · rintro ⟨found, hfound, hx⟩
    obtain ⟨k, hk⟩ := List.mem_iff_getElem?.1 hfound
    refine ⟨k, (mem_shown_iff_visibleAt k x).1 ?_⟩
    rw [hk]
    exact hx
  · rintro ⟨k, hvisible⟩
    have hx := (mem_shown_iff_visibleAt k x).2 hvisible
    cases hk : (r.shown t name isStatic)[k]? with
    | none =>
        rw [hk] at hx
        cases hx
    | some found =>
        rw [hk] at hx
        exact ⟨found, List.mem_of_getElem? hk, hx⟩

/-- No member comes twice, neither at one depth nor at two. -/
theorem nodup_members : (r.members t name isStatic).Nodup := by
  unfold members
  generalize hintrinsic : (if isStatic then [] else (intrinsic? t name).toList) = intrinsic
  have hown : intrinsic.Nodup := by
    rw [← hintrinsic]
    split
    · exact List.nodup_nil
    · cases intrinsic? t name with
      | none => exact List.nodup_nil
      | some x => exact List.nodup_singleton x
  have hlevels := @nodup_visibleMembers r name isStatic (r.levels t)
    ((Hiding.mk false []).add intrinsic)
  refine List.nodup_append.2 ⟨hown, hlevels.1, fun x hx y hy heq => ?_⟩
  subst heq
  exact (hides_add_eq_false_iff.1 (hlevels.2 x hy)).2 x hx x.hides_self

/-- A member that stays out is hidden by one that is visible nearer. -/
theorem exists_hides_of_not_visibleAt {k : Nat} {x : Member}
    (offered : r.Offered t name isStatic k x) (hidden : ¬ r.VisibleAt t name isStatic k x) :
    ∃ j < k, ∃ y, r.VisibleAt t name isStatic j y ∧ y.Hides x := by
  by_contra hnone
  refine hidden ?_
  rw [VisibleAt]
  exact ⟨offered, fun j hj y hy hhides => hnone ⟨j, hj, y, hy, hhides⟩⟩

/-- **The members of a name are those that no nearer visible member hides**, on any type of any
registry.  They come depth by depth, nearer ones first: what an array or a nullable wrapper has
by nature, and then each level, whose types declare them.  None comes twice, and for each that
is offered and left out there is a nearer one that is visible and hides it. -/
theorem members_visible (r : Registry) (t : TypeRef) (name : String) (isStatic : Bool) :
    (∃ shown : List (List Member), r.members t name isStatic = shown.flatten
        ∧ shown.length = (r.levels t).length + 1
        ∧ ∀ k x, x ∈ (shown[k]?).getD [] ↔ r.VisibleAt t name isStatic k x)
      ∧ (r.members t name isStatic).Nodup
      ∧ ∀ k x, r.Offered t name isStatic k x → ¬ r.VisibleAt t name isStatic k x →
        ∃ j < k, ∃ y, r.VisibleAt t name isStatic j y ∧ y.Hides x := by
  refine ⟨⟨r.shown t name isStatic, members_eq_flatten, ?_, mem_shown_iff_visibleAt⟩, ?_,
    fun k x => exists_hides_of_not_visibleAt⟩
  · unfold shown
    rw [List.length_cons, length_shownBy]
  · exact nodup_members

/-! ## §5. Methods with the same parameter types. -/

/-- **The type shows the method**: it stands in the level, declares the method, and the method
is visible there. -/
structure Shows (r : Registry) (t : TypeRef) (name : String) (isStatic : Bool) (k : Nat)
    (u : TypeRef) (m : Method) : Prop where
  stands : r.StandsIn t k u
  owns : r.Owns name isStatic u (.method m)
  visible : r.VisibleAt t name isStatic (k + 1) (.method m)

theorem mem_methods_iff {m : Method} :
    m ∈ r.methods t name isStatic ↔ .method m ∈ r.members t name isStatic := by
  unfold methods
  rw [List.mem_filterMap]
  constructor
  · rintro ⟨x, hx, hxm⟩
    cases x with
    | method m' => exact Option.some.inj hxm ▸ hx
    | property p => cases hxm
    | nested name type => cases hxm
  · exact fun hm => ⟨_, hm, rfl⟩

/-- A method is a member by no nature, so some type of some level shows it. -/
theorem mem_methods_iff_shows {m : Method} :
    m ∈ r.methods t name isStatic ↔ ∃ k u, r.Shows t name isStatic k u m := by
  rw [mem_methods_iff, mem_members_iff]
  constructor
  · rintro ⟨k, hvisible⟩
    cases hvisible.offered with
    | nature _ hintrinsic => exact absurd hintrinsic intrinsic?_ne_method
    | owned hstands howns => exact ⟨_, _, hstands, howns, hvisible⟩
  · rintro ⟨k, u, hshows⟩
    exact ⟨k + 1, hshows.visible⟩

/-- **Nearer methods hide farther ones with their parameter types, and none at their own
distance.** -/
theorem shows_iff_level_eq {m n : Method} {j k : Nat} {u v : TypeRef}
    (same : m.signature = n.signature) (hu : r.Shows t name isStatic j u m)
    (stands : r.StandsIn t k v) (owns : r.Owns name isStatic v (.method n)) :
    j ≤ k ∧ (r.Shows t name isStatic k v n ↔ k = j) := by
  have hsame : (Member.method m).signature? = (Member.method n).signature? := congrArg some same
  have hoffered : r.Offered t name isStatic (k + 1) (.method n) := .owned stands owns
  -- What hides one of the two methods hides the other.
  have hvisible (hle : k ≤ j) : r.VisibleAt t name isStatic (k + 1) (.method n) := by
    by_contra hhidden
    obtain ⟨i, hi, y, hy, hhides⟩ := exists_hides_of_not_visibleAt hoffered hhidden
    exact hu.visible.not_hides (Nat.lt_of_lt_of_le hi (Nat.succ_le_succ hle)) hy
      (hhides.congr hsame.symm)
  have hle : j ≤ k := by
    by_contra hlt
    have hkj : k < j := Nat.lt_of_not_le hlt
    exact hu.visible.not_hides (Nat.succ_lt_succ hkj) (hvisible (Nat.le_of_lt hkj))
      ((Member.hides_self _).congr hsame.symm)
  refine ⟨hle, fun hv => ?_, fun heq => ⟨stands, owns, hvisible (Nat.le_of_eq heq)⟩⟩
  by_contra hne
  have hjk : j < k := Nat.lt_of_le_of_ne hle (Ne.symm hne)
  exact hv.visible.not_hides (Nat.succ_lt_succ hjk) hu.visible
    ((Member.hides_self _).congr hsame)

/-- **Of the methods with the same parameter types the nearest are visible**: all that are
declared at the least distance, and no others.  So two of them are visible together only if
their types stand at the same distance, and where no type stands in one level with a supertype,
no type shows such a method beside its supertype. -/
theorem nearest_shown (r : Registry) (t : TypeRef) (name : String) (isStatic : Bool) :
    (∀ m, m ∈ r.methods t name isStatic ↔ ∃ k u, r.Shows t name isStatic k u m)
      ∧ (∀ {m n : Method} {j k : Nat} {u v : TypeRef}, m.signature = n.signature →
        r.Shows t name isStatic j u m → r.StandsIn t k v → r.Owns name isStatic v (.method n) →
        j ≤ k ∧ (r.Shows t name isStatic k v n ↔ k = j))
      ∧ ((∀ k u v, r.StandsIn t k u → r.StandsIn t k v → v ∈ r.supertypes u → v = u) →
        ∀ {m n : Method} {j k : Nat} {u v : TypeRef}, m.signature = n.signature →
        r.Shows t name isStatic j u m → r.Shows t name isStatic k v n →
        v ∈ r.supertypes u → v = u) := by
  refine ⟨fun m => mem_methods_iff_shows, shows_iff_level_eq, ?_⟩
  intro hlevels m n j k u v same hu hv hbase
  have heq : k = j := (shows_iff_level_eq same hu hv.stands hv.owns).2.1 hv
  exact hlevels j u v hu.stands (heq ▸ hv.stands) hbase

/-- What can be read, a class that reads files, and one that reads logs and names both as its
bases. -/
def readerEntries : List TypeEntry :=
  let read : TypeEntry.MethodDecl := .instance_ "Read" .string [.required "count" .int32]
  [(TypeEntry.declare "App.Reader" "App").addMethod read,
    ((TypeEntry.declare "App.FileReader" "App").derives (.simple "App.Reader")).addMethod read,
    ((TypeEntry.declare "App.LogReader" "App").derives (.simple "App.FileReader")).derives
      (.simple "App.Reader")]

def readerTypes : Registry := Builtins.registry.insertAll readerEntries

theorem registerAll_reader : Builtins.registry.registerAll readerEntries = .ok readerTypes :=
  registerAll_eq_ok_iff.2 ⟨⟨by decide +kernel, by decide +kernel, by decide +kernel⟩, rfl⟩

/-- The method of a reader, as the named type declares it. -/
def readMethod (declaring : String) : Method :=
  let count := Parameter.required "count" .int32
  { id := .ofMember (.ofName declaring) "Read" [.ofName "int"]
    name := "Read", declaring := .simple declaring, typeParams := [], params := [count]
    returns := .string, isStatic := false, isExtension := false }

/-- It takes a number, whatever type declares it. -/
theorem signature_readMethod (declaring : String) : (readMethod declaring).signature = [.int32] :=
  rfl

/-- No type stands in one level with a supertype of its own. -/
def LevelsApart (r : Registry) (t : TypeRef) : Prop :=
  ∀ level ∈ r.levels t, ∀ u ∈ level, ∀ v ∈ level, v ∈ r.supertypes u → v = u

instance (r : Registry) (t : TypeRef) : Decidable (r.LevelsApart t) :=
  inferInstanceAs (Decidable (∀ level ∈ r.levels t, ∀ u ∈ level, ∀ v ∈ level, _))

theorem LevelsApart.eq_of_standsIn (h : r.LevelsApart t) {k : Nat} {u v : TypeRef}
    (hu : r.StandsIn t k u) (hv : r.StandsIn t k v) (hbase : v ∈ r.supertypes u) : v = u := by
  obtain ⟨level, hlevel, hmem⟩ := hu
  obtain ⟨level', hlevel', hmem'⟩ := hv
  obtain rfl := Option.some.inj (hlevel.symm.trans hlevel')
  exact h level (List.mem_of_getElem? hlevel) u hmem v hmem' hbase

/-- Both methods are visible on a reader of logs, at one distance.  On a reader of files, where
the levels are apart, the base does not show its method. -/
theorem nearest_shown_reader :
    ((readMethod "App.FileReader").signature = (readMethod "App.Reader").signature
      ∧ ∃ k, ∃ u v, readerTypes.Shows (.simple "App.LogReader") "Read" false k u
          (readMethod "App.FileReader")
        ∧ readerTypes.Shows (.simple "App.LogReader") "Read" false k v (readMethod "App.Reader"))
    ∧ readerTypes.LevelsApart (.simple "App.FileReader")
      ∧ (.simple "App.Reader") ∈ readerTypes.supertypes (.simple "App.FileReader")
      ∧ ∀ k, ¬ readerTypes.Shows (.simple "App.FileReader") "Read" false k (.simple "App.Reader")
          (readMethod "App.Reader") := by
  have same : (readMethod "App.FileReader").signature = (readMethod "App.Reader").signature :=
    (signature_readMethod _).trans (signature_readMethod _).symm
  have hbase : (.simple "App.Reader") ∈ readerTypes.supertypes (.simple "App.FileReader") := by
    decide +kernel
  have hapart : readerTypes.LevelsApart (.simple "App.FileReader") := by decide +kernel
  refine ⟨⟨same, ?_⟩, hapart, hbase, fun k hv => ?_⟩
  · obtain ⟨hshown, hnearest, -⟩ :=
      nearest_shown readerTypes (.simple "App.LogReader") "Read" false
    obtain ⟨j, u, hu⟩ := (hshown (readMethod "App.FileReader")).1 (by decide +kernel)
    obtain ⟨k, v, hv⟩ := (hshown (readMethod "App.Reader")).1 (by decide +kernel)
    have heq : k = j := (hnearest same hu hv.stands hv.owns).2.1 hv
    exact ⟨j, u, v, hu, heq ▸ hv⟩
  · obtain ⟨hshown, -, halone⟩ :=
      nearest_shown readerTypes (.simple "App.FileReader") "Read" false
    obtain ⟨j, u, hu⟩ := (hshown (readMethod "App.FileReader")).1 (by decide +kernel)
    -- The class is the only type that declares its method.
    have howner : ∀ level ∈ readerTypes.levels (.simple "App.FileReader"), ∀ u ∈ level,
        .method (readMethod "App.FileReader") ∈ readerTypes.declaredMembers "Read" false u →
          u = .simple "App.FileReader" := by decide +kernel
    obtain ⟨level, hlevel, hmem⟩ := hu.stands
    obtain rfl := howner level (List.mem_of_getElem? hlevel) u hmem
      (mem_declaredMembers_iff.2 hu.owns)
    have heq : TypeRef.simple "App.Reader" = .simple "App.FileReader" :=
      halone (fun _ _ _ => hapart.eq_of_standsIn) same hu hv hbase
    exact absurd heq (by decide)

/-- **A class and its base show methods with the same parameter types** side by side, if another
class names both as its bases. -/
theorem not_hidden_reader : Builtins.registry.registerAll readerEntries = .ok readerTypes
    ∧ ∃ m ∈ readerTypes.methods (.simple "App.LogReader") "Read" false,
      ∃ n ∈ readerTypes.methods (.simple "App.LogReader") "Read" false,
        m.signature = n.signature ∧ n.declaring ∈ readerTypes.supertypes m.declaring
          ∧ n.declaring ≠ m.declaring :=
  ⟨registerAll_reader, readMethod "App.FileReader", by decide +kernel, readMethod "App.Reader",
    by decide +kernel, (signature_readMethod _).trans (signature_readMethod _).symm,
    by decide +kernel, by decide +kernel⟩

end Registry

end BoundMarkup
