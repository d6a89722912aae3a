/-
  BoundMarkup.Proofs.Term.MethodGroups
  ────────────────────────────────────
  **WHAT BECOMES A METHOD GROUP.**

  A name on a target stands for a group unless it has exactly one member, and that
  is no method.  So there are three ways to a group (`Term.Groups`): a method of the
  name is visible, only extension methods have the name, or several members are
  visible that are no methods.

  The last takes a crowd (`Term.Crowded`).  A type declares at most one such member
  of a name, and a visible one hides all that are farther, so there have to be two
  types at one distance (`Registry.sideBySide_of_ne`), or, with type arguments, a
  property beside a nested type.  Such a group has no method that a call could pick
  (`Term.no_methods_note`).
-/
import BoundMarkup.Proofs.Registry.Hiding
import BoundMarkup.Proofs.Term.Resolution

namespace BoundMarkup

/-! ## §1. Members that are no methods. -/

namespace Registry

variable {r : Registry} {t : TypeRef} {name : String} {isStatic : Bool}

/-- **Two types stand side by side**: they are at the same distance, and each declares under the
name a different member that is no method. -/
def SideBySide (r : Registry) (t : TypeRef) (name : String) (isStatic : Bool) : Prop :=
  ∃ k u v, u ≠ v ∧ r.StandsIn t k u ∧ r.StandsIn t k v ∧
    ∃ x y, x ≠ y ∧ (r.Owns name isStatic u x ∧ x.isMethod = false) ∧
      r.Owns name isStatic v y ∧ y.isMethod = false

/-- A type declares at most one member of a name that is no method. -/
theorem Owns.eq_of_isMethod_eq_false (valid : ∀ e ∈ r.entries, e.fault? = none) {u : TypeRef}
    {x y : Member} (hx : r.Owns name isStatic u x) (hy : r.Owns name isStatic u y)
    (hxm : x.isMethod = false) (hym : y.isMethod = false) : x = y := by
  obtain ⟨hentry, hd, hname, -⟩ := hx
  obtain ⟨hentry', hd', hname', -⟩ := hy
  obtain rfl := Option.some.inj (hentry.symm.trans hentry')
  rw [Member.isMethod_instantiate] at hxm hym
  rw [Registry.eq_of_isMethod_eq_false (valid _ (mem_entries_of_entryOf? hentry)) hd hd'
    (hname.trans hname'.symm) hxm hym]

/-- A visible member that is no method leaves nothing visible behind it. -/
theorem VisibleAt.le_of_isMethod_eq_false {j k : Nat} {x y : Member}
    (hx : r.VisibleAt t name isStatic j x) (hxm : x.isMethod = false)
    (hy : r.VisibleAt t name isStatic k y) : k ≤ j := by
  by_contra hlt
  exact hy.not_hides (Nat.lt_of_not_le hlt) hx (.inl hxm)

/-- **Two visible members that are no methods stand side by side.** -/
theorem sideBySide_of_ne (valid : ∀ e ∈ r.entries, e.fault? = none) {x y : Member}
    (hx : x ∈ r.members t name isStatic) (hy : y ∈ r.members t name isStatic) (hne : x ≠ y)
    (hxm : x.isMethod = false) (hym : y.isMethod = false) : r.SideBySide t name isStatic := by
  obtain ⟨j, hxj⟩ := mem_members_iff.1 hx
  obtain ⟨k, hyk⟩ := mem_members_iff.1 hy
  obtain rfl : j = k := Nat.le_antisymm (hyk.le_of_isMethod_eq_false hym hxj)
    (hxj.le_of_isMethod_eq_false hxm hyk)
  cases hxj.offered with
  | nature _ hintrinsic =>
      -- By nature a type has one member of a name at most.
      cases hyk.offered with
      | nature _ hintrinsic' =>
          exact absurd (Option.some.inj (hintrinsic.symm.trans hintrinsic')) hne
  | @owned k u _ hu hux =>
      cases hyk.offered with
      | @owned _ v _ hv hvy =>
          refine ⟨k, u, v, fun heq => hne ?_, hu, hv, x, y, hne, ⟨hux, hxm⟩, hvy, hym⟩
          subst heq
          exact hux.eq_of_isMethod_eq_false valid hvy hxm hym

end Registry

namespace Term

variable {r : Registry} {target : Term} {t : TypeRef} {name : String} {typeArgs : List TypeRef}
  {isStatic : Bool}

/-! ## §2. The members of a name. -/

theorem method_mem_candidateMembers_iff {m : Method} :
    .method m ∈ candidateMembers r t name typeArgs isStatic ↔ m ∈ r.methods t name isStatic := by
  unfold candidateMembers genericNested
  rw [Registry.mem_methods_iff]
  split
  · rfl
  · simp

/-- No member counts twice. -/
theorem nodup_candidateMembers : (candidateMembers r t name typeArgs isStatic).Nodup := by
  unfold candidateMembers genericNested
  simp only
  split
  · exact Registry.nodup_members
  · refine List.nodup_append.2 ⟨Registry.nodup_members.filter _, Registry.nodup_members.filter _,
      fun x hx y hy heq => ?_⟩
    -- The one part has the nested types, the other part has all but them.
    subst heq
    have hother := (List.mem_filter.1 hx).2
    have hnested := (List.mem_filter.1 hy).2
    cases x <;> simp at hother hnested

/-- With type arguments, a member that is no method is a property of the name or a nested type
that is declared for as many of them. -/
theorem mem_candidateMembers_generic (hargs : typeArgs ≠ []) {x : Member}
    (hx : x ∈ candidateMembers r t name typeArgs isStatic) (hxm : x.isMethod = false) :
    (∃ p, x = .property p ∧ x ∈ r.members t name isStatic) ∨
      ∃ n type, x = .nested n type ∧
        x ∈ r.members t (withArity name typeArgs.length) isStatic := by
  unfold candidateMembers genericNested at hx
  rw [if_neg (by simpa using hargs)] at hx
  rcases List.mem_append.1 hx with hx | hx
  · obtain ⟨hx, hother⟩ := List.mem_filter.1 hx
    cases x with
    | method m => cases hxm
    | property p => exact .inl ⟨p, rfl, hx⟩
    | nested n type => cases hother
  · obtain ⟨hx, hnested⟩ := List.mem_filter.1 hx
    cases x with
    | method m => cases hxm
    | property p => cases hnested
    | nested n type => exact .inr ⟨n, type, rfl, hx⟩

/-- **The name is crowded**: two types stand side by side with it.  Type arguments add two ways
more: two types stand side by side with nested types that are declared for as many arguments, or
a property is visible beside such a nested type. -/
inductive Crowded (r : Registry) (t : TypeRef) (name : String) (typeArgs : List TypeRef)
    (isStatic : Bool) : Prop where
  | plain (beside : r.SideBySide t name isStatic)
  | generic (args : typeArgs ≠ [])
      (beside : r.SideBySide t (withArity name typeArgs.length) isStatic)
  | mixed (args : typeArgs ≠ []) {p : Property} {n : String} {type : TypeRef}
      (property : .property p ∈ r.members t name isStatic)
      (nested : .nested n type ∈ r.members t (withArity name typeArgs.length) isStatic)

/-- **Members that are no methods come alone**, unless the name is crowded. -/
theorem crowded_of_ne (valid : ∀ e ∈ r.entries, e.fault? = none) {x y : Member}
    (hx : x ∈ candidateMembers r t name typeArgs isStatic)
    (hy : y ∈ candidateMembers r t name typeArgs isStatic) (hne : x ≠ y)
    (hxm : x.isMethod = false) (hym : y.isMethod = false) :
    Crowded r t name typeArgs isStatic := by
  by_cases hargs : typeArgs = []
  · subst hargs
    exact .plain (Registry.sideBySide_of_ne valid hx hy hne hxm hym)
  · rcases mem_candidateMembers_generic hargs hx hxm with ⟨p, hp, hx⟩ | ⟨n, type, hn, hx⟩ <;>
      rcases mem_candidateMembers_generic hargs hy hym with ⟨q, hq, hy⟩ | ⟨n', type', hn', hy⟩
    · exact .plain (Registry.sideBySide_of_ne valid hx hy hne hxm hym)
    · exact .mixed hargs (hp ▸ hx) (hn' ▸ hy)
    · exact .mixed hargs (hq ▸ hy) (hn ▸ hx)
    · exact .generic hargs (Registry.sideBySide_of_ne valid hx hy hne hxm hym)

/-! ## §3. Groups. -/

/-- **The members of the name decide**: something is known about the target, and no capability
property is read. -/
structure LooksUp (r : Registry) (target : Term) (name : String) (typeArgs : List TypeRef) :
    Prop where
  known : target.type ≠ .unknown
  ordinary : capabilityRead? r target name typeArgs = none

/-- **What makes a name a group.** -/
inductive Groups (r : Registry) (target : Term) (name : String) (typeArgs : List TypeRef) :
    Prop where
  /-- A method of the name is visible. -/
  | method {m : Method} (visible : m ∈ r.methods target.type name target.isTypeReference)
  /-- Nothing of the name is visible, and an extension method has it. -/
  | extension {m : Method} (found : m ∈ r.extensions target.type name)
      (none : candidateMembers r target.type name typeArgs target.isTypeReference = [])
  /-- Two members of the name are visible that are no methods. -/
  | several {x y : Member}
      (first : x ∈ candidateMembers r target.type name typeArgs target.isTypeReference)
      (second : y ∈ candidateMembers r target.type name typeArgs target.isTypeReference)
      (ne : x ≠ y) (plain : x.isMethod = false) (plain' : y.isMethod = false)

/-- Only a single member that is no method makes something else. -/
theorem ofMembers_eq_group_iff {members : List Member} {n : String} {u : Term}
    {ts : List TypeRef} : ofMembers target name typeArgs members = .group n u ts ↔
      (n = name ∧ u = target ∧ ts = typeArgs) ∧ ∀ x, members = [x] → x.isMethod = true := by
  have hgroup : Term.group name target typeArgs = .group n u ts
      ↔ n = name ∧ u = target ∧ ts = typeArgs := by
    rw [Term.group.injEq]
    exact and_congr eq_comm (and_congr eq_comm eq_comm)
  unfold ofMembers
  split
  · rename_i p
    refine iff_of_false (fun h => ?_) fun h => Bool.false_ne_true (h.2 (.property p) rfl)
    split at h <;> cases h
  · rename_i n type
    exact iff_of_false nofun fun h => Bool.false_ne_true (h.2 (.nested n type) rfl)
  · rename_i hproperty hnested
    rw [hgroup, iff_self_and]
    rintro - x rfl
    cases x with
    | method m => rfl
    | property p => exact absurd rfl (hproperty p)
    | nested n type => exact absurd rfl (hnested n type)

/-- A group is answered where the members of the name decide, and make one. -/
theorem member?_eq_group_iff_ofMembers {n : String} {u : Term} {ts : List TypeRef} :
    target.member? r name typeArgs = .ok (some (.group n u ts)) ↔
      LooksUp r target name typeArgs ∧ membersOn r target name typeArgs ≠ [] ∧
        ofMembers target name typeArgs (membersOn r target name typeArgs) = .group n u ts := by
  unfold member?
  split
  · exact iff_of_false nofun fun h => h.1.known rfl
  · split
    · rename_i hunknown
      exact iff_of_false nofun fun h => h.1.known hunknown
    · rename_i hknown
      split
      · rename_i read hread
        refine iff_of_false (fun h => ?_) fun h => ?_
        · -- A capability property is no group.
          cases h
          unfold capabilityRead? at hread
          split at hread
          · obtain ⟨p, -, hp⟩ := Option.map_eq_some_iff.1 hread
            cases hp
          · cases hread
        · rw [h.1.ordinary] at hread
          cases hread
      · rename_i hordinary
        split
        · rename_i hnone
          exact iff_of_false nofun fun h => h.2.1 hnone
        · rename_i hsome
          refine ⟨fun h => ⟨⟨hknown, hordinary⟩, hsome, ?_⟩, fun h => ?_⟩
          · exact Option.some.inj (Except.ok.inj h)
          · rw [h.2.2]

/-- Several members without repetitions are two different ones. -/
theorem exists_ne_of_nodup {members : List Member} (hnodup : members.Nodup)
    (hsome : members ≠ []) (hlone : ∀ x, members ≠ [x]) :
    ∃ x ∈ members, ∃ y ∈ members, x ≠ y := by
  match members, hnodup with
  | [], _ => exact absurd rfl hsome
  | [x], _ => exact absurd rfl (hlone x)
  | x :: y :: members, hnodup =>
      refine ⟨x, List.mem_cons_self, y, List.mem_cons_of_mem x List.mem_cons_self, fun heq => ?_⟩
      exact (List.nodup_cons.1 hnodup).1 (heq ▸ List.mem_cons_self)

theorem membersOn_of_mem {x : Member}
    (hx : x ∈ candidateMembers r target.type name typeArgs target.isTypeReference) :
    membersOn r target name typeArgs
      = candidateMembers r target.type name typeArgs target.isTypeReference := by
  unfold membersOn
  split
  · rename_i hnone
    rw [hnone] at hx
    cases hx
  · rfl

theorem membersOn_of_eq_nil
    (h : candidateMembers r target.type name typeArgs target.isTypeReference = []) :
    membersOn r target name typeArgs = (r.extensions target.type name).map .method := by
  unfold membersOn
  rw [h]

/-- What makes a name a group is more than a single member that is no method. -/
theorem Groups.not_lone (h : Groups r target name typeArgs) :
    membersOn r target name typeArgs ≠ []
      ∧ ∀ x, membersOn r target name typeArgs = [x] → x.isMethod = true := by
  cases h with
  | method hm =>
      have hm := (@method_mem_candidateMembers_iff r _ name typeArgs _ _).2 hm
      rw [membersOn_of_mem hm]
      refine ⟨List.ne_nil_of_mem hm, fun x hlone => ?_⟩
      rw [hlone] at hm
      rw [← List.mem_singleton.1 hm]
      rfl
  | extension hm hnone =>
      rw [membersOn_of_eq_nil hnone]
      refine ⟨List.ne_nil_of_mem (List.mem_map_of_mem hm), fun x hlone => ?_⟩
      obtain ⟨m, -, rfl⟩ := List.mem_map.1 (hlone ▸ List.mem_singleton_self x)
      rfl
  | several hx hy hne =>
      rw [membersOn_of_mem hx]
      refine ⟨List.ne_nil_of_mem hx, fun z hlone => ?_⟩
      rw [hlone] at hx hy
      exact absurd ((List.mem_singleton.1 hx).trans (List.mem_singleton.1 hy).symm) hne

/-- A visible member that does not stand alone makes a group. -/
theorem groups_of_mem {z : Member}
    (hz : z ∈ candidateMembers r target.type name typeArgs target.isTypeReference)
    (hlone : ∀ x, candidateMembers r target.type name typeArgs target.isTypeReference = [x] →
      x.isMethod = true) : Groups r target name typeArgs := by
  by_cases hany : ∃ m, m ∈ r.methods target.type name target.isTypeReference
  · obtain ⟨m, hm⟩ := hany
    exact .method hm
  · -- Without a method there are at least two members, and none is a method.
    have hplain : ∀ x ∈ candidateMembers r target.type name typeArgs target.isTypeReference,
        x.isMethod = false := by
      intro x hx
      cases x with
      | method m => exact absurd ⟨m, method_mem_candidateMembers_iff.1 hx⟩ hany
      | property p => rfl
      | nested n type => rfl
    have hseveral : ∀ x,
        candidateMembers r target.type name typeArgs target.isTypeReference ≠ [x] := by
      intro x heq
      have hx := hplain x (heq ▸ List.mem_singleton_self x)
      rw [hlone x heq] at hx
      cases hx
    obtain ⟨x, hx, y, hy, hne⟩ :=
      exists_ne_of_nodup nodup_candidateMembers (List.ne_nil_of_mem hz) hseveral
    exact .several hx hy hne (hplain x hx) (hplain y hy)

/-- **The members of a name make a group** in just three ways. -/
theorem groups_iff : Groups r target name typeArgs ↔ membersOn r target name typeArgs ≠ [] ∧
    ∀ x, membersOn r target name typeArgs = [x] → x.isMethod = true := by
  refine ⟨Groups.not_lone, fun ⟨hsome, hlone⟩ => ?_⟩
  by_cases hnone : candidateMembers r target.type name typeArgs target.isTypeReference = []
  · rw [membersOn_of_eq_nil hnone, ne_eq, List.map_eq_nil_iff] at hsome
    obtain ⟨m, hm⟩ := List.exists_mem_of_ne_nil _ hsome
    exact .extension hm hnone
  · obtain ⟨z, hz⟩ := List.exists_mem_of_ne_nil _ hnone
    rw [membersOn_of_mem hz] at hlone
    exact groups_of_mem hz hlone

/-- **A group is answered** where the members of the name decide and make a group. -/
theorem member?_eq_group_iff {n : String} {u : Term} {ts : List TypeRef} :
    target.member? r name typeArgs = .ok (some (.group n u ts)) ↔
      (n = name ∧ u = target ∧ ts = typeArgs) ∧
        LooksUp r target name typeArgs ∧ Groups r target name typeArgs := by
  rw [member?_eq_group_iff_ofMembers, ofMembers_eq_group_iff, groups_iff]
  constructor
  · rintro ⟨hlooks, hsome, hself, hlone⟩
    exact ⟨hself, hlooks, hsome, hlone⟩
  · rintro ⟨hself, hlooks, hsome, hlone⟩
    exact ⟨hlooks, hsome, hself, hlone⟩

/-- **A name on a target is a group** exactly if its members decide and a method is among them,
or an extension method is all that has the name, or several of them are no methods; it is then
the group of that name on that target, with the type arguments given, whether the name has to be
there or not.  Several members that are no methods take a crowd, and where the name is not
crowded a group has a method or an extension method. -/
theorem group_iff (reached : r.Reached) (target : Term) (name : String)
    (typeArgs : List TypeRef) :
    (∀ n u ts, target.member? r name typeArgs = .ok (some (.group n u ts)) ↔
        (n = name ∧ u = target ∧ ts = typeArgs) ∧
          LooksUp r target name typeArgs ∧ Groups r target name typeArgs)
      ∧ (∀ u, target.member r name typeArgs = .ok u ↔
        target.member? r name typeArgs = .ok (some u))
      ∧ (∀ x ∈ candidateMembers r target.type name typeArgs target.isTypeReference,
        ∀ y ∈ candidateMembers r target.type name typeArgs target.isTypeReference,
        x ≠ y → x.isMethod = false → y.isMethod = false →
        Crowded r target.type name typeArgs target.isTypeReference)
      ∧ (¬ Crowded r target.type name typeArgs target.isTypeReference →
        ∀ n u ts, target.member? r name typeArgs = .ok (some (.group n u ts)) →
        ∃ m, m ∈ r.methods target.type name target.isTypeReference
          ∨ m ∈ r.extensions target.type name) := by
  have hcrowded {x y : Member} := @crowded_of_ne r target.type name typeArgs
    target.isTypeReference reached.fault?_eq_none x y
  refine ⟨fun n u ts => member?_eq_group_iff, fun u => member_eq_ok_iff,
    fun x hx y hy hne hxm hym => hcrowded hx hy hne hxm hym, fun huncrowded n u ts h => ?_⟩
  cases (member?_eq_group_iff.1 h).2.2 with
  | method hm => exact ⟨_, .inl hm⟩
  | extension hm => exact ⟨_, .inr hm⟩
  | several hx hy hne hxm hym => exact absurd (hcrowded hx hy hne hxm hym) huncrowded

/-! ## §4. A label from two sides. -/

/-- What has a title, what has a tag, and a note that has both.  Either comes with a label. -/
def noteEntries : List TypeEntry :=
  [(TypeEntry.declare "App.Titled" "App").addProperty .property "Label" .string,
    (TypeEntry.declare "App.Tagged" "App").addProperty .property "Label" .string,
    ((TypeEntry.declare "App.Note" "App").derives (.simple "App.Titled")).derives
      (.simple "App.Tagged")]

def noteTypes : Registry := Builtins.registry.insertAll noteEntries

theorem registerAll_note : Builtins.registry.registerAll noteEntries = .ok noteTypes :=
  Registry.registerAll_eq_ok_iff.2 ⟨⟨by decide +kernel, by decide +kernel, by decide +kernel⟩, rfl⟩

theorem reached_note : noteTypes.Reached := .registerAll .builtins registerAll_note

/-- A note, as a value of its type. -/
def note : Term := .parameter "note" (.simple "App.Note")

/-- The label as the named type declares it. -/
def labelProperty (declaring : String) : Property :=
  { name := "Label", type := .string, declaring := .simple declaring
    isStatic := false, writable := true, isField := false }

theorem mem_candidateMembers_note {declaring : String}
    (h : declaring = "App.Titled" ∨ declaring = "App.Tagged") :
    .property (labelProperty declaring)
      ∈ candidateMembers noteTypes note.type "Label" [] note.isTypeReference := by
  rcases h with rfl | rfl <;> decide +kernel

theorem labelProperty_ne : Member.property (labelProperty "App.Titled")
    ≠ .property (labelProperty "App.Tagged") := by
  decide +kernel

theorem looksUp_note : LooksUp noteTypes note "Label" [] := ⟨nofun, by decide +kernel⟩

/-- The labels of a note are two. -/
theorem groups_note : Groups noteTypes note "Label" [] :=
  .several (mem_candidateMembers_note (.inl rfl)) (mem_candidateMembers_note (.inr rfl))
    labelProperty_ne rfl rfl

/-- The labels make a group, and they take two types side by side. -/
theorem group_iff_note : noteTypes.Reached
    ∧ Crowded noteTypes note.type "Label" [] note.isTypeReference
    ∧ note.member? noteTypes "Label" [] = .ok (some (.group "Label" note [])) := by
  obtain ⟨hgroup, -, hcrowded, -⟩ := group_iff reached_note note "Label" []
  refine ⟨reached_note, hcrowded _ (mem_candidateMembers_note (.inl rfl)) _
    (mem_candidateMembers_note (.inr rfl)) labelProperty_ne rfl rfl, ?_⟩
  exact (hgroup _ _ _).2 ⟨⟨rfl, rfl, rfl⟩, looksUp_note, groups_note⟩

/-- **The label of a note is a group without a method**: no method of the name is visible on a
note, and no extension method has the name. -/
theorem no_methods_note : noteTypes.Reached
    ∧ note.member? noteTypes "Label" [] = .ok (some (.group "Label" note []))
    ∧ noteTypes.methods note.type "Label" note.isTypeReference = []
    ∧ noteTypes.extensions note.type "Label" = [] :=
  ⟨reached_note, member?_eq_group_iff.2 ⟨⟨rfl, rfl, rfl⟩, looksUp_note, groups_note⟩,
    by decide +kernel, by decide +kernel⟩

end Term

end BoundMarkup
