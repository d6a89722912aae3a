/-
  BoundMarkup.Proofs.Registry.Receivers
  ─────────────────────────────────────
  **WHERE EXTENSION METHODS ARE FOUND.**

  An extension method is looked up by the lineage of a value's type.  A first
  parameter that is a parameter of the method takes any value, one that mentions
  such parameters takes the types of its definition, and any other takes the types
  below it (`Registry.receives`).

  So a type made from the first parameter, by any types in place of the method's
  parameters, finds the method just if the parameter takes receivers
  (`TypeRef.takesReceivers`, `Registry.extension_found_iff`): an array or a nullable
  wrapper has no definition, and so an array of `T` takes no array at all
  (`Registry.not_found_total`).
-/
import BoundMarkup.Proofs.Registry.Closing
import BoundMarkup.Proofs.Registry.Visibility

namespace BoundMarkup

/-! ## §1. First parameters. -/

namespace TypeRef

mutual

/-- Where no parameter of the owner occurs, nothing is replaced. -/
theorem substitute_of_not_mentions {owner : ParamOwner} {args : List TypeRef} :
    ∀ {t : TypeRef}, t.mentions owner = false → t.substitute owner args = t
  | param o i n, h => by
      rw [substitute, if_neg fun heq => ?_]
      exact Bool.eq_false_iff.1 h (beq_iff_eq.2 heq)
  | array e, h => congrArg array (substitute_of_not_mentions (t := e) h)
  | nullable e, h => congrArg nullable (substitute_of_not_mentions (t := e) h)
  | named name ts, h => congrArg (named name) (substituteAll_of_not_mentions h)
  | unknown, _ => rfl
  | void, _ => rfl
  | null, _ => rfl

theorem substituteAll_of_not_mentions {owner : ParamOwner} {args : List TypeRef} :
    ∀ {ts : List TypeRef}, mentionsAny owner ts = false → substituteAll owner args ts = ts
  | [], _ => rfl
  | t :: ts, h => by
      obtain ⟨ht, hts⟩ := Bool.or_eq_false_iff.1 h
      rw [substituteAll, substitute_of_not_mentions ht, substituteAll_of_not_mentions hts]

end

theorem named_notMem_valueless (name : String) (ts : List TypeRef) : named name ts ∉ valueless := by
  simp [valueless]

/-- **A first parameter takes receivers** if it is a parameter of the method, a declared type,
or an array or a nullable wrapper that mentions no parameter of the method. -/
def takesReceivers : TypeRef → Bool
  | param owner _ _ => owner == .method
  | named _ _ => true
  | array element => !element.mentions .method
  | nullable inner => !inner.mentions .method
  | unknown | void | null => false

end TypeRef

namespace Registry

open TypeRef (valueless)

variable {r : Registry} {t : TypeRef} {first : TypeRef}

/-! ## §2. Lineages. -/

/-- A type of values belongs to its own lineage. -/
theorem mem_lineage_self (hvalue : t ∉ valueless) : t ∈ r.lineage t := by
  rw [lineage_eq_cons hvalue]
  exact List.mem_cons_self

/-- All other types of a lineage are declared. -/
theorem eq_of_mem_lineage (hdeclared : r.hierarchy.Declared) {u : TypeRef}
    (hu : u ∈ r.lineage t) (hnone : u.definition? = none) : u = t := by
  by_cases hvalue : t ∈ valueless
  · rw [lineage_of_valueless hvalue] at hu
    cases hu
  · rw [lineage_eq_cons hvalue, List.mem_cons, mem_supertypes r hvalue] at hu
    rcases hu with hself | hu | ⟨-, rfl⟩
    · exact hself
    · cases t with
      | named name args => exact hdeclared.eq_of_above (mem_above_of_mem_behind hu) hnone
      | array e =>
          obtain rfl : u = .enumerable e := List.mem_singleton.1 hu
          cases hnone
      | _ => cases hu
    · cases hnone

/-- What has no values belongs to no lineage. -/
theorem notMem_lineage_of_valueless (hdeclared : r.hierarchy.Declared)
    (hvalueless : first ∈ valueless) : first ∉ r.lineage t := by
  intro hmem
  have heq := eq_of_mem_lineage hdeclared hmem (TypeRef.definition?_of_valueless hvalueless)
  rw [← heq, lineage_of_valueless hvalueless] at hmem
  cases hmem

/-! ## §3. What finds an extension method. -/

/-- A type finds the methods that extend exactly that type. -/
theorem receives_self (hvalue : first ∉ valueless) (hplain : first.isParam = false)
    (hclosed : first.mentions .method = false) (args : List TypeRef) :
    receives (r.lineage (first.substitute .method args)) first = true := by
  have hmem : decide (first ∈ r.lineage (first.substitute .method args)) = true := by
    rw [TypeRef.substitute_of_not_mentions hclosed]
    exact decide_eq_true (mem_lineage_self hvalue)
  unfold receives
  cases first with
  | param owner i n => cases hplain
  | _ =>
      simp only
      rw [hclosed, if_neg Bool.false_ne_true]
      exact hmem

/-- **A first parameter that takes receivers takes its own instances**, whatever is put in the
place of the method's parameters. -/
theorem receives_of_takesReceivers (htakes : first.takesReceivers = true) (args : List TypeRef) :
    receives (r.lineage (first.substitute .method args)) first = true := by
  cases first with
  | param owner i n => exact htakes
  | named name ts =>
      cases hmentions : (TypeRef.named name ts).mentions .method with
      | false => exact receives_self (TypeRef.named_notMem_valueless _ _) rfl hmentions args
      | true =>
          -- The instance has the definition of the pattern.
          have hself : TypeRef.named name (TypeRef.substituteAll .method args ts)
              ∈ r.lineage ((TypeRef.named name ts).substitute .method args) :=
            mem_lineage_self (TypeRef.named_notMem_valueless _ _)
          unfold receives
          simp only
          rw [hmentions, if_pos rfl]
          exact List.any_eq_true.2 ⟨_, hself, by simp [TypeRef.definition?]⟩
  | array e =>
      have hclosed : (TypeRef.array e).mentions .method = false := (Bool.not_eq_true' _).mp htakes
      exact receives_self (by simp [valueless]) rfl hclosed args
  | nullable e =>
      have hclosed : (TypeRef.nullable e).mentions .method = false :=
        (Bool.not_eq_true' _).mp htakes
      exact receives_self (by simp [valueless]) rfl hclosed args
  | unknown => cases htakes
  | void => cases htakes
  | null => cases htakes

/-- A pattern without a definition matches no type. -/
theorem receives_undefined (hplain : first.isParam = false) (hmentions : first.mentions .method)
    (hnone : first.definition? = none) (lineage : List TypeRef) :
    receives lineage first = false := by
  have hany : lineage.any (fun t => t.definition?.isSome && t.definition? == first.definition?)
      = false := by
    rw [hnone]
    refine List.any_eq_false.2 fun t _ => ?_
    cases t.definition? <;> simp
  unfold receives
  cases first with
  | param owner i n => cases hplain
  | _ =>
      simp only
      rw [hmentions, if_pos rfl]
      exact hany

/-- **Any other first parameter takes nothing.** -/
theorem receives_eq_false (hdeclared : r.hierarchy.Declared)
    (htakes : first.takesReceivers = false) (t : TypeRef) :
    receives (r.lineage t) first = false := by
  have hnone (hvalueless : first ∈ valueless) : decide (first ∈ r.lineage t) = false :=
    decide_eq_false (notMem_lineage_of_valueless hdeclared hvalueless)
  cases first with
  | param owner i n => exact htakes
  | named name ts => cases htakes
  | array e =>
      have hopen : (TypeRef.array e).mentions .method = true := (Bool.not_eq_false' _).mp htakes
      exact receives_undefined rfl hopen rfl _
  | nullable e =>
      have hopen : (TypeRef.nullable e).mentions .method = true := (Bool.not_eq_false' _).mp htakes
      exact receives_undefined rfl hopen rfl _
  | unknown => exact hnone (by simp [valueless])
  | void => exact hnone (by simp [valueless])
  | null => exact hnone (by simp [valueless])

theorem mem_extensions_iff {m : Method} {p : Parameter} {name : String}
    (hfirst : m.params.head? = some p) : m ∈ r.extensions t name ↔
      m ∈ r.extensionsNamed name ∧ receives (r.lineage t) p.type = true := by
  unfold extensions
  rw [List.mem_filter, hfirst]
  rfl

/-- A declared extension method is kept under its name. -/
theorem mem_extensionsNamed {e : TypeEntry} {m : Method} (entry : e ∈ r.entries)
    (member : .method m ∈ e.members) (extension : m.isExtension = true) :
    m ∈ r.extensionsNamed m.name := by
  have hnamed : Member.method m ∈ e.membersNamed m.name :=
    List.mem_filter.2 ⟨member, beq_self_eq_true m.name⟩
  refine List.mem_flatMap.2 ⟨e, entry, List.mem_filterMap.2 ⟨_, hnamed, ?_⟩⟩
  exact Option.filter_eq_some_iff.2 ⟨rfl, extension⟩

/-- **An extension method is found by the instances of its first parameter** just if that takes
receivers.  Registration leaves no extension method without a first parameter; whatever types
stand in the place of the method's own parameters, the type that comes out finds the method
under its name, and if the first parameter takes no receivers, no type at all does. -/
theorem extension_found_iff (reached : r.Reached) {e : TypeEntry} {m : Method}
    (entry : e ∈ r.entries) (member : .method m ∈ e.members) (extension : m.isExtension = true) :
    ∃ p, m.params.head? = some p
      ∧ (∀ args, m ∈ r.extensions (p.type.substitute .method args) m.name
        ↔ p.type.takesReceivers = true)
      ∧ (p.type.takesReceivers = false → ∀ t, m ∉ r.extensions t m.name) := by
  have hvalid := (TypeEntry.fault?_eq_none_iff.1 (reached.fault?_eq_none e entry)).2.2 m
    (List.mem_filterMap.2 ⟨_, member, rfl⟩)
  obtain ⟨p, hp⟩ : ∃ p, m.params.head? = some p := by
    cases hparams : m.params with
    | nil => simp [extension, hparams] at hvalid
    | cons p ps => exact ⟨p, rfl⟩
  have hnone (htakes : p.type.takesReceivers = false) (t : TypeRef) :
      m ∉ r.extensions t m.name := by
    rw [mem_extensions_iff hp, receives_eq_false reached.declared htakes]
    exact fun h => Bool.false_ne_true h.2
  refine ⟨p, hp, fun args => ⟨fun hfound => ?_, fun htakes => ?_⟩, hnone⟩
  · by_contra htakes
    exact hnone (Bool.eq_false_iff.2 htakes) _ hfound
  · exact (mem_extensions_iff hp).2
      ⟨mem_extensionsNamed entry member extension, receives_of_takesReceivers htakes args⟩

/-! ## §4. Arrays of a parameter. -/

/-- The total of some items, with the type of an item as its own parameter. -/
def totalDecl (items : TypeRef) : TypeEntry.MethodDecl :=
  ⟨"Total", .int32, ["T"], [.required "items" items], true⟩

/-- Totals over an array and over a list. -/
def totalsEntry : TypeEntry :=
  ((TypeEntry.declare "App.Totals" "App").addExtension
      (totalDecl (.array (.methodParam 0 "T")))).addExtension
    (totalDecl (.named Builtins.listName [.methodParam 0 "T"]))

def totalsTypes : Registry := Builtins.registry.insert totalsEntry

/-- The method that comes of the declaration. -/
def totalMethod (items : TypeRef) : Method := (totalDecl items).inOwner totalsEntry true

theorem reached_totals : totalsTypes.Reached :=
  .register .builtins (register_eq_ok_iff.2 ⟨by decide +kernel, by decide +kernel, rfl⟩)

theorem totalsEntry_mem : totalsEntry ∈ totalsTypes.entries :=
  List.mem_append_right _ (List.mem_singleton_self totalsEntry)

/-- A list finds its total. -/
theorem extension_found_iff_total : totalsTypes.Reached ∧ totalsEntry ∈ totalsTypes.entries
    ∧ .method (totalMethod (.named Builtins.listName [.methodParam 0 "T"])) ∈ totalsEntry.members
    ∧ (totalMethod (.named Builtins.listName [.methodParam 0 "T"])).isExtension = true
    ∧ totalMethod (.named Builtins.listName [.methodParam 0 "T"])
      ∈ totalsTypes.extensions (.named Builtins.listName [.int32]) "Total" := by
  have hmember : .method (totalMethod (.named Builtins.listName [.methodParam 0 "T"]))
      ∈ totalsEntry.members := by
    decide +kernel
  obtain ⟨p, hp, hfound, -⟩ := extension_found_iff reached_totals totalsEntry_mem hmember rfl
  obtain rfl : Parameter.required "items" (.named Builtins.listName [.methodParam 0 "T"]) = p :=
    Option.some.inj hp
  exact ⟨reached_totals, totalsEntry_mem, hmember, rfl, (hfound [.int32]).2 rfl⟩

/-- **An array does not find the method that extends arrays of any item**, though the array of
integers is the instance of its first parameter. -/
theorem not_found_total : totalsTypes.Reached ∧ totalsEntry ∈ totalsTypes.entries
    ∧ .method (totalMethod (.array (.methodParam 0 "T"))) ∈ totalsEntry.members
    ∧ (totalMethod (.array (.methodParam 0 "T"))).isExtension = true
    ∧ (totalMethod (.array (.methodParam 0 "T"))).signature = [.array (.methodParam 0 "T")]
    ∧ (TypeRef.array (.methodParam 0 "T")).substitute .method [.int32] = .array .int32
    ∧ totalMethod (.array (.methodParam 0 "T")) ∉ totalsTypes.extensions (.array .int32) "Total" :=
  ⟨reached_totals, totalsEntry_mem, by decide +kernel, rfl, rfl, rfl, by decide +kernel⟩

end Registry

end BoundMarkup
