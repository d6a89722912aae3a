/-
  BoundMarkup.Proofs.Term.Conversions
  ───────────────────────────────────
  **THE TYPE OF A CONVERTED TERM.**

  A conversion between types gives a term of just the type that was asked for, as
  far as names tell types apart (`Term.type_convertTo?`).

  Where any value may become text, one without such a conversion is written by a
  call of the method `Registry.textMethod?`: the first visible method `ToString`
  without parameters.  What it returns is not checked.  So the term is a text just
  if that method returns one (`Term.type_convertOrText?`), as it does where every
  declared method that writes text returns text (`Method.WritesText`).
-/
import BoundMarkup.Proofs.Registry.Visibility
import BoundMarkup.Proofs.Term.Calls

namespace BoundMarkup

/-! ## §1. Methods that write a value as text. -/

/-- The method that writes a value of the type as text. -/
def Registry.textMethod? (r : Registry) (t : TypeRef) : Option Method :=
  (r.methods t "ToString" false).find? (fun m => m.params.isEmpty)

namespace Method

/-- A method that is called to write a value as text returns a text. -/
def WritesText (m : Method) : Prop :=
  m.name = "ToString" → m.params = [] → m.isStatic = false → m.returns = .string

instance : DecidablePred WritesText := fun m =>
  inferInstanceAs (Decidable
    (m.name = "ToString" → m.params = [] → m.isStatic = false → m.returns = .string))

/-- Replacing generic parameters adds no parameters, and leaves text alone. -/
theorem WritesText.close {m : Method} (h : m.WritesText) (args : List TypeRef) :
    (m.close args).WritesText := by
  intro hname hparams hstatic
  have htext : m.returns = .string := h hname (List.map_eq_nil_iff.1 hparams) hstatic
  show m.returns.substitute .method args = .string
  rw [htext]
  rfl

theorem WritesText.instantiate {m : Method} (h : m.WritesText) (t : TypeRef) :
    (m.instantiate t).WritesText := by
  unfold Method.instantiate
  simp only
  split
  · exact h
  · intro hname hparams hstatic
    have htext : m.returns = .string := h hname (List.map_eq_nil_iff.1 hparams) hstatic
    show m.returns.substitute .type t.genericArgs = .string
    rw [htext]
    rfl

end Method

namespace Registry

variable {r : Registry} {t : TypeRef} {m : Method}

/-- **Values are written as text by text** where all declarations promise it. -/
theorem returns_textMethod? (writes : r.Promises Method.WritesText)
    (h : r.textMethod? t = some m) : m.returns = .string := by
  have hmem : m ∈ r.methods t "ToString" false := List.mem_of_find?_eq_some h
  obtain ⟨hdeclares, hstatic⟩ := declares_of_mem_methods hmem
  have hparams : m.params = [] := by simpa using List.find?_some h
  have hwrites : m.WritesText :=
    hdeclares.of_promises writes (fun _ t hm => hm.instantiate t) (fun _ args hm => hm.close args)
  exact hwrites (name_of_mem_methods hmem) hparams hstatic

end Registry

/-! ## §2. Converted terms. -/

namespace Term

variable {r : Registry} {t u : Term} {target : TypeRef}

/-- **A conversion gives the type that was asked for.** -/
theorem type_convertTo?
    (names : TypeId.Distinguishes ([t.type, target].filterMap TypeRef.plainName?))
    (h : t.convertTo? r target = some u) : u.type = target := by
  obtain ⟨c, hc, rfl⟩ := Option.map_eq_some_iff.1 h
  unfold Conversion.apply
  split
  · rename_i hexact
    exact (Conversion.alike_of_exact hc hexact).eq names (.head _) (.tail _ (.head _))
  · rfl

/-- A conversion between types comes first. -/
theorem convertOrText?_of_some (h : t.convertTo? r target = some u) :
    t.convertOrText? r target = some u := by
  rw [convertOrText?, h]
  rfl

/-- **Without a conversion** the term is a call of the method that writes its value as text. -/
theorem convertOrText?_eq_some_iff_of_none (h : t.convertTo? r target = none) :
    t.convertOrText? r target = some u ↔ target = .string ∧ t.isValue = true
      ∧ ∃ m, r.textMethod? t.type = some m ∧ u = .call t m [] := by
  have htext : t.convertOrText? r target
      = if target = .string ∧ t.isValue = true then t.toTextCall? r else none := by
    rw [convertOrText?, h]
    rfl
  rw [htext]
  by_cases hstring : target = .string ∧ t.isValue = true
  · rw [if_pos hstring, ← and_assoc, and_iff_right hstring]
    constructor
    · intro hcall
      obtain ⟨m, hm, rfl⟩ := Option.map_eq_some_iff.1 hcall
      exact ⟨m, hm, rfl⟩
    · rintro ⟨m, hm, rfl⟩
      exact Option.map_eq_some_iff.2 ⟨m, hm, rfl⟩
  · rw [if_neg hstring]
    exact iff_of_false nofun fun h => hstring ⟨h.1, h.2.1⟩

/-- **An implicit conversion gives the type that was asked for**, but that a value is written as
text by whatever its method returns: it gives a text just if there is a conversion to text, or
that method returns one.  It always does where all declarations promise it. -/
theorem type_convertOrText?
    (names : TypeId.Distinguishes ([t.type, target].filterMap TypeRef.plainName?)) :
    (∀ u, t.convertTo? r target = some u → u.type = target)
      ∧ (∀ u, t.convertOrText? r target = some u → (u.type = target ↔
          (t.convertTo? r target = none → ∀ m ∈ r.textMethod? t.type, m.returns = .string)))
      ∧ (r.Promises Method.WritesText →
          ∀ u, t.convertOrText? r target = some u → u.type = target) := by
  have htype : ∀ u, t.convertOrText? r target = some u → (u.type = target ↔
      (t.convertTo? r target = none → ∀ m ∈ r.textMethod? t.type, m.returns = .string)) := by
    intro u hu
    cases hconvert : t.convertTo? r target with
    | some v =>
        obtain rfl : v = u := Option.some.inj ((convertOrText?_of_some hconvert).symm.trans hu)
        exact iff_of_true (type_convertTo? names hconvert) nofun
    | none =>
        obtain ⟨rfl, -, m, hm, rfl⟩ := (convertOrText?_eq_some_iff_of_none hconvert).1 hu
        show m.returns = .string ↔ _
        rw [hm]
        constructor
        · intro hreturns _ m' hm'
          obtain rfl : m = m' := Option.some.inj hm'
          exact hreturns
        · intro h
          exact h rfl m rfl
  refine ⟨fun u hu => type_convertTo? names hu, htype, fun writes u hu => (htype u hu).2 ?_⟩
  intro _ m hm
  exact Registry.returns_textMethod? writes hm

/-- A whole number is written by the method that all objects have. -/
theorem type_convertOrText?_count :
    TypeId.Distinguishes ([(Term.parameter "count" .int32).type, .string].filterMap
        TypeRef.plainName?)
      ∧ Builtins.registry.Promises Method.WritesText
      ∧ ∃ u, (Term.parameter "count" .int32).convertOrText? Builtins.registry .string = some u
        ∧ u.type = .string := by
  have names : TypeId.Distinguishes ([(Term.parameter "count" .int32).type,
      .string].filterMap TypeRef.plainName?) := by
    decide +kernel
  have writes : Builtins.registry.Promises Method.WritesText := by
    decide +kernel
  have hsome : ((Term.parameter "count" .int32).convertOrText? Builtins.registry
      .string).isSome = true := by
    decide +kernel
  obtain ⟨u, hu⟩ := Option.isSome_iff_exists.1 hsome
  exact ⟨names, writes, u, hu, (type_convertOrText? names).2.2 writes u hu⟩

/-- A type whose values are written by a number. -/
def moneyEntry : TypeEntry :=
  (TypeEntry.declare "App.Money" "App").addMethod (.instance_ "ToString" .int32 [])

def moneyTypes : Registry := Builtins.registry.insert moneyEntry

/-- **What is asked for as text may be a number.** -/
theorem not_string_money : Builtins.registry.register moneyEntry = .ok moneyTypes
    ∧ TypeId.Distinguishes ([(Term.parameter "price" (.simple "App.Money")).type,
      .string].filterMap TypeRef.plainName?)
    ∧ ((Term.parameter "price" (.simple "App.Money")).convertOrText? moneyTypes
      .string).map Term.type = some .int32 := by
  refine ⟨?_, ?_, ?_⟩
  · exact Registry.register_eq_ok_iff.2 ⟨by decide +kernel, by decide +kernel, rfl⟩
  · decide +kernel
  · decide +kernel

end Term

end BoundMarkup
