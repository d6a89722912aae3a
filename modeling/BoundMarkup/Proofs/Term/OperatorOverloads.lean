/-
  BoundMarkup.Proofs.Term.OperatorOverloads
  ─────────────────────────────────────────
  **OPERATORS THAT TYPES DECLARE.**

  The overloads of an operator are the static methods of its name that the types of
  the operands show, each identity once.  The identity of a method takes in the
  definitions of its parameter types, and an array has none: two overloads that differ
  in arrays only have one identity, and the later one is not considered
  (`Term.not_considered_tags`).  An overload that is considered is chosen where it
  alone fits (`Term.overload_chosen`).
-/
import BoundMarkup.Proofs.Term.Arranging
import BoundMarkup.Proofs.Term.Lifting
import BoundMarkup.Proofs.Term.Selection

namespace BoundMarkup

namespace Term

variable {r : Registry} {name : String} {m : Method} {ms : List Method}

/-! ## §1. Each identity once. -/

/-- **The first method of each identity** is kept. -/
theorem mem_distinctMethods_iff :
    m ∈ distinctMethods ms ↔ ms.find? (fun other => other.id == m.id) = some m := by
  induction ms with
  | nil => exact iff_of_false nofun nofun
  | cons x xs ih =>
      rw [distinctMethods, List.mem_cons, List.mem_filter, ih, List.find?_cons]
      by_cases hid : x.id = m.id
      · rw [beq_iff_eq.2 hid, Option.some.injEq]
        simp [hid, eq_comm]
      · rw [beq_eq_false_iff_ne.2 hid]
        have hne : m ≠ x := fun h => hid (congrArg Method.id h.symm)
        simp [hne, Ne.symm hid]

theorem nodup_distinctMethods : (distinctMethods ms).Nodup := by
  induction ms with
  | nil => exact List.nodup_nil
  | cons x xs ih =>
      refine List.nodup_cons.2 ⟨fun h => ?_, ih.filter _⟩
      exact absurd rfl (bne_iff_ne.1 (List.mem_filter.1 h).2)

/-- No two methods of the list have one identity. -/
def IdsDiffer (ms : List Method) : Prop := ∀ m ∈ ms, ∀ other ∈ ms, other.id = m.id → other = m

/-- **All methods are kept** just if no two of them have one identity. -/
theorem subset_distinctMethods_iff : (∀ m ∈ ms, m ∈ distinctMethods ms) ↔ IdsDiffer ms := by
  constructor
  · intro hall m hm other hother hid
    have hfirst := mem_distinctMethods_iff.1 (hall m hm)
    have hfirst' := mem_distinctMethods_iff.1 (hall other hother)
    rw [hid, hfirst] at hfirst'
    exact (Option.some.inj hfirst').symm
  · intro hdiffer m hm
    rw [mem_distinctMethods_iff]
    obtain ⟨other, hfound⟩ : ∃ other, ms.find? (fun other => other.id == m.id) = some other :=
      Option.isSome_iff_exists.1 (List.find?_isSome.2 ⟨m, hm, beq_self_eq_true m.id⟩)
    have hid : other.id = m.id := by simpa using List.find?_some hfound
    rw [hfound, hdiffer m hm other (List.mem_of_find?_eq_some hfound) hid]

/-- **The methods that overload an operator** on the types: the static ones of the name that they
show, as often as they are shown.  Built-in types have none. -/
def shownOverloads (r : Registry) (name : String) (types : List TypeRef) : List Method :=
  types.flatMap (fun t => if t.primitive?.isSome then [] else r.methods t name true)

end Term

namespace Registry

variable {r : Registry} {t : TypeRef} {name : String}

/-- Types that are not declared, such as arrays, show no static methods. -/
def StaticsDeclared (r : Registry) : Prop :=
  ∀ t name, t.definition? = none → r.methods t name true = []

/-- What is not declared is below `object`, and an array below what can be enumerated. -/
theorem mem_lineage_of_undeclared {u : TypeRef} (ht : t.definition? = none)
    (hu : u ∈ r.lineage t) : u = t ∨ u = .object ∨ ∃ e, u = .enumerable e := by
  by_cases hvalue : t ∈ TypeRef.valueless
  · rw [lineage_of_valueless hvalue] at hu
    cases hu
  rw [lineage_eq_cons hvalue, List.mem_cons, mem_supertypes r hvalue] at hu
  rcases hu with rfl | hu | ⟨-, rfl⟩
  · exact .inl rfl
  · cases t with
    | named name args => cases ht
    | array element => exact .inr (.inr ⟨element, List.mem_singleton.1 hu⟩)
    | _ => cases hu
  · exact .inr (.inl rfl)

/-- A declaration without static members declares none of any name. -/
theorem declaredMembers_static_eq_nil {e : TypeEntry} (hentry : r.entryOf? t = some e)
    (hinstance : ∀ x ∈ e.members, x.isStatic = false) : r.declaredMembers name true t = [] := by
  unfold declaredMembers
  rw [hentry]
  refine List.map_eq_nil_iff.2 (List.filter_eq_nil_iff.2 fun x hx => ?_)
  rw [hinstance x (List.mem_filter.1 hx).1]
  exact Bool.false_ne_true

/-- **Over the built-in types only declared types show static methods**: neither `object` nor what
can be enumerated has any. -/
theorem ExtendsBuiltins.staticsDeclared (extending : r.ExtendsBuiltins) : r.StaticsDeclared := by
  intro t name ht
  refine List.eq_nil_iff_forall_not_mem.2 fun m hm => ?_
  obtain ⟨s, hs, hmember⟩ := exists_declared_of_mem_methods hm
  have hnone : r.declaredMembers name true s = [] := by
    rcases mem_lineage_of_undeclared ht hs with rfl | rfl | ⟨e, rfl⟩
    · unfold declaredMembers entryOf?
      rw [ht]
      rfl
    · have hobject : r.entryOf? .object = some Builtins.objectEntry :=
        extending.find? (by decide +kernel)
      exact declaredMembers_static_eq_nil hobject (by decide)
    · have henumerable : r.entryOf? (.enumerable e)
          = some (Builtins.interface TypeRef.enumerableName ["T"]) :=
        extending.find? (by decide +kernel)
      exact declaredMembers_static_eq_nil henumerable nofun
  rw [hnone] at hmember
  cases hmember

end Registry

namespace Term

variable {r : Registry} {name : String}

/-- **What is considered** of what the types show. -/
theorem overloads_eq (declared : r.StaticsDeclared) (types : List TypeRef) :
    overloads r name types = distinctMethods (shownOverloads r name types) := by
  unfold overloads shownOverloads
  refine congrArg distinctMethods (List.flatMap_congr fun t _ => ?_)
  cases t with
  | named n args => rfl
  | _ =>
      rw [declared _ name rfl, ite_self]

end Term

/-! ## §2. A method that alone fits. -/

namespace Candidate

variable {r : Registry} {m : Method}

theorem length_fillSlots? {s : Supply} : ∀ {params : List Parameter} {slots : List Slot} {i : Nat}
    {out : List Term × Nat}, fillSlots? r s i slots params = some out →
      slots.length = params.length → out.1.length = params.length
  | [], slots, i, out, h, hlength => by
      rw [List.eq_nil_of_length_eq_zero hlength] at h
      cases h
      rfl
  | p :: params, [], i, out, h, hlength => by cases hlength
  | p :: params, slot :: slots, i, out, h, hlength => by
      obtain ⟨⟨arg, cast⟩, -, h⟩ := Option.bind_eq_some_iff.1 h
      obtain ⟨rest, hrest, rfl⟩ := Option.map_eq_some_iff.1 h
      exact congrArg Nat.succ (length_fillSlots? hrest (Nat.succ.inj hlength))

/-- **There is one argument for each parameter.** -/
theorem length_args {typeArgs : List TypeRef} {positional : List Term}
    {named : List NamedArgument} {c : Candidate}
    (h : of? r m typeArgs positional named = some c) : c.args.length = m.params.length := by
  obtain ⟨arrangement, closed, inferred, args, casts, harranged, hclosed, hfilled, rfl⟩ :=
    of?_eq_some_iff.1 h
  obtain ⟨-, -, -, rfl⟩ := Arrangement.of?_eq_some_iff.1 harranged
  have hlength := length_params_of_closeOver? hclosed
  rw [← hlength]
  exact length_fillSlots? hfilled (Arrangement.length_slotsOf.trans hlength.symm)

/-- What fits an argument has a parameter. -/
theorem length_params_pos {typeArgs : List TypeRef} {t : Term} {positional : List Term}
    {named : List NamedArgument} {c : Candidate}
    (h : of? r m typeArgs (t :: positional) named = some c) : 1 ≤ m.params.length := by
  obtain ⟨arrangement, closed, inferred, args, casts, harranged, -⟩ := of?_eq_some_iff.1 h
  obtain ⟨hcount, -⟩ := Arrangement.of?_eq_some_iff.1 harranged
  rcases (Arrangement.countFits_iff.1 hcount).1 with hfew | htail
  · rw [List.length_cons] at hfew
    omega
  · refine List.length_pos_iff.2 fun hnil => ?_
    rw [hnil] at htail
    cases htail

/-- A candidate is for the method, closed over its type parameters if it has any. -/
theorem method_eq {typeArgs : List TypeRef} {positional : List Term} {named : List NamedArgument}
    {c : Candidate} (h : of? r m typeArgs positional named = some c) :
    c.method = m ∨ ∃ args, c.method = m.close args := by
  obtain ⟨arrangement, closed, inferred, args, casts, -, hclosed, -, rfl⟩ := of?_eq_some_iff.1 h
  exact closeOver?_eq_some hclosed

/-- A candidate without others is chosen. -/
theorem best_singleton {name : String} {c : Candidate} : best name [c] = .ok c :=
  best_eq_ok_iff.2 ⟨[], .refl [c], nofun⟩

/-- Only one method makes a candidate. -/
theorem viable_eq_singleton {ms : List Method} {positional : List Term} {c : Candidate}
    (nodup : ms.Nodup) (hm : m ∈ ms) (fits : of? r m [] positional [] = some c)
    (only : ∀ other ∈ ms, (of? r other [] positional []).isSome = true → other = m) :
    viable r ms [] positional [] = [c] := by
  unfold viable
  induction ms with
  | nil => cases hm
  | cons x xs ih =>
      obtain ⟨hx, hxs⟩ := List.nodup_cons.1 nodup
      obtain ⟨honly, honlys⟩ := List.forall_mem_cons.1 only
      by_cases heq : x = m
      · subst heq
        have hnone : xs.filterMap (fun other => of? r other [] positional []) = [] := by
          refine List.filterMap_eq_nil_iff.2 fun other hother => ?_
          rw [← Option.not_isSome_iff_eq_none]
          intro hsome
          exact hx (honlys other hother hsome ▸ hother)
        simp only [List.filterMap_cons, fits, hnone]
      · have hnone : of? r x [] positional [] = none :=
          Option.not_isSome_iff_eq_none.1 fun hsome => heq (honly hsome)
        simp only [List.filterMap_cons, hnone]
        exact ih hxs ((List.mem_cons.1 hm).resolve_left (Ne.symm heq)) honlys

end Candidate

namespace Term

variable {r : Registry} {name : String} {m : Method} {left right operand : Term} {c : Candidate}

/-- **The method alone fits the operands**, of all that are shown, and makes the candidate. -/
structure FitsAlone (r : Registry) (name : String) (operands : List Term) (m : Method)
    (c : Candidate) : Prop where
  shown : m ∈ shownOverloads r name (operands.map Term.type)
  fits : Candidate.of? r m [] operands [] = some c
  only : ∀ other ∈ shownOverloads r name (operands.map Term.type),
    (Candidate.of? r other [] operands []).isSome = true → other = m

/-- A considered method that alone fits is chosen. -/
theorem FitsAlone.overload? {operands : List Term} (h : FitsAlone r name operands m c)
    (declared : r.StaticsDeclared) (considered : m ∈ overloads r name (operands.map Term.type)) :
    overload? r name operands = .ok (some c) := by
  have hviable : Candidate.viable r (overloads r name (operands.map Term.type)) [] operands []
      = [c] := by
    refine Candidate.viable_eq_singleton nodup_distinctMethods considered h.fits ?_
    intro other hother
    rw [overloads_eq declared, mem_distinctMethods_iff] at hother
    exact h.only other (List.mem_of_find?_eq_some hother)
  unfold Term.overload?
  rw [hviable]
  simp only [Candidate.best_singleton]
  rfl

/-- **What a chosen overload makes**: the operator on its first two arguments. -/
theorem applyBinary_of_overload {op : BinaryOp} (named : op.methodName? = some name)
    (builtin : builtinBinary? r left op right = none)
    (chosen : overload? r name [left, right] = .ok (some c)) (two : 2 ≤ c.args.length) :
    ∃ a b rest, c.args = a :: b :: rest ∧ left.applyBinary r op right
      = .ok (.binary a op b c.method.returns (some c.method)) := by
  obtain ⟨method, args, casts, inferred⟩ := c
  match args, two with
  | a :: b :: rest, _ =>
      have hstrict : op.IsStrict := by
        cases op <;> first | decide | cases named
      have hoverloaded : overloadedBinary? r left op right
          = .ok (some (.binary a op b method.returns (some method))) := by
        unfold overloadedBinary?
        rw [named]
        simp only [chosen]
        rfl
      have hdirect : directBinary? r left op right
          = .ok (some (.binary a op b method.returns (some method))) := by
        unfold directBinary?
        rw [builtin, hoverloaded]
        rfl
      refine ⟨a, b, rest, rfl, ?_⟩
      rw [applyBinary_of_isStrict hstrict]
      exact strictBinary_eq_ok_iff.2 (.inl hdirect)

theorem applyUnary_of_overload {op : UnaryOp} (builtin : builtinUnary? r op operand = none)
    (chosen : overload? r op.methodName [operand] = .ok (some c)) (one : 1 ≤ c.args.length) :
    ∃ a rest, c.args = a :: rest ∧ operand.applyUnary r op
      = .ok (.unary op a c.method.returns (some c.method)) := by
  obtain ⟨method, args, casts, inferred⟩ := c
  match args, one with
  | a :: rest, _ =>
      have hdirect : directUnary? r op operand
          = .ok (some (.unary op a method.returns (some method))) := by
        unfold directUnary?
        rw [builtin]
        simp only [overloadedUnary?, chosen]
        rfl
      exact ⟨a, rest, rfl, applyUnary_eq_ok_iff.2 (.inl hdirect)⟩

/-! ## §3. Overloads. -/

/-- **Overloads that are considered, and chosen**, where only declared types show static methods, as
over the built-in types.  Of the methods that the operand types show, the first of each identity
is considered, so all are just if their identities differ.  A considered method that alone fits the
operands is chosen, if the operator has no built-in meaning, unless it would collect both operands
of a binary operator into one array. -/
theorem overload_chosen (r : Registry) :
    (r.ExtendsBuiltins → r.StaticsDeclared)
    ∧ (r.StaticsDeclared → ∀ (name : String) (types : List TypeRef),
      (∀ m, m ∈ overloads r name types ↔
        (shownOverloads r name types).find? (fun other => other.id == m.id) = some m)
      ∧ ((∀ m ∈ shownOverloads r name types, m ∈ overloads r name types) ↔
        IdsDiffer (shownOverloads r name types)))
    ∧ (r.StaticsDeclared → ∀ (left right : Term) (op : BinaryOp) (name : String) (m : Method)
      (c : Candidate), op.methodName? = some name → builtinBinary? r left op right = none →
      FitsAlone r name [left, right] m c → m ∈ overloads r name [left.type, right.type] →
      m.params.length ≠ 1 →
      (c.method = m ∨ ∃ args, c.method = m.close args)
        ∧ ∃ a b rest, c.args = a :: b :: rest ∧ left.applyBinary r op right
          = .ok (.binary a op b c.method.returns (some c.method)))
    ∧ (r.StaticsDeclared → ∀ (operand : Term) (op : UnaryOp) (m : Method) (c : Candidate),
      builtinUnary? r op operand = none → FitsAlone r op.methodName [operand] m c →
      m ∈ overloads r op.methodName [operand.type] →
      (c.method = m ∨ ∃ args, c.method = m.close args)
        ∧ ∃ a rest, c.args = a :: rest ∧ operand.applyUnary r op
          = .ok (.unary op a c.method.returns (some c.method))) := by
  refine ⟨?_, ?_, ?_, ?_⟩
  · exact Registry.ExtendsBuiltins.staticsDeclared
  · intro declared name types
    rw [overloads_eq declared]
    exact ⟨fun m => mem_distinctMethods_iff, subset_distinctMethods_iff⟩
  · intro declared left right op name m c named builtin alone considered hone
    have hpos := Candidate.length_params_pos alone.fits
    have two : 2 ≤ c.args.length := by
      rw [Candidate.length_args alone.fits]
      omega
    exact ⟨Candidate.method_eq alone.fits,
      applyBinary_of_overload named builtin (alone.overload? declared considered) two⟩
  · intro declared operand op m c builtin alone considered
    have one := Candidate.length_params_pos alone.fits
    rw [← Candidate.length_args alone.fits] at one
    exact ⟨Candidate.method_eq alone.fits,
      applyUnary_of_overload builtin (alone.overload? declared considered) one⟩

/-- The addition of two amounts. -/
def amountAddition : Method :=
  let amount := TypeRef.simple "App.Amount"
  (TypeEntry.MethodDecl.static_ "op_Addition" amount
    [.required "a" amount, .required "b" amount]).inOwner amountEntry false

/-- An amount. -/
def amountNamed (name : String) : Term := .parameter name (.simple "App.Amount")

/-- Two amounts are added by the addition that they declare. -/
theorem overload_chosen_amount : builtinBinary? amountTypes (amountNamed "paid") .add
      (amountNamed "due") = none
    ∧ amountAddition ∈ overloads amountTypes "op_Addition" [(amountNamed "paid").type,
      (amountNamed "due").type]
    ∧ ∃ c, FitsAlone amountTypes "op_Addition" [amountNamed "paid", amountNamed "due"]
        amountAddition c
      ∧ ∃ t, (amountNamed "paid").applyBinary amountTypes .add (amountNamed "due") = .ok t := by
  have builtin : builtinBinary? amountTypes (amountNamed "paid") .add (amountNamed "due")
      = none := by
    rw [← Option.not_isSome_iff_eq_none]
    decide +kernel
  have considered : amountAddition ∈ overloads amountTypes "op_Addition"
      [(amountNamed "paid").type, (amountNamed "due").type] := by
    decide +kernel
  obtain ⟨c, fits⟩ := Option.isSome_iff_exists.1 (show (Candidate.of? amountTypes amountAddition []
    [amountNamed "paid", amountNamed "due"] []).isSome = true by decide +kernel)
  have alone : FitsAlone amountTypes "op_Addition" [amountNamed "paid", amountNamed "due"]
      amountAddition c := ⟨by decide +kernel, fits, by decide +kernel⟩
  obtain ⟨hdeclared, -, hbinary, -⟩ := overload_chosen amountTypes
  obtain ⟨-, a, b, rest, -, h⟩ := hbinary (hdeclared extendsBuiltins_amount) _ _ .add _ _ _ rfl
    builtin alone considered (by decide)
  exact ⟨builtin, considered, c, alone, _, h⟩

/-- Numbers or tags can be added to a basket. -/
def basketEntry : TypeEntry :=
  let basket := TypeRef.simple "App.Basket"
  (TypeEntry.declare "App.Basket" "App")
    |>.addMethod (.static_ "op_Addition" basket
      [.required "to" basket, .required "numbers" (.array .int32)])
    |>.addMethod (.static_ "op_Addition" basket
      [.required "to" basket, .required "tags" (.array .string)])

def basketTypes : Registry := Builtins.registry.insert basketEntry

/-- The addition of tags, which is declared after that of numbers. -/
def tagsAddition : Method :=
  let basket := TypeRef.simple "App.Basket"
  (TypeEntry.MethodDecl.static_ "op_Addition" basket
    [.required "to" basket, .required "tags" (.array .string)]).inOwner basketEntry false

/-- **An overload with the identity of an earlier one is not considered**, though it alone fits. -/
theorem not_considered_tags : Builtins.registry.register basketEntry = .ok basketTypes
    ∧ builtinBinary? basketTypes (.parameter "basket" (.simple "App.Basket")) .add
      (.parameter "tags" (.array .string)) = none
    ∧ (∃ c, FitsAlone basketTypes "op_Addition" [.parameter "basket" (.simple "App.Basket"),
      .parameter "tags" (.array .string)] tagsAddition c)
    ∧ ¬ ∃ t, (Term.parameter "basket" (.simple "App.Basket")).applyBinary basketTypes .add
      (.parameter "tags" (.array .string)) = .ok t := by
  refine ⟨?_, ?_, ?_, ?_⟩
  · exact Registry.register_eq_ok_iff.2 ⟨by decide +kernel, by decide +kernel, rfl⟩
  · rw [← Option.not_isSome_iff_eq_none]
    decide +kernel
  · obtain ⟨c, fits⟩ := Option.isSome_iff_exists.1 (show (Candidate.of? basketTypes tagsAddition []
      [.parameter "basket" (.simple "App.Basket"), .parameter "tags" (.array .string)]
      []).isSome = true by decide +kernel)
    exact ⟨c, by decide +kernel, fits, by decide +kernel⟩
  · exact not_exists_ok (by decide +kernel)

end Term

end BoundMarkup
