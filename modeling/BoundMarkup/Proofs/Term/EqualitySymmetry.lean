/-
  BoundMarkup.Proofs.Term.EqualitySymmetry
  ────────────────────────────────────────
  **EQUALITY FROM EITHER SIDE.**

  Where equality is not overloaded, the types of two operands decide about it alone,
  and they do so from either side: the built-in signatures, equality of an interface and
  equality after a conversion are symmetric (`Registry.equates_comm`).  The last resort
  is not.  The equality that every object has is called on the left operand, and on
  `null` nothing can be called, so `n == null` has a meaning where `null == n` may have
  none.  That is the only difference (`Term.equality_symm`).
-/
import BoundMarkup.Proofs.Term.Lifting

namespace BoundMarkup

/-! ## §1. Signatures. -/

namespace Signature

variable {op : BinaryOp} {t u : TypeRef}

theorem nullEquality?_comm : nullEquality? t u = nullEquality? u t := by
  cases t <;> cases u <;> rfl

theorem nullEquality?_null (hother : t ≠ .null) :
    nullEquality? .null t = if comparesWithNull t then some (predicate t) else none := by
  cases t <;> first | rfl | exact absurd rfl hother

theorem equalityOperand?_comm (a b : Primitive) : equalityOperand? a b = equalityOperand? b a := by
  cases a <;> cases b <;> rfl

/-- The built-in type in which values of two types are tested for equality. -/
def comparedIn? (t u : TypeRef) : Option Primitive :=
  t.primitive?.bind (fun a => u.primitive?.bind (equalityOperand? a))

theorem comparedIn?_comm : comparedIn? t u = comparedIn? u t := by
  unfold comparedIn?
  cases t.primitive? with
  | none => simp
  | some a =>
      cases u.primitive? with
      | none => rfl
      | some b => exact equalityOperand?_comm a b

/-- The signature of equality and of inequality. -/
theorem binary?_of_isEquality (hop : op.isEquality = true) :
    binary? op t u = (nullEquality? t u).orElse
      (fun _ => (comparedIn? t u).map (fun p => predicate p.type)) := by
  have hoperands : ofOperands? op t u = (comparedIn? t u).map (fun p => predicate p.type) := by
    unfold ofOperands? comparedIn?
    cases t.primitive? <;> cases u.primitive? <;> cases op <;> first | rfl | cases hop
  unfold binary?
  rw [if_pos hop, hoperands]

/-- **Built-in equality has the same signature from either side.** -/
theorem binary?_comm (hop : op.isEquality = true) : binary? op t u = binary? op u t := by
  rw [binary?_of_isEquality hop, binary?_of_isEquality hop, nullEquality?_comm, comparedIn?_comm]

/-- Built-in equality compares both operands in one type. -/
theorem exists_predicate_of_isEquality (hop : op.isEquality = true) {s : Signature}
    (h : binary? op t u = some s) : ∃ operand, s = predicate operand := by
  rw [binary?_of_isEquality hop] at h
  rcases (Option.orElse_eq_some _ _ _).1 h with h | ⟨-, h⟩
  · unfold nullEquality? at h
    split at h
    · exact ⟨_, (Option.some.inj h).symm⟩
    · split at h <;> cases h
      exact ⟨_, rfl⟩
    · split at h <;> cases h
      exact ⟨_, rfl⟩
    · cases h
  · obtain ⟨p, -, rfl⟩ := Option.map_eq_some_iff.1 h
    exact ⟨p.type, rfl⟩

end Signature

/-! ## §2. Conversions of `null` and to `object`. -/

namespace Conversion

variable {r : Registry} {t : TypeRef}

theorem acceptsNull_object : acceptsNull r .object = true := by
  have hprimitive : TypeRef.object.primitive? = some .object :=
    beq_iff_eq.1 TypeRef.isObject_object
  have hvalue : r.isValueType .object = false := by
    unfold Registry.isValueType
    simp only [hprimitive]
    rfl
  show (!r.isValueType .object) = true
  rw [hvalue]
  rfl

/-- **`null` converts to what accepts it**, and to nothing else. -/
theorem isSome_find?_null_iff :
    (find? r .null t).isSome = true ↔ t = .null ∨ acceptsNull r t = true := by
  cases t with
  | null => exact iff_of_true rfl (.inl rfl)
  | nullable inner => exact iff_of_true rfl (.inr rfl)
  | _ =>
      unfold find?
      simp only [reduceCtorEq, if_false, false_or]
      split <;> simp [*]

/-- **Everything that has a type of values is an object.** -/
theorem isSome_find?_object (husable : t.isUnusable = false) :
    (find? r t .object).isSome = true := by
  have hupcast : (upcast? r t (.named Primitive.object.name [])).isSome = true := by
    unfold upcast?
    rw [show (TypeRef.named Primitive.object.name []).isObject = true from TypeRef.isObject_object]
    rfl
  show (find? r t (.named Primitive.object.name [])).isSome = true
  unfold find?
  split
  · rfl
  · cases t with
    | unknown => cases husable
    | void => cases husable
    | null =>
        rw [show acceptsNull r (.named Primitive.object.name []) = true from acceptsNull_object]
        rfl
    | _ => rw [Option.orElse_eq_or, Option.isSome_or, hupcast, Bool.or_true]

end Conversion

/-! ## §3. What the types decide. -/

namespace Registry

/-- Values of the first type have equality with values of the second. -/
def HasEquals (r : Registry) (t u : TypeRef) : Prop :=
  r.implements t (.equatable u) = true ∧ (r.method? t "Equals" u).isSome = true

/-- Values of either type have equality with values of the other. -/
def EitherEquals (r : Registry) (t u : TypeRef) : Prop := r.HasEquals t u ∨ r.HasEquals u t

/-- Copied values of the first type have equality with what values of the second convert to.
An exact conversion leaves the type as it is. -/
def ConvertedEquals (r : Registry) (t u : TypeRef) : Prop :=
  r.isValueType t = true ∧ ∃ c, Conversion.find? r u t = some c
    ∧ r.EitherEquals t (if c.isExact then u else t)

/-- **The types of two operands decide that they can be tested for equality**, without calling
a method that all objects have. -/
inductive Equates (r : Registry) (op : BinaryOp) (t u : TypeRef) : Prop where
  | builtin (operand : TypeRef) (signature : Signature.binary? op t u = some (.predicate operand))
      (left : (Conversion.find? r t operand).isSome = true)
      (right : (Conversion.find? r u operand).isSome = true)
  | typed (usable : t.isUnusable = false ∧ u.isUnusable = false) (equals : r.EitherEquals t u)
  | convertedRight (usable : t.isUnusable = false ∧ u.isUnusable = false)
      (equals : r.ConvertedEquals t u)
  | convertedLeft (usable : t.isUnusable = false ∧ u.isUnusable = false)
      (equals : r.ConvertedEquals u t)

/-- Neither equality nor inequality is overloaded on the type. -/
def PlainEquality (r : Registry) (t : TypeRef) : Prop :=
  r.methods t "op_Equality" true = [] ∧ r.methods t "op_Inequality" true = []

/-- Values of the two types can be tested for equality by the method that all objects have. -/
def ComparesObjects (r : Registry) (t u : TypeRef) : Prop :=
  (r.method? .object "Equals" .object).isSome = true
    ∧ t.isUnusable = false ∧ u.isUnusable = false

/-- **Values of the type can be compared with `null` from the left**: it converts to the type, or
they have equality with it. -/
def ComparesNull (r : Registry) (t : TypeRef) : Prop :=
  t = .null ∨ Conversion.acceptsNull r t = true ∨ r.HasEquals t .null

variable {r : Registry} {op : BinaryOp} {t u : TypeRef}

theorem ComparesObjects.symm (h : r.ComparesObjects t u) : r.ComparesObjects u t :=
  ⟨h.1, h.2.symm⟩

/-- **The types decide the same from either side.** -/
theorem Equates.symm (hop : op.isEquality = true) (h : r.Equates op t u) : r.Equates op u t := by
  cases h with
  | builtin operand signature left right =>
      rw [Signature.binary?_comm hop] at signature
      exact .builtin operand signature right left
  | typed usable equals => exact .typed usable.symm equals.symm
  | convertedRight usable equals => exact .convertedLeft usable.symm equals
  | convertedLeft usable equals => exact .convertedRight usable.symm equals

theorem equates_comm (hop : op.isEquality = true) : r.Equates op t u ↔ r.Equates op u t :=
  ⟨Equates.symm hop, Equates.symm hop⟩

end Registry

namespace Term

variable {r : Registry} {op : BinaryOp} {a b : Term}

theorem isSome_equalsOn?_iff : (equalsOn? r a b).isSome = true ↔ r.HasEquals a.type b.type := by
  unfold equalsOn? Registry.HasEquals
  split
  · rw [Option.isSome_map, and_iff_right ‹_›]
  · exact iff_of_false nofun fun h => absurd h.1 ‹_›

theorem isSome_typedEquals?_iff :
    (typedEquals? r a b).isSome = true ↔ r.EitherEquals a.type b.type := by
  unfold typedEquals? Registry.EitherEquals
  rw [Option.orElse_eq_or, Option.isSome_or, Bool.or_eq_true, isSome_equalsOn?_iff,
    isSome_equalsOn?_iff]

/-- What is done with a converted value depends on its type. -/
theorem isSome_bind_convertTo?_iff {target : TypeRef} {f : Term → Option Term}
    {P : TypeRef → Prop} (hf : ∀ u, (f u).isSome = true ↔ P u.type) :
    ((b.convertTo? r target).bind f).isSome = true ↔
      ∃ c, Conversion.find? r b.type target = some c
        ∧ P (if c.isExact then b.type else target) := by
  have htype (c : Conversion) :
      (c.apply b target).type = if c.isExact then b.type else target := by
    unfold Conversion.apply
    split <;> rfl
  unfold convertTo?
  cases Conversion.find? r b.type target with
  | none => exact iff_of_false nofun nofun
  | some c =>
      show (f (c.apply b target)).isSome = true ↔ _
      rw [hf, htype]
      simp

theorem isSome_convertedEquals?_iff : (convertedEquals? r a b).isSome = true ↔
    r.ConvertedEquals a.type b.type ∨ r.ConvertedEquals b.type a.type := by
  have hside {t u : TypeRef} {found : Option Term}
      (hfound : found.isSome = true ↔ ∃ c, Conversion.find? r u t = some c
        ∧ r.EitherEquals t (if c.isExact then u else t)) :
      (if r.isValueType t then found else none).isSome = true ↔ r.ConvertedEquals t u := by
    unfold Registry.ConvertedEquals
    rw [← hfound]
    split
    · simp [*]
    · simp [*]
  unfold convertedEquals?
  rw [Option.orElse_eq_or, Option.isSome_or, Bool.or_eq_true]
  refine or_congr (hside ?_) (hside ?_)
  · exact isSome_bind_convertTo?_iff fun u => isSome_typedEquals?_iff
  · exact isSome_bind_convertTo?_iff fun u => isSome_typedEquals?_iff.trans or_comm

theorem isSome_objectEquals?_iff (husable : b.type.isUnusable = false) :
    (objectEquals? r a b).isSome = true ↔
      a.isReceiver = true ∧ (r.method? .object "Equals" .object).isSome = true := by
  unfold objectEquals?
  split
  · rw [and_iff_right ‹_›]
    cases r.method? .object "Equals" .object with
    | none => rfl
    | some m =>
        show ((b.convertTo? r .object).map _).isSome = true ↔ _
        rw [Option.isSome_map, isSome_convertTo?, Conversion.isSome_find?_object husable]
        rfl
  · exact iff_of_false nofun fun h => absurd h.1 ‹_›

theorem isSome_builtinBinary?_iff (hop : op.isEquality = true) :
    (builtinBinary? r a op b).isSome = true ↔
      ∃ operand, Signature.binary? op a.type b.type = some (.predicate operand)
        ∧ (Conversion.find? r a.type operand).isSome = true
        ∧ (Conversion.find? r b.type operand).isSome = true := by
  have hadd : (op == .add) = false := by
    cases op <;> first | rfl | cases hop
  unfold builtinBinary?
  cases hsignature : Signature.binary? op a.type b.type with
  | none => exact iff_of_false nofun nofun
  | some s =>
      obtain ⟨operand, rfl⟩ := Signature.exists_predicate_of_isEquality hop hsignature
      simp only [Option.bind_some, hadd, Bool.false_and, Bool.false_eq_true, if_false]
      constructor
      · intro h
        split at h
        · rename_i x y hx hy
          refine ⟨operand, rfl, ?_, ?_⟩
          · rw [← isSome_convertTo?]
            exact Option.isSome_of_mem hx
          · rw [← isSome_convertTo?]
            exact Option.isSome_of_mem hy
        · cases h
      · rintro ⟨operand', heq, ha, hb⟩
        obtain rfl : operand = operand' := congrArg Signature.left (Option.some.inj heq)
        rw [← isSome_convertTo?] at ha hb
        obtain ⟨x, hx⟩ := Option.isSome_iff_exists.1 ha
        obtain ⟨y, hy⟩ := Option.isSome_iff_exists.1 hb
        simp only [Signature.predicate, hx, hy]
        rfl

theorem isSome_equals?_iff : (equals? r a b).isSome = true ↔
    (a.type.isUnusable = false ∧ b.type.isUnusable = false)
      ∧ (r.EitherEquals a.type b.type
        ∨ (r.ConvertedEquals a.type b.type ∨ r.ConvertedEquals b.type a.type)
        ∨ a.isReceiver = true ∧ (r.method? .object "Equals" .object).isSome = true) := by
  unfold equals?
  split
  · rename_i hunusable
    refine iff_of_false nofun fun ⟨⟨ha, hb⟩, _⟩ => ?_
    rw [ha, hb] at hunusable
    cases hunusable
  · rename_i husable
    have hboth := Bool.or_eq_false_iff.1 (Bool.eq_false_iff.2 husable)
    rw [and_iff_right hboth, Option.orElse_eq_or, Option.isSome_or, Bool.or_eq_true,
      Option.orElse_eq_or, Option.isSome_or, Bool.or_eq_true, isSome_typedEquals?_iff,
      isSome_convertedEquals?_iff, isSome_objectEquals?_iff hboth.2]

/-- **An equality that is not overloaded** is decided by the types of its operands, unless it is
a call on the left one. -/
theorem exists_directBinary?_iff (hop : op.isEquality = true)
    (plain : ∀ name, op.methodName? = some name → overloads r name [a.type, b.type] = []) :
    (∃ t, directBinary? r a op b = .ok (some t)) ↔ r.Equates op a.type b.type
      ∨ a.isReceiver = true ∧ r.ComparesObjects a.type b.type := by
  have horder : methodOrder? r a op b = none := by
    cases op <;> first | rfl | cases hop
  have hequal : (methodEquality? r a op b).isSome = (equals? r a b).isSome := by
    unfold methodEquality?
    rw [if_pos hop, Option.isSome_map]
  have hsome : (∃ t, directBinary? r a op b = .ok (some t)) ↔
      (builtinBinary? r a op b).isSome = true ∨ (equals? r a b).isSome = true := by
    rw [directBinary?_of_overloads_eq_nil plain, horder, ← hequal, ← Bool.or_eq_true,
      Option.orElse_eq_or, Option.orElse_eq_or, Option.or_none, ← Option.isSome_or,
      Option.isSome_iff_exists]
    simp only [Except.ok.injEq]
  rw [hsome, isSome_builtinBinary?_iff hop, isSome_equals?_iff]
  constructor
  · rintro (⟨operand, signature, left, right⟩ | ⟨usable, equals | equals | ⟨hcall, hobject⟩⟩)
    · exact .inl (.builtin operand signature left right)
    · exact .inl (.typed usable equals)
    · rcases equals with equals | equals
      · exact .inl (.convertedRight usable equals)
      · exact .inl (.convertedLeft usable equals)
    · exact .inr ⟨hcall, hobject, usable⟩
  · rintro (h | ⟨hcall, hobject, usable⟩)
    · cases h with
      | builtin operand signature left right => exact .inl ⟨operand, signature, left, right⟩
      | typed usable equals => exact .inr ⟨usable, .inl equals⟩
      | convertedRight usable equals => exact .inr ⟨usable, .inr (.inl (.inl equals))⟩
      | convertedLeft usable equals => exact .inr ⟨usable, .inr (.inl (.inr equals))⟩
    · exact .inr ⟨usable, .inr (.inr ⟨hcall, hobject⟩)⟩

/-! ## §4. Either side. -/

/-- The operator has a meaning for the operands. -/
def Resolves (r : Registry) (a : Term) (op : BinaryOp) (b : Term) : Prop :=
  ∃ t, a.applyBinary r op b = .ok t

theorem overloads_of_plainEquality {t u : TypeRef} (hop : op.isEquality = true)
    (ht : r.PlainEquality t) (hu : r.PlainEquality u) :
    ∀ name, op.methodName? = some name → overloads r name [t, u] = [] := by
  intro name hname
  refine overloads_eq_nil (List.forall_mem_cons.2 ?_)
  rw [List.forall_mem_singleton]
  cases op with
  | equal =>
      cases hname
      exact ⟨ht.1, hu.1⟩
  | notEqual =>
      cases hname
      exact ⟨ht.2, hu.2⟩
  | _ => cases hop

/-- Equality is tried on the operands, and then on what nullable ones wrap. -/
theorem resolves_iff (hop : op.isEquality = true) (ha : r.PlainEquality a.type)
    (hb : r.PlainEquality b.type) :
    Resolves r a op b ↔ (∃ t, directBinary? r a op b = .ok (some t))
      ∨ (a.type.isNullable || b.type.isNullable) = true
        ∧ ∃ x y, a.unwrapped r = .ok x ∧ b.unwrapped r = .ok y
          ∧ ∃ t, directBinary? r x op y = .ok (some t) := by
  have hstrict : op.IsStrict := by
    cases op <;> first | decide | cases hop
  have plain := overloads_of_plainEquality hop ha hb
  obtain ⟨found, hfound⟩ : ∃ found, directBinary? r a op b = .ok found :=
    ⟨_, directBinary?_of_overloads_eq_nil plain⟩
  unfold Resolves
  rw [applyBinary_of_isStrict hstrict]
  constructor
  · rintro ⟨t, h⟩
    rcases strictBinary_eq_ok_iff.1 h with h | ⟨-, hnullable, x, y, hx, hy, h⟩
    · exact .inl ⟨t, h⟩
    · exact .inr ⟨hnullable, x, y, hx, hy, t, h⟩
  · rintro (⟨t, h⟩ | ⟨hnullable, x, y, hx, hy, t, h⟩)
    · exact ⟨t, strictBinary_eq_ok_iff.2 (.inl h)⟩
    · cases found with
      | some direct => exact ⟨direct, strictBinary_eq_ok_iff.2 (.inl hfound)⟩
      | none =>
          exact ⟨t, strictBinary_eq_ok_iff.2 (.inr ⟨hfound, hnullable, x, y, hx, hy, h⟩)⟩

/-- A type that nothing can be done with is not unwrapped. -/
theorem isUnusable_of_unwrapped {t u : Term} (h : t.unwrapped r = .ok u)
    (husable : u.type.isUnusable = false) : t.type.isUnusable = false := by
  cases hnullable : t.type.isNullable with
  | true =>
      obtain ⟨inner, hinner⟩ := TypeRef.isNullable_iff.1 hnullable
      rw [hinner]
      rfl
  | false =>
      rw [unwrapped_of_not_nullable hnullable] at h
      cases h
      exact husable

/-- Where objects have no equality, the types decide alone. -/
theorem exists_directBinary?_comm (hop : op.isEquality = true) (ha : r.PlainEquality a.type)
    (hb : r.PlainEquality b.type) (hnone : ¬ r.ComparesObjects a.type b.type) :
    (∃ t, directBinary? r a op b = .ok (some t)) ↔ ∃ t, directBinary? r b op a = .ok (some t) := by
  have hnone' : ¬ r.ComparesObjects b.type a.type := fun h => hnone h.symm
  rw [exists_directBinary?_iff hop (overloads_of_plainEquality hop ha hb),
    exists_directBinary?_iff hop (overloads_of_plainEquality hop hb ha), r.equates_comm hop]
  simp only [hnone, hnone', and_false, or_false]

theorem resolves_comm_of_not_comparesObjects (hop : op.isEquality = true)
    (ha : r.PlainEquality a.type) (hb : r.PlainEquality b.type)
    (inside : ∀ u, a.unwrapped r = .ok u ∨ b.unwrapped r = .ok u → r.PlainEquality u.type)
    (hnone : ¬ r.ComparesObjects a.type b.type) : Resolves r a op b ↔ Resolves r b op a := by
  -- What is inside has no equality of objects either.
  have hlifted (x y : Term) (hx : a.unwrapped r = .ok x) (hy : b.unwrapped r = .ok y) :
      (∃ t, directBinary? r x op y = .ok (some t)) ↔
        ∃ t, directBinary? r y op x = .ok (some t) := by
    refine exists_directBinary?_comm hop (inside x (.inl hx)) (inside y (.inr hy)) fun h => ?_
    exact hnone ⟨h.1, isUnusable_of_unwrapped hx h.2.1, isUnusable_of_unwrapped hy h.2.2⟩
  rw [resolves_iff hop ha hb, resolves_iff hop hb ha, exists_directBinary?_comm hop ha hb hnone,
    Bool.or_comm]
  refine or_congr_right (and_congr_right fun _ => ⟨?_, ?_⟩)
  · rintro ⟨x, y, hx, hy, h⟩
    exact ⟨y, x, hy, hx, (hlifted x y hx hy).1 h⟩
  · rintro ⟨y, x, hy, hx, h⟩
    exact ⟨x, y, hx, hy, (hlifted x y hx hy).2 h⟩

/-- What can be called is equal to anything, where objects have equality. -/
theorem resolves_of_isReceiver (hop : op.isEquality = true) (ha : r.PlainEquality a.type)
    (hb : r.PlainEquality b.type) (hcall : a.isReceiver = true)
    (hobject : r.ComparesObjects a.type b.type) : Resolves r a op b := by
  rw [resolves_iff hop ha hb,
    exists_directBinary?_iff hop (overloads_of_plainEquality hop ha hb)]
  exact .inl (.inr ⟨hcall, hobject⟩)

/-! ## §5. The literal `null`. -/

end Term

namespace Registry

variable {r : Registry} {op : BinaryOp} {t u : TypeRef}

/-- What accepts `null` has a signature for equality with it. -/
theorem comparesWithNull_of_acceptsNull (h : Conversion.acceptsNull r t = true) :
    Signature.comparesWithNull t = true := by
  cases t with
  | named name args =>
      have hvalue : r.isValueType (.named name args) = false := by
        simpa [Conversion.acceptsNull] using h
      unfold isValueType at hvalue
      show (!(TypeRef.named name args).primitive?.any Primitive.isValueType) = true
      cases hkind : (TypeRef.named name args).primitive? with
      | none => rfl
      | some kind =>
          simp only [hkind] at hvalue
          show (!kind.isValueType) = true
          rw [hvalue]
          rfl
  | array element => rfl
  | nullable inner => rfl
  | _ => cases h

theorem not_hasEquals_null : ¬ r.HasEquals .null u := by
  intro h
  rcases implements_iff.1 h.1 with h | h <;> cases h

/-- **What `null` on the left is compared with.** -/
theorem equates_null_iff (hop : op.isEquality = true) :
    r.Equates op .null t ↔ r.ComparesNull t := by
  have hsignature : Signature.binary? op .null t = Signature.nullEquality? .null t := by
    rw [Signature.binary?_of_isEquality hop]
    cases Signature.nullEquality? .null t <;> rfl
  by_cases hnull : t = .null
  · subst hnull
    have hobject : (Conversion.find? r .null .object).isSome = true :=
      Conversion.isSome_find?_null_iff.2 (.inr Conversion.acceptsNull_object)
    exact iff_of_true (.builtin .object hsignature hobject hobject) (.inl rfl)
  rw [Signature.nullEquality?_null hnull] at hsignature
  constructor
  · intro h
    cases h with
    | builtin operand signature left right =>
        rw [hsignature] at signature
        split at signature
        · obtain rfl : t = operand := congrArg Signature.left (Option.some.inj signature)
          exact (Conversion.isSome_find?_null_iff.1 left).imp_right .inl
        · cases signature
    | typed usable equals => exact .inr (.inr (equals.resolve_left not_hasEquals_null))
    | convertedRight usable equals => cases equals.1
    | convertedLeft usable equals =>
        obtain ⟨-, c, hc, -⟩ := equals
        exact (Conversion.isSome_find?_null_iff.1 (Option.isSome_of_mem hc)).imp_right .inl
  · intro h
    rcases h.resolve_left hnull with haccepts | hequals
    · rw [comparesWithNull_of_acceptsNull haccepts, if_pos rfl] at hsignature
      refine .builtin t hsignature (Conversion.isSome_find?_null_iff.2 (.inr haccepts)) ?_
      rw [Conversion.find?_self]
      rfl
    · exact .typed ⟨rfl, isUnusable_of_implements hequals.1⟩ (.inr hequals)

end Registry

namespace Term

variable {r : Registry} {op : BinaryOp} {a b : Term}

theorem resolves_null_iff (hop : op.isEquality = true) (ha : r.PlainEquality .null)
    (hb : r.PlainEquality b.type) :
    Resolves r (.literal .null) op b ↔ r.ComparesNull b.type := by
  have hdirect : (∃ t, directBinary? r (.literal .null) op b = .ok (some t)) ↔
      r.ComparesNull b.type := by
    rw [exists_directBinary?_iff hop (overloads_of_plainEquality hop ha hb)]
    show r.Equates op .null b.type ∨ false = true ∧ _ ↔ _
    simp [r.equates_null_iff hop]
  rw [resolves_iff hop ha hb, hdirect]
  refine or_iff_left_of_imp ?_
  rintro ⟨hnullable, -⟩
  -- The other side is nullable, and accepts `null` as it is.
  have hright : b.type.isNullable = true := (Bool.or_eq_true_iff.1 hnullable).resolve_left nofun
  obtain ⟨inner, hinner⟩ := TypeRef.isNullable_iff.1 hright
  rw [hinner]
  exact .inr (.inl rfl)

/-- **Equality is symmetric but for what can be called.**  If neither type overloads it, and the
equality that all objects have applies or none of the values inside nullable operands overloads
it, then two operands of which neither is `null` can be tested for equality from either side.
With `null` on one side, the other side can be called where `null` cannot: then the order
matters just where nothing but the equality of objects applies.  What `null` on the left can be
compared with is said by the type alone. -/
theorem equality_symm (hop : op.isEquality = true) (leftValue : a.isValue = true)
    (rightValue : b.isValue = true) (leftPlain : r.PlainEquality a.type)
    (rightPlain : r.PlainEquality b.type)
    (inside : r.ComparesObjects a.type b.type
      ∨ ∀ u, a.unwrapped r = .ok u ∨ b.unwrapped r = .ok u → r.PlainEquality u.type) :
    (a.isNullLiteral = false → b.isNullLiteral = false →
        (Resolves r a op b ↔ Resolves r b op a))
      ∧ (a.isNullLiteral = true → b.isNullLiteral = false →
        (Resolves r b op a ↔ Resolves r a op b ∨ r.ComparesObjects a.type b.type))
      ∧ (a = .literal .null → (Resolves r a op b ↔ r.ComparesNull b.type)) := by
  have hcomm (hnone : ¬ r.ComparesObjects a.type b.type) : Resolves r a op b ↔ Resolves r b op a :=
    resolves_comm_of_not_comparesObjects hop leftPlain rightPlain (inside.resolve_left hnone) hnone
  have hreceiver {t : Term} (hvalue : t.isValue = true) (hnull : t.isNullLiteral = false) :
      t.isReceiver = true := by
    rw [isReceiver, hvalue, hnull]
    rfl
  refine ⟨fun ha hb => ?_, fun _ hb => ?_, ?_⟩
  · by_cases hobject : r.ComparesObjects a.type b.type
    · exact iff_of_true
        (resolves_of_isReceiver hop leftPlain rightPlain (hreceiver leftValue ha) hobject)
        (resolves_of_isReceiver hop rightPlain leftPlain (hreceiver rightValue hb) hobject.symm)
    · exact hcomm hobject
  · by_cases hobject : r.ComparesObjects a.type b.type
    · exact iff_of_true
        (resolves_of_isReceiver hop rightPlain leftPlain (hreceiver rightValue hb) hobject.symm)
        (.inr hobject)
    · rw [or_iff_left hobject]
      exact (hcomm hobject).symm
  · rintro rfl
    exact resolves_null_iff hop leftPlain rightPlain

/-- A text can be compared with `null` on either side. -/
theorem equality_symm_title : BinaryOp.isEquality .notEqual = true
    ∧ (Term.literal .null).isValue = true ∧ (Term.parameter "title" .string).isValue = true
    ∧ Builtins.registry.PlainEquality (Term.literal .null).type
    ∧ Builtins.registry.PlainEquality (Term.parameter "title" .string).type
    ∧ Builtins.registry.ComparesObjects (Term.literal .null).type
      (Term.parameter "title" .string).type
    ∧ Resolves Builtins.registry (.literal .null) .notEqual (.parameter "title" .string)
    ∧ Resolves Builtins.registry (.parameter "title" .string) .notEqual (.literal .null) := by
  have leftPlain : Builtins.registry.PlainEquality (Term.literal .null).type :=
    ⟨by decide +kernel, by decide +kernel⟩
  have rightPlain : Builtins.registry.PlainEquality (Term.parameter "title" .string).type :=
    ⟨by decide +kernel, by decide +kernel⟩
  have hobject : Builtins.registry.ComparesObjects (Term.literal .null).type
      (Term.parameter "title" .string).type := ⟨by decide +kernel, rfl, rfl⟩
  have hop : BinaryOp.isEquality .notEqual = true := rfl
  obtain ⟨-, hright, hleft⟩ := equality_symm hop rfl rfl leftPlain rightPlain (.inl hobject)
  refine ⟨hop, rfl, rfl, leftPlain, rightPlain, hobject, ?_, ?_⟩
  · exact (hleft rfl).2 (.inr (.inl (by decide +kernel)))
  · exact (hright rfl rfl).2 (.inr hobject)

/-- **A number can be compared with `null` on the right, but not on the left.** -/
theorem not_symm_null : Builtins.registry.PlainEquality (Term.parameter "n" .int32).type
    ∧ Builtins.registry.PlainEquality (Term.literal .null).type
    ∧ Resolves Builtins.registry (.parameter "n" .int32) .equal (.literal .null)
    ∧ ¬ Resolves Builtins.registry (.literal .null) .equal (.parameter "n" .int32) := by
  refine ⟨⟨by decide +kernel, by decide +kernel⟩, ⟨by decide +kernel, by decide +kernel⟩, ?_, ?_⟩
  · exact exists_ok_of_isSome (by decide +kernel)
  · exact not_exists_ok (by decide +kernel)

end Term

end BoundMarkup
