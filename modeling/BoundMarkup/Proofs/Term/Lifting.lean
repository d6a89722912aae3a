/-
  BoundMarkup.Proofs.Term.Lifting
  ───────────────────────────────
  **OPERATORS ON NULLABLE OPERANDS.**

  An operator on operands that may be absent is tried as it stands, and then on
  the values inside.  The steps before the last one neither fail on nullable types
  nor find anything, but for equality, which every two objects have: nullable types
  have no signatures, no overloads and no interfaces.  So nothing that works on the
  values inside is lost (`Term.lifting_complete`).
-/
import BoundMarkup.Proofs.Registry.Closing
import BoundMarkup.Proofs.Term.Resolution

namespace BoundMarkup

/-- The operators that evaluate both operands. -/
def BinaryOp.IsStrict (op : BinaryOp) : Prop := op ∉ [coalesce, andAlso, orElse]

instance (op : BinaryOp) : Decidable op.IsStrict := inferInstanceAs (Decidable (op ∉ _))

/-! ## §1. Nullable types. -/

namespace Registry

variable {r : Registry} {inner : TypeRef}

theorem implements_iff {t iface : TypeRef} :
    r.implements t iface = true ↔ t = iface ∨ iface ∈ r.supertypes t := by
  unfold implements
  rw [Bool.or_eq_true, decide_eq_true_iff, decide_eq_true_iff]

/-- What is no type of values has no interface. -/
theorem isUnusable_of_implements {t : TypeRef} {name : String} {args : List TypeRef}
    (h : r.implements t (.named name args) = true) : t.isUnusable = false := by
  cases t with
  | unknown => rcases implements_iff.1 h with h | h <;> cases h
  | void => rcases implements_iff.1 h with h | h <;> cases h
  | _ => rfl

theorem supertypes_nullable (inner : TypeRef) : r.supertypes (.nullable inner) = [.object] := rfl

/-- A nullable type has no interface. -/
theorem implements_nullable {name : String} {args : List TypeRef}
    (hne : TypeRef.named name args ≠ .object) :
    ¬ r.implements (.nullable inner) (.named name args) = true := by
  rw [implements_iff, supertypes_nullable, List.mem_singleton]
  rintro (h | h)
  · cases h
  · exact hne h

/-- **The built-in types and any types registered after them**, searched to any depth. -/
def ExtendsBuiltins (r : Registry) : Prop :=
  ∃ es base depth, Builtins.registry.registerAll es = .ok base ∧ r = base.reaching depth

theorem extendsBuiltins_of_registerAll {es : List TypeEntry}
    (registered : Builtins.registry.registerAll es = .ok r) : r.ExtendsBuiltins :=
  ⟨es, r, r.hierarchy.reach, registered, rfl⟩

/-- Registration keeps the built-in declarations. -/
theorem ExtendsBuiltins.find? {id : TypeId} {e : TypeEntry} (h : r.ExtendsBuiltins)
    (hfound : Builtins.registry.find? id = some e) : r.find? id = some e := by
  obtain ⟨es, base, depth, registered, rfl⟩ := h
  obtain ⟨-, rfl⟩ := registerAll_eq_ok_iff.1 registered
  show (Builtins.registry.insertAll es).find? id = some e
  rw [find?_insertAll, hfound]
  rfl

/-- **A nullable type has no capability properties** over the built-in types, whose `object` is
not bindable. -/
theorem capability?_nullable {name : String} (extending : r.ExtendsBuiltins) :
    r.capability? (.nullable inner) name = none := by
  have hobject : r.entryOf? .object = some Builtins.objectEntry :=
    extending.find? (by decide +kernel)
  have hlineage : r.lineage (.nullable inner) = [.nullable inner, .object] := rfl
  unfold capability?
  rw [hlineage, List.findSome?_cons, List.findSome?_cons, hobject]
  rfl

end Registry

namespace Term

variable {r : Registry} {t u left right : Term} {inner : TypeRef}

/-! ## §2. The value inside. -/

/-- What `Value` reads on a nullable term: a capability property of all objects, if there is
such a one, or else the value inside. -/
def inside (r : Registry) (t : Term) (inner : TypeRef) : Term :=
  match r.capability? t.type "Value" with
  | some p => .capabilityGet t p
  | none => .access t (valueProperty inner)

/-- **A nullable value has a member `Value`.** -/
theorem member_value (hvalue : t.isValue = true) (htype : t.type = .nullable inner) :
    t.member r "Value" [] = .ok (t.inside r inner) := by
  have href : t.isTypeReference = false := by
    cases t <;> first | rfl | cases hvalue
  have hread : t.capabilityRead? r "Value" []
      = (r.capability? t.type "Value").map (capabilityGet t) := by
    unfold capabilityRead?
    rw [href]
    rfl
  have hmember : t.member? r "Value" [] = .ok (some (t.inside r inner)) := by
    unfold member? inside
    split
    · cases hvalue
    · rw [if_neg (by rw [htype]; nofun), hread]
      cases r.capability? t.type "Value" with
      | some p => rfl
      | none =>
          simp only [Option.map_none, membersOn, href, htype, candidateMembers_nullable, ofMembers]
          rfl
  unfold member
  rw [hmember]
  rfl

/-- **The operand of a lifted operator**: the value inside a nullable term, or the term itself. -/
theorem unwrapped_of_nullable (hvalue : t.isValue = true) (htype : t.type = .nullable inner) :
    t.unwrapped r = .ok (t.inside r inner) := by
  unfold unwrapped
  rw [htype]
  exact member_value hvalue htype

theorem unwrapped_of_not_nullable (htype : t.type.isNullable = false) :
    t.unwrapped r = .ok t := by
  unfold unwrapped
  rw [htype]
  rfl

/-! ## §3. The steps of an operator. -/

theorem applyBinary_of_isStrict {op : BinaryOp} (hop : op.IsStrict) :
    left.applyBinary r op right = strictBinary r left op right := by
  cases op <;> first | rfl | exact absurd (by decide) hop

theorem liftedBinary_eq_ok_iff {op : BinaryOp} :
    liftedBinary r left op right = .ok t ↔ ∃ a b, left.unwrapped r = .ok a
      ∧ right.unwrapped r = .ok b ∧ directBinary? r a op b = .ok (some t) := by
  constructor
  · intro h
    obtain ⟨a, ha, h⟩ := exists_ok_of_bind h
    obtain ⟨b, hb, h⟩ := exists_ok_of_bind h
    split at h
    · cases h
      exact ⟨a, b, ha, hb, ‹_›⟩
    · cases h
  · rintro ⟨a, b, ha, hb, h⟩
    unfold liftedBinary
    rw [ha, hb]
    simp only [bind, Except.bind, h]

/-- **A strict operator** works on the operands as they are, or else on what nullable ones wrap. -/
theorem strictBinary_eq_ok_iff {op : BinaryOp} :
    strictBinary r left op right = .ok t ↔ directBinary? r left op right = .ok (some t)
      ∨ directBinary? r left op right = .ok none
        ∧ (left.type.isNullable || right.type.isNullable) = true
        ∧ ∃ a b, left.unwrapped r = .ok a ∧ right.unwrapped r = .ok b
          ∧ directBinary? r a op b = .ok (some t) := by
  rw [← liftedBinary_eq_ok_iff]
  cases hdirect : directBinary? r left op right with
  | error e =>
      unfold strictBinary
      rw [hdirect]
      exact iff_of_false nofun fun h => by rcases h with h | ⟨h, -⟩ <;> cases h
  | ok found =>
      unfold strictBinary
      rw [hdirect]
      cases found with
      | some direct =>
          exact ⟨fun h => .inl (by cases h; rfl),
            fun h => by rcases h with h | ⟨h, -⟩ <;> cases h; rfl⟩
      | none =>
          show (if left.type.isNullable || right.type.isNullable then
            liftedBinary r left op right else .error (noBinary left op right)) = .ok t ↔ _
          cases left.type.isNullable || right.type.isNullable with
          | true => simp
          | false => simp

/-- **A unary operator** works on the operand as it is, or else on what a nullable one wraps. -/
theorem applyUnary_eq_ok_iff {op : UnaryOp} :
    t.applyUnary r op = .ok u ↔ directUnary? r op t = .ok (some u)
      ∨ directUnary? r op t = .ok none ∧ t.type.isNullable = true
        ∧ ∃ a, t.unwrapped r = .ok a ∧ directUnary? r op a = .ok (some u) := by
  constructor
  · intro h
    obtain ⟨found, hfound, h⟩ := exists_ok_of_bind h
    cases found with
    | some direct =>
        cases h
        exact .inl hfound
    | none =>
        simp only at h
        split at h
        · obtain ⟨a, ha, h⟩ := exists_ok_of_bind h
          split at h
          · cases h
            exact .inr ⟨hfound, ‹_›, a, ha, ‹_›⟩
          · cases h
        · cases h
  · rintro (h | ⟨hnone, hnullable, a, ha, h⟩)
    · unfold applyUnary
      rw [h]
      rfl
    · unfold applyUnary
      rw [hnone, hnullable, ha]
      simp only [bind, Except.bind, if_true, h]

/-! ## §4. Overloads. -/

/-- Where no operand type shows a method of the name there is no overload. -/
theorem overloads_eq_nil {name : String} {types : List TypeRef}
    (hnone : ∀ type ∈ types, r.methods type name true = []) : overloads r name types = [] := by
  unfold overloads
  rw [List.flatMap_eq_nil_iff.2]
  · rfl
  · intro type htype
    split
    · split
      · rfl
      · exact hnone _ htype
    · rfl

/-- **Without overloads** an operator has its built-in meaning, or one through methods. -/
theorem directBinary?_of_overloads_eq_nil {op : BinaryOp}
    (hnone : ∀ name, op.methodName? = some name →
      overloads r name [left.type, right.type] = []) :
    directBinary? r left op right = .ok ((builtinBinary? r left op right).orElse (fun _ =>
      (methodEquality? r left op right).orElse (fun _ => methodOrder? r left op right))) := by
  have hoverloaded : overloadedBinary? r left op right = .ok none := by
    unfold overloadedBinary?
    cases hname : op.methodName? with
    | none => rfl
    | some name =>
        simp only [overload?, List.map_cons, List.map_nil, hnone name hname]
        rfl
  unfold directBinary?
  rw [hoverloaded]
  cases builtinBinary? r left op right with
  | some direct => rfl
  | none => rfl

theorem directUnary?_of_overloads_eq_nil {op : UnaryOp}
    (hnone : overloads r op.methodName [t.type] = []) :
    directUnary? r op t = .ok (builtinUnary? r op t) := by
  have hoverloaded : overloadedUnary? r op t = .ok none := by
    simp only [overloadedUnary?, overload?, List.map_cons, List.map_nil, hnone]
    rfl
  unfold directUnary?
  rw [hoverloaded]
  cases builtinUnary? r op t with
  | some direct => rfl
  | none => rfl

/-! ## §5. Nullable operands. -/

/-- A value of a nullable type has no order. -/
theorem compareTo?_nullable (htype : left.type = .nullable inner) :
    compareTo? r left right = none := by
  have hcomparable : ¬ r.implements (.nullable inner) .comparable = true :=
    Registry.implements_nullable (by decide)
  have hcomparableTo : ¬ r.implements (.nullable inner) (.comparableTo right.type) = true :=
    Registry.implements_nullable fun h => nomatch (TypeRef.named.inj h).2
  unfold compareTo?
  rw [htype, if_neg hcomparable, if_neg hcomparableTo]
  split <;> rfl

theorem methodOrder?_nullable {op : BinaryOp} {inner' : TypeRef}
    (hleft : left.type = .nullable inner) (hright : right.type = .nullable inner') :
    methodOrder? r left op right = none := by
  unfold methodOrder? compare
  rw [compareTo?_nullable hleft, compareTo?_nullable hright]
  split <;> rfl

/-- **On nullable operands** an operator as it stands is equality or nothing. -/
theorem directBinary?_nullable {op : BinaryOp} {inner' : TypeRef}
    (hleft : left.type = .nullable inner) (hright : right.type = .nullable inner') :
    directBinary? r left op right = .ok (methodEquality? r left op right) := by
  have hsignature : Signature.binary? op (.nullable inner) (.nullable inner') = none := by
    cases op <;> rfl
  have hbuiltin : builtinBinary? r left op right = none := by
    unfold builtinBinary?
    rw [hleft, hright, hsignature]
    rfl
  have hnone : ∀ name, op.methodName? = some name →
      overloads r name [left.type, right.type] = [] := by
    intro name _
    rw [hleft, hright]
    rfl
  rw [directBinary?_of_overloads_eq_nil hnone, hbuiltin, methodOrder?_nullable hleft hright]
  cases methodEquality? r left op right with
  | some test => rfl
  | none => rfl

theorem directUnary?_nullable {op : UnaryOp} (htype : t.type = .nullable inner) :
    directUnary? r op t = .ok none := by
  have hbuiltin : builtinUnary? r op t = none := by
    unfold builtinUnary?
    rw [htype]
    rfl
  have hnone : overloads r op.methodName [t.type] = [] := by
    rw [htype]
    rfl
  rw [directUnary?_of_overloads_eq_nil hnone, hbuiltin]

/-! ## §6. Lifting. -/

/-- Over the built-in types the value inside has the type that is wrapped. -/
theorem type_inside (extending : r.ExtendsBuiltins) (htype : t.type = .nullable inner) :
    (t.inside r inner).type = inner := by
  unfold inside
  rw [htype, Registry.capability?_nullable extending]
  rfl

/-- Operands that are not nullable are not unwrapped. -/
theorem strictBinary_of_not_nullable {op : BinaryOp} (hleft : left.type.isNullable = false)
    (hright : right.type.isNullable = false) :
    strictBinary r left op right = .ok u ↔ directBinary? r left op right = .ok (some u) := by
  rw [strictBinary_eq_ok_iff, hleft, hright]
  simp

theorem applyUnary_of_not_nullable {op : UnaryOp} (htype : t.type.isNullable = false) :
    t.applyUnary r op = .ok u ↔ directUnary? r op t = .ok (some u) := by
  rw [applyUnary_eq_ok_iff, htype]
  simp

/-- **Two nullable values** are equal by a method, or else what they wrap is operated on. -/
theorem strictBinary_nullable {op : BinaryOp} {inner' : TypeRef}
    (leftValue : left.isValue = true) (rightValue : right.isValue = true)
    (leftType : left.type = .nullable inner) (rightType : right.type = .nullable inner') :
    strictBinary r left op right = .ok u ↔ methodEquality? r left op right = some u
      ∨ methodEquality? r left op right = none
        ∧ directBinary? r (left.inside r inner) op (right.inside r inner') = .ok (some u) := by
  rw [strictBinary_eq_ok_iff, directBinary?_nullable leftType rightType,
    unwrapped_of_nullable leftValue leftType, unwrapped_of_nullable rightValue rightType, leftType]
  simp [TypeRef.isNullable, TypeRef.nullableInner?]

/-- **Lifting is complete**: over the built-in types and any types registered after them, what
works on the values inside two nullable operands works on the operands.  Apart from equality,
and for unary operators, it is the same term, and nothing else works. -/
theorem lifting_complete {inner inner' : TypeRef} (extending : r.ExtendsBuiltins)
    (leftValue : left.isValue = true) (rightValue : right.isValue = true)
    (leftType : left.type = .nullable inner) (rightType : right.type = .nullable inner')
    (flat : inner.isNullable = false) (flat' : inner'.isNullable = false) :
    ∃ a b, left.member r "Value" [] = .ok a ∧ right.member r "Value" [] = .ok b
      ∧ a.type = inner ∧ b.type = inner'
      ∧ (∀ op : BinaryOp, op.IsStrict →
        ((∃ u, a.applyBinary r op b = .ok u) → ∃ u, left.applyBinary r op right = .ok u)
          ∧ (op.isEquality = false → ∀ u,
            left.applyBinary r op right = .ok u ↔ a.applyBinary r op b = .ok u))
      ∧ ∀ op u, left.applyUnary r op = .ok u ↔ a.applyUnary r op = .ok u := by
  have htype : (left.inside r inner).type = inner := type_inside extending leftType
  have htype' : (right.inside r inner').type = inner' := type_inside extending rightType
  have hnullable : (left.inside r inner).type.isNullable = false := by rw [htype, flat]
  have hnullable' : (right.inside r inner').type.isNullable = false := by rw [htype', flat']
  refine ⟨left.inside r inner, right.inside r inner', member_value leftValue leftType,
    member_value rightValue rightType, htype, htype', ?_, ?_⟩
  · intro op hop
    rw [applyBinary_of_isStrict hop, applyBinary_of_isStrict hop]
    constructor
    · -- Equality by a method may come first, and then it is another term.
      rintro ⟨u, h⟩
      cases hequal : methodEquality? r left op right with
      | some test =>
          exact ⟨test,
            (strictBinary_nullable leftValue rightValue leftType rightType).2 (.inl hequal)⟩
      | none =>
          have hdirect := (strictBinary_of_not_nullable hnullable hnullable').1 h
          exact ⟨u, (strictBinary_nullable leftValue rightValue leftType rightType).2
            (.inr ⟨hequal, hdirect⟩)⟩
    · intro hequality u
      have hnone : methodEquality? r left op right = none := by
        unfold methodEquality?
        rw [hequality]
        rfl
      rw [strictBinary_nullable leftValue rightValue leftType rightType,
        strictBinary_of_not_nullable hnullable hnullable', hnone]
      simp
  · intro op u
    rw [applyUnary_eq_ok_iff, applyUnary_of_not_nullable hnullable, directUnary?_nullable leftType,
      unwrapped_of_nullable leftValue leftType, leftType]
    simp [TypeRef.isNullable, TypeRef.nullableInner?]

/-- Amounts can be added up and negated. -/
def amountEntry : TypeEntry :=
  let amount := TypeRef.simple "App.Amount"
  ((TypeEntry.declare "App.Amount" "App").withFlags { TypeFlags.empty with valueType := true })
    |>.addMethod (.static_ "op_Addition" amount [.required "a" amount, .required "b" amount])
    |>.addMethod (.static_ "op_UnaryNegation" amount [.required "a" amount])

def amountTypes : Registry := Builtins.registry.insertAll [amountEntry]

theorem registerAll_amount : Builtins.registry.registerAll [amountEntry] = .ok amountTypes :=
  Registry.registerAll_eq_ok_iff.2
    ⟨⟨by decide +kernel, by decide +kernel, by decide +kernel⟩, rfl⟩

theorem extendsBuiltins_amount : amountTypes.ExtendsBuiltins :=
  Registry.extendsBuiltins_of_registerAll registerAll_amount

/-- An amount that may be absent. -/
def absentAmount (name : String) : Term := .parameter name (.nullable (.simple "App.Amount"))

/-- Amounts that may be absent can be added up and negated. -/
theorem lifting_complete_amount :
    amountTypes.ExtendsBuiltins
      ∧ (absentAmount "paid").isValue = true ∧ (absentAmount "due").isValue = true
      ∧ (absentAmount "paid").type = .nullable (.simple "App.Amount")
      ∧ (absentAmount "due").type = .nullable (.simple "App.Amount")
      ∧ (TypeRef.simple "App.Amount").isNullable = false
      ∧ (∃ u, (absentAmount "paid").applyBinary amountTypes .add (absentAmount "due") = .ok u)
      ∧ ∃ u, (absentAmount "paid").applyUnary amountTypes .neg = .ok u := by
  have hvalue (name : String) : (absentAmount name).isValue = true := rfl
  have htype (name : String) :
      (absentAmount name).type = .nullable (.simple "App.Amount") := rfl
  have hflat : (TypeRef.simple "App.Amount").isNullable = false := rfl
  refine ⟨extendsBuiltins_amount, hvalue _, hvalue _, htype _, htype _, hflat, ?_⟩
  obtain ⟨a, b, ha, hb, -, -, hbinary, hunary⟩ := lifting_complete extendsBuiltins_amount
    (hvalue "paid") (hvalue "due") (htype "paid") (htype "due") hflat hflat
  rw [member_value rfl rfl] at ha hb
  cases ha
  cases hb
  constructor
  · refine (hbinary .add (by decide)).1 (exists_ok_of_isSome ?_)
    decide +kernel
  · obtain ⟨u, hu⟩ := exists_ok_of_isSome (x := applyUnary amountTypes .neg
      (inside amountTypes (absentAmount "paid") (.simple "App.Amount"))) (by decide +kernel)
    exact ⟨u, (hunary .neg u).2 hu⟩

end Term

end BoundMarkup
