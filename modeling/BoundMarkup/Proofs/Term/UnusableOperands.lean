/-
  BoundMarkup.Proofs.Term.UnusableOperands
  ────────────────────────────────────────
  **OPERANDS OF NO TYPE OF VALUES.**

  What a method without a result returns is of type `void`, and what could not be
  determined is of unknown type.  Neither converts to another type, but each converts
  to itself.
-/
import BoundMarkup.Proofs.Term.Lifting
import BoundMarkup.Proofs.Term.VariadicCalls

namespace BoundMarkup

/-! ## §1. Conversions. -/

theorem TypeRef.isUnusable_iff {t : TypeRef} :
    t.isUnusable = true ↔ t = .unknown ∨ t = .void := by
  cases t <;> simp [isUnusable]

theorem TypeRef.primitive?_of_isUnusable {t : TypeRef} (h : t.isUnusable = true) :
    t.primitive? = none := by
  rcases isUnusable_iff.1 h with rfl | rfl <;> rfl

/-- **What is no type of values converts to itself only.** -/
theorem Conversion.isSome_find?_of_isUnusable {r : Registry} {v t : TypeRef}
    (hv : v.isUnusable = true) : (find? r v t).isSome = true ↔ t = v := by
  constructor
  · intro h
    by_contra hne
    rcases TypeRef.isUnusable_iff.1 hv with rfl | rfl
    · cases t <;> first | exact hne rfl | cases h
    · cases t <;> first | exact hne rfl | cases h
  · rintro rfl
    rw [find?_self]
    rfl

theorem Term.isSome_convertTo?_of_isUnusable {r : Registry} {t : Term} {target : TypeRef}
    (hv : t.type.isUnusable = true) : (t.convertTo? r target).isSome = true ↔ target = t.type := by
  rw [isSome_convertTo?]
  exact Conversion.isSome_find?_of_isUnusable hv

/-! ## §2. Arguments. -/

/-- The parameter asks for arguments of exactly the type, or collects them. -/
def Parameter.AsksFor (p : Parameter) (v : TypeRef) : Prop :=
  p.type = v ∨ p.variadic = true ∧ Candidate.tailElement p = v

namespace Candidate

variable {r : Registry} {m : Method} {t : Term} {typeArgs : List TypeRef}
  {positional : List Term} {named : List NamedArgument} {c : Candidate}

/-- Where all slots are filled, each of them is. -/
theorem exists_fillSlot? {s : Supply} {slot : Slot} {p : Parameter} :
    ∀ {params : List Parameter} {slots : List Slot} {i k : Nat} {out : List Term × Nat},
      fillSlots? r s i slots params = some out → slots[k]? = some slot → params[k]? = some p →
        ∃ filled, fillSlot? r s (i + k) slot p = some filled
  | [], slots, i, k, out, h, hslot, hp => by cases hp
  | q :: params, [], i, k, out, h, hslot, hp => by cases hslot
  | q :: params, slot' :: slots, i, k, out, h, hslot, hp => by
      obtain ⟨⟨arg, cast⟩, hfirst, h⟩ := Option.bind_eq_some_iff.1 h
      obtain ⟨rest, hrest, -⟩ := Option.map_eq_some_iff.1 h
      cases k with
      | zero =>
          cases hslot
          cases hp
          exact ⟨_, hfirst⟩
      | succ k =>
          rw [List.getElem?_cons_succ] at hslot hp
          obtain ⟨filled, hfilled⟩ := exists_fillSlot? hrest hslot hp
          exact ⟨filled, by rwa [Nat.add_right_comm, Nat.add_assoc] at hfilled⟩

/-- Items are collected into an array of what all of them convert to. -/
theorem isSome_find?_of_convertItems? {element : TypeRef} {terms : List Term}
    {out : List Term × Nat} (h : convertItems? r element terms = some out) (ht : t ∈ terms) :
    (Conversion.find? r t.type element).isSome = true := by
  obtain ⟨hconverted, -⟩ := convertItems?_eq_some_iff.1 h
  have hall := exists_converted_iff.1 ⟨_, hconverted⟩ (t, element) (List.mem_map_of_mem ht)
  rwa [Term.isSome_convertTo?] at hall

/-- A slot that is filled with arguments of no type of values is one of a parameter that asks
for them. -/
theorem asksFor_of_fillSlot? {s : Supply} {i : Nat} {u : Term} {p : Parameter}
    {out : Term × Nat} (h : fillSlot? r s i (.value u) p = some out)
    (hvariadic : s.collects r i u p = true → p.variadic = true)
    (ht : t = u ∨ s.collects r i u p = true) (hmem : t ∈ s.positional.drop i)
    (hv : t.type.isUnusable = true) : p.AsksFor t.type := by
  unfold fillSlot? at h
  simp only at h
  split at h
  · rename_i hcollects
    obtain ⟨items, hitems, -⟩ := Option.map_eq_some_iff.1 h
    have hconverts := isSome_find?_of_convertItems? hitems hmem
    exact .inr ⟨hvariadic hcollects, (Conversion.isSome_find?_of_isUnusable hv).1 hconverts⟩
  · rename_i hcollects
    obtain rfl := ht.resolve_right hcollects
    obtain ⟨conversion, hconversion, -⟩ := Option.map_eq_some_iff.1 h
    exact .inl ((Conversion.isSome_find?_of_isUnusable hv).1 (Option.isSome_of_mem hconversion))

/-- **Each positional argument has a parameter of its own**, or else it is collected, with others,
by the last one. -/
theorem exists_position (hcount : Arrangement.countFits m.params positional.length = true)
    (ht : t ∈ positional) : ∃ i u, positional[i]? = some u ∧ i < m.params.length
      ∧ t ∈ positional.drop i ∧ (t = u ∨ ∀ p,
        Supply.collects ⟨positional, m.hasTail, m.params.length⟩ r i u p = true) := by
  obtain ⟨j, hj⟩ := List.getElem?_of_mem ht
  have hjlt : j < positional.length := (List.getElem?_eq_some_iff.1 hj).1
  have hdrop {i : Nat} (hi : i ≤ j) : t ∈ positional.drop i := by
    refine List.mem_of_getElem? (i := j - i) ?_
    rw [List.getElem?_drop, Nat.add_sub_cancel' hi]
    exact hj
  by_cases hfront : j < m.params.length
  · exact ⟨j, t, hj, hfront, hdrop (Nat.le_refl j), .inl rfl⟩
  · -- More arguments than parameters are left to a tail, so there is a last parameter.
    have hasTail : m.hasTail = true := by
      rcases (Arrangement.countFits_iff.1 hcount).1 with hfew | htail
      · omega
      · exact htail
    have hpos : 0 < m.params.length := by
      refine List.length_pos_iff.2 fun hnil => ?_
      rw [Method.hasTail, hnil] at hasTail
      cases hasTail
    have hlast : m.params.length - 1 < positional.length := by omega
    have hmany : (positional.length == m.params.length) = false :=
      beq_eq_false_iff_ne.2 (by omega)
    have hend : (m.params.length - 1 + 1 == m.params.length) = true := beq_iff_eq.2 (by omega)
    refine ⟨m.params.length - 1, _, List.getElem?_eq_getElem hlast, by omega,
      hdrop (by omega), .inr fun p => ?_⟩
    rw [Supply.collects, hasTail, hend, decide_eq_true hlast, hmany]
    rfl

/-- **Each positional argument of no type of values is asked for** by a parameter. -/
theorem exists_asksFor (h : of? r m typeArgs positional named = some c) (ht : t ∈ positional)
    (hv : t.type.isUnusable = true) : ∃ p ∈ c.method.params, p.AsksFor t.type := by
  obtain ⟨arrangement, closed, inferred, args, casts, harranged, hclosed, hfilled, rfl⟩ :=
    of?_eq_some_iff.1 h
  obtain ⟨hcount, -, -, rfl⟩ := Arrangement.of?_eq_some_iff.1 harranged
  have hlength := length_params_of_closeOver? hclosed
  have htail : closed.hasTail = m.hasTail := by
    rcases closeOver?_eq_some hclosed with rfl | ⟨args, rfl⟩
    · rfl
    · exact hasTail_close m args
  obtain ⟨i, u, hu, hi, hmem, hown⟩ := exists_position (r := r) hcount ht
  obtain ⟨p, hp⟩ : ∃ p, closed.params[i]? = some p :=
    ⟨_, List.getElem?_eq_getElem (by omega)⟩
  -- Only the last parameter collects arguments, and only if it is a tail.
  have hvariadic (hcollects : Supply.collects ⟨positional, m.hasTail, m.params.length⟩ r i u p
      = true) : p.variadic = true := by
    simp only [Supply.collects, Bool.and_eq_true, beq_iff_eq] at hcollects
    obtain ⟨⟨⟨hasTail, hlast⟩, -⟩, -⟩ := hcollects
    rw [← htail, Method.hasTail, List.getLast?_eq_getElem?, hlength, ← hlast,
      Nat.add_sub_cancel, hp] at hasTail
    exact hasTail
  obtain ⟨filled, hslot⟩ := exists_fillSlot? hfilled (Arrangement.getElem?_slotsOf_front hu hi) hp
  rw [Nat.zero_add] at hslot
  exact ⟨p, List.mem_of_getElem? hp, asksFor_of_fillSlot? hslot hvariadic
    (hown.imp_right fun h => h p) hmem hv⟩

end Candidate

/-! ## §3. Who asks for such operands. -/

/-- Values of the first type can be ordered against values of the second. -/
def Registry.HasOrder (r : Registry) (t u : TypeRef) : Prop :=
  r.implements t (.comparableTo u) = true ∧ (r.method? t "CompareTo" u).isSome = true

namespace Term

/-- **The operator asks for an operand of the type**, whatever can be done with it. -/
inductive Asks (r : Registry) (v : TypeRef) : Term → BinaryOp → Term → Prop where
  /-- Next to `null`, and to what wraps a value of the type, the other side is taken as it is. -/
  | coalesce {left right : Term} (right_ : right.type = v)
      (left_ : left.type = .null ∨ left.type = .nullable v) : Asks r v left .coalesce right
  /-- A parameter of an overload that fits. -/
  | overload {left right : Term} {op : BinaryOp} {name : String} {m : Method} {c : Candidate}
      {p : Parameter} (named : op.methodName? = some name)
      (considered : m ∈ overloads r name [left.type, right.type])
      (fits : Candidate.of? r m [] [left, right] [] = some c) (param : p ∈ c.method.params)
      (asks : p.AsksFor v) : Asks r v left op right
  | orderLeft {left right : Term} {op : BinaryOp} (ordering : op.isComparison = true)
      (right_ : right.type = v) (order : r.HasOrder left.type v) : Asks r v left op right
  | orderRight {left right : Term} {op : BinaryOp} (ordering : op.isComparison = true)
      (left_ : left.type = v) (order : r.HasOrder right.type v) : Asks r v left op right
  /-- The operator on what nullable operands wrap. -/
  | inside {left right a b : Term} {op : BinaryOp} (left_ : left.unwrapped r = .ok a)
      (right_ : right.unwrapped r = .ok b) (asks : Asks r v a op b) : Asks r v left op right

variable {r : Registry} {op : BinaryOp} {left right t u : Term} {v : TypeRef}

/-! ## §4. Binary operators. -/

/-- There is no built-in operator for such operands. -/
theorem builtinBinary?_of_isUnusable
    (hv : left.type.isUnusable = true ∨ right.type.isUnusable = true) :
    builtinBinary? r left op right = none := by
  have hnull : Signature.nullEquality? left.type right.type = none := by
    rcases hv with hv | hv
    · rcases TypeRef.isUnusable_iff.1 hv with h | h <;> rw [h] <;> cases right.type <;> rfl
    · rcases TypeRef.isUnusable_iff.1 hv with h | h <;> rw [h] <;> cases left.type <;> rfl
  have hoperands : Signature.ofOperands? op left.type right.type = none := by
    unfold Signature.ofOperands?
    split
    · rw [if_pos (Bool.or_eq_true_iff.2 hv)]
    · split
      · rename_i a b ha hb
        rcases hv with hv | hv
        · rw [TypeRef.primitive?_of_isUnusable hv] at ha
          cases ha
        · rw [TypeRef.primitive?_of_isUnusable hv] at hb
          cases hb
      · rfl
  unfold builtinBinary? Signature.binary?
  rw [hnull, hoperands]
  split <;> rfl

theorem methodEquality?_of_isUnusable
    (hv : left.type.isUnusable = true ∨ right.type.isUnusable = true) :
    methodEquality? r left op right = none := by
  unfold methodEquality? equals?
  rw [if_pos (Bool.or_eq_true_iff.2 hv)]
  split <;> rfl

/-- What is ordered has an order, and is ordered against the type of the other side if that is
no object. -/
theorem hasOrder_of_compareTo? (h : compareTo? r left right = some t) :
    left.type.isUnusable = false
      ∧ (right.type.isUnusable = true → r.HasOrder left.type right.type) := by
  unfold compareTo? at h
  split at h
  · rcases (Option.orElse_eq_some _ _ _).1 h with h | ⟨-, h⟩
    · split at h
      · rename_i himplements
        obtain ⟨m, hm, -⟩ := Option.map_eq_some_iff.1 h
        exact ⟨Registry.isUnusable_of_implements himplements,
          fun _ => ⟨himplements, Option.isSome_of_mem hm⟩⟩
      · cases h
    · split at h
      · rename_i himplements
        refine ⟨Registry.isUnusable_of_implements himplements, fun hv => ?_⟩
        obtain ⟨m, -, h⟩ := Option.bind_eq_some_iff.1 h
        obtain ⟨arg, harg, -⟩ := Option.map_eq_some_iff.1 h
        rw [← (isSome_convertTo?_of_isUnusable hv).1 (Option.isSome_of_mem harg)] at hv
        cases hv
      · cases h
  · cases h

/-- **An overload that is chosen** is one of those considered, and fits. -/
theorem exists_of_overload? {name : String} {operands : List Term} {c : Candidate}
    (h : overload? r name operands = .ok (some c)) :
    ∃ m ∈ overloads r name (operands.map Term.type),
      Candidate.of? r m [] operands [] = some c := by
  unfold overload? at h
  split at h
  · cases h
  · obtain ⟨best, hbest, heq⟩ := exists_ok_of_map h
    cases heq
    exact List.mem_filterMap.1 (Candidate.mem_of_best hbest)

theorem asks_of_overloadedBinary? (h : overloadedBinary? r left op right = .ok (some t))
    (hv : v.isUnusable = true) (hoperand : left.type = v ∨ right.type = v) :
    Asks r v left op right := by
  unfold overloadedBinary? at h
  split at h
  · cases h
  · rename_i name hname
    obtain ⟨chosen, hchosen, h⟩ := exists_ok_of_map h
    split at h
    · obtain ⟨m, hm, hfits⟩ := exists_of_overload? hchosen
      obtain ⟨operand, hmem, rfl⟩ : ∃ operand ∈ [left, right], operand.type = v := by
        rcases hoperand with heq | heq
        · exact ⟨left, List.mem_cons_self, heq⟩
        · exact ⟨right, List.mem_cons_of_mem left (List.mem_singleton.2 rfl), heq⟩
      obtain ⟨p, hp, hasks⟩ := Candidate.exists_asksFor hfits hmem hv
      exact .overload hname hm hfits hp hasks
    · cases h

theorem asks_of_methodOrder? (h : methodOrder? r left op right = some t)
    (hv : v.isUnusable = true) (hoperand : left.type = v ∨ right.type = v) :
    Asks r v left op right := by
  -- The side that has the order is not the one of no type of values.
  have hother {a b call : Term} (hcall : compareTo? r a b = some call)
      (hab : a.type = v ∨ b.type = v) : b.type = v ∧ r.HasOrder a.type v := by
    obtain ⟨husable, horder⟩ := hasOrder_of_compareTo? hcall
    have heq : b.type = v := by
      refine hab.resolve_left fun heq => ?_
      rw [heq, hv] at husable
      cases husable
    rw [heq] at horder
    exact ⟨heq, horder hv⟩
  unfold methodOrder? compare at h
  split at h
  · rename_i hordering
    cases hleft : compareTo? r left right with
    | some call =>
        obtain ⟨heq, horder⟩ := hother hleft hoperand
        exact .orderLeft hordering heq horder
    | none =>
        rw [hleft] at h
        cases hright : compareTo? r right left with
        | some call =>
            obtain ⟨heq, horder⟩ := hother hright hoperand.symm
            exact .orderRight hordering heq horder
        | none =>
            rw [hright] at h
            cases h
  · cases h

theorem asks_of_directBinary? (h : directBinary? r left op right = .ok (some t))
    (hv : v.isUnusable = true) (hoperand : left.type = v ∨ right.type = v) :
    Asks r v left op right := by
  have hboth : left.type.isUnusable = true ∨ right.type.isUnusable = true := by
    rcases hoperand with rfl | rfl
    · exact .inl hv
    · exact .inr hv
  unfold directBinary? at h
  rw [builtinBinary?_of_isUnusable hboth] at h
  obtain ⟨found, hfound, h⟩ := exists_ok_of_bind h
  cases found with
  | some overloaded => exact asks_of_overloadedBinary? hfound hv hoperand
  | none =>
      rw [methodEquality?_of_isUnusable hboth] at h
      exact asks_of_methodOrder? (Except.ok.inj h) hv hoperand

/-- An operand of no type of values is not unwrapped. -/
theorem eq_of_unwrapped (hv : t.type.isUnusable = true) (h : t.unwrapped r = .ok u) : u = t := by
  have hflat : t.type.isNullable = false := by
    rcases TypeRef.isUnusable_iff.1 hv with h | h <;> rw [h] <;> rfl
  rw [unwrapped_of_not_nullable hflat] at h
  exact (Except.ok.inj h).symm

theorem asks_of_strictBinary (h : strictBinary r left op right = .ok t)
    (hv : v.isUnusable = true) (hoperand : left.type = v ∨ right.type = v) :
    Asks r v left op right := by
  rcases strictBinary_eq_ok_iff.1 h with h | ⟨-, -, a, b, ha, hb, h⟩
  · exact asks_of_directBinary? h hv hoperand
  · refine .inside ha hb (asks_of_directBinary? h hv ?_)
    rcases hoperand with rfl | rfl
    · exact .inl (congrArg Term.type (eq_of_unwrapped hv ha))
    · exact .inr (congrArg Term.type (eq_of_unwrapped hv hb))

theorem logical_ne_ok (hv : v.isUnusable = true) (hoperand : left.type = v ∨ right.type = v) :
    logical r left op right ≠ .ok t := by
  have hnone {operand : Term} (heq : operand.type = v) : operand.convertTo? r .bool = none := by
    subst heq
    rw [← Option.not_isSome_iff_eq_none, isSome_convertTo?_of_isUnusable hv]
    intro heq
    rw [← heq] at hv
    cases hv
  unfold logical
  rcases hoperand with heq | heq
  · rw [hnone heq]
    nofun
  · rw [hnone heq]
    split
    · rename_i hright
      cases hright
    · nofun

theorem coalesceType?_of_isUnusable {t u : TypeRef} (ht : t.isUnusable = true) :
    coalesceType? r t u = none := by
  cases t <;> first | rfl | cases ht

/-- The result of `??` has the type of a right side of no type of values just next to `null`, or
to what wraps such a type. -/
theorem coalesceType?_eq_iff {t : TypeRef} (hv : v.isUnusable = true) :
    coalesceType? r t v = some v ↔ t = .null ∨ t = .nullable v := by
  cases t with
  | nullable inner =>
      show (if (Conversion.find? r v inner).isSome then some inner else some (.nullable inner))
        = some v ↔ _
      by_cases hinner : inner = v
      · rw [hinner, if_pos ((Conversion.isSome_find?_of_isUnusable hv).2 rfl)]
        simp
      · rw [if_neg fun h => hinner ((Conversion.isSome_find?_of_isUnusable hv).1 h)]
        refine iff_of_false ?_ (by simp [hinner])
        rintro ⟨⟩
        cases hv
  | null => exact iff_of_true rfl (.inl rfl)
  | unknown => exact iff_of_false nofun (by simp)
  | void => exact iff_of_false nofun (by simp)
  | _ =>
      refine iff_of_false ?_ (by simp)
      intro h
      simp only [coalesceType?] at h
      split at h
      · cases h
      · cases h
        cases hv

/-- **`??` with a right side of no type of values** has a meaning just if it asks for it. -/
theorem coalesce_iff (hv : right.type.isUnusable = true) :
    (∃ t, coalesce r left right = .ok t) ↔
      left.type = .null ∨ left.type = .nullable right.type := by
  rw [← coalesceType?_eq_iff (r := r) hv]
  unfold coalesce
  cases coalesceType? r left.type right.type with
  | none => exact iff_of_false nofun nofun
  | some target =>
      rw [Option.some.injEq, ← isSome_convertTo?_of_isUnusable (r := r) hv, Option.bind_some]
      cases right.convertTo? r target with
      | none => exact iff_of_false nofun nofun
      | some converted => exact iff_of_true ⟨_, rfl⟩ rfl

/-- **What a binary operator does with operands of no type of values**: it asks for them. -/
theorem asks_of_applyBinary (h : left.applyBinary r op right = .ok t) (hv : v.isUnusable = true)
    (hoperand : left.type = v ∨ right.type = v) : Asks r v left op right := by
  unfold applyBinary at h
  split at h
  · rcases hoperand with heq | rfl
    · unfold coalesce at h
      rw [coalesceType?_of_isUnusable (by rw [heq, hv])] at h
      cases h
    · exact .coalesce rfl ((coalesce_iff hv).1 ⟨t, h⟩)
  · exact absurd h (logical_ne_ok hv hoperand)
  · exact absurd h (logical_ne_ok hv hoperand)
  · exact asks_of_strictBinary h hv hoperand

/-! ## §5. Unary operators, stores and elements. -/

theorem applyUnary_ne_ok {op : UnaryOp} (hv : t.type.isUnusable = true) :
    t.applyUnary r op ≠ .ok u := by
  have hbuiltin : builtinUnary? r op t = none := by
    unfold builtinUnary? Signature.unary?
    rw [TypeRef.primitive?_of_isUnusable hv]
    rfl
  have hnone : overloads r op.methodName [t.type] = [] := by
    rcases TypeRef.isUnusable_iff.1 hv with h | h <;> rw [h] <;> rfl
  have hdirect : directUnary? r op t = .ok none := by
    rw [directUnary?_of_overloads_eq_nil hnone, hbuiltin]
  rw [ne_eq, applyUnary_eq_ok_iff, hdirect]
  rintro (h | ⟨-, -, a, ha, h⟩)
  · cases h
  · rw [eq_of_unwrapped hv ha, hdirect] at h
    cases h

/-- The type of what a target stores, if it can be written. -/
def storedType? (target : Term) : Option TypeRef :=
  if target.isAssignable then some target.type
  else
    match target.unconverted with
    | .capabilityGet _ p => some p.type
    | _ => none

theorem storedType?_of_isAssignable {target : Term} (hassign : target.isAssignable = true) :
    target.storedType? = some target.type := if_pos hassign

theorem storedType?_of_capabilityRead {target owner : Term} {p : Capability}
    (hassign : ¬ target.isAssignable = true) (hread : target.unconverted = .capabilityGet owner p) :
    target.storedType? = some p.type := by
  unfold storedType?
  rw [if_neg hassign, hread]

/-- **A value is stored** just if the target can be written and the value converts to what it
stores. -/
theorem exists_update_iff {target value : Term} : (∃ t, target.update r value = .ok t) ↔
    ∃ type, target.storedType? = some type ∧ ∃ v, storable r value type = .ok v := by
  constructor
  · rintro ⟨t, h⟩
    obtain ⟨stored, hstored, h⟩ := exists_ok_of_bind h
    cases stored with
    | none => cases h
    | some stored =>
        unfold update? at hstored
        split at hstored
        · obtain ⟨v, hv, -⟩ := exists_ok_of_map hstored
          exact ⟨_, storedType?_of_isAssignable ‹_›, v, hv⟩
        · split at hstored
          · rename_i hread
            obtain ⟨v, hv, -⟩ := exists_ok_of_map hstored
            exact ⟨_, storedType?_of_capabilityRead ‹_› hread, v, hv⟩
          · cases hstored
  · rintro ⟨type, htype, v, hv⟩
    unfold storedType? at htype
    split at htype
    · cases htype
      unfold update update?
      rw [if_pos ‹_›, hv]
      exact ⟨_, rfl⟩
    · split at htype
      · rename_i hread
        cases htype
        unfold update update?
        rw [if_neg ‹_›, hread]
        simp only [hv]
        exact ⟨_, rfl⟩
      · cases htype

/-- A value of no type of values is stored as it is, or not at all: it cannot be written as text
either. -/
theorem exists_storable_iff {value : Term} {type : TypeRef} (hv : value.type.isUnusable = true) :
    (∃ t, storable r value type = .ok t) ↔ type = value.type := by
  have hmethods : r.methods value.type "ToString" false = [] := by
    rcases TypeRef.isUnusable_iff.1 hv with h | h <;> rw [h] <;> rfl
  have htext : value.toTextCall? r = none := by
    unfold toTextCall?
    rw [hmethods]
    rfl
  have hconvert : (value.convertOrText? r type).isSome = true ↔ type = value.type := by
    unfold convertOrText?
    rw [htext, ite_self, Option.orElse_eq_or, Option.or_none, isSome_convertTo?_of_isUnusable hv]
  rw [← hconvert]
  unfold storable
  cases value.convertOrText? r type with
  | none => exact iff_of_false nofun nofun
  | some converted => exact iff_of_true ⟨converted, rfl⟩ rfl

/-- **An element has a target of a type of values**, and a position that an indexer accepts. -/
theorem asks_of_elementAt {target position : Term} (h : target.elementAt r position = .ok t) :
    target.type.isUnusable = false
      ∧ (position.type.isUnusable = true →
        ∃ i ∈ r.indexers target.type, i.param.type = position.type) := by
  unfold elementAt at h
  split at h
  · rename_i element htarget
    refine ⟨by rw [htarget]; rfl, fun hv => ?_⟩
    split at h
    · rename_i i hi
      rw [← (isSome_convertTo?_of_isUnusable hv).1 (Option.isSome_of_mem hi)] at hv
      cases hv
    · cases h
  · split at h
    · cases h
    · rename_i indexer i haccepting
      have hmem : (indexer, i) ∈ acceptingIndexers r target.type position := by
        rw [haccepting]
        exact List.mem_singleton.2 rfl
      obtain ⟨indexer', hindexer, hi⟩ := List.mem_filterMap.1 hmem
      obtain ⟨i', hi', heq⟩ := Option.map_eq_some_iff.1 hi
      constructor
      · refine Bool.eq_false_iff.2 fun hv => ?_
        rcases TypeRef.isUnusable_iff.1 hv with htype | htype <;> rw [htype] at hindexer <;>
          cases hindexer
      · intro hv
        exact ⟨indexer', hindexer,
          (isSome_convertTo?_of_isUnusable hv).1 (Option.isSome_of_mem hi')⟩
    · cases h

/-! ## §6. All operators. -/

/-- **Operands of no type of values are accepted only where they are asked for.**  A unary operator
never accepts one, nor does an element of a target.  A binary operator, a store and an index accept
one just as it is, where its own type is the one that is expected: on the right of `??` that is
next to `null`, and next to what wraps the type. -/
theorem unusable_operands (r : Registry) :
    (∀ (left right t : Term) (op : BinaryOp) (v : TypeRef), v.isUnusable = true →
        left.type = v ∨ right.type = v → left.applyBinary r op right = .ok t →
          Asks r v left op right)
      ∧ (∀ left right : Term, right.type.isUnusable = true →
        ((∃ t, left.applyBinary r .coalesce right = .ok t) ↔
          left.type = .null ∨ left.type = .nullable right.type))
      ∧ (∀ (op : UnaryOp) (operand t : Term), operand.applyUnary r op = .ok t →
        operand.type.isUnusable = false)
      ∧ (∀ target value : Term, value.type.isUnusable = true →
        ((∃ t, target.update r value = .ok t) ↔ target.storedType? = some value.type))
      ∧ ∀ target position t : Term, target.elementAt r position = .ok t →
        target.type.isUnusable = false ∧ (position.type.isUnusable = true →
          ∃ i ∈ r.indexers target.type, i.param.type = position.type) := by
  refine ⟨?_, ?_, ?_, ?_, ?_⟩
  · intro left right t op v hv hoperand h
    exact asks_of_applyBinary h hv hoperand
  · intro left right hv
    exact coalesce_iff hv
  · intro op operand t h
    exact Bool.eq_false_iff.2 fun hv => applyUnary_ne_ok hv h
  · intro target value hv
    rw [exists_update_iff]
    simp only [exists_storable_iff hv]
    simp
  · intro target position t h
    exact asks_of_elementAt h

/-- A page that can be saved, with nothing to show for it. -/
def saveMethod : Method :=
  (TypeEntry.MethodDecl.instance_ "Save" .void []).inOwner
    (TypeEntry.declare "App.Page" "App") false

def saveCall : Term := .call (.parameter "page" (.simple "App.Page")) saveMethod []

/-- Next to a number such a call is refused, and nothing is stored of it but as what it is. -/
theorem unusable_operands_save : saveCall.type.isUnusable = true
    ∧ (¬ ∃ t, (Term.parameter "n" .int32).applyBinary Builtins.registry .coalesce saveCall = .ok t)
    ∧ ¬ ∃ t, (Term.parameter "n" .int32).update Builtins.registry saveCall = .ok t := by
  obtain ⟨-, hcoalesce, -, hstore, -⟩ := unusable_operands Builtins.registry
  refine ⟨rfl, ?_, ?_⟩
  · rw [hcoalesce _ _ rfl]
    rintro (h | h) <;> cases h
  · rw [hstore _ _ rfl]
    nofun

/-- **What returns nothing is accepted next to `null`.** -/
theorem not_refused_save : saveCall.type = .void
    ∧ ∃ t, (Term.literal .null).applyBinary Builtins.registry .coalesce saveCall = .ok t
      ∧ t.type = .void :=
  ⟨rfl, _, rfl, rfl⟩

end Term

end BoundMarkup
