/-
  BoundMarkup.Proofs.Term.Resolution
  ──────────────────────────────────
  **RESOLUTION BUILDS FORMED TERMS.**

  One lemma for each function that puts terms together: out of formed terms comes
  a formed term.  Only a member access may also lead to a type or to a method
  group (`Term.Resolved`), whose target is a formed term or a type again.
-/
import BoundMarkup.Proofs.Steps
import BoundMarkup.Proofs.Term.Fitting
import BoundMarkup.Term.Index
import BoundMarkup.Term.Operator
import Mathlib.Data.Option.Basic

namespace BoundMarkup

/-! ## §1. Candidates are calls of methods that were found. -/

/-- A candidate has its method from where the method was found. -/
theorem Candidate.Sound.finds {r : Registry} {m : Method} {c : Candidate} {t : TypeRef}
    {origin : Registry.Origin} (h : c.Sound r m) (hm : r.Finds t origin m) :
    r.Finds t origin c.method := by
  rcases h.method with heq | ⟨args, heq⟩ <;> rw [heq]
  · exact hm
  · exact hm.close args

theorem TypeRef.isNullable_iff {t : TypeRef} :
    t.isNullable = true ↔ ∃ inner, t = .nullable inner := by
  cases t <;> simp [isNullable, nullableInner?]

namespace Term

variable {r : Registry}

/-- What members can be taken of: a formed term, or a type. -/
def Target (r : Registry) (t : Term) : Prop := t.isTypeReference = true ∨ t.Formed r

/-- **What an expression may stand for**: a formed term, a type, or the methods of either. -/
inductive Resolved (r : Registry) : Term → Prop where
  | target {t : Term} (h : Target r t) : Resolved r t
  | group {t : Term} (h : Target r t) (name : String) (typeArgs : List TypeRef) :
      Resolved r (.group name t typeArgs)

theorem Formed.target {t : Term} (h : t.Formed r) : Target r t := Or.inr h

theorem Formed.resolved {t : Term} (h : t.Formed r) : Resolved r t := .target h.target

/-- The target of a member that is no type is formed. -/
theorem Target.formed {t : Term} (h : Target r t) (ht : ¬ t.isTypeReference = true) :
    t.Formed r :=
  h.resolve_left ht

/-- A value that an expression stands for is formed. -/
theorem Resolved.formed {t : Term} (h : Resolved r t) (ht : t.isValue = true) : t.Formed r := by
  cases h with
  | target h =>
      rcases h with h | h
      · cases t with
        | typeReference type => cases ht
        | _ => cases h
      · exact h
  | group h name typeArgs => cases ht

/-- **A call of a method** is formed out of formed terms. -/
theorem Target.formed_callMethod {receiver u : Term} {name : String} {typeArgs : List TypeRef}
    {positional : List Term} {named : List NamedArgument} (hreceiver : Target r receiver)
    (hpositional : ∀ t ∈ positional, t.Formed r) (hnamed : ∀ a ∈ named, a.value.Formed r)
    (h : receiver.callMethod r name typeArgs positional named = .ok u) : u.Formed r := by
  unfold callMethod at h
  split at h
  · -- A member of the receiver is static just if the receiver is a type.
    rename_i c cs hcandidates
    obtain ⟨best, hbest, rfl⟩ := exists_ok_of_map h
    rw [← hcandidates] at hbest
    obtain ⟨m, hm, hsound⟩ := Candidate.sound_of_best hbest hpositional hnamed
    have hfound := hsound.finds (.member hm)
    unfold Candidate.memberCall
    rw [hfound.isStatic]
    split
    · rename_i htype
      rw [htype] at hfound
      exact .staticCall hsound.formed hfound (by decide) hsound.filled
    · rename_i hvalue
      rw [Bool.eq_false_iff.2 hvalue] at hfound
      exact .call (hreceiver.formed hvalue) hsound.formed (Or.inl rfl) hfound hsound.filled
  · split at h
    · -- An extension method takes the receiver as its first argument.
      rename_i c cs hcandidates
      obtain ⟨best, hbest, rfl⟩ := exists_ok_of_map h
      rw [← hcandidates] at hbest
      unfold extensionCandidates at hbest
      split at hbest
      · cases hbest
      · rename_i hvalue
        have hall := List.forall_mem_cons.2 ⟨hreceiver.formed hvalue, hpositional⟩
        obtain ⟨m, hm, hsound⟩ := Candidate.sound_of_best hbest hall hnamed
        exact .staticCall hsound.formed (hsound.finds (.extension hm)) (by decide) hsound.filled
    · cases h

/-! ## §2. Methods of objects. -/

/-- A method found by its only parameter takes one argument of that parameter's type. -/
theorem Formed.callOne {target arg : Term} {t param : TypeRef} {name : String} {m : Method}
    (ht : target.Formed r) (receiver : t = target.type ∨ t = .object)
    (hm : r.method? t name param = some m) (harg : arg.Formed r)
    (htype : arg.type.Alike param) : (Term.call target m [arg]).Formed r := by
  have hparams : m.params.map Parameter.type = [param] := by simpa using List.find?_some hm
  obtain ⟨p, hp, rfl⟩ := List.map_eq_singleton_iff.1 hparams
  refine .call ht (List.forall_mem_singleton.2 harg) receiver
    (.member (List.mem_of_find?_eq_some hm)) ?_
  rw [hp]
  exact .cons (.typed htype) .nil

variable {left right t u : Term}

theorem Formed.toTextCall? (ht : t.Formed r) (h : t.toTextCall? r = some u) : u.Formed r := by
  obtain ⟨m, hm, rfl⟩ := Option.map_eq_some_iff.1 h
  have hparams : m.params = [] := by simpa using List.find?_some hm
  refine .call ht nofun (Or.inl rfl) (.member (List.mem_of_find?_eq_some hm)) ?_
  rw [hparams]
  exact .nil

theorem Formed.convertOrText? (ht : t.Formed r) {target : TypeRef}
    (h : t.convertOrText? r target = some u) : u.Formed r := by
  rcases (Option.orElse_eq_some _ _ _).1 h with h | ⟨-, h⟩
  · exact ht.convertTo? h
  · split at h
    · exact ht.toTextCall? h
    · cases h

theorem Formed.equalsOn? (hl : left.Formed r) (hr : right.Formed r)
    (h : equalsOn? r left right = some u) : u.Formed r := by
  unfold Term.equalsOn? at h
  split at h
  · obtain ⟨m, hm, rfl⟩ := Option.map_eq_some_iff.1 h
    exact hl.callOne (Or.inl rfl) hm hr (.refl right.type)
  · cases h

theorem Formed.typedEquals? (hl : left.Formed r) (hr : right.Formed r)
    (h : typedEquals? r left right = some u) : u.Formed r := by
  rcases (Option.orElse_eq_some _ _ _).1 h with h | ⟨-, h⟩
  · exact hl.equalsOn? hr h
  · exact hr.equalsOn? hl h

theorem Formed.convertedEquals? (hl : left.Formed r) (hr : right.Formed r)
    (h : convertedEquals? r left right = some u) : u.Formed r := by
  rcases (Option.orElse_eq_some _ _ _).1 h with h | ⟨-, h⟩
  · split at h
    · obtain ⟨converted, hconverted, h⟩ := Option.bind_eq_some_iff.1 h
      exact hl.typedEquals? (hr.convertTo? hconverted) h
    · cases h
  · split at h
    · obtain ⟨converted, hconverted, h⟩ := Option.bind_eq_some_iff.1 h
      exact (hl.convertTo? hconverted).typedEquals? hr h
    · cases h

/-- A call with the other side converted to `object`. -/
theorem Formed.callObject {name : String} {type : TypeRef} (hl : left.Formed r)
    (hr : right.Formed r) (receiver : type = left.type ∨ type = .object)
    (h : (r.method? type name .object).bind (fun m =>
      (right.convertTo? r .object).map (fun arg => Term.call left m [arg])) = some u) :
    u.Formed r := by
  obtain ⟨m, hm, h⟩ := Option.bind_eq_some_iff.1 h
  obtain ⟨arg, harg, rfl⟩ := Option.map_eq_some_iff.1 h
  exact hl.callOne receiver hm (hr.convertTo? harg) (alike_of_convertTo? harg)

theorem Formed.equals? (hl : left.Formed r) (hr : right.Formed r)
    (h : equals? r left right = some u) : u.Formed r := by
  unfold Term.equals? at h
  split at h
  · cases h
  · rcases (Option.orElse_eq_some _ _ _).1 h with h | ⟨-, h⟩
    · exact hl.typedEquals? hr h
    · rcases (Option.orElse_eq_some _ _ _).1 h with h | ⟨-, h⟩
      · exact hl.convertedEquals? hr h
      · unfold objectEquals? at h
        split at h
        · exact hl.callObject hr (Or.inr rfl) h
        · cases h

theorem Formed.compareTo? (hl : left.Formed r) (hr : right.Formed r)
    (h : compareTo? r left right = some u) : u.Formed r := by
  unfold Term.compareTo? at h
  split at h
  · rcases (Option.orElse_eq_some _ _ _).1 h with h | ⟨-, h⟩
    · split at h
      · obtain ⟨m, hm, rfl⟩ := Option.map_eq_some_iff.1 h
        exact hl.callOne (Or.inl rfl) hm hr (.refl right.type)
      · cases h
    · split at h
      · exact hl.callObject hr (Or.inl rfl) h
      · cases h
  · cases h

theorem Formed.compare {c : Comparison} (hl : left.Formed r) (hr : right.Formed r)
    (h : compare r left right = .ok c) : c.call.Formed r := by
  unfold Term.compare at h
  split at h
  · cases h
    exact hl.compareTo? hr ‹_›
  · split at h
    · cases h
      exact hr.compareTo? hl ‹_›
    · cases h

/-! ## §3. Members and elements. -/

theorem Target.resolved_ofMembers {target : Term} (h : Target r target) (name : String)
    (typeArgs : List TypeRef) (members : List Member) :
    Resolved r (ofMembers target name typeArgs members) := by
  unfold ofMembers
  split
  · rename_i p
    split
    · exact Formed.resolved (.staticAccess p)
    · exact Formed.resolved (.access (h.formed ‹_›) p)
  · exact .target (Or.inl rfl)
  · exact .group h name typeArgs

/-- A member is a capability property of a value, or what the members of the name make. -/
theorem member?_eq_some {target : Term} {name : String} {typeArgs : List TypeRef}
    (h : target.member? r name typeArgs = .ok (some u)) :
    (target.isTypeReference = false ∧ ∃ p, u = .capabilityGet target p) ∨
      u = ofMembers target name typeArgs (membersOn r target name typeArgs) := by
  unfold member? at h
  split at h
  · cases h
  · split at h
    · cases h
    · split at h
      · rename_i read hread
        cases h
        unfold capabilityRead? at hread
        split at hread
        · rename_i hvalue
          obtain ⟨p, -, rfl⟩ := Option.map_eq_some_iff.1 hread
          exact Or.inl ⟨by simpa using (Bool.and_eq_true_iff.1 hvalue).2, p, rfl⟩
        · cases hread
      · split at h
        · cases h
        · cases h
          exact Or.inr rfl

/-- A member that has to be there is there. -/
theorem member_eq_ok {target : Term} {name : String} {typeArgs : List TypeRef}
    (h : target.member r name typeArgs = .ok u) :
    target.member? r name typeArgs = .ok (some u) := by
  obtain ⟨found, hfound, h⟩ := exists_ok_of_bind h
  cases found with
  | some found =>
      cases h
      exact hfound
  | none =>
      simp only at h
      split at h <;> cases h

/-- A member that has to be there is what a member that may be there is. -/
theorem member_eq_ok_iff {target : Term} {name : String} {typeArgs : List TypeRef} :
    target.member r name typeArgs = .ok u ↔ target.member? r name typeArgs = .ok (some u) := by
  refine ⟨member_eq_ok, fun h => ?_⟩
  unfold member
  rw [h]
  rfl

/-- **A member** of a formed term or a type is a formed term, a type or a group. -/
theorem Target.resolved_member? {target : Term} {name : String} {typeArgs : List TypeRef}
    (ht : Target r target) (h : target.member? r name typeArgs = .ok (some u)) :
    Resolved r u := by
  rcases member?_eq_some h with ⟨hvalue, p, rfl⟩ | rfl
  · exact Formed.resolved (.capabilityGet (ht.formed (ne_true_of_eq_false hvalue)) p)
  · exact ht.resolved_ofMembers name typeArgs _

/-- An element of an array, or the value of an indexer. -/
theorem Formed.elementAt {target position : Term} (ht : target.Formed r)
    (hp : position.Formed r) (h : target.elementAt r position = .ok u) : u.Formed r := by
  unfold Term.elementAt at h
  split at h
  · split at h
    · rename_i i hi
      cases h
      exact .index ht (hp.convertTo? hi) none _
    · cases h
  · split at h
    · cases h
    · rename_i indexer i haccepting
      cases h
      have hmem : (indexer, i) ∈ acceptingIndexers r target.type position := by
        rw [haccepting]
        exact List.mem_singleton.2 rfl
      obtain ⟨indexer', -, hconverted⟩ := List.mem_filterMap.1 hmem
      obtain ⟨i', hi', heq⟩ := Option.map_eq_some_iff.1 hconverted
      cases heq
      exact .index ht (hp.convertTo? hi') _ _
    · cases h

/-! ## §4. Nullable operands. -/

/-- Where everything is hidden, nothing is visible. -/
theorem visibleMembers_hidden {name : String} {isStatic : Bool} {hidden : Registry.Hiding}
    (h : hidden.all = true) : ∀ levels, r.visibleMembers name isStatic hidden levels = []
  | [] => rfl
  | level :: levels => by
      have hnone : (level.flatMap (r.declaredMembers name isStatic)).filter
          (fun m => !hidden.hides m) = [] := by
        refine List.filter_eq_nil_iff.2 fun m _ => ?_
        simp [Registry.Hiding.hides, h]
      unfold Registry.visibleMembers
      simp only [hnone]
      exact visibleMembers_hidden (by simp [Registry.Hiding.add, h]) levels

/-- The property of a nullable type that holds its value. -/
def valueProperty (inner : TypeRef) : Property :=
  { name := "Value", type := inner, declaring := .nullable inner
    isStatic := false, writable := false, isField := false }

/-- What a nullable type calls `Value` is this property, and nothing else. -/
theorem candidateMembers_nullable (inner : TypeRef) :
    candidateMembers r (.nullable inner) "Value" [] false = [.property (valueProperty inner)] := by
  have hp : Registry.intrinsic? (.nullable inner) "Value"
      = some (.property (valueProperty inner)) := rfl
  unfold candidateMembers Registry.members
  simp only [hp, List.isEmpty_nil, if_true, Bool.false_eq_true, if_false, Option.toList_some]
  rw [visibleMembers_hidden rfl]
  rfl

/-- **The value inside a nullable term** is formed. -/
theorem Formed.unwrapped (ht : t.Formed r) (h : t.unwrapped r = .ok u) : u.Formed r := by
  unfold Term.unwrapped at h
  split at h
  · obtain ⟨inner, hinner⟩ := TypeRef.isNullable_iff.1 ‹_›
    have hvalue : t.isTypeReference = false := by
      cases ht <;> rfl
    rcases member?_eq_some (member_eq_ok h) with ⟨-, p, rfl⟩ | rfl
    · exact .capabilityGet ht p
    · unfold membersOn ofMembers
      rw [hvalue, hinner, candidateMembers_nullable]
      exact .access ht _
  · cases h
    exact ht

/-! ## §5. Operators. -/

/-- The arguments of an overload that fits formed operands are formed. -/
theorem formed_of_overload? {name : String} {operands : List Term} {c : Candidate}
    (h : overload? r name operands = .ok (some c)) (hall : ∀ t ∈ operands, t.Formed r) :
    ∀ a ∈ c.args, a.Formed r := by
  unfold overload? at h
  split at h
  · cases h
  · obtain ⟨best, hbest, heq⟩ := exists_ok_of_map h
    cases heq
    obtain ⟨m, -, hsound⟩ := Candidate.sound_of_best hbest hall nofun
    exact hsound.formed

variable {op : BinaryOp}

theorem Formed.overloadedBinary? (hl : left.Formed r) (hr : right.Formed r)
    (h : overloadedBinary? r left op right = .ok (some u)) : u.Formed r := by
  unfold Term.overloadedBinary? at h
  split at h
  · cases h
  · obtain ⟨found, hfound, h⟩ := exists_ok_of_map h
    split at h
    · rename_i method a b rest casts inferred
      cases h
      have hargs := formed_of_overload? hfound
        (List.forall_mem_cons.2 ⟨hl, List.forall_mem_singleton.2 hr⟩)
      obtain ⟨ha, hargs⟩ := List.forall_mem_cons.1 hargs
      exact .binary ha op (List.forall_mem_cons.1 hargs).1 _ _
    · cases h

theorem Formed.builtinBinary? (hl : left.Formed r) (hr : right.Formed r)
    (h : builtinBinary? r left op right = some u) : u.Formed r := by
  obtain ⟨s, -, h⟩ := Option.bind_eq_some_iff.1 h
  -- Where texts are joined the operands may become text, else they are converted.
  have hconvert : ∀ {t a : Term} {target : TypeRef}, t.Formed r →
      (if op == .add && decide (s.result = .string) then t.convertOrText? r target
        else t.convertTo? r target) = some a → a.Formed r := by
    intro t a target ht ha
    split at ha
    · exact ht.convertOrText? ha
    · exact ht.convertTo? ha
  simp only at h
  split at h
  · rename_i a b ha hb
    cases h
    exact .binary (hconvert hl ha) op (hconvert hr hb) _ _
  · cases h

theorem Formed.methodEquality? (hl : left.Formed r) (hr : right.Formed r)
    (h : methodEquality? r left op right = some u) : u.Formed r := by
  unfold Term.methodEquality? at h
  split at h
  · obtain ⟨test, htest, rfl⟩ := Option.map_eq_some_iff.1 h
    have hformed := hl.equals? hr htest
    split
    · exact .unary .not hformed _ _
    · exact hformed
  · cases h

theorem Formed.methodOrder? (hl : left.Formed r) (hr : right.Formed r)
    (h : methodOrder? r left op right = some u) : u.Formed r := by
  unfold Term.methodOrder? at h
  split at h
  · split at h
    · rename_i c hc
      cases h
      exact .binary (hl.compare hr hc) _ (.constant _ _) _ _
    · cases h
  · cases h

theorem Formed.directBinary? (hl : left.Formed r) (hr : right.Formed r)
    (h : directBinary? r left op right = .ok (some u)) : u.Formed r := by
  unfold Term.directBinary? at h
  split at h
  · rename_i t ht
    cases h
    exact hl.builtinBinary? hr ht
  · obtain ⟨found, hfound, h⟩ := exists_ok_of_bind h
    cases found with
    | some t =>
        cases h
        exact hl.overloadedBinary? hr hfound
    | none =>
        rcases (Option.orElse_eq_some _ _ _).1 (Except.ok.inj h) with h | ⟨-, h⟩
        · exact hl.methodEquality? hr h
        · exact hl.methodOrder? hr h

theorem Formed.liftedBinary (hl : left.Formed r) (hr : right.Formed r)
    (h : liftedBinary r left op right = .ok u) : u.Formed r := by
  obtain ⟨a, ha, h⟩ := exists_ok_of_bind h
  obtain ⟨b, hb, h⟩ := exists_ok_of_bind h
  split at h
  · cases h
    exact (hl.unwrapped ha).directBinary? (hr.unwrapped hb) ‹_›
  · cases h

theorem Formed.strictBinary (hl : left.Formed r) (hr : right.Formed r)
    (h : strictBinary r left op right = .ok u) : u.Formed r := by
  obtain ⟨found, hfound, h⟩ := exists_ok_of_bind h
  cases found with
  | some t =>
      cases h
      exact hl.directBinary? hr hfound
  | none =>
      simp only at h
      split at h
      · exact hl.liftedBinary hr h
      · cases h

theorem Formed.logical (hl : left.Formed r) (hr : right.Formed r)
    (h : logical r left op right = .ok u) : u.Formed r := by
  unfold Term.logical at h
  split at h
  · rename_i a b ha hb
    cases h
    exact .binary (hl.convertTo? ha) op (hr.convertTo? hb) _ _
  · cases h

theorem Formed.coalesce (hl : left.Formed r) (hr : right.Formed r)
    (h : coalesce r left right = .ok u) : u.Formed r := by
  unfold Term.coalesce at h
  split at h
  · rename_i t ht
    cases h
    obtain ⟨type, -, ht⟩ := Option.bind_eq_some_iff.1 ht
    obtain ⟨b, hb, rfl⟩ := Option.map_eq_some_iff.1 ht
    exact .binary hl _ (hr.convertTo? hb) _ _
  · cases h

/-- **A binary operator** on formed operands. -/
theorem Formed.applyBinary (hl : left.Formed r) (hr : right.Formed r)
    (h : left.applyBinary r op right = .ok u) : u.Formed r := by
  unfold Term.applyBinary at h
  split at h
  · exact hl.coalesce hr h
  · exact hl.logical hr h
  · exact hl.logical hr h
  · exact hl.strictBinary hr h

theorem Formed.directUnary? {op : UnaryOp} (ht : t.Formed r)
    (h : directUnary? r op t = .ok (some u)) : u.Formed r := by
  unfold Term.directUnary? at h
  split at h
  · rename_i found hfound
    cases h
    obtain ⟨type, -, hfound⟩ := Option.bind_eq_some_iff.1 hfound
    obtain ⟨a, ha, rfl⟩ := Option.map_eq_some_iff.1 hfound
    exact .unary op (ht.convertTo? ha) _ _
  · obtain ⟨found, hfound, h⟩ := exists_ok_of_map h
    split at h
    · cases h
      have hargs := formed_of_overload? hfound (List.forall_mem_singleton.2 ht)
      exact .unary op (List.forall_mem_cons.1 hargs).1 _ _
    · cases h

/-- **A unary operator** on a formed operand. -/
theorem Formed.applyUnary {op : UnaryOp} (ht : t.Formed r) (h : t.applyUnary r op = .ok u) :
    u.Formed r := by
  obtain ⟨found, hfound, h⟩ := exists_ok_of_bind h
  cases found with
  | some found =>
      cases h
      exact ht.directUnary? hfound
  | none =>
      simp only at h
      split at h
      · obtain ⟨inner, hinner, h⟩ := exists_ok_of_bind h
        split at h
        · cases h
          exact (ht.unwrapped hinner).directUnary? ‹_›
        · cases h
      · cases h

/-! ## §6. Update. -/

/-- Below its conversions a formed term is formed. -/
theorem Formed.unconverted (ht : t.Formed r) : t.unconverted.Formed r := by
  fun_induction Term.unconverted t with
  | case1 inner type kind ih =>
      cases ht with
      | convert hi => exact ih hi
  | case2 t hother => exact ht

theorem Formed.storable {value : Term} {type : TypeRef} (hv : value.Formed r)
    (h : storable r value type = .ok u) : u.Formed r := by
  unfold Term.storable at h
  split at h
  · cases h
    exact hv.convertOrText? ‹_›
  · cases h

/-- **Storing a formed value** needs a formed target: types and groups cannot be written. -/
theorem Resolved.update {target value : Term} (ht : Resolved r target) (hv : value.Formed r)
    (h : target.update r value = .ok u) : u.Formed r := by
  obtain ⟨stored, hstored, h⟩ := exists_ok_of_bind h
  cases stored with
  | none => cases h
  | some stored =>
      cases h
      unfold update? at hstored
      split at hstored
      · rename_i hassignable
        obtain ⟨v, hvalue, heq⟩ := exists_ok_of_map hstored
        cases heq
        have htarget : target.isValue = true := by
          cases target <;> first | rfl | cases hassignable
        exact .assign (ht.formed htarget) (hv.storable hvalue)
      · split at hstored
        · rename_i owner p howner
          obtain ⟨v, hvalue, heq⟩ := exists_ok_of_map hstored
          cases heq
          have htarget : target.isValue = true := by
            cases target <;> first | rfl | cases howner
          have hread := (ht.formed htarget).unconverted
          rw [howner] at hread
          cases hread with
          | capabilityGet ho => exact .capabilitySet ho p (hv.storable hvalue)
        · cases hstored

end Term

end BoundMarkup
