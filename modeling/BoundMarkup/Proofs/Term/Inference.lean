/-
  BoundMarkup.Proofs.Term.Inference
  ─────────────────────────────────
  **INFERENCE INVERTS SUBSTITUTION.**

  A type parameter is read off the first declared type that mentions it
  (`TypeRef.mentionsAt`).  Of declared types and what they become once arguments
  are put in the places of the parameters, reading off gives back each argument:

    • a type that does not mention the parameter says nothing, whatever it is
      matched against (`InferredArgs.matchType_of_not_mentionsAt`),
    • a type that mentions it, at any depth, says its argument
      (`InferredArgs.matchType_substitute`),

  so that all arguments are found again (`InferredArgs.of?_substitute`).
-/
import BoundMarkup.Registry.Builtins
import BoundMarkup.Term.Inference

namespace BoundMarkup

/-! ## §1. Mentioned parameters. -/

namespace TypeRef

mutual

/-- Whether the parameter of `owner` at `index` occurs. -/
def mentionsAt (owner : ParamOwner) (index : Nat) : TypeRef → Bool
  | param o i _ => o == owner && i == index
  | array element => mentionsAt owner index element
  | nullable inner => mentionsAt owner index inner
  | named _ args => mentionsAtAny owner index args
  | unknown | void | null => false

/-- Whether it occurs in one of the types. -/
def mentionsAtAny (owner : ParamOwner) (index : Nat) : List TypeRef → Bool
  | [] => false
  | t :: ts => mentionsAt owner index t || mentionsAtAny owner index ts

end

theorem mentionsAtAny_eq_any (owner : ParamOwner) (index : Nat) (ts : List TypeRef) :
    mentionsAtAny owner index ts = ts.any (mentionsAt owner index) := by
  induction ts with
  | nil => rfl
  | cons t ts ih => simp [mentionsAtAny, ih]

end TypeRef

namespace InferredArgs

open TypeRef (mentionsAt mentionsAtAny)

variable {r : Registry} {k : Nat} {x : TypeRef} {s : List TypeRef}

/-! ## §2. Reading off one parameter. -/

/-- The parameter itself stands for whatever it is matched against. -/
theorem matchType_param (k : Nat) (name : String) (actual : TypeRef) :
    matchType r k (.methodParam k name) actual = some actual := by
  rw [matchType, if_pos ⟨rfl, rfl⟩]

/-- Nothing is read off no types. -/
theorem matchTypes_nil (actual : List TypeRef) : matchTypes r k [] actual = none := by
  unfold matchTypes
  rfl

mutual

/-- **Nothing is read off a type that does not mention the parameter.** -/
theorem matchType_of_not_mentionsAt : ∀ {declared : TypeRef},
    declared.mentionsAt .method k = false → ∀ actual, matchType r k declared actual = none
  | .param owner i name, h, actual => by
      have hother : ¬ (owner = .method ∧ i = k) := by
        rintro ⟨rfl, rfl⟩
        simp [mentionsAt] at h
      rw [matchType, if_neg hother]
  | .array element, h, actual => by
      have helement : element.mentionsAt .method k = false := h
      rw [matchType]
      cases actual.element? with
      | none => rfl
      | some a => exact matchType_of_not_mentionsAt helement a
  | .nullable inner, h, actual => by
      have hinner : inner.mentionsAt .method k = false := h
      rw [matchType]
      cases actual.nullableInner? with
      | none => rfl
      | some a => exact matchType_of_not_mentionsAt hinner a
  | .named name (t :: ts), h, actual => by
      rw [matchType]
      cases argsAs? r (TypeId.ofName name) actual with
      | none => rfl
      | some as => exact matchTypes_of_not_mentionsAt h as
  | .named _ [], _, _ | .unknown, _, _ | .void, _, _ | .null, _, _ => rfl

theorem matchTypes_of_not_mentionsAt : ∀ {declared : List TypeRef},
    mentionsAtAny .method k declared = false → ∀ actual, matchTypes r k declared actual = none
  | [], _, actual => matchTypes_nil actual
  | d :: ds, _, [] => by
      unfold matchTypes
      rfl
  | d :: ds, h, a :: as => by
      obtain ⟨hd, hds⟩ := Bool.or_eq_false_iff.1 h
      rw [matchTypes, matchType_of_not_mentionsAt hd, matchTypes_of_not_mentionsAt hds]
      cases isSilent a <;> rfl

end

/-- Declared types are read one list after the other. -/
theorem matchTypes_append {ds ds' as' : List TypeRef} : ∀ {as : List TypeRef},
    ds.length = as.length → matchTypes r k (ds ++ ds') (as ++ as')
      = (matchTypes r k ds as).orElse (fun _ => matchTypes r k ds' as') := by
  induction ds with
  | nil =>
      intro as hlength
      obtain rfl := List.length_eq_zero_iff.1 hlength.symm
      rw [matchTypes_nil]
      rfl
  | cons d ds ih =>
      intro as hlength
      cases as with
      | nil => cases hlength
      | cons a as =>
          have hrest := ih (Nat.succ.inj hlength)
          rw [List.cons_append, List.cons_append, matchTypes, matchTypes, hrest]
          cases isSilent a with
          | true => rfl
          | false => cases matchType r k d a <;> rfl

/-! ## §3. Types with arguments put in. -/

/-- A type that mentions the parameter tells something, once the parameter does. -/
theorem not_mentionsAt_of_isSilent (hx : s[k]? = some x) (htelling : isSilent x = false)
    {declared : TypeRef} (h : isSilent (declared.substitute .method s) = true) :
    declared.mentionsAt .method k = false := by
  cases declared with
  | param owner i name =>
      refine Bool.eq_false_iff.2 fun hmentions => ?_
      have hself : owner = .method ∧ i = k := by simpa [mentionsAt] using hmentions
      obtain ⟨rfl, rfl⟩ := hself
      rw [TypeRef.substitute, if_pos rfl, hx, Option.getD_some, htelling] at h
      cases h
  | unknown => rfl
  | null => rfl
  | void => cases h
  | array element => cases h
  | nullable inner => cases h
  | named name args => cases h

mutual

/-- **What a parameter became is read off every type that mentions it**, and off no other. -/
theorem matchType_substitute (hx : s[k]? = some x) (htelling : isSilent x = false) :
    ∀ declared : TypeRef, matchType r k declared (declared.substitute .method s)
      = if declared.mentionsAt .method k then some x else none
  | .param owner i name => by
      by_cases hself : owner = .method ∧ i = k
      · obtain ⟨rfl, rfl⟩ := hself
        rw [matchType_param, TypeRef.substitute, if_pos rfl, hx]
        simp [mentionsAt]
      · have hother : mentionsAt .method k (.param owner i name) = false := by
          simpa [mentionsAt] using hself
        rw [matchType, if_neg hself, hother]
        rfl
  | .array element => matchType_substitute hx htelling element
  | .nullable inner => matchType_substitute hx htelling inner
  | .named name (t :: ts) => by
      -- The type is an instance of its own definition, so supertypes are not asked.
      have hargs : argsAs? r (TypeId.ofName name)
          (TypeRef.substitute .method s (.named name (t :: ts)))
          = some (TypeRef.substituteAll .method s (t :: ts)) := if_pos rfl
      rw [matchType, hargs]
      exact matchTypes_substitute hx htelling (t :: ts)
  | .named _ [] | .unknown | .void | .null => rfl

theorem matchTypes_substitute (hx : s[k]? = some x) (htelling : isSilent x = false) :
    ∀ declared : List TypeRef,
      matchTypes r k declared (TypeRef.substituteAll .method s declared)
        = if mentionsAtAny .method k declared then some x else none
  | [] => matchTypes_nil _
  | d :: ds => by
      rw [TypeRef.substituteAll, matchTypes, matchTypes_substitute hx htelling ds, mentionsAtAny]
      cases hsilent : isSilent (d.substitute .method s) with
      | true =>
          rw [if_pos rfl, not_mentionsAt_of_isSilent hx htelling hsilent, Bool.false_or]
      | false =>
          rw [if_neg Bool.false_ne_true, matchType_substitute hx htelling d]
          cases d.mentionsAt .method k <;> rfl

end

/-! ## §4. All parameters. -/

/-- Answers for all positions from one on are collected just if each of them is there. -/
theorem mapM_range'_eq_some_iff {α : Type} {f : Nat → Option α} :
    ∀ {n start : Nat} {xs : List α}, (List.range' start n).mapM f = some xs ↔
      xs.length = n ∧ ∀ i < n, f (start + i) = xs[i]?
  | 0, start, xs => by
      rw [List.range'_zero, List.mapM_nil, List.length_eq_zero_iff]
      constructor
      · intro h
        exact ⟨(Option.some.inj h).symm, nofun⟩
      · intro ⟨h, _⟩
        exact congrArg some h.symm
  | n + 1, start, xs => by
      rw [List.range'_succ, List.mapM_cons, Option.bind_eq_bind, Option.bind_eq_some_iff]
      constructor
      · rintro ⟨x, hfirst, h⟩
        obtain ⟨ys, hrest, heq⟩ := Option.bind_eq_some_iff.1 h
        obtain rfl : x :: ys = xs := Option.some.inj heq
        obtain ⟨hlength, hlater⟩ := mapM_range'_eq_some_iff.1 hrest
        refine ⟨congrArg (· + 1) hlength, fun i hi => ?_⟩
        cases i with
        | zero => exact hfirst
        | succ i =>
            rw [← Nat.succ_add_eq_add_succ]
            exact hlater i (Nat.lt_of_succ_lt_succ hi)
      · rintro ⟨hlength, hall⟩
        cases xs with
        | nil => cases hlength
        | cons x ys =>
            have hrest : (List.range' (start + 1) n).mapM f = some ys := by
              refine mapM_range'_eq_some_iff.2 ⟨Nat.succ.inj hlength, fun i hi => ?_⟩
              rw [Nat.succ_add_eq_add_succ]
              exact hall (i + 1) (Nat.succ_lt_succ hi)
            refine ⟨x, hall 0 (Nat.succ_pos n), ?_⟩
            rw [hrest]
            rfl

/-- **Without explicit type arguments** the type parameters are all inferred, each by itself. -/
theorem of?_nil_eq_some_iff {count : Nat} {declared actual : List TypeRef}
    {found : InferredArgs} : of? r count [] declared actual = some found ↔
      found.args.length = count ∧ found.inferred = count
        ∧ ∀ i < count, matchTypes r i declared actual = found.args[i]? := by
  unfold of?
  rw [List.length_nil, if_neg (Nat.not_lt_zero _), Nat.sub_zero, Option.map_eq_some_iff]
  constructor
  · rintro ⟨args, hargs, rfl⟩
    obtain ⟨hlength, hall⟩ := mapM_range'_eq_some_iff.1 hargs
    refine ⟨hlength, hlength, fun i hi => ?_⟩
    show matchTypes r i declared actual = args[i]?
    rw [← hall i hi, Nat.zero_add]
  · rintro ⟨hlength, hinferred, hall⟩
    refine ⟨found.args, mapM_range'_eq_some_iff.2 ⟨hlength, fun i hi => ?_⟩, ?_⟩
    · rw [Nat.zero_add]
      exact hall i hi
    · show InferredArgs.mk found.args found.args.length = found
      rw [hlength, ← hinferred]

/-- **Inference inverts substitution.**  If every type parameter occurs in some declared type,
and stands for a type that tells something, then all of them are inferred from the declared
types and what these become. -/
theorem of?_substitute (r : Registry) {declared s : List TypeRef}
    (occurs : ∀ k < s.length, ∃ d ∈ declared, d.mentionsAt .method k = true)
    (telling : ∀ x ∈ s, isSilent x = false) :
    of? r s.length [] declared (declared.map (TypeRef.substitute .method s))
      = some ⟨s, s.length⟩ := by
  refine of?_nil_eq_some_iff.2 ⟨rfl, rfl, fun k hk => ?_⟩
  have hx : s[k]? = some s[k] := List.getElem?_eq_getElem hk
  have hmentions : mentionsAtAny .method k declared = true := by
    rw [TypeRef.mentionsAtAny_eq_any, List.any_eq_true]
    exact occurs k hk
  rw [← TypeRef.substituteAll_eq_map,
    matchTypes_substitute hx (telling _ (List.getElem_mem hk)), if_pos hmentions]
  exact hx.symm

/-- Types that mention two parameters below arrays, wrappers and generic arguments, the first
one of them twice. -/
def nestedTypes : List TypeRef :=
  [.array (.named Builtins.listName [.methodParam 0 "T"]),
    .named Builtins.dictionaryName [.nullable (.methodParam 1 "U"), .methodParam 0 "T"]]

/-- What stands for them. -/
def nestedArgs : List TypeRef :=
  [.nullable .int32, .enumerable .string]

/-- The arguments may be such types themselves. -/
theorem of?_substitute_nested :
    (∀ k < nestedArgs.length, ∃ d ∈ nestedTypes, d.mentionsAt .method k = true)
      ∧ (∀ x ∈ nestedArgs, isSilent x = false)
      ∧ of? Builtins.registry 2 [] nestedTypes
        [.array (.named Builtins.listName [.nullable .int32]),
          .named Builtins.dictionaryName [.nullable (.enumerable .string), .nullable .int32]]
        = some ⟨nestedArgs, 2⟩ := by
  have occurs : ∀ k < nestedArgs.length, ∃ d ∈ nestedTypes, d.mentionsAt .method k = true
    | 0, _ => ⟨_, .head _, rfl⟩
    | 1, _ => ⟨_, .tail _ (.head _), rfl⟩
  have telling : ∀ x ∈ nestedArgs, isSilent x = false := by
    simp [nestedArgs, isSilent, TypeRef.enumerable]
  have became : nestedTypes.map (TypeRef.substitute .method nestedArgs)
      = [.array (.named Builtins.listName [.nullable .int32]),
        .named Builtins.dictionaryName [.nullable (.enumerable .string), .nullable .int32]] := by
    simp [nestedTypes, nestedArgs, TypeRef.substitute, TypeRef.substituteAll, TypeRef.methodParam]
  refine ⟨occurs, telling, ?_⟩
  rw [← became]
  exact of?_substitute Builtins.registry occurs telling

end InferredArgs

end BoundMarkup
