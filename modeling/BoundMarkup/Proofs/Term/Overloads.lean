/-
  BoundMarkup.Proofs.Term.Overloads
  ─────────────────────────────────
  **OVERLOADS, IN ANY ORDER.**

  Whether and how a method fits does not change between registries that are alike
  (`Registry.Alike.candidate`), so the candidates of a call differ at most in
  order.  A call is decided among the members of its receiver, or else among the
  extension methods, by the unique minimum of their ranks, which no order changes
  (`Invocation.least_wins`).
-/
import BoundMarkup.Proofs.Registry.Reordering
import BoundMarkup.Proofs.Steps
import BoundMarkup.Proofs.Term.Selection
import BoundMarkup.Term.Call

namespace BoundMarkup

/-! ## §1. Fitting a method. -/

namespace Registry.Alike

variable {r r' : Registry}

theorem upcast? (h : r.Alike r') : Conversion.upcast? r = Conversion.upcast? r' := by
  funext source target
  unfold Conversion.upcast?
  rw [h.isAssignable, h.isValueType]

theorem acceptsNull (h : r.Alike r') : Conversion.acceptsNull r = Conversion.acceptsNull r' := by
  funext t
  unfold Conversion.acceptsNull
  rw [h.isValueType]

/-- **Conversions** ask for supertypes and for value types only. -/
theorem conversion (h : r.Alike r') (source : TypeRef) :
    ∀ target, Conversion.find? r source target = Conversion.find? r' source target
  | .nullable inner => by
      unfold Conversion.find?
      rw [h.upcast?, conversion h source inner]
  | .unknown | .void | .null | .named _ _ | .array _ | .param _ _ _ => by
      unfold Conversion.find?
      rw [h.upcast?, h.acceptsNull]

theorem argsAs? (h : r.Alike r') : InferredArgs.argsAs? r = InferredArgs.argsAs? r' := by
  funext definition actual
  unfold InferredArgs.argsAs?
  rw [h.supertypes]

mutual

/-- **Inference** asks for supertypes only. -/
theorem matchType (h : r.Alike r') (index : Nat) :
    ∀ declared actual, InferredArgs.matchType r index declared actual
      = InferredArgs.matchType r' index declared actual
  | .param _ _ _, actual => rfl
  | .array element, actual => by
      unfold InferredArgs.matchType
      rw [funext (matchType h index element)]
  | .nullable inner, actual => by
      unfold InferredArgs.matchType
      rw [funext (matchType h index inner)]
  | .named name (t :: ts), actual => by
      unfold InferredArgs.matchType
      rw [h.argsAs?, funext (matchTypes h index (t :: ts))]
  | .named _ [], actual | .unknown, actual | .void, actual | .null, actual => rfl

theorem matchTypes (h : r.Alike r') (index : Nat) :
    ∀ declared actual, InferredArgs.matchTypes r index declared actual
      = InferredArgs.matchTypes r' index declared actual
  | [], _ => by
      unfold InferredArgs.matchTypes
      rfl
  | _ :: _, [] => rfl
  | d :: ds, a :: as => by
      unfold InferredArgs.matchTypes
      rw [matchType h index d a, matchTypes h index ds as]

end

theorem inference (h : r.Alike r') : InferredArgs.of? r = InferredArgs.of? r' := by
  funext count explicit params args
  unfold InferredArgs.of?
  have hmatch : ∀ i, InferredArgs.matchTypes r i params args
      = InferredArgs.matchTypes r' i params args := fun i => h.matchTypes i params args
  simp only [hmatch]

theorem convertArg? (h : r.Alike r') : Candidate.convertArg? r = Candidate.convertArg? r' := by
  funext t target
  unfold Candidate.convertArg?
  rw [h.conversion]

theorem convertItems? (h : r.Alike r') (element : TypeRef) :
    ∀ ts, Candidate.convertItems? r element ts = Candidate.convertItems? r' element ts
  | [] => rfl
  | t :: ts => by
      unfold Candidate.convertItems?
      rw [h.convertArg?, convertItems? h element ts]

theorem fillSlot? (h : r.Alike r') : Candidate.fillSlot? r = Candidate.fillSlot? r' := by
  have hcollects : ∀ (s : Candidate.Supply) i t p, s.collects r i t p = s.collects r' i t p := by
    intro s i t p
    unfold Candidate.Supply.collects Candidate.passesThrough
    rw [h.conversion]
  funext s i slot p
  unfold Candidate.fillSlot?
  simp only [hcollects, h.convertArg?, h.convertItems?]

theorem fillSlots? (h : r.Alike r') (s : Candidate.Supply) :
    ∀ slots params i, Candidate.fillSlots? r s i slots params
      = Candidate.fillSlots? r' s i slots params
  | slot :: slots, p :: ps, i => by
      unfold Candidate.fillSlots?
      rw [h.fillSlot?, fillSlots? h s slots ps (i + 1)]
  | [], _, _ | _ :: _, [], _ => rfl

/-- **The candidate of a method** is the same in registries that are alike. -/
theorem candidate (h : r.Alike r') : Candidate.of? r = Candidate.of? r' := by
  funext m typeArgs positional named
  have hclose : Candidate.closeOver? r = Candidate.closeOver? r' := by
    funext m typeArgs slots
    unfold Candidate.closeOver?
    rw [h.inference]
  unfold Candidate.of?
  simp only [hclose, h.fillSlots?]

/-- **The candidates of a call**, in some order. -/
theorem viable (h : r.Alike r') {methods methods' : List Method} (hm : methods.Perm methods')
    (typeArgs : List TypeRef) (positional : List Term) (named : List NamedArgument) :
    (Candidate.viable r methods typeArgs positional named).Perm
      (Candidate.viable r' methods' typeArgs positional named) := by
  unfold Candidate.viable
  rw [h.candidate]
  exact hm.filterMap _

end Registry.Alike

/-! ## §2. Calls by name. -/

/-- A call by name, with everything that is supplied. -/
structure Invocation where
  receiver : Term
  name : String
  typeArgs : List TypeRef
  positional : List Term
  named : List NamedArgument

namespace Invocation

variable (q : Invocation) (r : Registry)

/-- What the call is resolved to. -/
def result : Except ResolutionError Term :=
  q.receiver.callMethod r q.name q.typeArgs q.positional q.named

/-- The members of the receiver that fit. -/
def members : List Candidate :=
  memberCandidates r q.receiver q.name q.typeArgs q.positional q.named

/-- The extension methods that fit, the receiver being their first argument. -/
def extensions : List Candidate :=
  extensionCandidates r q.receiver q.name q.typeArgs q.positional q.named

/-- **The candidates that decide the call**: members if there are any, or else extensions. -/
def pass : List Candidate := if (q.members r).isEmpty then q.extensions r else q.members r

/-- The call that one of these candidates makes. -/
def made (c : Candidate) : Term :=
  if (q.members r).isEmpty then .staticCall c.method c.args else c.memberCall q.receiver

variable {q r}

/-- **The two passes as one choice**, which fails where nothing fits. -/
theorem result_eq : q.result r =
    if q.pass r = [] then
      .error (.noApplicableOverload q.name (q.positional.map (fun t => (none, t.type))
        ++ q.named.map (fun a => (some a.name, a.value.type))))
    else (Candidate.best q.name (q.pass r)).map (q.made r) := by
  unfold result Term.callMethod pass made
  cases hmembers : q.members r with
  | cons c cs =>
      have hcandidates : memberCandidates r q.receiver q.name q.typeArgs q.positional q.named
          = c :: cs := hmembers
      rw [hcandidates]
      rfl
  | nil =>
      have hcandidates : memberCandidates r q.receiver q.name q.typeArgs q.positional q.named
          = [] := hmembers
      rw [hcandidates]
      cases hextensions : q.extensions r with
      | cons c cs =>
          have hcandidates : extensionCandidates r q.receiver q.name q.typeArgs q.positional
              q.named = c :: cs := hextensions
          rw [hcandidates]
          rfl
      | nil =>
          have hcandidates : extensionCandidates r q.receiver q.name q.typeArgs q.positional
              q.named = [] := hextensions
          rw [hcandidates]
          rfl

theorem pass_eq_nil_iff : q.pass r = [] ↔ q.members r = [] ∧ q.extensions r = [] := by
  unfold pass
  cases q.members r with
  | nil => exact ⟨fun h => ⟨rfl, h⟩, fun h => h.2⟩
  | cons c cs => exact iff_of_false nofun fun h => by cases h.1

/-- **A call succeeds with the winner of its pass.** -/
theorem result_eq_ok_iff {t : Term} :
    q.result r = .ok t ↔ ∃ c, Candidate.Wins (q.pass r) c ∧ t = q.made r c := by
  rw [result_eq]
  by_cases hpass : q.pass r = []
  · rw [if_pos hpass, hpass]
    refine iff_of_false nofun ?_
    rintro ⟨c, ⟨others, hperm, -⟩, -⟩
    cases List.perm_nil.1 hperm.symm
  · rw [if_neg hpass]
    constructor
    · intro h
      obtain ⟨c, hc, rfl⟩ := exists_ok_of_map h
      exact ⟨c, Candidate.best_eq_ok_iff.1 hc, rfl⟩
    · rintro ⟨c, hc, rfl⟩
      rw [Candidate.best_eq_ok_iff.2 hc]
      rfl

/-- **Where something fits there are two outcomes**: a winner, or an ambiguity. -/
theorem result_cases (hpass : q.pass r ≠ []) :
    (∃ c, Candidate.Wins (q.pass r) c ∧ q.result r = .ok (q.made r c))
      ∨ Candidate.LeastShared (q.pass r)
        ∧ ∃ a b, q.result r = .error (.ambiguousOverload q.name a b) := by
  have hresult : q.result r = (Candidate.best q.name (q.pass r)).map (q.made r) := by
    rw [result_eq, if_neg hpass]
  rcases Candidate.best_cases q.name hpass with ⟨c, hc, hbest⟩ | ⟨hshared, a, b, hbest⟩
  · rw [hbest] at hresult
    exact Or.inl ⟨c, hc, hresult⟩
  · rw [hbest] at hresult
    exact Or.inr ⟨hshared, a, b, hresult⟩

theorem result_ambiguous_iff :
    (∃ a b, q.result r = .error (.ambiguousOverload q.name a b))
      ↔ Candidate.LeastShared (q.pass r) := by
  by_cases hpass : q.pass r = []
  · refine iff_of_false ?_ ?_
    · rintro ⟨a, b, h⟩
      rw [result_eq, if_pos hpass] at h
      cases h
    · rintro ⟨least, hleast, -⟩
      obtain ⟨c, hc, -⟩ := hleast.attained
      rw [hpass] at hc
      cases hc
  · rcases result_cases hpass with ⟨c, hc, hresult⟩ | ⟨hshared, hresult⟩
    · refine iff_of_false ?_ hc.not_leastShared
      rintro ⟨a, b, h⟩
      rw [hresult] at h
      cases h
    · exact iff_of_true hresult hshared

theorem result_noApplicable_iff :
    (∃ args, q.result r = .error (.noApplicableOverload q.name args)) ↔ q.pass r = [] := by
  constructor
  · rintro ⟨args, h⟩
    by_contra hpass
    rcases result_cases hpass with ⟨c, -, hresult⟩ | ⟨-, a, b, hresult⟩
    · rw [h] at hresult
      cases hresult
    · rw [h] at hresult
      cases hresult
  · intro hpass
    rw [result_eq, if_pos hpass]
    exact ⟨_, rfl⟩

/-! ## §3. Calls in registries that are alike. -/

variable {r' : Registry}

theorem members_perm (h : r.Alike r') : (q.members r).Perm (q.members r') :=
  h.viable (h.methods _ _ _) _ _ _

theorem extensions_perm (h : r.Alike r') : (q.extensions r).Perm (q.extensions r') := by
  unfold extensions extensionCandidates
  split
  · exact .nil
  · exact h.viable (h.extensionMethods _ _) _ _ _

theorem pass_perm (h : r.Alike r') : (q.pass r).Perm (q.pass r') := by
  unfold pass
  rw [(members_perm h).isEmpty_eq]
  split
  · exact extensions_perm h
  · exact members_perm h

theorem made_eq (h : r.Alike r') : q.made r = q.made r' := by
  funext c
  unfold made
  rw [(members_perm h).isEmpty_eq]

/-- **Alike registries resolve a call to the same term**, or fail with errors of one class. -/
theorem result_alike (h : r.Alike r') :
    (q.result r).mapError ResolutionError.className
      = (q.result r').mapError ResolutionError.className := by
  have hperm := pass_perm (q := q) h
  by_cases hpass : q.pass r = []
  · have hpass' : q.pass r' = [] := List.nil_perm.1 (hpass ▸ hperm)
    rw [result_eq, result_eq, if_pos hpass, if_pos hpass']
  · rcases result_cases hpass with ⟨c, hc, hresult⟩ | ⟨hshared, a, b, hresult⟩
    · have hresult' : q.result r' = .ok (q.made r c) :=
        result_eq_ok_iff.2 ⟨c, hc.perm hperm, by rw [made_eq h]⟩
      rw [hresult, hresult']
    · obtain ⟨a', b', hresult'⟩ := result_ambiguous_iff.2 (hshared.perm hperm)
      rw [hresult, hresult']
      rfl

/-! ## §4. Overload selection. -/

/-- **Overload selection is the unique minimum and ignores the order of declarations.**  A call
is decided among the members of the receiver that fit, and if none fits, among extension
methods.  It succeeds just if one of them is strictly better than all others, and is
then the call of that one; it is ambiguous just if the least rank is shared; and it
finds nothing just if nothing fits.  With the members of types and the types
themselves declared in another order, it selects the same method and arguments, or
fails with an error of the same class. -/
theorem least_wins (q : Invocation) :
    (∀ r : Registry,
      (∀ t, q.result r = .ok t ↔ ∃ c, Candidate.Wins (q.pass r) c ∧ t = q.made r c)
      ∧ ((∃ a b, q.result r = .error (.ambiguousOverload q.name a b))
          ↔ Candidate.LeastShared (q.pass r))
      ∧ ((∃ args, q.result r = .error (.noApplicableOverload q.name args))
          ↔ q.members r = [] ∧ q.extensions r = []))
    ∧ ∀ (base r : Registry) (es es' : List TypeEntry), base.registerAll es = .ok r →
        TypeEntry.Rearranged es es' →
        ∃ r', base.registerAll es' = .ok r'
          ∧ (q.result r').mapError ResolutionError.className
            = (q.result r).mapError ResolutionError.className := by
  refine ⟨fun r => ⟨fun t => result_eq_ok_iff, result_ambiguous_iff, ?_⟩, ?_⟩
  · exact result_noApplicable_iff.trans pass_eq_nil_iff
  · intro base r es es' hr hes
    obtain ⟨hregistrable, rfl⟩ := Registry.registerAll_eq_ok_iff.1 hr
    have hregistrable' := hregistrable.rearranged hes
    have halike : (base.insertAll es).Alike (base.insertAll es') :=
      Registry.alike_of_rearranged hes hregistrable.ids hregistrable'.ids
    exact ⟨base.insertAll es', Registry.registerAll_eq_ok_iff.2 ⟨hregistrable', rfl⟩,
      (result_alike halike).symm⟩

/-- A type with two overloads, one of which takes `int` arguments as they are, and two classes
whose extension methods of one name fit equally well. -/
def calcEntries : List TypeEntry :=
  let adder := (TypeEntry.declare "App.Calc" "App")
    |>.addMethod (.instance_ "Add" .int64 [.required "a" .int64, .required "b" .int64])
    |>.addMethod (.instance_ "Add" .int32 [.required "a" .int32, .required "b" .int32])
  let extension (name : String) : TypeEntry := (TypeEntry.declare name "App")
    |>.addExtension (.static_ "Twice" .int32 [.required "calc" (.simple "App.Calc")])
  [adder, extension "App.Tools", extension "App.More"]

/-- The same types, with everything turned round. -/
def turnedEntries : List TypeEntry :=
  (calcEntries.map (fun e => { e with members := e.members.reverse })).reverse

def calcTypes : Registry := Registry.empty.insertAll calcEntries

/-- `_this.Add(1, 2)` on that type. -/
def addCall : Invocation :=
  ⟨.parameter "_this" (.simple "App.Calc"), "Add", [],
    [.literal (.int 1), .literal (.int 2)], []⟩

theorem least_wins_add : Registry.empty.registerAll calcEntries = .ok calcTypes
    ∧ TypeEntry.Rearranged calcEntries turnedEntries
    ∧ (∃ c, Candidate.Wins (addCall.pass calcTypes) c
        ∧ addCall.result calcTypes = .ok (addCall.made calcTypes c))
    ∧ ∃ types, Registry.empty.registerAll turnedEntries = .ok types
        ∧ (addCall.result types).mapError ResolutionError.className
          = (addCall.result calcTypes).mapError ResolutionError.className := by
  have hregistered : Registry.empty.registerAll calcEntries = .ok calcTypes :=
    Registry.registerAll_eq_ok_iff.2
      ⟨⟨by decide +kernel, fun _ _ => rfl, by decide +kernel⟩, rfl⟩
  have hturned : TypeEntry.Rearranged calcEntries turnedEntries := by
    refine ⟨calcEntries.map (fun e => { e with members := e.members.reverse }), ?_,
      (List.reverse_perm _).symm⟩
    refine List.forall₂_map_right_iff.2 (List.forall₂_same.2 fun e _ => ?_)
    exact ⟨e.members.reverse, (List.reverse_perm e.members).symm, rfl⟩
  obtain ⟨hselects, hreorders⟩ := least_wins addCall
  obtain ⟨t, hresult⟩ : ∃ t, addCall.result calcTypes = .ok t :=
    exists_ok_of_isSome (by decide +kernel)
  obtain ⟨c, hc, rfl⟩ := ((hselects calcTypes).1 t).1 hresult
  obtain ⟨types, htypes, hsame⟩ := hreorders _ _ _ _ hregistered hturned
  exact ⟨hregistered, hturned, ⟨c, hc, hresult⟩, types, htypes, hsame⟩

end Invocation

end BoundMarkup
