/-
  BoundMarkup.Proofs.Term.ExactMatches
  ────────────────────────────────────
  **EXACT MATCHES WIN.**

  A method that takes the arguments of a call as they are makes a candidate without
  casts and inferred type arguments (`Candidate.of?_exact`), which is the least rank
  there is (`Candidate.Rank.least`).  A candidate of that rank takes the
  arguments as they are (`Candidate.signature_eq_of_least`).  So the candidate wins
  where no other method has the same parameter types (`Candidate.wins_exact`), as
  along a chain of supertypes, whatever else there is (`Term.callMethod_exact`).
-/
import BoundMarkup.Proofs.Registry.Visibility
import BoundMarkup.Proofs.Term.Calls
import BoundMarkup.Proofs.Term.Inference
import BoundMarkup.Proofs.Term.VariadicCalls

namespace BoundMarkup

variable {r : Registry} {m : Method} {positional : List Term}

/-! ## §1. Arguments for all parameters. -/

/-- **Without a tail and without defaults** there is an argument for each parameter. -/
theorem Arrangement.length_eq_of_defaults {params : List Parameter} {arrangement : Arrangement}
    (fixed : hasTail params = false) (h : of? params positional [] = some arrangement)
    (none : arrangement.defaults = 0) : positional.length = params.length := by
  obtain ⟨hcount, hsuffices, -, rfl⟩ := of?_eq_some_iff.1 h
  have hle : positional.length ≤ params.length := by
    unfold countFits at hcount
    rw [fixed, if_neg Bool.false_ne_true] at hcount
    exact of_decide_eq_true hcount
  by_contra hne
  -- The last parameter would have to take a default.
  have hlast : (params.drop positional.length).getLast? = params.getLast? := by
    rw [List.getLast?_drop, if_neg (by omega)]
  obtain ⟨p, hp⟩ : ∃ p, params.getLast? = some p := by
    cases hparams : params.getLast? with
    | none =>
        rw [List.getLast?_eq_none_iff.1 hparams] at hne hle
        exact absurd (Nat.le_antisymm hle (Nat.zero_le _)) hne
    | some p => exact ⟨p, rfl⟩
  have hfixed : p.variadic = false := by
    unfold hasTail at fixed
    rw [hp] at fixed
    exact fixed
  rw [hp] at hlast
  have hprovided : isProvided [] p = true := by
    refine (hsuffices.2 p hlast).resolve_right fun hvariadic => ?_
    rw [hfixed] at hvariadic
    cases hvariadic
  have htakes : takesDefault [] p = true := hprovided
  have hpositive : 0 < (params.drop positional.length).countP (takesDefault []) :=
    List.countP_pos_iff.2 ⟨p, List.mem_of_getLast? hlast, htakes⟩
  exact absurd none hpositive.ne'

namespace Candidate

/-- Without a tail each argument is converted by itself. -/
theorem fillSlots?_fixed {s : Supply} (fixed : s.hasTail = false) {terms args : List Term}
    {params : List Parameter} {n : Nat} (reached : terms.length = params.length) :
    fillSlots? r s 0 (terms.map .value) params = some (args, n) ↔
      Converted r (askedFor terms params) args ∧ n = changes r (askedFor terms params) := by
  have hsingle : ∀ j t p, j < 0 + params.length → s.collects r j t p = false := by
    intro j t p _
    rw [Supply.collects, fixed, Bool.false_and, Bool.false_and, Bool.false_and]
  -- Nothing comes behind the arguments.
  rw [← List.append_nil (terms.map Slot.value), ← List.append_nil params,
    fillSlots?_values_append reached hsingle, List.append_nil]
  constructor
  · rintro ⟨firsts, rest, casts, hfirsts, hrest, rfl, rfl⟩
    cases hrest
    rw [List.append_nil]
    exact ⟨hfirsts, rfl⟩
  · rintro ⟨hargs, rfl⟩
    exact ⟨args, [], 0, hargs, rfl, (List.append_nil args).symm, rfl⟩

/-! ## §2. The least rank. -/

/-- No casts, no inferred type arguments and no tail. -/
def Rank.least : Rank := ⟨0, 0, false⟩

/-- Every other rank is worse. -/
theorem Rank.least_isBetter {a : Rank} (h : a ≠ least) : least.isBetter a = true := by
  by_contra hbetter
  refine h (eq_of_not_isBetter ?_ hbetter)
  rw [isBetter_iff]
  simp [least]

/-- Terms that are asked for their own types stay as they are. -/
theorem converted_self (terms : List Term) :
    Converted r (terms.zip (terms.map Term.type)) terms
      ∧ changes r (terms.zip (terms.map Term.type)) = 0 := by
  induction terms with
  | nil => exact ⟨.nil, rfl⟩
  | cons t ts ih =>
      obtain ⟨hconverted, hchanges⟩ := ih
      have hself : Conversion.find? r t.type t.type = some .identity :=
        Conversion.find?_self r t.type
      constructor
      · refine .cons ?_ hconverted
        show t.convertTo? r t.type = some t
        rw [Term.convertTo?, hself]
        rfl
      · rw [List.map_cons, List.zip_cons_cons, changes_cons, hchanges, isChanged, hself]
        rfl

/-- **A method that takes the arguments as they are** makes a candidate of the least rank. -/
theorem of?_exact (plain : m.isGeneric = false) (fixed : m.hasTail = false)
    (exact : m.signature = positional.map Term.type) :
    of? r m [] positional [] = some ⟨m, positional, 0, 0⟩ := by
  have hlength : positional.length = m.params.length := by
    have hlengths := congrArg List.length exact
    rw [Method.signature, List.length_map, List.length_map] at hlengths
    exact hlengths.symm
  have hasked : askedFor positional m.params = positional.zip (positional.map Term.type) := by
    rw [askedFor, ← exact]
    rfl
  obtain ⟨hconverted, hchanges⟩ := converted_self (r := r) positional
  rw [← hasked] at hconverted hchanges
  have hfilled : fillSlots? r ⟨positional, m.hasTail, m.params.length⟩ 0 (positional.map .value)
      m.params = some (positional, changes r (askedFor positional m.params)) :=
    (fillSlots?_fixed fixed hlength).2 ⟨hconverted, rfl⟩
  refine of?_eq_some_iff.2 ⟨_, _, _, _, _, Arrangement.of?_positional hlength,
    closeOver?_of_not_isGeneric plain, hfilled, ?_⟩
  rw [hchanges]

/-- Terms that are not changed have types of the identities they are asked for. -/
theorem alike_of_changes {asked : List (Term × TypeRef)} :
    ∀ {args : List Term}, Converted r asked args → changes r asked = 0 →
      ∀ x ∈ asked, x.1.type.Alike x.2 := by
  induction asked with
  | nil => exact fun _ _ => nofun
  | cons x xs ih =>
      intro args hargs hnone
      cases hargs with
      | cons hx hxs =>
          rw [changes_cons] at hnone
          have hchanged : isChanged r x = false := by
            rw [← Bool.not_eq_true]
            intro h
            rw [if_pos h] at hnone
            omega
          refine List.forall_mem_cons.2 ⟨?_, ih hxs (by omega)⟩
          obtain ⟨c, hc, -⟩ := Option.map_eq_some_iff.1 hx
          have hexact : c.isExact = true := by
            unfold isChanged at hchanged
            rw [hc] at hchanged
            simpa using hchanged
          exact Conversion.alike_of_exact hc hexact

/-- Terms have the types they are asked for if they do one by one. -/
theorem map_type_eq_of_asked {terms : List Term} :
    ∀ {types : List TypeRef}, terms.length = types.length →
      (∀ x ∈ terms.zip types, x.1.type = x.2) → terms.map Term.type = types := by
  induction terms with
  | nil =>
      intro types hlength _
      exact (List.length_eq_zero_iff.1 hlength.symm).symm
  | cons t ts ih =>
      intro types hlength hsame
      cases types with
      | nil => cases hlength
      | cons type types =>
          obtain ⟨hfirst, hrest⟩ := List.forall_mem_cons.1 hsame
          rw [List.map_cons, hfirst, ih (Nat.succ.inj hlength) hrest]

/-- A method makes a candidate without inferred type arguments only if it is not generic. -/
theorem isGeneric_of_inferred {slots : List Slot} {closed : Method} {inferred : Nat}
    (h : closeOver? r m [] slots = some (closed, inferred)) (none : inferred = 0) :
    m.isGeneric = false := by
  cases hgeneric : m.isGeneric with
  | false => rfl
  | true =>
      rw [closeOver?, if_pos hgeneric] at h
      obtain ⟨found, hfound, heq⟩ := Option.map_eq_some_iff.1 h
      obtain ⟨-, hcount, -⟩ := InferredArgs.of?_nil_eq_some_iff.1 hfound
      cases heq
      rw [none] at hcount
      rw [Method.isGeneric, List.length_eq_zero_iff.1 hcount.symm] at hgeneric
      cases hgeneric

/-- **Only a method that takes the arguments as they are** makes a candidate of the least rank. -/
theorem signature_eq_of_least {types : List TypeRef} {c : Candidate}
    (names : TypeId.Distinguishes (types.filterMap TypeRef.plainName?))
    (hargs : ∀ t ∈ positional, t.type ∈ types) (hparams : ∀ type ∈ m.signature, type ∈ types)
    (h : of? r m [] positional [] = some c) (least : c.rank = .least) :
    m.signature = positional.map Term.type := by
  obtain ⟨arrangement, closed, inferred, args, casts, harranged, hclosed, hfilled, rfl⟩ :=
    of?_eq_some_iff.1 h
  have hcasts : arrangement.defaults + casts = 0 := congrArg Rank.casts least
  have hinferred : inferred = 0 := congrArg Rank.inferred least
  have htail : closed.hasTail = false := congrArg Rank.hasTail least
  have hplain := isGeneric_of_inferred hclosed hinferred
  rw [closeOver?_of_not_isGeneric hplain] at hclosed
  cases hclosed
  have hlength : positional.length = m.params.length :=
    Arrangement.length_eq_of_defaults htail harranged (by omega)
  rw [Arrangement.of?_positional hlength] at harranged
  cases harranged
  obtain ⟨hconverted, hchanges⟩ := (fillSlots?_fixed htail hlength).1 hfilled
  have halike := alike_of_changes hconverted (by omega)
  refine (map_type_eq_of_asked (by rw [hlength, Method.signature, List.length_map]) ?_).symm
  intro x hx
  obtain ⟨hterm, htype⟩ := List.of_mem_zip hx
  exact (halike x hx).eq names (hargs _ hterm) (hparams _ htype)

/-! ## §3. The winner. -/

/-- The types that are compared when methods are called with these arguments. -/
def comparedTypes (methods : List Method) (positional : List Term) : List TypeRef :=
  positional.map Term.type ++ methods.flatMap Method.signature

/-- **The exact match wins** among methods that are told apart by their parameter types. -/
theorem wins_exact {methods : List Method} (distinct : (methods.map Method.signature).Nodup)
    (names : TypeId.Distinguishes
      ((comparedTypes methods positional).filterMap TypeRef.plainName?))
    (mem : m ∈ methods) (plain : m.isGeneric = false) (fixed : m.hasTail = false)
    (exact : m.signature = positional.map Term.type) :
    Wins (viable r methods [] positional []) ⟨m, positional, 0, 0⟩ := by
  obtain ⟨before, after, rfl⟩ := List.append_of_mem mem
  refine ⟨viable r (before ++ after) [] positional [], ?_, fun d hd => ?_⟩
  · have hfirst : viable r (m :: after) [] positional []
        = ⟨m, positional, 0, 0⟩ :: viable r after [] positional [] :=
      List.filterMap_cons_some (of?_exact plain fixed exact)
    have happend (methods : List Method) : viable r (before ++ methods) [] positional []
        = viable r before [] positional [] ++ viable r methods [] positional [] :=
      List.filterMap_append
    rw [happend, happend, hfirst]
    exact List.perm_middle
  · obtain ⟨m', hm', hd⟩ := List.mem_filterMap.1 hd
    have hrank : Candidate.rank ⟨m, positional, 0, 0⟩ = .least := by
      rw [rank, fixed]
      rfl
    rw [hrank]
    refine Rank.least_isBetter fun hleast => ?_
    have hmem' : m' ∈ before ++ m :: after := (List.perm_middle.mem_iff).2 (.tail _ hm')
    have hsame : m'.signature = m.signature := by
      rw [exact]
      refine signature_eq_of_least names (fun t ht => ?_) (fun type htype => ?_) hd hleast
      · exact List.mem_append_left _ (List.mem_map_of_mem ht)
      · exact List.mem_append_right _ (List.mem_flatMap.2 ⟨m', hmem', htype⟩)
    have hnodup := ((List.perm_middle (a := m)).map Method.signature).nodup_iff.1 distinct
    rw [List.map_cons, List.nodup_cons, ← hsame] at hnodup
    exact hnodup.1 (List.mem_map_of_mem hm')

end Candidate

namespace Term

/-- **An exact match always wins.**  Where the supertypes of the receiver form a chain, a call with
positional arguments is resolved to the visible method that takes them as they are, whatever
other methods there are. -/
theorem callMethod_exact (reached : r.Reached) {receiver : Term} {name : String}
    (value : receiver.isTypeReference = false) (chain : r.IsChain receiver.type)
    (names : TypeId.Distinguishes ((Candidate.comparedTypes (r.methods receiver.type name false)
      positional).filterMap TypeRef.plainName?))
    (visible : m ∈ r.methods receiver.type name false) (plain : m.isGeneric = false)
    (fixed : m.hasTail = false) (exact : m.signature = positional.map Term.type) :
    receiver.callMethod r name [] positional [] = .ok (.call receiver m positional) := by
  have hwins : Candidate.Wins (memberCandidates r receiver name [] positional [])
      ⟨m, positional, 0, 0⟩ := by
    unfold memberCandidates
    rw [value]
    exact Candidate.wins_exact (Registry.nodup_signatures_methods reached.fault?_eq_none chain)
      names visible plain fixed exact
  have hinstance : m.isStatic = false := (Registry.declares_of_mem_methods visible).2
  have hbest : Candidate.best name (memberCandidates r receiver name [] positional [])
      = .ok ⟨m, positional, 0, 0⟩ := Candidate.best_eq_ok_iff.2 hwins
  unfold callMethod
  split
  · rename_i c cs hmembers
    rw [← hmembers, hbest]
    show Except.ok (Candidate.memberCall ⟨m, positional, 0, 0⟩ receiver) = _
    rw [Candidate.memberCall, if_neg (by simp [hinstance])]
  · rename_i hmembers
    rw [hmembers] at hbest
    cases hbest

/-- A type with a method for whole numbers. -/
def shelfEntry : TypeEntry :=
  (TypeEntry.declare "App.Shelf" "App").addMethod
    (.instance_ "Put" .void [.required "item" .int32])

/-- A type below it, with methods for larger numbers, for all types and for any number of them. -/
def rackEntry : TypeEntry :=
  (TypeEntry.declare "App.Rack" "App")
    |>.derives (.simple "App.Shelf")
    |>.addMethod (.instance_ "Put" .void [.required "item" .int64])
    |>.addMethod ⟨"Put", .void, ["T"], [.required "item" (.methodParam 0 "T")], false⟩
    |>.addMethod (.instance_ "Put" .void [.tail "items" .int32])

def rackTypes : Registry := (Builtins.registry.insert shelfEntry).insert rackEntry

def rack : Term := .parameter "rack" (.simple "App.Rack")

/-- The method for whole numbers. -/
def putMethod : Method :=
  (TypeEntry.MethodDecl.instance_ "Put" .void [.required "item" .int32]).inOwner shelfEntry false

/-- `rack.Put(1)` calls the method that is farther away. -/
theorem callMethod_exact_rack : rackTypes.Reached ∧ rackTypes.IsChain rack.type
    ∧ TypeId.Distinguishes ((Candidate.comparedTypes (rackTypes.methods rack.type "Put" false)
      [.literal (.int 1)]).filterMap TypeRef.plainName?)
    ∧ putMethod ∈ rackTypes.methods rack.type "Put" false
    ∧ (rackTypes.methods rack.type "Put" false).length = 4
    ∧ rack.callMethod rackTypes "Put" [] [.literal (.int 1)] []
      = .ok (.call rack putMethod [.literal (.int 1)]) := by
  have reached : rackTypes.Reached := by
    have hshelf : Builtins.registry.register shelfEntry
        = .ok (Builtins.registry.insert shelfEntry) :=
      Registry.register_eq_ok_iff.2 ⟨by decide +kernel, by decide +kernel, rfl⟩
    have hrack : (Builtins.registry.insert shelfEntry).register rackEntry = .ok rackTypes :=
      Registry.register_eq_ok_iff.2 ⟨by decide +kernel, by decide +kernel, rfl⟩
    exact .register (.register .builtins hshelf) hrack
  have hlevels : rackTypes.levels rack.type
      = [[.simple "App.Rack"], [.simple "App.Shelf"], [.object]] := by
    decide +kernel
  have chain : rackTypes.IsChain rack.type := by
    unfold Registry.IsChain
    rw [hlevels]
    simp only [List.forall_mem_cons]
    exact ⟨⟨_, rfl⟩, ⟨_, rfl⟩, ⟨_, rfl⟩, nofun⟩
  have names : TypeId.Distinguishes ((Candidate.comparedTypes (rackTypes.methods rack.type "Put"
      false) [.literal (.int 1)]).filterMap TypeRef.plainName?) := by
    decide +kernel
  have visible : putMethod ∈ rackTypes.methods rack.type "Put" false := by
    decide +kernel
  exact ⟨reached, chain, names, visible, by decide +kernel,
    callMethod_exact reached rfl chain names visible rfl rfl rfl⟩

end Term

end BoundMarkup
