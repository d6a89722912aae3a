/-
  BoundMarkup.Proofs.Term.Fitting
  ───────────────────────────────
  **CANDIDATES FILL EVERY PARAMETER.**

  Three steps lead from the arguments of a call to a candidate, each with what
  it says about one parameter at a time:

    • the arrangement has a slot for each parameter (`Arrangement.suits_of?`),
    • closing a method over type arguments leaves its slots suited
      (`Candidate.suits_closeOver?`),
    • a filled slot is a term of the parameter's type, or the array of a tail
      (`Candidate.filled_fillSlots?`).

  `Candidate.sound_of?` puts them together.
-/
import BoundMarkup.Proofs.Term.Formation

namespace BoundMarkup

/-! ## §1. Slots. -/

/-- The slot can fill the parameter, with a term of the given ones if with any. -/
inductive Slot.Suits (terms : List Term) (p : Parameter) : Slot → Prop where
  | value {t : Term} (given : t ∈ terms) : Suits terms p (.value t)
  | default (value : Constant) : Suits terms p (.default value)
  | emptyTail (variadic : p.variadic = true) : Suits terms p .emptyTail

/-- The terms that a call supplies. -/
def suppliedTerms (positional : List Term) (named : List NamedArgument) : List Term :=
  positional ++ named.map NamedArgument.value

namespace Arrangement

/-- The positional arguments fill the parameters from the left. -/
theorem suits_positional (terms : List Term) :
    ∀ (params : List Parameter) (positional : List Term), (∀ t ∈ positional, t ∈ terms) →
      List.Forall₂ (Slot.Suits terms) (params.take positional.length)
        ((positional.take params.length).map Slot.value)
  | [], positional, _ => by simp
  | p :: ps, [], _ => by simp
  | p :: ps, t :: ts, h => by
      obtain ⟨ht, hts⟩ := List.forall_mem_cons.1 h
      exact .cons (.value ht) (suits_positional terms ps ts hts)

/-- Every parameter after them has a slot of its own. -/
theorem suits_rest {positional : List Term} {named : List NamedArgument} :
    ∀ {params : List Parameter} {slots : List Slot} {defaults used : Nat},
      rest named params = some (slots, defaults, used) →
        List.Forall₂ (Slot.Suits (suppliedTerms positional named)) params slots
  | [], slots, defaults, used, h => by
      cases h
      exact .nil
  | p :: ps, slots, defaults, used, h => by
      unfold rest at h
      split at h
      · -- A named argument of the parameter's name.
        rename_i a hfound
        obtain ⟨⟨slots', defaults', used'⟩, hrest, heq⟩ := Option.map_eq_some_iff.1 h
        cases heq
        have hgiven : a.value ∈ suppliedTerms positional named :=
          List.mem_append_right _ (List.mem_map_of_mem (List.mem_of_find?_eq_some hfound))
        exact .cons (.value hgiven) (suits_rest hrest)
      · split at h
        · obtain ⟨⟨slots', defaults', used'⟩, hrest, heq⟩ := Option.map_eq_some_iff.1 h
          cases heq
          exact .cons (.default _) (suits_rest hrest)
        · -- Nothing is left for the parameter, so it has to be a tail.
          split at h
          · rename_i htail
            obtain ⟨hvariadic, hlast⟩ := Bool.and_eq_true_iff.1 htail
            obtain rfl := List.isEmpty_iff.1 hlast
            cases h
            exact .cons (.emptyTail hvariadic) .nil
          · cases h

/-- **An arrangement has a slot for each parameter**, filled with what was supplied. -/
theorem suits_of? {params : List Parameter} {positional : List Term}
    {named : List NamedArgument} {arrangement : Arrangement}
    (h : of? params positional named = some arrangement) :
    List.Forall₂ (Slot.Suits (suppliedTerms positional named)) params arrangement.slots := by
  unfold of? at h
  split at h
  · obtain ⟨⟨slots, defaults, used⟩, hrest, h⟩ := Option.bind_eq_some_iff.1 h
    simp only at h
    split at h
    · cases h
      have hfront := suits_positional (suppliedTerms positional named) params positional
        fun t ht => List.mem_append_left _ ht
      -- What the positional arguments leave follows what they fill.
      have hboth : List.Forall₂ _ (params.take positional.length ++ params.drop positional.length)
          _ := List.rel_append hfront (suits_rest hrest)
      rwa [List.take_append_drop] at hboth
    · cases h
  · cases h

end Arrangement

namespace Candidate

/-! ## §2. Closing a method. -/

/-- Only the types of the parameters change. -/
theorem suits_close {terms : List Term} {m : Method} {slots : List Slot}
    (h : List.Forall₂ (Slot.Suits terms) m.params slots) (args : List TypeRef) :
    List.Forall₂ (Slot.Suits terms) (m.close args).params slots := by
  refine List.forall₂_map_left_iff.2 (h.imp fun p slot hslot => ?_)
  cases hslot with
  | value given => exact .value given
  | default value => exact .default value
  | emptyTail variadic => exact .emptyTail variadic

theorem hasTail_close (m : Method) (args : List TypeRef) : (m.close args).hasTail = m.hasTail := by
  unfold Method.hasTail Method.close
  simp only [List.getLast?_map, Option.any_map]
  rfl

/-- A method is closed over the type arguments that are given and inferred, or
has none to close over. -/
theorem closeOver?_eq_some {r : Registry} {m closed : Method} {typeArgs : List TypeRef}
    {slots : List Slot} {inferred : Nat}
    (h : closeOver? r m typeArgs slots = some (closed, inferred)) :
    closed = m ∨ ∃ args, closed = m.close args := by
  unfold closeOver? at h
  split at h
  · obtain ⟨found, -, heq⟩ := Option.map_eq_some_iff.1 h
    cases heq
    exact Or.inr ⟨found.args, rfl⟩
  · split at h <;> cases h
    exact Or.inl rfl

/-- The closed method has as many parameters. -/
theorem length_params_of_closeOver? {r : Registry} {m closed : Method} {typeArgs : List TypeRef}
    {slots : List Slot} {inferred : Nat}
    (h : closeOver? r m typeArgs slots = some (closed, inferred)) :
    closed.params.length = m.params.length := by
  rcases closeOver?_eq_some h with rfl | ⟨args, rfl⟩
  · rfl
  · exact List.length_map _

/-- A method without type parameters is closed already, if no type arguments are given. -/
theorem closeOver?_of_not_isGeneric {r : Registry} {m : Method} {slots : List Slot}
    (plain : m.isGeneric = false) : closeOver? r m [] slots = some (m, 0) := by
  rw [closeOver?, plain, if_neg Bool.false_ne_true]
  rfl

/-! ## §3. Filling the slots. -/

variable {r : Registry}

theorem convertArg?_eq_some {t arg : Term} {target : TypeRef} {cast : Nat}
    (h : convertArg? r t target = some (arg, cast)) : t.convertTo? r target = some arg := by
  obtain ⟨c, hc, heq⟩ := Option.map_eq_some_iff.1 h
  cases heq
  exact Option.map_eq_some_iff.2 ⟨c, hc, rfl⟩

theorem formed_convertItems? {element : TypeRef} :
    ∀ {ts items : List Term} {casts : Nat}, convertItems? r element ts = some (items, casts) →
      (∀ t ∈ ts, t.Formed r) → ∀ a ∈ items, a.Formed r
  | [], items, casts, h, _ => by
      cases h
      exact nofun
  | t :: ts, items, casts, h, hts => by
      obtain ⟨ht, hts⟩ := List.forall_mem_cons.1 hts
      obtain ⟨⟨first, cast⟩, hfirst, h⟩ := Option.bind_eq_some_iff.1 h
      obtain ⟨⟨others, casts'⟩, hothers, heq⟩ := Option.map_eq_some_iff.1 h
      cases heq
      exact List.forall_mem_cons.2
        ⟨ht.convertTo? (convertArg?_eq_some hfirst), formed_convertItems? hothers hts⟩

/-- **One slot.**  Only a variadic parameter collects arguments into an array. -/
theorem filled_fillSlot? {s : Supply} {i : Nat} {slot : Slot} {p : Parameter} {arg : Term}
    {cast : Nat} {terms : List Term} (h : fillSlot? r s i slot p = some (arg, cast))
    (hslot : slot.Suits terms p) (hterms : ∀ t ∈ terms, t.Formed r)
    (hpositional : ∀ t ∈ s.positional, t.Formed r)
    (hcollects : ∀ t, s.collects r i t p = true → p.variadic = true) :
    p.Filled arg ∧ arg.Formed r := by
  cases hslot with
  | default value =>
      cases h
      exact ⟨.typed (.refl p.type), .constant value p.type⟩
  | emptyTail variadic =>
      cases h
      exact ⟨.tail variadic ⟨[], rfl⟩, .newArray _ nofun⟩
  | @value t given =>
      simp only [fillSlot?] at h
      split at h
      · rename_i hc
        obtain ⟨⟨items, casts⟩, hitems, heq⟩ := Option.map_eq_some_iff.1 h
        cases heq
        refine ⟨.tail (hcollects t hc) ⟨items, rfl⟩, .newArray _ (formed_convertItems? hitems ?_)⟩
        exact fun a ha => hpositional a (List.mem_of_mem_drop ha)
      · have hconverted := convertArg?_eq_some h
        exact ⟨.typed (Term.alike_of_convertTo? hconverted),
          (hterms t given).convertTo? hconverted⟩

/-- **All slots from a position on.**  Arguments are collected at the last parameter
only, and only if that is a tail. -/
theorem filled_fillSlots? {s : Supply} {terms : List Term} (hterms : ∀ t ∈ terms, t.Formed r)
    (hpositional : ∀ t ∈ s.positional, t.Formed r) :
    ∀ {params : List Parameter} {slots : List Slot} {i : Nat} {args : List Term} {casts : Nat},
      fillSlots? r s i slots params = some (args, casts) →
      List.Forall₂ (Slot.Suits terms) params slots →
      i + params.length = s.paramCount →
      (s.hasTail = true → params.getLast?.all Parameter.variadic = true) →
      List.Forall₂ Parameter.Filled params args ∧ ∀ a ∈ args, a.Formed r
  | [], slots, i, args, casts, h, hslots, _, _ => by
      cases hslots
      cases h
      exact ⟨.nil, nofun⟩
  | p :: ps, slots, i, args, casts, h, hslots, hcount, htail => by
      obtain ⟨slot, slots', hslot, hmore, rfl⟩ := List.forall₂_cons_left_iff.1 hslots
      obtain ⟨⟨arg, cast⟩, hfirst, h⟩ := Option.bind_eq_some_iff.1 h
      obtain ⟨⟨args', casts'⟩, hothers, heq⟩ := Option.map_eq_some_iff.1 h
      cases heq
      have hcollects : ∀ t, s.collects r i t p = true → p.variadic = true := by
        intro t hc
        simp only [Supply.collects, Bool.and_eq_true, beq_iff_eq] at hc
        obtain ⟨⟨⟨hs, hlast⟩, -⟩, -⟩ := hc
        -- The parameter is the last one, so it is the tail.
        have hps : ps = [] := by
          rw [List.length_cons] at hcount
          exact List.eq_nil_of_length_eq_zero (by omega)
        have hvariadic := htail hs
        rw [hps] at hvariadic
        exact hvariadic
      have htail' : s.hasTail = true → ps.getLast?.all Parameter.variadic = true := by
        intro hs
        cases ps with
        | nil => rfl
        | cons q qs =>
            have hlast := htail hs
            rwa [List.getLast?_cons_cons] at hlast
      have hcount' : i + 1 + ps.length = s.paramCount := by
        rw [List.length_cons] at hcount
        omega
      obtain ⟨hfilled, hformed⟩ := filled_fillSlot? hfirst hslot hterms hpositional hcollects
      obtain ⟨hrest, hargs⟩ :=
        filled_fillSlots? hterms hpositional hothers hmore hcount' htail'
      exact ⟨.cons hfilled hrest, List.forall_mem_cons.2 ⟨hformed, hargs⟩⟩

/-! ## §4. Candidates. -/

/-- **When a method makes a candidate, and which**: its arguments are arranged, its type parameters
are closed, and its slots are filled. -/
theorem of?_eq_some_iff {m : Method} {typeArgs : List TypeRef} {positional : List Term}
    {named : List NamedArgument} {c : Candidate} :
    of? r m typeArgs positional named = some c ↔
      ∃ arrangement closed inferred args casts,
        Arrangement.of? m.params positional named = some arrangement
        ∧ closeOver? r m typeArgs arrangement.slots = some (closed, inferred)
        ∧ fillSlots? r ⟨positional, m.hasTail, m.params.length⟩ 0 arrangement.slots closed.params
          = some (args, casts)
        ∧ c = ⟨closed, args, arrangement.defaults + casts, inferred⟩ := by
  constructor
  · intro h
    obtain ⟨arrangement, harranged, h⟩ := Option.bind_eq_some_iff.1 h
    obtain ⟨⟨closed, inferred⟩, hclosed, h⟩ := Option.bind_eq_some_iff.1 h
    obtain ⟨⟨args, casts⟩, hfilled, h⟩ := Option.bind_eq_some_iff.1 h
    exact ⟨arrangement, closed, inferred, args, casts, harranged, hclosed, hfilled,
      (Option.some.inj h).symm⟩
  · rintro ⟨arrangement, closed, inferred, args, casts, harranged, hclosed, hfilled, rfl⟩
    refine Option.bind_eq_some_iff.2 ⟨arrangement, harranged, ?_⟩
    refine Option.bind_eq_some_iff.2 ⟨(closed, inferred), hclosed, ?_⟩
    exact Option.bind_eq_some_iff.2 ⟨(args, casts), hfilled, rfl⟩

/-- **What resolution knows of a candidate for a method.** -/
structure Sound (r : Registry) (m : Method) (c : Candidate) : Prop where
  method : c.method = m ∨ ∃ args, c.method = m.close args
  formed : ∀ a ∈ c.args, a.Formed r
  filled : List.Forall₂ Parameter.Filled c.method.params c.args

/-- **A candidate fills every parameter** of its method, with formed terms if it
was supplied with such. -/
theorem sound_of? {m : Method} {typeArgs : List TypeRef} {positional : List Term}
    {named : List NamedArgument} {c : Candidate}
    (h : of? r m typeArgs positional named = some c)
    (hpositional : ∀ t ∈ positional, t.Formed r) (hnamed : ∀ a ∈ named, a.value.Formed r) :
    c.Sound r m := by
  obtain ⟨arrangement, closed, inferred, args, casts, harrangement, hclosed, hargs, rfl⟩ :=
    of?_eq_some_iff.1 h
  have hterms : ∀ t ∈ suppliedTerms positional named, t.Formed r := by
    intro t ht
    rcases List.mem_append.1 ht with ht | ht
    · exact hpositional t ht
    · obtain ⟨a, ha, rfl⟩ := List.mem_map.1 ht
      exact hnamed a ha
  have hslots := Arrangement.suits_of? harrangement
  -- The closed method has as many parameters, and a tail just if the method has one.
  have hmethod := closeOver?_eq_some hclosed
  have hsuits : List.Forall₂ (Slot.Suits (suppliedTerms positional named)) closed.params
      arrangement.slots := by
    rcases hmethod with rfl | ⟨typeArgs, rfl⟩
    · exact hslots
    · exact suits_close hslots typeArgs
  have hcount : 0 + closed.params.length = m.params.length := by
    rw [Nat.zero_add, hsuits.length_eq, hslots.length_eq]
  have htail : m.hasTail = true → closed.params.getLast?.all Parameter.variadic = true := by
    intro hm
    have hclosedTail : closed.hasTail = true := by
      rcases hmethod with rfl | ⟨typeArgs, rfl⟩
      · exact hm
      · rwa [hasTail_close]
    unfold Method.hasTail at hclosedTail
    cases hlast : closed.params.getLast? with
    | none => rfl
    | some p =>
        rw [hlast] at hclosedTail
        exact hclosedTail
  obtain ⟨hfilled, hformed⟩ :=
    filled_fillSlots? hterms hpositional hargs hsuits hcount htail
  exact ⟨hmethod, hformed, hfilled⟩

/-- The best candidate is one of the candidates. -/
theorem mem_of_best {name : String} {candidates : List Candidate} {c : Candidate}
    (h : best name candidates = .ok c) : c ∈ candidates := by
  unfold best at h
  split at h
  · cases h
  · rename_i c' hfilter
    cases h
    have hmem : c ∈ candidates.filter (fun c => bestRank? candidates == some c.rank) := by
      rw [hfilter]
      exact List.mem_singleton.2 rfl
    exact (List.mem_filter.1 hmem).1
  · cases h

/-- **The candidate that a choice makes** comes from one of the methods. -/
theorem sound_of_best {name : String} {methods : List Method} {typeArgs : List TypeRef}
    {positional : List Term} {named : List NamedArgument} {c : Candidate}
    (h : best name (viable r methods typeArgs positional named) = .ok c)
    (hpositional : ∀ t ∈ positional, t.Formed r) (hnamed : ∀ a ∈ named, a.value.Formed r) :
    ∃ m ∈ methods, c.Sound r m := by
  -- A candidate that is viable is one of a method.
  obtain ⟨m, hm, hc⟩ := List.mem_filterMap.1 (mem_of_best h)
  exact ⟨m, hm, sound_of? hc hpositional hnamed⟩

end Candidate

end BoundMarkup
