/-
  BoundMarkup.Proofs.Term.VariadicCalls
  ─────────────────────────────────────
  **CALLS WITH ANY NUMBER OF ARGUMENTS.**

  A method with fixed parameters and a variadic tail is called with positional
  arguments only.  The ones in front are converted to the fixed parameters.  What
  is left fills the tail (`TailFilled`): a single array or `null` is passed
  through if it converts to the type of the tail, and anything else is collected
  into a new array, item by item.  If nothing is left, the tail takes the default
  that it may have.

  The arrangement keeps the first argument of the tail alone
  (`Arrangement.of?_tail`), and the others are found again when the tail is filled
  (`Candidate.fillSlot?_tail`).  `Candidate.of?_variadic` puts both together: when there
  is a candidate, what its arguments are, and how many of them were changed.
-/
import BoundMarkup.Proofs.Term.Arranging
import BoundMarkup.Proofs.Term.Fitting

namespace BoundMarkup

/-! ## §1. Terms and the types they are asked for. -/

/-- The type of the term is that of an array, or of `null`. -/
def Term.IsArrayLike (t : Term) : Prop := t.type = .null ∨ ∃ element, t.type = .array element

/-- Each term, converted to the type it is asked for. -/
def Converted (r : Registry) (asked : List (Term × TypeRef)) (terms : List Term) : Prop :=
  List.Forall₂ (fun x t => x.1.convertTo? r x.2 = some t) asked terms

/-- The conversion to the type it is asked for is another one than the identity. -/
def isChanged (r : Registry) (x : Term × TypeRef) : Bool :=
  (Conversion.find? r x.1.type x.2).any (fun c => !c.isExact)

/-- How many terms are changed by their conversions. -/
def changes (r : Registry) (asked : List (Term × TypeRef)) : Nat := asked.countP (isChanged r)

/-- The terms of a call are asked for the types of the parameters. -/
def askedFor (terms : List Term) (params : List Parameter) : List (Term × TypeRef) :=
  terms.zip (params.map Parameter.type)

/-- The items of a tail are asked for its element type. -/
def askedItems (terms : List Term) (element : TypeRef) : List (Term × TypeRef) :=
  terms.map (fun t => (t, element))

/-- **A single argument that stands for the whole tail**: it is an array or `null`, and converts
to the type of the tail. -/
def PassesAsTail (r : Registry) (element : TypeRef) (terms : List Term) : Prop :=
  ∃ t, terms = [t] ∧ t.IsArrayLike ∧ (t.convertTo? r (.array element)).isSome = true

/-- **How arguments fill a variadic tail**, which may have a default: the term that they become,
and how many casts that is. -/
inductive TailFilled (r : Registry) (default? : Option Constant) (element : TypeRef) :
    List Term → Term → Nat → Prop where
  /-- A single array is passed through. -/
  | passed {t last : Term} (arrayLike : t.IsArrayLike)
      (converted : t.convertTo? r (.array element) = some last) :
      TailFilled r default? element [t] last (changes r [(t, .array element)])
  /-- Anything else is collected into a new array, item by item. -/
  | collected {terms items : List Term} (apart : ¬ PassesAsTail r element terms)
      (bare : terms = [] → default? = none)
      (converted : Converted r (askedItems terms element) items) :
      TailFilled r default? element terms (.newArray element items)
        (changes r (askedItems terms element))
  /-- Without arguments the default is taken, at the cost of one cast. -/
  | defaulted {value : Constant} (default : default? = some value) :
      TailFilled r default? element [] (.constant value (.array element)) 1

/-- **A variadic tail**: the parameter takes any number of arguments, all for one array. -/
structure Parameter.IsTail (p : Parameter) (element : TypeRef) : Prop where
  variadic : p.variadic = true
  array : p.type = .array element

theorem Parameter.isTail_tail (name : String) (element : TypeRef) :
    (Parameter.tail name element).IsTail element := ⟨rfl, rfl⟩

theorem Parameter.IsTail.tailElement {p : Parameter} {element : TypeRef} (h : p.IsTail element) :
    Candidate.tailElement p = element := by
  rw [Candidate.tailElement, h.array]
  rfl

variable {r : Registry} {t u : Term} {target element : TypeRef} {n : Nat} {tail : Parameter}

theorem changes_cons {x : Term × TypeRef} {asked : List (Term × TypeRef)} :
    changes r (x :: asked) = (if isChanged r x then 1 else 0) + changes r asked := by
  unfold changes
  rw [List.countP_cons, Nat.add_comm]

theorem changes_singleton {x : Term × TypeRef} :
    changes r [x] = if isChanged r x then 1 else 0 := changes_cons

/-- All terms convert just if there are terms that they convert to. -/
theorem exists_converted_iff {asked : List (Term × TypeRef)} :
    (∃ terms, Converted r asked terms) ↔ ∀ x ∈ asked, (x.1.convertTo? r x.2).isSome = true := by
  induction asked with
  | nil => exact iff_of_true ⟨[], .nil⟩ nofun
  | cons x xs ih =>
      rw [List.forall_mem_cons, ← ih, Option.isSome_iff_exists]
      constructor
      · rintro ⟨_, hterms⟩
        cases hterms with
        | cons hx hxs => exact ⟨⟨_, hx⟩, _, hxs⟩
      · rintro ⟨⟨t, hx⟩, terms, hxs⟩
        exact ⟨t :: terms, .cons hx hxs⟩

namespace Candidate

/-! ## §2. Arguments one by one. -/

/-- An argument is converted, at the cost of one cast if that changes it. -/
theorem convertArg?_eq_some_iff : convertArg? r t target = some (u, n) ↔
    t.convertTo? r target = some u ∧ n = if isChanged r (t, target) then 1 else 0 := by
  unfold convertArg? Term.convertTo? isChanged
  cases hfind : Conversion.find? r t.type target with
  | none => simp
  | some c =>
      have hcast : (if c.isExact then 0 else 1) = if !c.isExact then 1 else 0 := by
        cases c.isExact <;> rfl
      simp only [Option.map_some, Option.some.injEq, Prod.mk.injEq, Option.any_some, hcast]
      exact and_congr_right fun _ => eq_comm

/-- So are the items of a tail. -/
theorem convertItems?_eq_some_iff {terms : List Term} : ∀ {items : List Term} {n : Nat},
    convertItems? r element terms = some (items, n) ↔
      Converted r (askedItems terms element) items ∧ n = changes r (askedItems terms element) := by
  induction terms with
  | nil =>
      intro items n
      rw [convertItems?, Option.some.injEq, Prod.mk.injEq]
      constructor
      · rintro ⟨rfl, rfl⟩
        exact ⟨.nil, rfl⟩
      · rintro ⟨hitems, rfl⟩
        cases hitems
        exact ⟨rfl, rfl⟩
  | cons t ts ih =>
      intro items n
      have hasked : askedItems (t :: ts) element = (t, element) :: askedItems ts element := rfl
      rw [convertItems?, hasked, changes_cons]
      constructor
      · intro h
        obtain ⟨⟨first, cast⟩, hfirst, h⟩ := Option.bind_eq_some_iff.1 h
        obtain ⟨⟨others, casts⟩, hothers, heq⟩ := Option.map_eq_some_iff.1 h
        obtain ⟨hconverted, rfl⟩ := convertArg?_eq_some_iff.1 hfirst
        obtain ⟨hrest, rfl⟩ := ih.1 hothers
        cases heq
        exact ⟨.cons hconverted hrest, rfl⟩
      · rintro ⟨hitems, rfl⟩
        cases hitems with
        | cons hconverted hrest =>
            refine Option.bind_eq_some_iff.2 ⟨_, convertArg?_eq_some_iff.2 ⟨hconverted, rfl⟩, ?_⟩
            exact Option.map_eq_some_iff.2 ⟨_, ih.2 ⟨hrest, rfl⟩, rfl⟩

/-- An argument that is not collected stands for itself. -/
theorem fillSlot?_of_not_collects {s : Supply} {i : Nat} {p : Parameter}
    (h : s.collects r i t p = false) : fillSlot? r s i (.value t) p = convertArg? r t p.type := by
  rw [fillSlot?, h, if_neg Bool.false_ne_true]

theorem fillSlots?_singleton {s : Supply} {i : Nat} {slot : Slot} {p : Parameter} :
    fillSlots? r s i [slot] [p]
      = (fillSlot? r s i slot p).map (fun (arg, cast) => ([arg], cast)) := by
  rw [Option.map_eq_bind]
  rfl

/-- **Arguments that are not collected are converted one by one**, before anything else. -/
theorem fillSlots?_values_append {s : Supply} {slots : List Slot} {ps : List Parameter}
    {terms : List Term} :
    ∀ {params : List Parameter} {i n : Nat} {args : List Term}, terms.length = params.length →
      (∀ j t p, j < i + params.length → s.collects r j t p = false) →
      (fillSlots? r s i (terms.map .value ++ slots) (params ++ ps) = some (args, n) ↔
        ∃ firsts rest casts, Converted r (askedFor terms params) firsts
          ∧ fillSlots? r s (i + params.length) slots ps = some (rest, casts)
          ∧ args = firsts ++ rest ∧ n = changes r (askedFor terms params) + casts) := by
  induction terms with
  | nil =>
      intro params i n args hlength _
      obtain rfl := List.length_eq_zero_iff.1 hlength.symm
      show fillSlots? r s i slots ps = some (args, n) ↔ _
      constructor
      · intro h
        exact ⟨[], args, n, .nil, h, rfl, (Nat.zero_add n).symm⟩
      · rintro ⟨firsts, rest, casts, hfirsts, hrest, rfl, rfl⟩
        cases hfirsts
        rw [show changes r (askedFor [] []) = 0 from rfl, Nat.zero_add]
        exact hrest
  | cons t terms ih =>
      intro params i n args hlength hsingle
      cases params with
      | nil => cases hlength
      | cons q params =>
          have hcount : terms.length = params.length := Nat.succ.inj hlength
          have hposition : i + (q :: params).length = i + 1 + params.length := by
            rw [List.length_cons]
            omega
          have hthis : fillSlot? r s i (.value t) q = convertArg? r t q.type :=
            fillSlot?_of_not_collects (hsingle i t q (by omega))
          rw [hposition] at hsingle
          have hasked : askedFor (t :: terms) (q :: params)
              = (t, q.type) :: askedFor terms params := rfl
          rw [List.map_cons, List.cons_append, List.cons_append, fillSlots?, hthis, hasked,
            changes_cons, hposition]
          constructor
          · intro h
            obtain ⟨⟨first, cast⟩, hfirst, h⟩ := Option.bind_eq_some_iff.1 h
            obtain ⟨⟨args', n'⟩, hothers, heq⟩ := Option.map_eq_some_iff.1 h
            obtain ⟨hconverted, rfl⟩ := convertArg?_eq_some_iff.1 hfirst
            obtain ⟨firsts, rest, casts, hfirsts, hrest, rfl, rfl⟩ := (ih hcount hsingle).1 hothers
            cases heq
            exact ⟨first :: firsts, rest, casts, .cons hconverted hfirsts, hrest, rfl,
              (Nat.add_assoc _ _ _).symm⟩
          · rintro ⟨firsts, rest, casts, hfirsts, hrest, rfl, rfl⟩
            cases hfirsts with
            | @cons _ first _ firsts hconverted hfirsts =>
                refine Option.bind_eq_some_iff.2
                  ⟨_, convertArg?_eq_some_iff.2 ⟨hconverted, rfl⟩, ?_⟩
                refine Option.map_eq_some_iff.2
                  ⟨_, (ih hcount hsingle).2 ⟨firsts, rest, casts, hfirsts, hrest, rfl, rfl⟩, ?_⟩
                exact Prod.ext rfl (Nat.add_assoc _ _ _).symm

/-- **Fixed parameters take the arguments in front as they are**: none of them is collected. -/
theorem fillSlots?_front {s : Supply} {slot : Slot} {p : Parameter} {front : List Term}
    {fixed : List Parameter} {i n : Nat} {args : List Term} (reached : front.length = fixed.length)
    (count : i + fixed.length + 1 = s.paramCount) :
    fillSlots? r s i (front.map .value ++ [slot]) (fixed ++ [p]) = some (args, n) ↔
      ∃ firsts last casts, Converted r (askedFor front fixed) firsts
        ∧ fillSlot? r s (i + fixed.length) slot p = some (last, casts)
        ∧ args = firsts ++ [last] ∧ n = changes r (askedFor front fixed) + casts := by
  -- Only the last parameter collects arguments.
  have hsingle : ∀ j t p, j < i + fixed.length → s.collects r j t p = false := by
    intro j t p hj
    have hbefore : (j + 1 == s.paramCount) = false := beq_eq_false_iff_ne.2 (by omega)
    rw [Supply.collects, hbefore, Bool.and_false, Bool.false_and, Bool.false_and]
  rw [fillSlots?_values_append reached hsingle, fillSlots?_singleton]
  constructor
  · rintro ⟨firsts, rest, casts, hfirsts, hrest, rfl, rfl⟩
    obtain ⟨⟨last, casts'⟩, hlast, heq⟩ := Option.map_eq_some_iff.1 hrest
    obtain ⟨rfl, rfl⟩ := Prod.mk.inj heq
    exact ⟨firsts, last, casts', hfirsts, hlast, rfl, rfl⟩
  · rintro ⟨firsts, last, casts, hfirsts, hlast, rfl, rfl⟩
    exact ⟨firsts, [last], casts, hfirsts, Option.map_eq_some_iff.2 ⟨_, hlast, rfl⟩, rfl, rfl⟩

/-! ## §3. The tail. -/

/-- The tail of the arguments is passed through just if it is one that passes as a tail. -/
theorem passesThrough_iff (isTail : tail.IsTail element) : passesThrough r t tail = true ↔
    t.IsArrayLike ∧ (t.convertTo? r (.array element)).isSome = true := by
  unfold passesThrough Term.IsArrayLike Term.convertTo?
  rw [Bool.and_eq_true, Option.isSome_map, isTail.array]
  refine and_congr_left fun _ => ?_
  cases t.type <;> simp

/-- The first argument of the tail is collected, with all after it, unless it passes for the
whole tail. -/
theorem collects_tail_iff (isTail : tail.IsTail element) {front ts : List Term} :
    Supply.collects ⟨front ++ t :: ts, true, front.length + 1⟩ r front.length t tail = true ↔
      ¬ PassesAsTail r element (t :: ts) := by
  have hwithin : decide (front.length < (front ++ t :: ts).length) = true := by
    rw [decide_eq_true_iff, List.length_append, List.length_cons]
    omega
  -- It is the only argument of the tail just if the counts agree.
  have hsingle : ((front ++ t :: ts).length == front.length + 1) = true ↔ ts = [] := by
    rw [beq_iff_eq, List.length_append, List.length_cons, ← List.length_eq_zero_iff]
    omega
  have hpasses : PassesAsTail r element (t :: ts) ↔ ts = []
      ∧ passesThrough r t tail = true := by
    rw [passesThrough_iff isTail]
    constructor
    · intro ⟨u, heq, harray, hconverts⟩
      cases heq
      exact ⟨rfl, harray, hconverts⟩
    · intro ⟨hnil, harray, hconverts⟩
      exact ⟨t, congrArg (t :: ·) hnil, harray, hconverts⟩
  rw [Supply.collects, hwithin, beq_self_eq_true, Bool.true_and, Bool.true_and, Bool.true_and,
    hpasses, ← hsingle, Bool.not_eq_true', ← Bool.not_eq_true, Bool.and_eq_true]

/-- What is arranged for the tail: its first argument if there is one, or else its default. -/
def tailSlot (tail : Parameter) : List Term → Slot
  | [] => Arrangement.slotFor [] tail
  | t :: _ => .value t

/-- The tail takes its default, and how often that is. -/
def tailDefaults (tail : Parameter) (back : List Term) : Nat :=
  [tailSlot tail back].countP Slot.isDefault

/-- **A tail without arguments** takes its default, or stays empty. -/
theorem fillSlot?_tail_nil (isTail : tail.IsTail element) {s : Supply} {i : Nat} {last : Term} :
    (∃ casts, fillSlot? r s i (tailSlot tail []) tail = some (last, casts)
        ∧ n = tailDefaults tail [] + casts) ↔
      TailFilled r tail.default? element [] last n := by
  have hapart : ¬ PassesAsTail r element [] := by
    rintro ⟨t, ht, -⟩
    cases ht
  unfold tailDefaults
  rw [tailSlot]
  cases hdefault : tail.default? with
  | none =>
      have hslot : Arrangement.slotFor [] tail = .emptyTail := by
        rw [Arrangement.slotFor, hdefault]
        rfl
      rw [hslot, fillSlot?, isTail.tailElement]
      constructor
      · rintro ⟨casts, heq, rfl⟩
        cases heq
        exact .collected hapart (fun _ => rfl) .nil
      · intro h
        cases h with
        | collected _ _ hconverted =>
            cases hconverted
            exact ⟨0, rfl, rfl⟩
        | defaulted heq => cases heq
  | some value =>
      have hslot : Arrangement.slotFor [] tail = .default value := by
        rw [Arrangement.slotFor, hdefault]
        rfl
      rw [hslot, fillSlot?, isTail.array]
      constructor
      · rintro ⟨casts, heq, rfl⟩
        cases heq
        exact .defaulted rfl
      · intro h
        cases h with
        | collected _ bare _ => cases bare rfl
        | defaulted heq =>
            cases heq
            exact ⟨0, rfl, rfl⟩

/-- **The tail is filled** with all arguments from its first one on. -/
theorem fillSlot?_tail (isTail : tail.IsTail element) {front back : List Term} {last : Term} :
    (∃ casts, fillSlot? r ⟨front ++ back, true, front.length + 1⟩ front.length
        (tailSlot tail back) tail = some (last, casts) ∧ n = tailDefaults tail back + casts) ↔
      TailFilled r tail.default? element back last n := by
  cases back with
  | nil => exact fillSlot?_tail_nil isTail
  | cons t ts =>
      have hdrop : (front ++ t :: ts).drop front.length = t :: ts := List.drop_left
      have hnone : tailDefaults tail (t :: ts) = 0 := rfl
      rw [hnone, tailSlot, fillSlot?, isTail.tailElement, isTail.array]
      simp only [Nat.zero_add, exists_eq_right']
      split
      · rename_i hc
        have hapart := (collects_tail_iff isTail).1 hc
        rw [hdrop, Option.map_eq_some_iff]
        constructor
        · rintro ⟨⟨items, casts⟩, hitems, heq⟩
          obtain ⟨hconverted, rfl⟩ := convertItems?_eq_some_iff.1 hitems
          cases heq
          exact .collected hapart (fun hnil => absurd hnil (List.cons_ne_nil t ts)) hconverted
        · intro h
          cases h with
          | passed arrayLike converted =>
              exact absurd ⟨t, rfl, arrayLike, Option.isSome_of_mem converted⟩ hapart
          | @collected _ items _ _ converted =>
              exact ⟨(items, _), convertItems?_eq_some_iff.2 ⟨converted, rfl⟩, rfl⟩
      · rename_i hc
        have hpasses : PassesAsTail r element (t :: ts) := by
          by_contra hapart
          exact hc ((collects_tail_iff isTail).2 hapart)
        obtain ⟨t', ht, harray, -⟩ := id hpasses
        cases ht
        rw [convertArg?_eq_some_iff]
        constructor
        · rintro ⟨hconverted, rfl⟩
          rw [← changes_singleton]
          exact .passed harray hconverted
        · intro h
          cases h with
          | passed _ converted => exact ⟨converted, changes_singleton⟩
          | collected apart _ _ => exact absurd hpasses apart

end Candidate

/-! ## §4. Arrangement and candidate. -/

/-- **Arguments in front of a tail** stand for the fixed parameters, and only the first argument
of the tail is arranged. -/
theorem Arrangement.of?_tail (isTail : tail.IsTail element) {fixed : List Parameter}
    {front back : List Term} (reached : front.length = fixed.length) :
    of? (fixed ++ [tail]) (front ++ back) []
      = some ⟨front.map .value ++ [Candidate.tailSlot tail back],
        Candidate.tailDefaults tail back⟩ := by
  have hcount : (front ++ back).length = fixed.length + back.length := by
    rw [List.length_append, reached]
  have hfits : countFits (fixed ++ [tail]) (front ++ back).length = true := by
    have htail : hasTail (fixed ++ [tail]) = true := by
      rw [hasTail, List.getLast?_concat, Option.any_some, isTail.variadic]
    have hnone : unreached (fixed ++ [tail]) (front ++ back).length = [] := by
      rw [unreached, List.dropLast_concat, List.drop_eq_nil_of_le (by omega), List.filter_nil]
    rw [countFits_iff, hnone]
    exact ⟨.inr htail, fun _ => Nat.zero_le _⟩
  rw [of?_eq_some_iff, and_iff_right hfits, slotsOf]
  cases back with
  | nil =>
      have hrest : (fixed ++ [tail]).drop (front ++ []).length = [tail] := by
        rw [List.append_nil, reached, List.drop_left]
      have hfront : (front ++ []).take (fixed ++ [tail]).length = front := by
        rw [List.append_nil, List.take_of_length_le (by rw [List.length_append]; omega)]
      have hdefaults : [tail].countP (takesDefault []) = Candidate.tailDefaults tail [] := by
        unfold Candidate.tailDefaults Candidate.tailSlot
        rw [List.countP_singleton, List.countP_singleton, isDefault_slotFor]
      rw [hrest, hfront, hdefaults]
      exact ⟨suffices_singleton.2 (.inr isTail.variadic), rfl, rfl⟩
  | cons t ts =>
      have hrest : (fixed ++ [tail]).drop (front ++ t :: ts).length = [] := by
        refine List.drop_eq_nil_of_le ?_
        rw [hcount, List.length_append, List.length_singleton, List.length_cons]
        omega
      have hfront : (front ++ t :: ts).take (fixed ++ [tail]).length = front ++ [t] := by
        rw [List.length_append, List.length_singleton, ← reached, List.take_length_add_append]
        rfl
      rw [hrest, hfront, List.map_append, List.map_nil, List.append_nil]
      exact ⟨suffices_nil, rfl, rfl⟩

/-- Arguments fill a tail just if one of them passes for it, or else all convert to its
element type. -/
theorem exists_tailFilled_iff {default? : Option Constant} {terms : List Term} :
    (∃ last casts, TailFilled r default? element terms last casts) ↔
      PassesAsTail r element terms ∨ ∀ t ∈ terms, (t.convertTo? r element).isSome = true := by
  have hitems : (∀ t ∈ terms, (t.convertTo? r element).isSome = true) ↔
      ∃ items, Converted r (askedItems terms element) items := by
    rw [exists_converted_iff, askedItems, List.forall_mem_map]
  rw [hitems]
  constructor
  · rintro ⟨last, casts, h⟩
    cases h with
    | passed arrayLike converted => exact .inl ⟨_, rfl, arrayLike, Option.isSome_of_mem converted⟩
    | collected _ _ converted => exact .inr ⟨_, converted⟩
    | defaulted _ => exact .inr ⟨[], .nil⟩
  · intro h
    by_cases hpasses : PassesAsTail r element terms
    · obtain ⟨t, rfl, arrayLike, hconverts⟩ := hpasses
      obtain ⟨last, converted⟩ := Option.isSome_iff_exists.1 hconverts
      exact ⟨last, _, .passed arrayLike converted⟩
    · obtain ⟨items, converted⟩ := h.resolve_left hpasses
      by_cases hdefault : terms = [] ∧ default?.isSome = true
      · obtain ⟨rfl, hsome⟩ := hdefault
        obtain ⟨value, hvalue⟩ := Option.isSome_iff_exists.1 hsome
        exact ⟨_, _, .defaulted hvalue⟩
      · refine ⟨_, _, .collected hpasses (fun hnil => ?_) converted⟩
        rw [← Option.not_isSome_iff_eq_none]
        exact fun hsome => hdefault ⟨hnil, hsome⟩

namespace Candidate

variable {m : Method} {fixed : List Parameter} {front back : List Term}

/-- A method without type parameters is closed already, so only its slots are left to fill. -/
theorem of?_eq_map_fillSlots? (params : m.params = fixed ++ [tail]) (isTail : tail.IsTail element)
    (plain : m.isGeneric = false) (reached : front.length = fixed.length) :
    of? r m [] (front ++ back) [] =
      (fillSlots? r ⟨front ++ back, true, front.length + 1⟩ 0
        (front.map .value ++ [tailSlot tail back]) (fixed ++ [tail])).map
        (fun (args, casts) => ⟨m, args, tailDefaults tail back + casts, 0⟩) := by
  have htail : m.hasTail = true := by
    rw [Method.hasTail, params, List.getLast?_concat, Option.any_some, isTail.variadic]
  have hparamCount : m.params.length = front.length + 1 := by
    rw [params, List.length_append, List.length_singleton, reached]
  rw [of?, params, Arrangement.of?_tail isTail reached, ← params, htail, hparamCount]
  simp only [Option.bind_eq_bind, Option.bind_some, closeOver?_of_not_isGeneric plain, params]
  rw [Option.map_eq_bind]
  rfl

/-- **A variadic call** makes a candidate just if the arguments in front convert, and the others
fill the tail.  That is where its arguments are from, and its casts are those that were changed,
and one for the default of a tail that is left without arguments. -/
theorem of?_variadic (params : m.params = fixed ++ [tail]) (isTail : tail.IsTail element)
    (plain : m.isGeneric = false) (reached : front.length = fixed.length) :
    ((of? r m [] (front ++ back) []).isSome = true ↔
        (∀ x ∈ askedFor front fixed, (x.1.convertTo? r x.2).isSome = true)
          ∧ (PassesAsTail r element back ∨ ∀ t ∈ back, (t.convertTo? r element).isSome = true))
      ∧ ∀ c, of? r m [] (front ++ back) [] = some c ↔
        ∃ firsts last casts, Converted r (askedFor front fixed) firsts
          ∧ TailFilled r tail.default? element back last casts
          ∧ c = ⟨m, firsts ++ [last], changes r (askedFor front fixed) + casts, 0⟩ := by
  have hcandidate (c : Candidate) : of? r m [] (front ++ back) [] = some c ↔
      ∃ firsts last casts, Converted r (askedFor front fixed) firsts
        ∧ TailFilled r tail.default? element back last casts
        ∧ c = ⟨m, firsts ++ [last], changes r (askedFor front fixed) + casts, 0⟩ := by
    have hposition : 0 + fixed.length = front.length := by omega
    have hlast : 0 + fixed.length + 1 = front.length + 1 := by omega
    rw [of?_eq_map_fillSlots? params isTail plain reached, Option.map_eq_some_iff]
    constructor
    · rintro ⟨⟨args, casts⟩, hfilled, rfl⟩
      obtain ⟨firsts, last, tailCasts, hfirsts, htail, rfl, rfl⟩ :=
        (fillSlots?_front reached hlast).1 hfilled
      rw [hposition] at htail
      refine ⟨firsts, last, _, hfirsts, (fillSlot?_tail isTail).1 ⟨_, htail, rfl⟩, ?_⟩
      rw [Nat.add_left_comm]
    · rintro ⟨firsts, last, tailCasts, hfirsts, htail, rfl⟩
      obtain ⟨casts, hfilled, rfl⟩ := (fillSlot?_tail isTail).2 htail
      refine ⟨(firsts ++ [last], changes r (askedFor front fixed) + casts), ?_, ?_⟩
      · refine (fillSlots?_front reached hlast).2 ⟨firsts, last, casts, hfirsts, ?_, rfl, rfl⟩
        rw [hposition]
        exact hfilled
      · rw [Nat.add_left_comm]
  refine ⟨?_, hcandidate⟩
  rw [← exists_converted_iff, ← @exists_tailFilled_iff r element tail.default?,
    Option.isSome_iff_exists]
  constructor
  · rintro ⟨c, hc⟩
    obtain ⟨firsts, last, casts, hfirsts, htail, -⟩ := (hcandidate c).1 hc
    exact ⟨⟨firsts, hfirsts⟩, last, casts, htail⟩
  · rintro ⟨⟨firsts, hfirsts⟩, last, casts, htail⟩
    exact ⟨_, (hcandidate _).2 ⟨firsts, last, casts, hfirsts, htail, rfl⟩⟩

/-- Text with values in it. -/
def formatMethod : Method :=
  ⟨default, "Format", .string, [], [.required "format" .string, .tail "args" .object], .string,
    true, false⟩

def formatText : List Term := [.literal (.string "{0}{1}")]

/-- The numbers to be added up, one of them if none is given. -/
def totalTail : Parameter := ⟨"numbers", .array .int32, some (.int 1), true⟩

def totalMethod : Method :=
  ⟨default, "Total", .simple "App.Calc", [], [totalTail], .int32, false, false⟩

/-- Two values are collected, `null` is passed as the tail, and a default is taken. -/
theorem of?_variadic_format :
    formatMethod.params = [.required "format" .string] ++ [.tail "args" .object]
      ∧ formatMethod.isGeneric = false
      ∧ formatText.length = [Parameter.required "format" .string].length
      ∧ (of? Builtins.registry formatMethod []
        (formatText ++ [.literal (.int 1), .literal (.char 'a')]) []).isSome = true
      ∧ of? Builtins.registry formatMethod [] (formatText ++ [.literal .null]) []
        = some ⟨formatMethod,
          formatText ++ [.convert (.literal .null) (.array .object) .nullLiteral], 1, 0⟩
      ∧ totalTail.IsTail .int32
      ∧ of? Builtins.registry totalMethod [] [] []
        = some ⟨totalMethod, [.constant (.int 1) (.array .int32)], 1, 0⟩ := by
  have params : formatMethod.params
      = [.required "format" .string] ++ [.tail "args" .object] := rfl
  have isTail := Parameter.isTail_tail "args" .object
  have plain : formatMethod.isGeneric = false := rfl
  have reached : formatText.length = [Parameter.required "format" .string].length := rfl
  have hfront : Converted Builtins.registry
      (askedFor formatText [.required "format" .string]) formatText := .cons rfl .nil
  have hparams : totalMethod.params = [] ++ [totalTail] := rfl
  have htotal : totalTail.IsTail .int32 := ⟨rfl, rfl⟩
  have hdefault : of? Builtins.registry totalMethod [] ([] ++ []) []
      = some ⟨totalMethod, [] ++ [.constant (.int 1) (.array .int32)], 0 + 1, 0⟩ :=
    ((of?_variadic hparams htotal rfl rfl).2 _).2 ⟨[], _, 1, .nil, .defaulted rfl, rfl⟩
  refine ⟨params, plain, reached, (of?_variadic params isTail plain reached).1.2 ⟨?_, .inr ?_⟩,
    ((of?_variadic params isTail plain reached).2 _).2
      ⟨_, _, 1, hfront, .passed (.inl rfl) rfl, rfl⟩, htotal, hdefault⟩
  · exact exists_converted_iff.1 ⟨_, hfront⟩
  · rw [List.forall_mem_cons, List.forall_mem_singleton]
    exact ⟨rfl, rfl⟩

/-- **A tail that is left without arguments need not be an empty array**: it takes its default,
and that is a cast. -/
theorem defaulted_not_empty :
    totalMethod.params = [] ++ [totalTail] ∧ totalTail.IsTail .int32
      ∧ totalMethod.isGeneric = false
      ∧ (of? Builtins.registry totalMethod [] [] []).isSome = true
      ∧ (of? Builtins.registry totalMethod [] [] []).map Candidate.args
        ≠ some [.newArray .int32 []]
      ∧ (of? Builtins.registry totalMethod [] [] []).map Candidate.casts ≠ some 0 := by
  have htaken : of? Builtins.registry totalMethod [] [] []
      = some ⟨totalMethod, [.constant (.int 1) (.array .int32)], 1, 0⟩ := rfl
  refine ⟨rfl, ⟨rfl, rfl⟩, rfl, by rw [htaken]; rfl, ?_, ?_⟩
  · rw [htaken]
    intro h
    cases h
  · rw [htaken]
    decide

end Candidate

end BoundMarkup
