/-
  BoundMarkup.Proofs.Term.GenericTails
  ────────────────────────────────────
  **ARRAYS GIVEN TO A GENERIC VARIADIC TAIL.**

  The tail has a type parameter for its element, and no other parameter mentions
  it.  Inference reads that parameter off the argument itself
  (`InferredArgs.matchTypes_tail`), so an array stands for one element, and the tail
  is closed to arrays of arrays.  No array converts to an array of itself
  (`Conversion.find?_array`), so the argument is never passed through:

    • at its position it is collected, as the only item of a new array
      (`Candidate.of?_genericTail`),
    • by its name it cannot be given at all (`Candidate.of?_genericTail_named`).

  Without type parameters the same argument is passed through
  (`Candidate.not_passed_gather`).
-/
import BoundMarkup.Proofs.Registry.Assignability
import BoundMarkup.Proofs.Term.Inference
import BoundMarkup.Proofs.Term.VariadicCalls

namespace BoundMarkup

/-! ## §1. Conversions between arrays. -/

theorem TypeRef.ne_array_self (t : TypeRef) : t ≠ .array t := by
  intro h
  have hsize := congrArg sizeOf h
  rw [TypeRef.array.sizeOf_spec] at hsize
  omega

/-- An array has no other array for a base. -/
theorem Registry.not_isAssignable_array (r : Registry) {a b : TypeRef} (h : a ≠ b) :
    r.isAssignable (.array a) (.array b) = false := by
  have hvalue : TypeRef.array a ∉ TypeRef.valueless := by simp [TypeRef.valueless]
  have hne : TypeRef.array a ≠ .array b := fun heq => h (TypeRef.array.inj heq)
  rw [← Bool.not_eq_true, isAssignable_of_ne hvalue hne, mem_supertypes r hvalue]
  rintro (hbehind | ⟨-, hobject⟩)
  · -- Only what can be enumerated is behind an array.
    have henumerable : TypeRef.array b = .enumerable a := by simpa [behind] using hbehind
    cases henumerable
  · cases hobject

/-- **Arrays convert to arrays of the same type only.** -/
theorem Conversion.find?_array (r : Registry) (a b : TypeRef) :
    find? r (.array a) (.array b) = if a = b then some identity else none := by
  -- Arrays are no built-in types, so what is left is a base type.
  have hfind : find? r (.array a) (.array b) = if TypeRef.array a = .array b then some identity
      else upcast? r (.array a) (.array b) := by
    unfold find?
    rfl
  rw [hfind]
  by_cases h : a = b
  · rw [if_pos h, if_pos (congrArg _ h)]
  · rw [if_neg h, if_neg fun heq => h (TypeRef.array.inj heq)]
    unfold upcast?
    rw [r.not_isAssignable_array h]
    rfl

/-! ## §2. Arrangements. -/

namespace Arrangement

/-- The last parameter has its own slot, if no positional argument reaches it. -/
theorem slotsOf_concat {fixed : List Parameter} {last : Parameter} {positional : List Term}
    {named : List NamedArgument} (before : positional.length ≤ fixed.length) :
    slotsOf (fixed ++ [last]) positional named
      = slotsOf fixed positional named ++ [slotFor named last] := by
  have hlength : (fixed ++ [last]).length = fixed.length + 1 := by
    rw [List.length_append, List.length_singleton]
  unfold slotsOf
  rw [List.drop_append_of_le_length before, List.map_append, List.map_singleton,
    List.append_assoc, hlength, List.take_of_length_le before, List.take_of_length_le (by omega)]

end Arrangement

/-! ## §3. What the tail says of its type parameter. -/

/-- **A generic variadic tail**: a type parameter of the method is its element, and no other
parameter mentions it. -/
structure Method.HasGenericTail (m : Method) (fixed : List Parameter) (tail : Parameter)
    (k : Nat) (name : String) : Prop where
  params : m.params = fixed ++ [tail]
  variadic : tail.variadic = true
  array : tail.type = .array (.methodParam k name)
  index : k < m.typeParams.length
  apart : ∀ p ∈ fixed, p.type.mentionsAt .method k = false

/-- **The parameter becomes the type of the argument** at the tail, when nothing before it
mentions the parameter. -/
theorem InferredArgs.matchTypes_tail {r : Registry} {k : Nat} {name : String}
    {ds as : List TypeRef} {a : TypeRef} (apart : ∀ d ∈ ds, d.mentionsAt .method k = false)
    (reached : ds.length = as.length) (telling : isSilent a = false) :
    matchTypes r k (ds ++ [.methodParam k name]) (as ++ [a]) = some a := by
  have hsilent : TypeRef.mentionsAtAny .method k ds = false := by
    rw [TypeRef.mentionsAtAny_eq_any, List.any_eq_false]
    exact fun d hd => Bool.not_eq_true _ ▸ apart d hd
  rw [matchTypes_append reached, matchTypes_of_not_mentionsAt hsilent, matchTypes, telling,
    if_neg Bool.false_ne_true, matchType_param]
  rfl

namespace Method.HasGenericTail

variable {r : Registry} {m : Method} {fixed : List Parameter} {tail : Parameter} {k : Nat}
  {name : String} {t : Term} {element : TypeRef}

theorem hasTail (h : m.HasGenericTail fixed tail k name) : m.hasTail = true := by
  rw [Method.hasTail, h.params, List.getLast?_concat, Option.any_some, h.variadic]

theorem isGeneric (h : m.HasGenericTail fixed tail k name) : m.isGeneric = true := by
  have hindex := h.index
  cases hparams : m.typeParams with
  | nil => simp [hparams] at hindex
  | cons _ _ => simp [Method.isGeneric, hparams]

/-- Inference reads the type parameter itself in place of the tail. -/
theorem inferenceTypes (h : m.HasGenericTail fixed tail k name) : Candidate.inferenceTypes m
    = fixed.map Parameter.type ++ [.methodParam k name] := by
  have hsignature : m.signature = fixed.map Parameter.type ++ [.array (.methodParam k name)] := by
    rw [Method.signature, h.params, List.map_append, List.map_singleton, h.array]
  rw [Candidate.inferenceTypes, hsignature, h.hasTail, if_pos rfl, List.dropLast_concat,
    List.getLast?_concat]
  rfl

/-- **The type parameter is closed to the type of the array itself.** -/
theorem closeOver?_eq_some_iff (h : m.HasGenericTail fixed tail k name) {slots : List Slot}
    (reached : slots.length = fixed.length) (given : t.type = .array element)
    {closed : Method} {inferred : Nat} :
    Candidate.closeOver? r m [] (slots ++ [.value t]) = some (closed, inferred) ↔
      ∃ args, InferredArgs.of? r m.typeParams.length []
          (fixed.map Parameter.type ++ [.methodParam k name])
          (slots.map Candidate.slotType ++ [t.type]) = some ⟨args, inferred⟩
        ∧ args[k]? = some t.type ∧ closed = m.close args := by
  have hslots : (slots ++ [Slot.value t]).map Candidate.slotType
      = slots.map Candidate.slotType ++ [t.type] := by
    rw [List.map_append]
    rfl
  have htail : InferredArgs.matchTypes r k (fixed.map Parameter.type ++ [.methodParam k name])
      (slots.map Candidate.slotType ++ [t.type]) = some t.type := by
    refine InferredArgs.matchTypes_tail (List.forall_mem_map.2 h.apart) ?_ ?_
    · rw [List.length_map, List.length_map, reached]
    · rw [given]
      rfl
  rw [Candidate.closeOver?, h.isGeneric, if_pos rfl, h.inferenceTypes, hslots,
    Option.map_eq_some_iff]
  constructor
  · rintro ⟨⟨args, inferred'⟩, hfound, heq⟩
    cases heq
    obtain ⟨-, -, hall⟩ := InferredArgs.of?_nil_eq_some_iff.1 hfound
    exact ⟨args, hfound, (hall k h.index).symm.trans htail, rfl⟩
  · rintro ⟨args, hfound, -, rfl⟩
    exact ⟨_, hfound, rfl⟩

/-- Closing the method closes each parameter by itself. -/
theorem params_close (h : m.HasGenericTail fixed tail k name) (args : List TypeRef) :
    (m.close args).params
      = fixed.map (Parameter.substitute .method args) ++ [tail.substitute .method args] := by
  show m.params.map (Parameter.substitute .method args) = _
  rw [h.params, List.map_append, List.map_singleton]

/-- The tail is closed to arrays of what stands for its type parameter. -/
theorem type_substitute (h : m.HasGenericTail fixed tail k name) {args : List TypeRef}
    (harg : args[k]? = some element) :
    (tail.substitute .method args).type = .array element := by
  show tail.type.substitute .method args = .array element
  rw [h.array, TypeRef.substitute, TypeRef.substitute, if_pos rfl, harg]
  rfl

end Method.HasGenericTail

namespace Candidate

variable {r : Registry} {m : Method} {fixed : List Parameter} {tail : Parameter}
  {front : List Term} {t : Term} {element : TypeRef} {k : Nat} {name : String}

/-! ## §4. The array at the tail. -/

/-- **The array is the only item of a new one**, at the last position of a tail that is closed to
arrays of its type. -/
theorem fillSlot?_arrayTail (array : tail.type = .array (.array element))
    (given : t.type = .array element) :
    fillSlot? r ⟨front ++ [t], true, front.length + 1⟩ front.length (.value t) tail
      = some (.newArray t.type [t], 0) := by
  have hapart : passesThrough r t tail = false := by
    unfold passesThrough
    rw [array, given, Conversion.find?_array, if_neg (TypeRef.ne_array_self element)]
    rfl
  have hcollects : Supply.collects ⟨front ++ [t], true, front.length + 1⟩ r front.length t tail
      = true := by
    unfold Supply.collects
    rw [hapart, Bool.and_false]
    simp
  have helement : tailElement tail = t.type := by
    rw [tailElement, array, given]
    rfl
  have hitem : convertArg? r t t.type = some (t, 0) := by
    rw [convertArg?, Conversion.find?_self]
    rfl
  rw [fillSlot?, hcollects, if_pos rfl, List.drop_left, helement, convertItems?, hitem]
  rfl

/-- **By its name the array cannot be given**: it would have to convert to an array of itself. -/
theorem fillSlot?_arrayTail_named {s : Supply} {i : Nat} (beyond : s.positional.length ≤ i)
    (array : tail.type = .array (.array element)) (given : t.type = .array element) :
    fillSlot? r s i (.value t) tail = none := by
  have hsingle : s.collects r i t tail = false := by
    unfold Supply.collects
    rw [decide_eq_false (Nat.not_lt.2 beyond), Bool.and_false, Bool.false_and]
  rw [fillSlot?_of_not_collects hsingle, convertArg?, array, given, Conversion.find?_array,
    if_neg (TypeRef.ne_array_self element)]
  rfl

/-- There are no arguments when there is none for the last parameter. -/
theorem fillSlots?_eq_none {s : Supply} {slot : Slot} {p : Parameter} :
    ∀ {slots : List Slot} {ps : List Parameter} {i : Nat}, slots.length = ps.length →
      fillSlot? r s (i + ps.length) slot p = none →
      fillSlots? r s i (slots ++ [slot]) (ps ++ [p]) = none
  | [], [], i, _, hlast => by
      have hfirst : fillSlot? r s i slot p = none := hlast
      rw [List.nil_append, List.nil_append, fillSlots?, hfirst]
      rfl
  | first :: slots, q :: ps, i, hlength, hlast => by
      have hrest : fillSlots? r s (i + 1) (slots ++ [slot]) (ps ++ [p]) = none := by
        refine fillSlots?_eq_none (Nat.succ.inj hlength) ?_
        rw [Nat.succ_add_eq_add_succ]
        exact hlast
      rw [List.cons_append, List.cons_append, fillSlots?, hrest]
      cases fillSlot? r s i first q <;> rfl

/-! ## §5. Candidates. -/

/-- Arguments in front of the array are converted to the closed types of the fixed parameters. -/
theorem fillSlots?_genericTail (h : m.HasGenericTail fixed tail k name)
    (given : t.type = .array element) (reached : front.length = fixed.length)
    {args : List TypeRef} (harg : args[k]? = some t.type) {filled : List Term × Nat} :
    fillSlots? r ⟨front ++ [t], true, front.length + 1⟩ 0 (front.map .value ++ [.value t])
        (m.close args).params = some filled ↔
      ∃ firsts,
        Converted r (askedFor front (fixed.map (Parameter.substitute .method args))) firsts
        ∧ filled = (firsts ++ [.newArray t.type [t]],
          changes r (askedFor front (fixed.map (Parameter.substitute .method args)))) := by
  have htail : (tail.substitute .method args).type = .array (.array element) := by
    rw [← given]
    exact h.type_substitute harg
  have hfront : front.length = (fixed.map (Parameter.substitute .method args)).length := by
    rw [List.length_map, reached]
  have hposition : 0 + (fixed.map (Parameter.substitute .method args)).length = front.length := by
    omega
  obtain ⟨out, casts⟩ := filled
  rw [h.params_close, fillSlots?_front hfront (congrArg (· + 1) hposition), hposition,
    fillSlot?_arrayTail htail given]
  constructor
  · rintro ⟨firsts, last, n, hfirsts, hlast, rfl, rfl⟩
    cases hlast
    exact ⟨firsts, hfirsts, rfl⟩
  · rintro ⟨firsts, hfirsts, heq⟩
    cases heq
    exact ⟨firsts, _, _, hfirsts, rfl, rfl, rfl⟩

/-- At its position the array is collected, and its type is what its items are. -/
theorem of?_genericTail_positional (h : m.HasGenericTail fixed tail k name)
    (given : t.type = .array element) (reached : front.length = fixed.length) {c : Candidate} :
    of? r m [] (front ++ [t]) [] = some c ↔
      ∃ args firsts, InferredArgs.of? r m.typeParams.length []
          (fixed.map Parameter.type ++ [.methodParam k name]) (front.map Term.type ++ [t.type])
          = some ⟨args, m.typeParams.length⟩
        ∧ args[k]? = some t.type
        ∧ Converted r (askedFor front (fixed.map (Parameter.substitute .method args))) firsts
        ∧ c = ⟨m.close args, firsts ++ [.newArray t.type [t]],
          changes r (askedFor front (fixed.map (Parameter.substitute .method args))),
          m.typeParams.length⟩ := by
  have hcount : m.params.length = front.length + 1 := by
    rw [h.params, List.length_append, List.length_singleton, reached]
  have harranged : Arrangement.of? m.params (front ++ [t]) []
      = some ⟨front.map .value ++ [.value t], 0⟩ := by
    rw [Arrangement.of?_positional (by rw [hcount, List.length_append, List.length_singleton]),
      List.map_append]
    rfl
  have hslots : (front.map Slot.value).length = fixed.length := by
    rw [List.length_map, reached]
  have htypes : (front.map Slot.value).map slotType = front.map Term.type := by
    rw [List.map_map]
    rfl
  rw [of?_eq_some_iff, h.hasTail, hcount]
  constructor
  · rintro ⟨arrangement, closed, inferred, out, casts, harrangement, hclosed, hfilled, rfl⟩
    obtain rfl := Option.some.inj (harranged.symm.trans harrangement)
    obtain ⟨args, hfound, harg, rfl⟩ := (h.closeOver?_eq_some_iff hslots given).1 hclosed
    obtain ⟨firsts, hfirsts, heq⟩ := (fillSlots?_genericTail h given reached harg).1 hfilled
    obtain ⟨-, rfl, -⟩ := InferredArgs.of?_nil_eq_some_iff.1 hfound
    rw [htypes] at hfound
    cases heq
    rw [Nat.zero_add]
    exact ⟨args, firsts, hfound, harg, hfirsts, rfl⟩
  · rintro ⟨args, firsts, hfound, harg, hfirsts, rfl⟩
    rw [← htypes] at hfound
    refine ⟨_, _, _, _, _, harranged,
      (h.closeOver?_eq_some_iff hslots given).2 ⟨args, hfound, harg, rfl⟩,
      (fillSlots?_genericTail h given reached harg).2 ⟨firsts, hfirsts, rfl⟩, ?_⟩
    rw [Nat.zero_add]

/-- By its name the array cannot be given. -/
theorem of?_genericTail_named (h : m.HasGenericTail fixed tail k name)
    (given : t.type = .array element) {positional : List Term} {named : List NamedArgument}
    {label : String} (before : positional.length ≤ fixed.length)
    (labelled : named.find? (fun a => a.name == tail.name) = some ⟨label, t⟩) :
    of? r m [] positional named = none := by
  refine Option.eq_none_iff_forall_ne_some.2 fun c hc => ?_
  obtain ⟨arrangement, closed, inferred, out, casts, harranged, hclosed, hfilled, -⟩ :=
    of?_eq_some_iff.1 hc
  obtain ⟨-, -, -, rfl⟩ := Arrangement.of?_eq_some_iff.1 harranged
  have hslot : Arrangement.slotFor named tail = .value t := by
    rw [Arrangement.slotFor, labelled]
  have hlength : (Arrangement.slotsOf fixed positional named).length = fixed.length :=
    Arrangement.length_slotsOf
  rw [h.params, Arrangement.slotsOf_concat before, hslot] at hclosed hfilled
  obtain ⟨args, -, harg, rfl⟩ := (h.closeOver?_eq_some_iff hlength given).1 hclosed
  have htail : (tail.substitute .method args).type = .array (.array element) := by
    rw [← given]
    exact h.type_substitute harg
  have hlast : fillSlot? r ⟨positional, m.hasTail, (fixed ++ [tail]).length⟩
      (0 + (fixed.map (Parameter.substitute .method args)).length) (.value t)
      (tail.substitute .method args) = none := by
    refine fillSlot?_arrayTail_named ?_ htail given
    rw [List.length_map, Nat.zero_add]
    exact before
  have hclosedLength : (Arrangement.slotsOf fixed positional named).length
      = (fixed.map (Parameter.substitute .method args)).length := by
    rw [hlength, List.length_map]
  rw [h.params_close, fillSlots?_eq_none hclosedLength hlast] at hfilled
  cases hfilled

/-- **A generic variadic tail does not pass arrays through.**  At its position an array makes the
type parameter of the tail its own type, and is collected as the only item of a new array; by
its name it cannot be given. -/
theorem of?_genericTail (h : m.HasGenericTail fixed tail k name)
    (given : t.type = .array element) :
    (∀ front c, front.length = fixed.length → (of? r m [] (front ++ [t]) [] = some c ↔
        ∃ args firsts, InferredArgs.of? r m.typeParams.length []
            (fixed.map Parameter.type ++ [.methodParam k name]) (front.map Term.type ++ [t.type])
            = some ⟨args, m.typeParams.length⟩
          ∧ args[k]? = some t.type
          ∧ Converted r (askedFor front (fixed.map (Parameter.substitute .method args))) firsts
          ∧ c = ⟨m.close args, firsts ++ [.newArray t.type [t]],
            changes r (askedFor front (fixed.map (Parameter.substitute .method args))),
            m.typeParams.length⟩))
      ∧ ∀ positional named label, positional.length ≤ fixed.length →
        named.find? (fun a => a.name == tail.name) = some ⟨label, t⟩ →
        of? r m [] positional named = none := by
  constructor
  · intro front c reached
    exact of?_genericTail_positional h given reached
  · intro positional named label before labelled
    exact of?_genericTail_named h given before labelled

/-- Any number of values of one type. -/
def gatherMethod : Method :=
  ⟨default, "Gather", .simple "App.Calc", ["T"], [.tail "items" (.methodParam 0 "T")], .int32,
    false, false⟩

/-- The same for whole numbers. -/
def gatherNumbersMethod : Method :=
  ⟨default, "GatherNumbers", .simple "App.Calc", [], [.tail "items" .int32], .int32, false, false⟩

/-- An array of whole numbers. -/
def gatherArray : Term := .parameter "xs" (.array .int32)

theorem gather_hasGenericTail :
    gatherMethod.HasGenericTail [] (.tail "items" (.methodParam 0 "T")) 0 "T" where
  params := rfl
  variadic := rfl
  array := rfl
  index := Nat.zero_lt_one
  apart := nofun

theorem of?_genericTail_gather :
    gatherMethod.HasGenericTail [] (.tail "items" (.methodParam 0 "T")) 0 "T"
      ∧ gatherArray.type = .array .int32
      ∧ of? Builtins.registry gatherMethod [] [gatherArray] []
        = some ⟨gatherMethod.close [.array .int32], [.newArray (.array .int32) [gatherArray]], 0, 1⟩
      ∧ of? Builtins.registry gatherMethod [] [] [⟨"items", gatherArray⟩] = none := by
  have h := gather_hasGenericTail
  have given : gatherArray.type = .array .int32 := rfl
  refine ⟨h, given, ?_, (of?_genericTail h given).2 [] _ "items" (Nat.le_refl 0) rfl⟩
  exact ((of?_genericTail h given).1 [] _ rfl).2
    ⟨[.array .int32], [], rfl, rfl, .nil, rfl⟩

/-- **The array is not passed through**, as it is where the element of the tail is its own. -/
theorem not_passed_gather :
    (of? Builtins.registry gatherMethod [] [gatherArray] []).map Candidate.args
        = some [.newArray (.array .int32) [gatherArray]]
      ∧ (of? Builtins.registry gatherMethod [] [gatherArray] []).map Candidate.args
        ≠ some [gatherArray]
      ∧ (of? Builtins.registry gatherNumbersMethod [] [gatherArray] []).map Candidate.args
        = some [gatherArray] := by
  have hcollected : (of? Builtins.registry gatherMethod [] [gatherArray] []).map Candidate.args
      = some [.newArray (.array .int32) [gatherArray]] := rfl
  refine ⟨hcollected, ?_, rfl⟩
  rw [hcollected]
  intro h
  cases h

end Candidate

end BoundMarkup
