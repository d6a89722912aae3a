/-
  BoundMarkup.Proofs.Term.Arranging
  ─────────────────────────────────
  **WHERE EACH ARGUMENT GOES.**

  The rule that arguments are meant to fit by is `Arrangement.Fits`: named
  arguments fill parameters that no positional argument reaches, and what is
  left has a default or is a variadic tail.  Main statements, for parameters
  of different names:

    • an arrangement puts every argument where it belongs, each once
      (`Arrangement.placed_of?`),
    • arguments that fit are arranged, unless the method has a tail and named
      arguments stand for fixed parameters without a default
      (`Arrangement.isSome_of?_iff`): such parameters are counted before named
      arguments are looked at (`Arrangement.not_isSome_of?_labelled`).
-/
import BoundMarkup.Term.Arguments
import Mathlib.Data.List.Nodup
import Mathlib.Data.List.Perm.Subperm

namespace BoundMarkup

/-- The slot takes a default. -/
def Slot.isDefault : Slot → Bool
  | .default _ => true
  | _ => false

namespace Arrangement

/-! ## §1. Parameters that no positional argument reaches. -/

section Rest

variable (named : List NamedArgument)

/-- An argument of the parameter's name is there. -/
def isNamed (p : Parameter) : Bool := decide (p.name ∈ named.map NamedArgument.name)

/-- The parameter takes its default, for lack of an argument of its name. -/
def takesDefault (p : Parameter) : Bool := !isNamed named p && p.default?.isSome

/-- The parameter has an argument of its name, or else a default. -/
def isProvided (p : Parameter) : Bool := isNamed named p || p.default?.isSome

/-- What fills the parameter: the argument of its name, else its default, else nothing. -/
def slotFor (p : Parameter) : Slot :=
  match named.find? (fun a => a.name == p.name), p.default? with
  | some a, _ => .value a.value
  | none, some value => .default value
  | none, none => .emptyTail

/-- All parameters are provided for, but for a variadic one at the end. -/
def Suffices (params : List Parameter) : Prop :=
  (∀ p ∈ params.dropLast, isProvided named p = true)
    ∧ ∀ p ∈ params.getLast?, isProvided named p = true ∨ p.variadic = true

end Rest

variable {params : List Parameter} {positional : List Term} {named : List NamedArgument}
  {p : Parameter}

theorem isNamed_iff : isNamed named p = true ↔ ∃ a ∈ named, a.name = p.name := by
  rw [isNamed, decide_eq_true_iff, List.mem_map]

/-- Looking for the argument of a name finds one just if there is one. -/
theorem find?_isSome : (named.find? (fun a => a.name == p.name)).isSome = isNamed named p := by
  rw [Bool.eq_iff_iff, isNamed_iff, List.find?_isSome]
  simp only [beq_iff_eq]

/-- What is found has the name. -/
theorem of_find?_eq_some {a : NamedArgument}
    (h : named.find? (fun a => a.name == p.name) = some a) : a ∈ named ∧ a.name = p.name :=
  ⟨List.mem_of_find?_eq_some h, by simpa using List.find?_some h⟩

/-- A parameter that is provided for has its slot, and the others are arranged after it. -/
theorem rest_cons_of_isProvided {ps : List Parameter} (h : isProvided named p = true) :
    rest named (p :: ps) = (rest named ps).map (fun (slots, defaults, used) =>
      (slotFor named p :: slots, defaults + (takesDefault named p).toNat,
        used + (isNamed named p).toNat)) := by
  have hfound : (named.find? (fun a => a.name == p.name)).isSome = isNamed named p := find?_isSome
  rw [rest, slotFor, takesDefault]
  cases hfind : named.find? (fun a => a.name == p.name) with
  | some a =>
      rw [hfind] at hfound
      rw [← hfound]
      rfl
  | none =>
      rw [hfind] at hfound
      rw [isProvided, ← hfound] at h
      obtain ⟨value, hvalue⟩ := Option.isSome_iff_exists.1 h
      rw [← hfound, hvalue]
      rfl

/-- Any other parameter has to be the variadic one at the end. -/
theorem rest_cons_of_not_isProvided {ps : List Parameter} (h : isProvided named p = false) :
    rest named (p :: ps) =
      if p.variadic && ps.isEmpty then some ([slotFor named p], 0, 0) else none := by
  obtain ⟨hnamed, hdefault⟩ := Bool.or_eq_false_iff.1 h
  have hfind : named.find? (fun a => a.name == p.name) = none := by
    rw [← Option.isNone_iff_eq_none, ← Option.not_isSome, find?_isSome, hnamed, Bool.not_false]
  have hnone : p.default? = none := by
    rw [← Option.isNone_iff_eq_none, ← Option.not_isSome, hdefault, Bool.not_false]
  rw [rest, slotFor, hfind, hnone]

theorem suffices_nil : Suffices named [] := ⟨nofun, nofun⟩

/-- The last of several parameters is the last of those after the first. -/
theorem suffices_cons {q : Parameter} {ps : List Parameter} :
    Suffices named (p :: q :: ps) ↔ isProvided named p = true ∧ Suffices named (q :: ps) := by
  unfold Suffices
  rw [List.dropLast_cons_cons, List.getLast?_cons_cons, List.forall_mem_cons, and_assoc]

theorem suffices_singleton :
    Suffices named [p] ↔ isProvided named p = true ∨ p.variadic = true := by
  simp [Suffices]

/-- What the slots, the defaults and the uses of the parameters come to. -/
def summary (named : List NamedArgument) (params : List Parameter) : List Slot × Nat × Nat :=
  (params.map (slotFor named), params.countP (takesDefault named), params.countP (isNamed named))

theorem summary_cons {ps : List Parameter} : summary named (p :: ps) =
    (slotFor named p :: ps.map (slotFor named),
      ps.countP (takesDefault named) + (takesDefault named p).toNat,
      ps.countP (isNamed named) + (isNamed named p).toNat) := by
  unfold summary
  rw [List.map_cons, List.countP_cons, List.countP_cons]
  cases takesDefault named p <;> cases isNamed named p <;> rfl

/-- **The rest of the parameters**, if they suffice, come to what each of them is by itself. -/
theorem rest_eq_some_iff {out : List Slot × Nat × Nat} :
    rest named params = some out ↔ Suffices named params ∧ out = summary named params := by
  induction params generalizing out with
  | nil =>
      rw [and_iff_right suffices_nil, rest, Option.some.injEq]
      exact eq_comm
  | cons p ps ih =>
      cases hprovided : isProvided named p with
      | true =>
          have htail : Suffices named (p :: ps) ↔ Suffices named ps := by
            cases ps with
            | nil => exact iff_of_true (suffices_singleton.2 (.inl hprovided)) suffices_nil
            | cons q qs => rw [suffices_cons, and_iff_right hprovided]
          rw [rest_cons_of_isProvided hprovided, Option.map_eq_some_iff, htail, summary_cons]
          constructor
          · rintro ⟨mid, hmid, rfl⟩
            obtain ⟨hsuffices, rfl⟩ := ih.1 hmid
            exact ⟨hsuffices, rfl⟩
          · rintro ⟨hsuffices, rfl⟩
            exact ⟨summary named ps, ih.2 ⟨hsuffices, rfl⟩, rfl⟩
      | false =>
          rw [rest_cons_of_not_isProvided hprovided]
          cases ps with
          | nil =>
              obtain ⟨hnamed, hdefault⟩ := Bool.or_eq_false_iff.1 hprovided
              have hsummary : summary named [p] = ([slotFor named p], 0, 0) := by
                rw [summary_cons, takesDefault, hnamed, hdefault]
                rfl
              rw [suffices_singleton, hprovided, hsummary]
              cases p.variadic <;> simp [eq_comm]
          | cons q qs =>
              rw [suffices_cons, hprovided]
              simp

/-! ## §2. Every named argument is used. -/

/-- **As many parameters are named as there are named arguments** just if these have different
names, each that of a parameter. -/
theorem countP_isNamed_eq_length_iff (names : (params.map Parameter.name).Nodup) :
    params.countP (isNamed named) = named.length ↔
      (named.map NamedArgument.name).Nodup ∧ ∀ a ∈ named, ∃ p ∈ params, p.name = a.name := by
  let given : List String := named.map NamedArgument.name
  let used : List String := (params.map Parameter.name).filter (fun n => decide (n ∈ given))
  have hcount : params.countP (isNamed named) = used.length := by
    rw [← List.countP_eq_length_filter, List.countP_map]
    rfl
  have hlength : named.length = given.length := (List.length_map _).symm
  have hnodup : used.Nodup := names.filter _
  have hsubset : used ⊆ given := fun n hn => of_decide_eq_true (List.mem_filter.1 hn).2
  have hmem : (∀ a ∈ named, ∃ p ∈ params, p.name = a.name) ↔ given ⊆ used := by
    constructor
    · intro hknown n hn
      obtain ⟨a, ha, rfl⟩ := List.mem_map.1 hn
      obtain ⟨p, hp, hname⟩ := hknown a ha
      exact List.mem_filter.2 ⟨List.mem_map.2 ⟨p, hp, hname⟩, decide_eq_true hn⟩
    · intro hused a ha
      have ha' : a.name ∈ used := hused (List.mem_map_of_mem ha)
      obtain ⟨p, hp, hname⟩ := List.mem_map.1 (List.mem_filter.1 ha').1
      exact ⟨p, hp, hname⟩
  rw [hcount, hlength, hmem]
  constructor
  · intro heq
    -- The names used are among those given, and as many.
    have hperm : used.Perm given :=
      (hnodup.subperm hsubset).perm_of_length_le (Nat.le_of_eq heq.symm)
    exact ⟨hperm.nodup_iff.1 hnodup, hperm.symm.subset⟩
  · rintro ⟨hgiven, hused⟩
    have hperm : used.Perm given :=
      (List.perm_ext_iff_of_nodup hnodup hgiven).2 fun n => ⟨@hsubset n, @hused n⟩
    exact hperm.length_eq

/-- The slots of all parameters: positional arguments, then what the others are filled with. -/
def slotsOf (params : List Parameter) (positional : List Term) (named : List NamedArgument) :
    List Slot :=
  (positional.take params.length).map .value
    ++ (params.drop positional.length).map (slotFor named)

/-- **When arguments are arranged, and how.** -/
theorem of?_eq_some_iff {arrangement : Arrangement} :
    of? params positional named = some arrangement ↔
      countFits params positional.length = true
        ∧ Suffices named (params.drop positional.length)
        ∧ (params.drop positional.length).countP (isNamed named) = named.length
        ∧ arrangement = ⟨slotsOf params positional named,
          (params.drop positional.length).countP (takesDefault named)⟩ := by
  unfold of?
  split
  · rename_i hcount
    rw [and_iff_right hcount, Option.bind_eq_some_iff]
    constructor
    · rintro ⟨⟨slots, defaults, used⟩, hrest, h⟩
      simp only at h
      split at h
      · rename_i hused
        obtain ⟨hsuffices, heq⟩ := rest_eq_some_iff.1 hrest
        cases heq
        exact ⟨hsuffices, hused, (Option.some.inj h).symm⟩
      · cases h
    · rintro ⟨hsuffices, hused, rfl⟩
      exact ⟨summary named _, rest_eq_some_iff.2 ⟨hsuffices, rfl⟩, if_pos hused⟩
  · rename_i hcount
    exact iff_of_false nofun fun h => hcount h.1

/-- Arguments at all positions are arranged in their order. -/
theorem of?_positional (reached : positional.length = params.length) :
    of? params positional [] = some ⟨positional.map .value, 0⟩ := by
  have hcount : countFits params positional.length = true := by
    unfold countFits
    split
    · exact Bool.or_eq_true_iff.2 (.inl (decide_eq_true (by omega)))
    · exact decide_eq_true (by omega)
  have hnone : params.drop positional.length = [] := List.drop_eq_nil_of_le (by omega)
  rw [of?_eq_some_iff, hnone, slotsOf, hnone, List.take_of_length_le (by omega), List.map_nil,
    List.append_nil]
  exact ⟨hcount, suffices_nil, rfl, rfl⟩

/-! ## §3. Arguments in their places. -/

/-- What a parameter is due that no positional argument reaches. -/
inductive Due (named : List NamedArgument) (p : Parameter) (isLast : Prop) : Slot → Prop where
  | named {a : NamedArgument} (given : a ∈ named) (name : a.name = p.name) :
      Due named p isLast (.value a.value)
  | default {value : Constant} (unnamed : ∀ a ∈ named, a.name ≠ p.name)
      (default : p.default? = some value) : Due named p isLast (.default value)
  /-- Nothing is left but an empty tail. -/
  | emptyTail (unnamed : ∀ a ∈ named, a.name ≠ p.name) (default : p.default? = none)
      (variadic : p.variadic = true) (last : isLast) : Due named p isLast .emptyTail

/-- **Each argument is in its place.** -/
structure Placed (params : List Parameter) (positional : List Term)
    (named : List NamedArgument) (arrangement : Arrangement) : Prop where
  /-- There is one slot for each parameter. -/
  length : arrangement.slots.length = params.length
  front : ∀ (i : Nat) (t : Term), positional[i]? = some t → i < params.length →
    arrangement.slots[i]? = some (.value t)
  later : ∀ (i : Nat) (p : Parameter), positional.length ≤ i → params[i]? = some p →
    ∃ slot, arrangement.slots[i]? = some slot ∧ Due named p (i + 1 = params.length) slot
  /-- A named argument fills one parameter, that of its name. -/
  once : ∀ a ∈ named, ∃! i : Nat, positional.length ≤ i
    ∧ (∃ p, params[i]? = some p ∧ p.name = a.name) ∧ arrangement.slots[i]? = some (.value a.value)
  distinct : (named.map NamedArgument.name).Nodup
  /-- No named argument is for a parameter that has a positional one. -/
  apart : ∀ a ∈ named, ∀ p ∈ params.take positional.length, p.name ≠ a.name
  surplus : params.length < positional.length → hasTail params = true
  defaults : arrangement.defaults = arrangement.slots.countP Slot.isDefault

/-- Where the parameters suffice, each has what it is due. -/
theorem due_slotFor {i : Nat} (h : Suffices named params) (hp : params[i]? = some p) :
    Due named p (i + 1 = params.length) (slotFor named p) := by
  have hi : i < params.length := (List.getElem?_eq_some_iff.1 hp).1
  rw [slotFor]
  cases hfind : named.find? (fun a => a.name == p.name) with
  | some a => exact .named (of_find?_eq_some hfind).1 (of_find?_eq_some hfind).2
  | none =>
      have unnamed : ∀ a ∈ named, a.name ≠ p.name := by
        intro a ha hname
        exact List.find?_eq_none.1 hfind a ha (beq_iff_eq.2 hname)
      cases hdefault : p.default? with
      | some value => exact .default unnamed hdefault
      | none =>
          have hprovided : ¬ isProvided named p = true := by
            rw [isProvided, ← find?_isSome, hfind, hdefault]
            exact Bool.false_ne_true
          -- So the parameter is not one of those before the last.
          by_cases hlast : i + 1 = params.length
          · have hmem : p ∈ params.getLast? := by
              rw [List.getLast?_eq_getElem?, ← hlast]
              exact hp
            exact .emptyTail unnamed hdefault ((h.2 p hmem).resolve_left hprovided) hlast
          · have hmem : p ∈ params.dropLast := by
              refine List.mem_of_getElem? (i := i) ?_
              rw [List.getElem?_dropLast, if_pos (by omega)]
              exact hp
            exact absurd (h.1 p hmem) hprovided

/-- The argument of a name is found, if no other has the name. -/
theorem slotFor_of_mem (distinct : (named.map NamedArgument.name).Nodup) {a : NamedArgument}
    (ha : a ∈ named) (hname : p.name = a.name) : slotFor named p = .value a.value := by
  have hfound : named.find? (fun b => b.name == p.name) = some a := by
    obtain ⟨b, hb⟩ := Option.isSome_iff_exists.1
      (find?_isSome.trans (isNamed_iff.2 ⟨a, ha, hname.symm⟩))
    obtain ⟨hmem, hsame⟩ := of_find?_eq_some hb
    rw [hb, List.inj_on_of_nodup_map distinct hmem ha (hsame.trans hname)]
  rw [slotFor, hfound]

/-- A parameter takes its default just if that is its slot. -/
theorem isDefault_slotFor : (slotFor named p).isDefault = takesDefault named p := by
  rw [slotFor, takesDefault, ← find?_isSome]
  cases named.find? (fun a => a.name == p.name) <;> cases p.default? <;> rfl

section Slots

variable {i : Nat}

theorem length_slotsOf : (slotsOf params positional named).length = params.length := by
  unfold slotsOf
  rw [List.length_append, List.length_map, List.length_map, List.length_take, List.length_drop]
  omega

/-- Positional arguments come first. -/
theorem getElem?_slotsOf_front {t : Term} (ht : positional[i]? = some t)
    (hi : i < params.length) : (slotsOf params positional named)[i]? = some (.value t) := by
  have hlt : i < ((positional.take params.length).map Slot.value).length := by
    have := (List.getElem?_eq_some_iff.1 ht).1
    rw [List.length_map, List.length_take]
    omega
  unfold slotsOf
  rw [List.getElem?_append_left hlt, List.getElem?_map, List.getElem?_take_of_lt hi, ht]
  rfl

/-- A parameter beyond the positional arguments, counted from there. -/
theorem getElem?_drop_of_le {n : Nat} (hi : n ≤ i) (hp : params[i]? = some p) :
    (params.drop n)[i - n]? = some p := by
  rw [List.getElem?_drop, Nat.add_sub_cancel' hi]
  exact hp

/-- The slots of the other parameters come after them. -/
theorem getElem?_slotsOf_later (hi : positional.length ≤ i) (hp : params[i]? = some p) :
    (slotsOf params positional named)[i]? = some (slotFor named p) := by
  have hlt : i < params.length := (List.getElem?_eq_some_iff.1 hp).1
  have hlength : ((positional.take params.length).map Slot.value).length = positional.length := by
    rw [List.length_map, List.length_take]
    omega
  unfold slotsOf
  rw [List.getElem?_append_right (by omega), hlength, List.getElem?_map,
    getElem?_drop_of_le hi hp]
  rfl

/-- Defaults are taken only by parameters that no positional argument reaches. -/
theorem countP_isDefault_slotsOf : (slotsOf params positional named).countP Slot.isDefault
    = (params.drop positional.length).countP (takesDefault named) := by
  have hfront : ((positional.take params.length).map Slot.value).countP Slot.isDefault = 0 := by
    rw [List.countP_map]
    exact List.countP_eq_zero.2 fun t _ => Bool.false_ne_true
  have hrest : ((params.drop positional.length).map (slotFor named)).countP Slot.isDefault
      = (params.drop positional.length).countP (takesDefault named) := by
    rw [List.countP_map]
    exact List.countP_congr fun p _ => by rw [Function.comp_apply, isDefault_slotFor]
  unfold slotsOf
  rw [List.countP_append, hfront, hrest, Nat.zero_add]

/-- **A named argument fills one parameter**, that of its name. -/
theorem existsUnique_slot (names : (params.map Parameter.name).Nodup)
    (distinct : (named.map NamedArgument.name).Nodup) {a : NamedArgument} (ha : a ∈ named)
    (hp : p ∈ params.drop positional.length) (hname : p.name = a.name) :
    ∃! i : Nat, positional.length ≤ i ∧ (∃ p, params[i]? = some p ∧ p.name = a.name)
      ∧ (slotsOf params positional named)[i]? = some (.value a.value) := by
  obtain ⟨k, hk⟩ := List.getElem?_of_mem hp
  rw [List.getElem?_drop] at hk
  refine ⟨positional.length + k, ⟨Nat.le_add_right _ _, ⟨p, hk, hname⟩, ?_⟩, ?_⟩
  · rw [getElem?_slotsOf_later (Nat.le_add_right _ _) hk, slotFor_of_mem distinct ha hname]
  · intro i ⟨_, ⟨q, hq, hqname⟩, _⟩
    -- Two parameters of one name are the same.
    have hsame : (params.map Parameter.name)[i]?
        = (params.map Parameter.name)[positional.length + k]? := by
      rw [List.getElem?_map, List.getElem?_map, hq, hk]
      exact congrArg some (hqname.trans hname.symm)
    have hlt : i < (params.map Parameter.name).length := by
      rw [List.length_map]
      exact (List.getElem?_eq_some_iff.1 hq).1
    exact (List.getElem?_inj hlt names).1 hsame

end Slots

/-- No parameter before a count has the name of one after it. -/
theorem name_ne_of_mem_drop (names : (params.map Parameter.name).Nodup) {n : Nat} {q : Parameter}
    (hp : p ∈ params.take n) (hq : q ∈ params.drop n) : p.name ≠ q.name := by
  have hsplit : ((params.take n).map Parameter.name
      ++ (params.drop n).map Parameter.name).Nodup := by
    rwa [← List.map_append, List.take_append_drop]
  exact (List.nodup_append.1 hsplit).2.2 _ (List.mem_map_of_mem hp) _ (List.mem_map_of_mem hq)

theorem nodup_names_drop (names : (params.map Parameter.name).Nodup) (n : Nat) :
    ((params.drop n).map Parameter.name).Nodup := by
  rw [List.map_drop]
  exact names.sublist (List.drop_sublist _ _)

/-- **Arguments that are arranged are in their places.** -/
theorem placed_of? (names : (params.map Parameter.name).Nodup) {arrangement : Arrangement}
    (arranged : of? params positional named = some arrangement) :
    Placed params positional named arrangement := by
  obtain ⟨hcount, hsuffices, hused, rfl⟩ := of?_eq_some_iff.1 arranged
  obtain ⟨hdistinct, hknown⟩ :=
    (countP_isNamed_eq_length_iff (nodup_names_drop names positional.length)).1 hused
  constructor
  case length => exact length_slotsOf
  case front => exact fun i t ht hi => getElem?_slotsOf_front ht hi
  case later =>
    intro i p hi hp
    have hlt : i < params.length := (List.getElem?_eq_some_iff.1 hp).1
    have hdue := due_slotFor hsuffices (getElem?_drop_of_le hi hp)
    have hlast : i - positional.length + 1 = (params.drop positional.length).length
        ↔ i + 1 = params.length := by
      rw [List.length_drop]
      omega
    rw [propext hlast] at hdue
    exact ⟨_, getElem?_slotsOf_later hi hp, hdue⟩
  case once =>
    intro a ha
    obtain ⟨p, hp, hname⟩ := hknown a ha
    exact existsUnique_slot names hdistinct ha hp hname
  case distinct => exact hdistinct
  case apart =>
    intro a ha p hp hname
    obtain ⟨q, hq, hqname⟩ := hknown a ha
    exact name_ne_of_mem_drop names hp hq (hname.trans hqname.symm)
  case surplus =>
    intro hmore
    by_contra htail
    rw [countFits, if_neg htail, decide_eq_true_iff] at hcount
    omega
  case defaults => exact countP_isDefault_slotsOf.symm

/-- Text that is filled up to a width, ten if nothing else is said. -/
def padParams : List Parameter :=
  [.required "text" .string, .optional "width" .int32 (.int 10), .required "fill" .char]

def padText : List Term := [.literal (.string "a")]

def padFill : List NamedArgument := [⟨"fill", .literal (.char '.')⟩]

/-- The width in the middle takes its default. -/
theorem placed_of?_pad : (padParams.map Parameter.name).Nodup
    ∧ of? padParams padText padFill = some ⟨[.value (.literal (.string "a")),
      .default (.int 10), .value (.literal (.char '.'))], 1⟩
    ∧ Placed padParams padText padFill ⟨[.value (.literal (.string "a")),
      .default (.int 10), .value (.literal (.char '.'))], 1⟩ :=
  ⟨by decide, rfl, placed_of? (by decide) rfl⟩

/-! ## §4. Arguments that fit. -/

/-- **The rule for arguments that fit.** -/
structure Fits (params : List Parameter) (positional : List Term) (named : List NamedArgument) :
    Prop where
  /-- Only a tail takes arguments beyond the parameters. -/
  count : positional.length ≤ params.length ∨ hasTail params = true
  distinct : (named.map NamedArgument.name).Nodup
  /-- A named argument is for a parameter that no positional argument reaches. -/
  known : ∀ a ∈ named, ∃ p ∈ params.drop positional.length, p.name = a.name
  /-- What is left has a default, or is a tail. -/
  provided : ∀ p ∈ params.drop positional.length, (∀ a ∈ named, a.name ≠ p.name) →
    p.default?.isSome = true ∨ p.variadic = true

/-- The fixed parameters without a default that `count` positional arguments do not reach. -/
def unreached (params : List Parameter) (count : Nat) : List Parameter :=
  (params.dropLast.drop count).filter (fun p => p.default?.isNone)

/-- How many of them a variadic method lets pass: one if the tail itself has a default. -/
def allowance (params : List Parameter) : Nat :=
  (params.getLast?.bind Parameter.default?).toList.length

/-- Where only the last parameter may be a tail, the ones left suffice if each has something. -/
theorem suffices_drop_iff (tail : ∀ p ∈ params.dropLast, p.variadic = false) (n : Nat) :
    Suffices named (params.drop n) ↔
      ∀ p ∈ params.drop n, isProvided named p = true ∨ p.variadic = true := by
  rcases List.eq_nil_or_concat params with rfl | ⟨ps, t, rfl⟩
  · rw [List.drop_nil]
    exact iff_of_true suffices_nil nofun
  · rw [List.concat_eq_append, List.dropLast_concat] at tail
    rw [List.concat_eq_append]
    by_cases hn : n ≤ ps.length
    · rw [List.drop_append_of_le_length hn]
      unfold Suffices
      rw [List.dropLast_concat, List.getLast?_concat, List.forall_mem_append]
      refine and_congr (forall₂_congr fun p hp => ?_) (by simp)
      rw [tail p (List.mem_of_mem_drop hp)]
      simp
    · rw [List.drop_eq_nil_of_le (by rw [List.length_append, List.length_singleton]; omega)]
      exact iff_of_true suffices_nil nofun

/-- **The count of positional arguments** leaves no more fixed parameters of a variadic method
than may pass.  It does not know of named arguments. -/
theorem countFits_iff {count : Nat} : countFits params count = true ↔
    (count ≤ params.length ∨ hasTail params = true)
      ∧ (hasTail params = true → (unreached params count).length ≤ allowance params) := by
  unfold countFits
  cases htail : hasTail params with
  | false => simp
  | true =>
      rcases List.eq_nil_or_concat params with rfl | ⟨ps, t, rfl⟩
      · cases htail
      · have hunreached : unreached (ps ++ [t]) count
            = (ps.drop count).filter (fun p => p.default?.isNone) := by
          rw [unreached, List.dropLast_concat]
        have hallowance : allowance (ps ++ [t]) = t.default?.toList.length := by
          rw [allowance, List.getLast?_concat]
          rfl
        have hfixed : (ps ++ [t]).length - 1 = ps.length := by
          rw [List.length_append, List.length_singleton, Nat.add_sub_cancel]
        -- The fixed parameters that are left have a default or not.
        have hleft : ps.length - count
            = ((ps.drop count).filter (fun p => p.default?.isSome)).length
              + ((ps.drop count).filter (fun p => p.default?.isNone)).length := by
          rw [← List.length_drop, List.length_eq_length_filter_add (fun p => p.default?.isSome)]
          simp only [Option.not_isSome]
        have hdefaults : count ≤ ps.length →
            (((ps ++ [t]).drop count).filter (fun p => p.default?.isSome)).length
              = ((ps.drop count).filter (fun p => p.default?.isSome)).length
                + t.default?.toList.length := by
          intro hcount
          rw [List.drop_append_of_le_length hcount, List.filter_append, List.length_append]
          cases hdefault : t.default? <;> simp [hdefault]
        rw [List.concat_eq_append, hunreached, hallowance]
        simp only [if_true, hfixed, or_true, true_and, forall_const, Bool.or_eq_true,
          decide_eq_true_iff]
        by_cases hcount : count ≤ ps.length
        · have := hdefaults hcount
          omega
        · omega

theorem isProvided_or_iff : isProvided named p = true ∨ p.variadic = true ↔
    ((∀ a ∈ named, a.name ≠ p.name) → p.default?.isSome = true ∨ p.variadic = true) := by
  rw [isProvided, Bool.or_eq_true, isNamed_iff, or_assoc]
  by_cases hnamed : ∃ a ∈ named, a.name = p.name
  · obtain ⟨a, ha, hname⟩ := id hnamed
    exact iff_of_true (.inl hnamed) fun hnone => absurd hname (hnone a ha)
  · have hnone : ∀ a ∈ named, a.name ≠ p.name := fun a ha hname => hnamed ⟨a, ha, hname⟩
    rw [or_iff_right hnamed, forall_prop_of_true hnone]

/-- **Arguments are arranged just if they fit**, and named arguments of a variadic method stand
for no more fixed parameters without a default than may pass. -/
theorem isSome_of?_iff (names : (params.map Parameter.name).Nodup)
    (tail : ∀ p ∈ params.dropLast, p.variadic = false) :
    (of? params positional named).isSome = true ↔ Fits params positional named
      ∧ (hasTail params = true →
        (unreached params positional.length).length ≤ allowance params) := by
  have hnames := nodup_names_drop names positional.length
  have harranged : (of? params positional named).isSome = true ↔
      countFits params positional.length = true
        ∧ Suffices named (params.drop positional.length)
        ∧ (params.drop positional.length).countP (isNamed named) = named.length := by
    rw [Option.isSome_iff_exists]
    constructor
    · rintro ⟨arrangement, h⟩
      obtain ⟨hcount, hsuffices, hused, -⟩ := of?_eq_some_iff.1 h
      exact ⟨hcount, hsuffices, hused⟩
    · rintro ⟨hcount, hsuffices, hused⟩
      exact ⟨_, of?_eq_some_iff.2 ⟨hcount, hsuffices, hused, rfl⟩⟩
  rw [harranged, countFits_iff, suffices_drop_iff tail, countP_isNamed_eq_length_iff hnames]
  simp only [isProvided_or_iff]
  constructor
  · rintro ⟨⟨count, room⟩, provided, distinct, known⟩
    exact ⟨⟨count, distinct, known, provided⟩, room⟩
  · rintro ⟨⟨count, distinct, known, provided⟩, room⟩
    exact ⟨⟨count, room⟩, provided, distinct, known⟩

theorem isSome_of?_iff_pad : (padParams.map Parameter.name).Nodup
    ∧ (∀ p ∈ padParams.dropLast, p.variadic = false)
    ∧ (of? padParams padText padFill).isSome = true ∧ Fits padParams padText padFill := by
  have names : (padParams.map Parameter.name).Nodup := by decide
  have tail : ∀ p ∈ padParams.dropLast, p.variadic = false := by decide
  have harranged : (of? padParams padText padFill).isSome = true := rfl
  exact ⟨names, tail, harranged, ((isSome_of?_iff names tail).1 harranged).1⟩

/-- Two numbers, and any number of others. -/
def sumParams : List Parameter :=
  [.required "a" .int32, .required "b" .int32, .tail "others" .int32]

def sumFirst : List Term := [.literal (.int 1)]

def sumSecond : List NamedArgument := [⟨"b", .literal (.int 2)⟩]

/-- **A named argument for a fixed parameter fits, but is not arranged if there is a tail.**
Without the tail it is. -/
theorem not_isSome_of?_labelled : (sumParams.map Parameter.name).Nodup
    ∧ (∀ p ∈ sumParams.dropLast, p.variadic = false)
    ∧ Fits sumParams sumFirst sumSecond
    ∧ (of? sumParams sumFirst sumSecond).isSome = false
    ∧ (of? sumParams.dropLast sumFirst sumSecond).isSome = true := by
  have hfits : Fits sumParams sumFirst sumSecond :=
    ⟨.inl (by decide), by decide, by decide, by decide⟩
  exact ⟨by decide, by decide, hfits, rfl, rfl⟩

end Arrangement

end BoundMarkup
