/-
  BoundMarkup.Proofs.Binding.Bound
  ────────────────────────────────
  **WHAT A BOUND EXPRESSION IS MADE OF.**

  Lookup may answer a type or a method group, for the expression around it to use
  (`resolved_lookup`).  Every operation takes its operands as values, so such an
  answer is never left inside the term of a binding: that is formed throughout
  (`formed_of_bindSource`).
-/
import BoundMarkup.Binding.Binder
import BoundMarkup.Proofs.Term.Calls
import BoundMarkup.Proofs.Term.Resolution

namespace BoundMarkup.Binding

open Term

/-! ## §1. Operations on values. -/

variable {r : Registry}

/-- A value that an expression stands for is formed. -/
theorem formed_of_value {t v : Term} (ht : Resolved r t) (h : t.value = .ok v) : v.Formed r := by
  unfold Term.value at h
  split at h
  · cases h
  · cases h
  · cases h
  · rename_i hgroup hunknown htype
    cases h
    refine ht.formed ?_
    cases t with
    | group name target typeArgs => exact absurd rfl (hgroup name target typeArgs)
    | typeReference type => exact absurd rfl (htype type)
    | unknown => exact absurd rfl hunknown
    | _ => rfl

theorem target_of_memberTarget {t owner : Term} (ht : Resolved r t)
    (h : memberTarget t = .ok owner) : Target r owner := by
  unfold memberTarget at h
  split at h
  · cases h
    exact Or.inl ‹_›
  · exact (formed_of_value ht h).target

/-- The arguments of a call, as far as they are looked up. -/
structure CallArguments.Resolved (r : Registry) (args : CallArguments) : Prop where
  positional : ∀ t ∈ args.positional, Term.Resolved r t
  named : ∀ a ∈ args.named, Term.Resolved r a.value

theorem CallArguments.Resolved.cons {args : CallArguments} (h : args.Resolved r) {t : Term}
    (ht : Term.Resolved r t) (name : Option Ident) : (args.cons name t).Resolved r := by
  cases name with
  | none => exact ⟨List.forall_mem_cons.2 ⟨ht, h.positional⟩, h.named⟩
  | some name => exact ⟨h.positional, List.forall_mem_cons.2 ⟨ht, h.named⟩⟩

/-- Checked arguments are formed. -/
theorem CallArguments.Resolved.formed {args checked : CallArguments} (h : args.Resolved r)
    (hchecked : args.checked = .ok checked) :
    (∀ t ∈ checked.positional, t.Formed r) ∧ ∀ a ∈ checked.named, a.value.Formed r := by
  obtain ⟨positional, hpositional, hchecked⟩ := exists_ok_of_bind hchecked
  obtain ⟨named, hnamed, hchecked⟩ := exists_ok_of_bind hchecked
  cases hchecked
  refine ⟨fun v hv => ?_, fun a ha => ?_⟩
  · obtain ⟨t, ht, hvalue⟩ := exists_of_mem_mapM hpositional v hv
    exact formed_of_value (h.positional t ht) hvalue
  · obtain ⟨b, hb, hmap⟩ := exists_of_mem_mapM hnamed a ha
    obtain ⟨v, hvalue, rfl⟩ := exists_ok_of_map hmap
    exact formed_of_value (h.named b hb) hvalue

/-- A call needs a method group, whose target is a value or a type. -/
theorem formed_callOn {callee u : Term} {args : CallArguments} (hcallee : Resolved r callee)
    (hargs : args.Resolved r) (h : callOn r callee args = .ok u) : u.Formed r := by
  obtain ⟨checked, hchecked, h⟩ := exists_ok_of_bind h
  obtain ⟨hpositional, hnamed⟩ := hargs.formed hchecked
  unfold callTerm at h
  split at h
  · rename_i name target typeArgs
    cases hcallee with
    | target htarget =>
        rcases htarget with htarget | htarget
        · cases htarget
        · cases htarget
    | group htarget => exact htarget.formed_callMethod hpositional hnamed h
  · cases h

theorem formed_indexInto {target position u : Term} (ht : Resolved r target)
    (hp : Resolved r position) (h : indexInto r target position = .ok u) : u.Formed r := by
  obtain ⟨t, htarget, h⟩ := exists_ok_of_bind h
  obtain ⟨p, hposition, h⟩ := exists_ok_of_bind h
  exact (formed_of_value ht htarget).elementAt (formed_of_value hp hposition) h

theorem formed_operate {left right u : Term} {op : BinaryOp} (hl : Resolved r left)
    (hr : Resolved r right) (h : operate r left op right = .ok u) : u.Formed r := by
  obtain ⟨a, ha, h⟩ := exists_ok_of_bind h
  obtain ⟨b, hb, h⟩ := exists_ok_of_bind h
  exact (formed_of_value hl ha).applyBinary (formed_of_value hr hb) h

theorem formed_operateUnary {t u : Term} {op : UnaryOp} (ht : Resolved r t)
    (h : operateUnary r op t = .ok u) : u.Formed r := by
  obtain ⟨a, ha, h⟩ := exists_ok_of_bind h
  exact (formed_of_value ht ha).applyUnary h

theorem formed_store {target value u : Term} (ht : Resolved r target) (hv : Resolved r value)
    (h : store r target value = .ok u) : u.Formed r := by
  obtain ⟨v, hvalue, h⟩ := exists_ok_of_bind h
  exact ht.update (formed_of_value hv hvalue) h

/-! ## §2. Expressions. -/

theorem eq_ok_of_locate {α : Type} {span : Span} {x : Except ResolutionError α} {a : α}
    (h : locate span x = .ok a) : x = .ok a := by
  cases x with
  | ok b => exact congrArg Except.ok (Except.ok.inj h)
  | error e => cases h

/-- A result that is located is the answer. -/
theorem eq_ok_of_answered {span : Span} {x : Except ResolutionError Term} {t : Term}
    (h : (do let result ← locate span x; .ok (some result)) = .ok (some t)) : x = .ok t := by
  obtain ⟨result, hresult, h⟩ := exists_ok_of_bind h
  cases h
  exact eq_ok_of_locate hresult

/-- An expression is bound to what lookup answers. -/
theorem lookup_eq_ok {s : Scope} {e : Expr} {t : Term} (h : bind s e = .ok t) :
    lookup s e = .ok (some t) := by
  obtain ⟨found, hfound, h⟩ := exists_ok_of_bind h
  cases found with
  | some found =>
      cases h
      exact hfound
  | none => cases h

/-- An operand is bound before what comes next. -/
theorem exists_of_operand {α : Type} {s : Scope} {e : Expr} {next : Term → Except BindFault α}
    {a : α} (h : (do let found ← lookup s e; let t ← required e found; next t) = .ok a) :
    ∃ t, lookup s e = .ok (some t) ∧ next t = .ok a := by
  obtain ⟨found, hfound, h⟩ := exists_ok_of_bind h
  obtain ⟨t, ht, h⟩ := exists_ok_of_bind h
  have hbind : bind s e = .ok t := by
    unfold bind
    rw [hfound]
    exact ht
  exact ⟨t, lookup_eq_ok hbind, h⟩

/-- A type name stands for a type. -/
theorem target_of_typeTerm? {s : Scope} {name : String} {typeArgs : List TypeRef} {t : Term}
    (h : s.typeTerm? name typeArgs = some t) : Target r t := by
  obtain ⟨type, -, rfl⟩ := Option.map_eq_some_iff.1 h
  exact Or.inl rfl

/-- **A name** stands for a keyword, a member of `_this` or a type. -/
theorem resolved_identifier? {s : Scope} {name : String} {typeArgs : List TypeRef} {t : Term}
    (h : s.identifier? name typeArgs = .ok (some t)) : Resolved s.types t := by
  unfold Scope.identifier? at h
  split at h
  · rename_i keyword hkeyword
    cases h
    unfold Scope.keywordTerm? at hkeyword
    split at hkeyword
    · obtain ⟨type, -, rfl⟩ := Option.map_eq_some_iff.1 hkeyword
      exact Formed.resolved (.parameter name type)
    · cases hkeyword
  · obtain ⟨found, hfound, h⟩ := exists_ok_of_bind h
    cases found with
    | some found =>
        cases h
        have hthis : s.this.Formed s.types := .parameter _ _
        exact hthis.target.resolved_member? hfound
    | none => exact .target (target_of_typeTerm? (Except.ok.inj h))

mutual

/-- **What lookup answers**, by the kinds of expressions. -/
theorem resolved_lookup (s : Scope) :
    ∀ (e : Expr) {t : Term}, lookup s e = .ok (some t) → Resolved s.types t
  | .literal value _, t, h => by
      cases h
      exact Formed.resolved (.constant value value.type)
  | .ident ident typeArgs span, t, h => by
      obtain ⟨types, -, h⟩ := exists_ok_of_bind h
      exact resolved_identifier? (eq_ok_of_locate h)
  | .member target member typeArgs span, t, h => by
      obtain ⟨types, -, h⟩ := exists_ok_of_bind h
      obtain ⟨found, hfound, h⟩ := exists_ok_of_bind h
      cases found with
      | some found =>
          obtain ⟨owner, howner, h⟩ := exists_ok_of_bind h
          obtain ⟨result, hresult, h⟩ := exists_ok_of_bind h
          cases h
          have htarget := target_of_memberTarget (resolved_lookup s target hfound)
            (eq_ok_of_locate howner)
          exact htarget.resolved_member? (member_eq_ok (eq_ok_of_locate hresult))
      | none =>
          obtain ⟨qualifier, -, htype⟩ := Option.bind_eq_some_iff.1 (Except.ok.inj h)
          exact .target (target_of_typeTerm? htype)
  | .call callee args span, t, h => by
      obtain ⟨a, ha, h⟩ := exists_of_operand h
      obtain ⟨arguments, harguments, h⟩ := exists_ok_of_bind h
      exact (formed_callOn (resolved_lookup s callee ha)
        (resolved_lookupArguments s args harguments) (eq_ok_of_answered h)).resolved
  | .index target position span, t, h => by
      obtain ⟨a, ha, h⟩ := exists_of_operand h
      obtain ⟨b, hb, h⟩ := exists_of_operand h
      exact (formed_indexInto (resolved_lookup s target ha) (resolved_lookup s position hb)
        (eq_ok_of_answered h)).resolved
  | .unary op operand span, t, h => by
      obtain ⟨a, ha, h⟩ := exists_of_operand h
      exact (formed_operateUnary (resolved_lookup s operand ha) (eq_ok_of_answered h)).resolved
  | .binary left op right span, t, h => by
      obtain ⟨a, ha, h⟩ := exists_of_operand h
      obtain ⟨b, hb, h⟩ := exists_of_operand h
      exact (formed_operate (resolved_lookup s left ha) (resolved_lookup s right hb)
        (eq_ok_of_answered h)).resolved
  | .assign target value span, t, h => by
      obtain ⟨a, ha, h⟩ := exists_of_operand h
      obtain ⟨b, hb, h⟩ := exists_of_operand h
      exact (formed_store (resolved_lookup s target ha) (resolved_lookup s value hb)
        (eq_ok_of_answered h)).resolved
  | .paren inner span, t, h => by
      obtain ⟨a, ha, h⟩ := exists_of_operand h
      cases h
      exact resolved_lookup s inner ha

/-- What the arguments of a call stand for, one after the other. -/
theorem resolved_lookupArguments (s : Scope) :
    ∀ (args : List Argument) {found : CallArguments}, lookupArguments s args = .ok found →
      found.Resolved s.types
  | [], found, h => by
      cases h
      exact ⟨nofun, nofun⟩
  | .mk name value _ :: args, found, h => by
      obtain ⟨a, ha, h⟩ := exists_of_operand h
      obtain ⟨others, hothers, h⟩ := exists_ok_of_bind h
      cases h
      exact (resolved_lookupArguments s args hothers).cons (resolved_lookup s value ha) name

end

/-! ## §3. Bindings. -/

/-- **The term of a binding is formed.** -/
theorem formed_of_bindSource {s : Scope} {source : Markup.BindingSource} {b : Bound}
    (h : bindSource s source = .ok b) : b.term.Formed s.types := by
  unfold bindSource bindText at h
  split at h
  · rename_i t ht
    cases h
    split at ht
    · cases ht
    · rename_i e hparse
      split at ht
      · cases ht
      · rename_i value hvalue
        cases ht
        obtain ⟨found, hfound, hvalue⟩ := exists_ok_of_bind hvalue
        have hresolved := resolved_lookup s e (lookup_eq_ok hfound)
        exact formed_of_value hresolved (eq_ok_of_locate hvalue)
  · cases h

/-! ## §4. What holds everywhere inside the term. -/

/-- A type with a property and a method that takes any number of further arguments. -/
def cartEntry : TypeEntry :=
  (TypeEntry.declare "App.Cart" "App")
    |>.addProperty .property "Count" .int32
    |>.addMethod (.instance_ "Total" .int64
      [Parameter.required "first" .int32, .required "label" .string, .tail "rest" .int64])

def cartScope : Scope := ⟨Registry.empty.insert cartEntry, .ofRoot (.simple "App.Cart") []⟩

/-- A call of a method group in parentheses, with two arguments for the tail. -/
def totalSource : Markup.BindingSource :=
  ⟨.value, "(Total)(Count, 'sum', 2, Count)", ⟨1, 1, 0⟩, ⟨1, 9, 31⟩⟩

def totalText : String :=
  "_this.Total(_this.Count, \"sum\", new long[] \x7b ((long)2), ((long)_this.Count) \x7d)"

theorem bindSource_total : ∃ b, bindSource cartScope totalSource = .ok b
    ∧ b.term.text = totalText ∧ b.term.callNames = ["int", "string", "int", "string"] := by
  have hbound : (bindSource cartScope totalSource).toOption.map
      (fun b => (b.term.text, b.term.callNames)) =
        some (totalText, ["int", "string", "int", "string"]) := by decide +kernel
  obtain ⟨b, hb, hshown⟩ := exists_ok_of_toOption hbound
  obtain ⟨htext, hnames⟩ := Prod.mk.inj hshown
  exact ⟨b, hb, htext, hnames⟩

variable {s : Scope} {source : Markup.BindingSource} {b : Bound}

/-- **No placeholder is left**: everything inside the term of a binding is a value, and so no
method group, no type reference and nothing unresolved. -/
theorem isValue_inside (h : bindSource s source = .ok b) :
    ∀ u ∈ b.term.subterms, u.isValue = true :=
  fun u hu => ((formed_of_bindSource h).of_mem_subterms u hu).isValue

theorem isValue_inside_total : ∃ b, bindSource cartScope totalSource = .ok b
    ∧ ∀ u ∈ b.term.subterms, u.isValue = true := by
  obtain ⟨b, hb, -⟩ := bindSource_total
  exact ⟨b, hb, isValue_inside hb⟩

end BoundMarkup.Binding
