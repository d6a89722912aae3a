/-
  BoundMarkup.Proofs.Binding.Faults
  ─────────────────────────────────
  **WHERE A BINDING IS BLAMED.**

  What cannot be resolved is blamed on a region of the tree (`lookup_blames`), and
  those all start at tokens.  So every error of a binding is at a token of its
  expression or at its end; where the expression does not split into tokens, it
  is at the character at which it breaks.  Both are places of the file
  (`bindSource_exact`).
-/
import BoundMarkup.Proofs.Binding.Laying
import BoundMarkup.Proofs.Binding.Starts
import BoundMarkup.Binding.Binder

namespace BoundMarkup.Binding

/-! ## §1. Faults of resolution. -/

/-- A fault is at one of the regions. -/
def Blames {α : Type} (spans : List Span) (x : Except BindFault α) : Prop :=
  Meets (fun _ => True) (fun fault => fault.span ∈ spans) x

variable {α β : Type} {spans spans' : List Span} {x : Except BindFault α} {s : Scope}

theorem Blames.mono (h : Blames spans x) (hspans : spans ⊆ spans') : Blames spans' x :=
  Meets.mono h (fun _ _ => trivial) (fun _ hfault => hspans hfault)

theorem Blames.bind {next : α → Except BindFault β} (h : Blames spans x)
    (hnext : ∀ a, Blames spans (next a)) : Blames spans (x >>= next) :=
  Meets.bind h (fun a _ => hnext a)

theorem blames_ok (a : α) : Blames spans (.ok a) := trivial

theorem blames_locate {span : Span} (h : span ∈ spans) (y : Except ResolutionError α) :
    Blames spans (locate span y) := by
  cases y with
  | ok a => exact trivial
  | error e => exact h

theorem blames_required {e : Expr} (h : e.spans ⊆ spans) (found : Option Term) :
    Blames spans (required e found) := by
  cases found with
  | some t => exact trivial
  | none => exact h e.span_mem_spans

/-- An operand is looked up and has to mean something. -/
theorem blames_operand {e : Expr} {next : Term → Except BindFault α}
    (he : Blames e.spans (lookup s e)) (h : e.spans ⊆ spans) (hnext : ∀ t, Blames spans (next t)) :
    Blames spans (lookup s e >>= fun found => required e found >>= next) :=
  (he.mono h).bind fun found => (blames_required h found).bind hnext

mutual

theorem bindType_blames (s : Scope) : ∀ t : TypeExpr, Blames t.spans (bindType s t)
  | .mk name args suffixes span => by
      have hargs := (bindTypes_blames s args).mono (List.subset_cons_self span _)
      rw [bindType]
      refine hargs.bind fun typeArgs => ?_
      cases s.type? name typeArgs with
      | some t => exact blames_ok _
      | none => exact List.mem_cons_self

theorem bindTypes_blames (s : Scope) : ∀ ts : List TypeExpr,
    Blames (TypeExpr.spansOf ts) (bindTypes s ts)
  | [] => blames_ok _
  | t :: ts => by
      have hfirst := (bindType_blames s t).mono (List.subset_append_left _ (TypeExpr.spansOf ts))
      have hothers := (bindTypes_blames s ts).mono (List.subset_append_right t.spans _)
      rw [bindTypes]
      exact hfirst.bind fun type => hothers.bind fun types => blames_ok _

end

mutual

/-- **What cannot be resolved is blamed on a region of the tree.** -/
theorem lookup_blames (s : Scope) : ∀ e : Expr, Blames e.spans (lookup s e)
  | .literal value span => by
      rw [lookup]
      exact blames_ok _
  | .ident ident typeArgs span => by
      have htypes : Blames (Expr.ident ident typeArgs span).spans (bindTypes s typeArgs) :=
        (bindTypes_blames s typeArgs).mono fun t ht => by simp [Expr.spans, ht]
      rw [lookup]
      exact htypes.bind fun types => blames_locate List.mem_cons_self _
  | .member target member typeArgs span => by
      have htypes : Blames (Expr.member target member typeArgs span).spans
          (bindTypes s typeArgs) :=
        (bindTypes_blames s typeArgs).mono fun t ht => by simp [Expr.spans, ht]
      have htarget : target.spans ⊆ (Expr.member target member typeArgs span).spans :=
        fun t ht => by simp [Expr.spans, ht]
      rw [lookup]
      refine htypes.bind fun types => ((lookup_blames s target).mono htarget).bind fun found => ?_
      cases found with
      | none => exact blames_ok _
      | some found =>
          refine (blames_locate (htarget target.span_mem_spans) _).bind fun owner => ?_
          exact (blames_locate List.mem_cons_self _).bind fun result => blames_ok _
  | .call callee args span => by
      have hargs : Blames (Expr.call callee args span).spans (lookupArguments s args) :=
        (lookupArguments_blames s args).mono fun t ht => by simp [Expr.spans, ht]
      rw [lookup]
      refine blames_operand (lookup_blames s callee) (fun t ht => by simp [Expr.spans, ht])
        fun target => hargs.bind fun arguments => ?_
      exact (blames_locate List.mem_cons_self _).bind fun result => blames_ok _
  | .index target index span => by
      rw [lookup]
      refine blames_operand (lookup_blames s target) (fun t ht => by simp [Expr.spans, ht])
        fun owner => blames_operand (lookup_blames s index)
          (fun t ht => by simp [Expr.spans, ht]) fun position => ?_
      exact (blames_locate List.mem_cons_self _).bind fun result => blames_ok _
  | .unary op operand span => by
      rw [lookup]
      refine blames_operand (lookup_blames s operand) (fun t ht => by simp [Expr.spans, ht])
        fun value => ?_
      exact (blames_locate List.mem_cons_self _).bind fun result => blames_ok _
  | .binary left op right span => by
      rw [lookup]
      refine blames_operand (lookup_blames s left) (fun t ht => by simp [Expr.spans, ht])
        fun a => blames_operand (lookup_blames s right)
          (fun t ht => by simp [Expr.spans, ht]) fun b => ?_
      exact (blames_locate List.mem_cons_self _).bind fun result => blames_ok _
  | .assign target value span => by
      rw [lookup]
      refine blames_operand (lookup_blames s target) (fun t ht => by simp [Expr.spans, ht])
        fun owner => blames_operand (lookup_blames s value)
          (fun t ht => by simp [Expr.spans, ht]) fun stored => ?_
      exact (blames_locate List.mem_cons_self _).bind fun result => blames_ok _
  | .paren inner span => by
      rw [lookup]
      exact blames_operand (lookup_blames s inner) (fun t ht => by simp [Expr.spans, ht])
        fun result => blames_ok _

theorem lookupArguments_blames (s : Scope) : ∀ args : List Argument,
    Blames (Argument.spansOf args) (lookupArguments s args)
  | [] => blames_ok _
  | .mk name value span :: args => by
      have hothers : Blames (Argument.spansOf (.mk name value span :: args))
          (lookupArguments s args) :=
        (lookupArguments_blames s args).mono fun t ht => by simp [Argument.spansOf, ht]
      rw [lookupArguments]
      refine blames_operand (lookup_blames s value)
        (fun t ht => by simp [Argument.spansOf, Argument.spans, ht]) fun first => ?_
      exact hothers.bind fun others => blames_ok _

end

theorem bindValue_blames (s : Scope) (e : Expr) : Blames e.spans (bindValue s e) := by
  have hbind : Blames e.spans (bind s e) :=
    ((lookup_blames s e).mono fun _ h => h).bind fun found => blames_required (fun _ h => h) found
  unfold bindValue
  exact hbind.bind fun t => blames_locate e.span_mem_spans _

/-! ## §2. Errors of bindings. -/

variable {expression : String} {toks : List Token} {error : BindingError}

/-- The tokens of a text are tidy, their own places being allowed. -/
theorem tidy_of_lex (lexed : lex expression = .ok toks) :
    Tidy (fun place => ∃ t ∈ toks, place = t.span.place) toks := by
  have hlaid := (lex_meets expression).of_ok lexed
  refine ⟨?_, hlaid.ordered, fun t ht => ⟨t, ht, rfl⟩⟩
  obtain ⟨ts, rfl, -⟩ := hlaid
  exact ⟨ts, _, rfl⟩

/-- **An error of a binding is at a token** of its text, the end of the text included. -/
theorem bindText_place (lexed : lex expression = .ok toks)
    (h : bindText s expression = .error error) :
    ∃ t ∈ toks, error.span.place = t.span.place := by
  have hparse : parse expression = parseTokens toks := by rw [parse, lexed]
  have hlocated := parseTokens_located (tidy_of_lex lexed)
  unfold bindText at h
  rw [hparse] at h
  cases hread : parseTokens toks with
  | error fault =>
      rw [hread] at h hlocated
      cases h
      exact hlocated
  | ok e =>
      rw [hread] at h hlocated
      dsimp only at h
      cases hvalue : bindValue s e with
      | ok t =>
          rw [hvalue] at h
          cases h
      | error fault =>
          rw [hvalue] at h
          cases h
          exact hlocated fault.span ((bindValue_blames s e).of_error hvalue)

/-- A text that does not split into tokens is blamed where the lexer says. -/
theorem bindText_breaks {fault : LexError} (lexed : lex expression = .error fault)
    (h : bindText s expression = .error error) : error.span = fault.span := by
  have hparse : parse expression = .error (.ofLex fault) := by rw [parse, lexed]
  unfold bindText at h
  rw [hparse] at h
  cases h
  rfl

theorem bindSource_eq_error {source : Markup.BindingSource}
    (h : bindSource s source = .error error) :
    ∃ inner, bindText s source.expression = .error inner
      ∧ error.span = inner.span.offset source.expressionSpan := by
  unfold bindSource at h
  cases hinner : bindText s source.expression with
  | ok t =>
      rw [hinner] at h
      cases h
  | error inner =>
      rw [hinner] at h
      cases h
      exact ⟨inner, rfl, by cases inner <;> rfl⟩

/-- **The positions of a binding are exact** in a file in which its expression stands
behind `base`: the tokens of the expression are laid there once their spans are moved,
and errors are at these tokens, or where the expression breaks in the file for the reason
that the lexer gives. -/
structure Exact (source : Markup.BindingSource) (base : Position) : Prop where
  tokens : ∀ toks, lex source.expression = .ok toks →
    LaidOut base source.expression.toList (toks.map (Token.moved source.expressionSpan))
  errors : ∀ toks, lex source.expression = .ok toks → ∀ s error, bindSource s source = .error error →
    ∃ t ∈ toks.map (Token.moved source.expressionSpan), error.span.place = t.span.place
  breaks : ∀ fault, lex source.expression = .error fault → ∀ s error,
    bindSource s source = .error error →
      ∃ reason stop place, fault = reason.at stop
        ∧ BreaksAt reason base source.expression.toList place
        ∧ error.span.place = place.span.place

theorem bindSource_exact {source : Markup.BindingSource} {base : Position}
    (hbase : source.expressionSpan = base.span) : Exact source base := by
  refine ⟨fun toks lexed => ?_, fun toks lexed s error h => ?_, fun fault lexed s error h => ?_⟩
  · rw [hbase]
    exact ((lex_meets source.expression).of_ok lexed).moved base
  · obtain ⟨inner, hinner, hspan⟩ := bindSource_eq_error h
    obtain ⟨t, ht, hplace⟩ := bindText_place lexed hinner
    refine ⟨_, List.mem_map_of_mem ht, ?_⟩
    rw [hspan]
    exact Span.place_offset hplace source.expressionSpan
  · obtain ⟨inner, hinner, hspan⟩ := bindSource_eq_error h
    obtain ⟨reason, stop, rfl, breaks⟩ := (lex_meets source.expression).of_error lexed
    obtain ⟨place, shifted, hbreaks⟩ := breaks.moved (.start base)
    have hinnerSpan : inner.span.place = stop.span.place := by
      rw [bindText_breaks lexed hinner, span_at]
    refine ⟨reason, stop, place, rfl, hbreaks, ?_⟩
    rw [hspan, hbase, Span.place_offset hinnerSpan, shifted.moved]

end BoundMarkup.Binding
