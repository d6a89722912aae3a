/-
  BoundMarkup.Proofs.Binding.Soundness
  ────────────────────────────────────
  **WHAT IS READ IS WHAT STANDS THERE, GROUPED BY PRECEDENCE.**

  Every reader passes over exactly the tokens of the tree it answers.  The
  invariant of the loop is `LeftSide`: what has been read so far is grouped, and
  the next token is not one its right end should have taken.  From this the
  operands of the next form get the precedence they need.
-/
import BoundMarkup.Proofs.Binding.Lexing
import BoundMarkup.Proofs.Binding.Rounds

namespace BoundMarkup.Binding

/-! ## §1. What readers promise. -/

/-- An expression has been read with minimum power `least`. -/
structure Parsed (least : Nat) (ts : List Token) (e : Expr) (rest : List Token) : Prop where
  reads : Reads ts e.yield rest
  grouped : e.Grouped false
  begins : e.Begins least
  stops : Stops least rest

/-- **The invariant of the loop**: a left side before the tokens `ts`. -/
structure LeftSide (least : Nat) (left : Expr) (ts : List Token) : Prop where
  grouped : left.Grouped (nextKind ts == .leftParen)
  begins : left.Begins least
  ends : left.EndsAt ts

/-- All readers keep their promises with `n` rounds. -/
structure Sound (n : Nat) : Prop where
  expr : ∀ {least ts e rest}, Wordy ts → least ≤ postfixPower → expr n least ts = .ok (e, rest) →
    Parsed least ts e rest
  operand : ∀ {ts e rest}, Wordy ts → operand n ts = .ok (e, rest) →
    Reads ts e.yield rest ∧ ∀ least, LeftSide least e rest
  extend : ∀ {least left ts e rest}, Wordy ts → least ≤ postfixPower → LeftSide least left ts →
    extend n least left ts = .ok (e, rest) →
    ∃ ss, e.yield = left.yield ++ ss ∧ Reads ts ss rest ∧ e.Grouped false ∧ e.Begins least
      ∧ Stops least rest
  arguments : ∀ {ts args rest}, Wordy ts → arguments n ts = .ok (args, rest) →
    Reads ts (Argument.listYield args) rest ∧ Argument.AllGrouped args
  argumentList : ∀ {ts args rest}, Wordy ts → argumentList n ts = .ok (args, rest) →
    Reads ts (Argument.listYield args) rest ∧ Argument.AllGrouped args ∧ args ≠ []

variable {n : Nat}

/-! ## §2. Operands. -/

/-- The right end of an operand is closed, and no operator is outermost. -/
theorem Operand.sound (below : Sound n) {ts rest : List Token} {e : Expr} (wordy : Wordy ts)
    (h : Operand n ts e rest) : Reads ts e.yield rest ∧ ∀ least, LeftSide least e rest := by
  cases h with
  | @unary t ts op inner rest sign read =>
      have parsed := below.expr wordy.tail (by decide) read
      refine ⟨reads_mark.2 ⟨t, ts, rfl, ofUnary_of_unaryOp? sign, parsed.reads⟩, fun least => ?_⟩
      exact ⟨⟨parsed.begins.fitsUnary, parsed.grouped⟩, trivial, parsed.stops⟩
  | @literal t ts value literal read =>
      refine ⟨reads_cons.2 ⟨t, _, rfl, ⟨literal, read⟩, nofun, nofun, Reads.nil _⟩, fun least => ?_⟩
      exact ⟨trivial, trivial, trivial⟩
  | @ident t ts typeArgs last rest word read =>
      obtain ⟨reads, called⟩ := callTypeArgs_reads word wordy.tail read
      refine ⟨reads, fun least => ⟨?_, trivial, trivial⟩⟩
      exact called.imp_right (fun paren => beq_iff_eq.2 paren)
  | @paren t ts inner close rest opened read closed =>
      have parsed := below.expr wordy.tail (by decide) read
      refine ⟨reads_mark.2 ⟨t, ts, rfl, opened, parsed.reads.append
        (reads_mark.2 ⟨close, rest, rfl, closed, Reads.nil _⟩)⟩, fun least => ?_⟩
      exact ⟨parsed.grouped, trivial, trivial⟩

/-! ## §3. Extensions. -/

/-- Only before `(` may a left side carry type arguments. -/
theorem LeftSide.grouped_of_kind {least : Nat} {left : Expr} {ts : List Token} {k : TokenKind}
    (side : LeftSide least left ts) (kind : nextKind ts = k) : left.Grouped (k == .leftParen) := by
  rw [← kind]
  exact side.grouped

/-- **One form more keeps the invariant**, and passes over the tokens of the form. -/
theorem Extends.sound (below : Sound n) {least : Nat} {left left' : Expr} {ts mid : List Token}
    (wordy : Wordy ts) (side : LeftSide least left ts) (h : Extends n least left ts left' mid) :
    LeftSide least left' mid ∧ ∃ ss, left'.yield = left.yield ++ ss ∧ Reads ts ss mid := by
  cases h with
  | @member dot name ts typeArgs last rest tight mark word read =>
      obtain ⟨reads, called⟩ := callTypeArgs_reads word wordy.tail.tail read
      have fits := side.ends.fitsPostfix (leftPower?_of_nextKind (Or.inl mark))
      have grouped : left.Grouped false := side.grouped_of_kind mark
      refine ⟨⟨⟨?_, fits, grouped⟩, trivial, trivial⟩, _, rfl, ?_⟩
      · exact called.imp_right (fun paren => beq_iff_eq.2 paren)
      · exact reads_mark.2 ⟨dot, name :: ts, rfl, mark, reads⟩
  | @call opened ts args close rest tight mark read closed =>
      obtain ⟨reads, all⟩ := below.arguments wordy.tail read
      have fits := side.ends.fitsPostfix (leftPower?_of_nextKind (Or.inr (Or.inl mark)))
      have grouped : left.Grouped true := side.grouped_of_kind mark
      refine ⟨⟨⟨fits, grouped, all⟩, trivial, trivial⟩, _, rfl, ?_⟩
      exact reads_mark.2 ⟨opened, ts, rfl, mark, reads.append
        (reads_mark.2 ⟨close, mid, rfl, closed, Reads.nil _⟩)⟩
  | @index opened ts index close rest tight mark read closed =>
      have parsed := below.expr wordy.tail (by decide) read
      have fits := side.ends.fitsPostfix (leftPower?_of_nextKind (Or.inr (Or.inr mark)))
      have grouped : left.Grouped false := side.grouped_of_kind mark
      refine ⟨⟨⟨fits, grouped, parsed.grouped⟩, trivial, trivial⟩, _, rfl, ?_⟩
      exact reads_mark.2 ⟨opened, ts, rfl, mark, parsed.reads.append
        (reads_mark.2 ⟨close, mid, rfl, closed, Reads.nil _⟩)⟩
  | @assign sign ts value rest tight mark read =>
      have kind : nextKind (sign :: ts) = .equal := mark
      have parsed := below.expr wordy.tail (by decide) read
      have fits := side.ends.fitsAssign (show leftPower? _ = _ by simp [leftPower?, kind])
      have grouped : left.Grouped false := side.grouped_of_kind kind
      refine ⟨⟨⟨fits, grouped, parsed.grouped⟩, tight, parsed.stops⟩, _, rfl, ?_⟩
      exact reads_mark.2 ⟨sign, ts, rfl, mark, parsed.reads⟩
  | @binary ts op start right rest tight mark read =>
      have readOp := operator?_reads mark
      have parsed := below.expr (readOp.wordy wordy) (Nat.le_of_lt (power_lt_postfixPower op).2) read
      have fits := side.ends.fitsLeft (leftPower?_of_operator? mark)
      have grouped : left.Grouped false := by
        have := side.grouped_of_kind (nextKind_of_operator? mark)
        cases op <;> exact this
      refine ⟨⟨⟨fits, parsed.begins.fitsRight, grouped, parsed.grouped⟩, tight, parsed.stops⟩,
        _, rfl, ?_⟩
      exact readOp.append parsed.reads

/-- Where a left side stops, it is not called. -/
theorem LeftSide.grouped_of_stops {least : Nat} {left : Expr} {ts : List Token}
    (side : LeftSide least left ts) (bound : least ≤ postfixPower) (stops : Stops least ts) :
    left.Grouped false := by
  -- No minimum is above the power of a call, so the loop would have gone on.
  have uncalled : nextKind ts ≠ .leftParen := fun called =>
    absurd (stops _ (leftPower?_of_nextKind (Or.inr (Or.inl called)))) (by omega)
  have := side.grouped
  rwa [beq_eq_false_iff_ne.2 uncalled] at this

theorem extend_sound (below : Sound n) {least : Nat} {left e : Expr} {ts rest : List Token}
    (wordy : Wordy ts) (bound : least ≤ postfixPower) (side : LeftSide least left ts)
    (h : extend (n + 1) least left ts = .ok (e, rest)) :
    ∃ ss, e.yield = left.yield ++ ss ∧ Reads ts ss rest ∧ e.Grouped false ∧ e.Begins least
      ∧ Stops least rest := by
  rcases extend_eq_ok h with ⟨stops, rfl, rfl⟩ | ⟨left', mid, grows, h⟩
  · exact ⟨[], by simp, Reads.nil _, side.grouped_of_stops bound stops, side.begins, stops⟩
  · obtain ⟨side', ss, yield, reads⟩ := grows.sound below wordy side
    obtain ⟨ss', yield', reads', rest⟩ := below.extend (reads.wordy wordy) bound side' h
    exact ⟨ss ++ ss', by rw [yield', yield, List.append_assoc], reads.append reads', rest⟩

/-! ## §4. Expressions and arguments. -/

theorem expr_sound (below : Sound n) {least : Nat} {ts rest : List Token} {e : Expr}
    (wordy : Wordy ts) (bound : least ≤ postfixPower)
    (h : expr (n + 1) least ts = .ok (e, rest)) : Parsed least ts e rest := by
  rw [expr] at h
  obtain ⟨⟨left, mid⟩, readLeft, h⟩ := exists_ok_of_bind h
  obtain ⟨reads, side⟩ := below.operand wordy readLeft
  obtain ⟨ss, yield, reads', grouped, begins, stops⟩ :=
    below.extend (reads.wordy wordy) bound (side least) h
  exact ⟨yield ▸ reads.append reads', grouped, begins, stops⟩

/-- A named argument starts with its name and a colon. -/
theorem argumentName_reads {ts start rest : List Token} {name : Option Ident} {value : Expr}
    (span : Span) (named : argumentName ts = (name, start)) (reads : Reads start value.yield rest) :
    Reads ts (Argument.mk name value span).yield rest := by
  rcases argumentName_cases ts with ⟨word, colon, more, rfl, isWord, isColon, found⟩ | ⟨-, found⟩
  · cases found.symm.trans named
    exact reads_cons.2 ⟨word, _, rfl, ⟨isWord, rfl⟩, nofun, nofun,
      reads_mark.2 ⟨colon, _, rfl, isColon, reads⟩⟩
  · cases found.symm.trans named
    exact reads

theorem argumentList_sound (below : Sound n) {ts rest : List Token} {args : List Argument}
    (wordy : Wordy ts) (h : argumentList (n + 1) ts = .ok (args, rest)) :
    Reads ts (Argument.listYield args) rest ∧ Argument.AllGrouped args ∧ args ≠ [] := by
  obtain ⟨name, start, value, more, mid, named, read, rfl, tail⟩ := argumentList_eq_ok h
  have wordyStart : Wordy start := by
    rcases argumentName_cases ts with ⟨_, _, _, rfl, _, _, found⟩ | ⟨-, found⟩
    · cases found.symm.trans named
      exact wordy.tail.tail
    · cases found.symm.trans named
      exact wordy
  have parsed := below.expr wordyStart (by decide) read
  have reads := argumentName_reads ((next ts).span.merge value.span) named parsed.reads
  rcases tail with ⟨rfl, rfl⟩ | ⟨comma, mid, rfl, isComma, readMore⟩
  · refine ⟨?_, ⟨parsed.grouped, trivial⟩, by simp⟩
    simpa [Argument.listYield, Argument.tailYield] using reads
  · -- Behind a comma there is an argument at least: the list does not end in a comma.
    obtain ⟨readsMore, all, some_more⟩ := below.argumentList (reads.wordy wordy).tail readMore
    refine ⟨reads.append ?_, ⟨parsed.grouped, all⟩, by simp⟩
    cases more with
    | nil => exact absurd rfl some_more
    | cons a more => exact reads_mark.2 ⟨comma, mid, rfl, isComma, readsMore⟩

/-- **Every reader keeps its promise.** -/
theorem sound (n : Nat) : Sound n := by
  induction n with
  | zero =>
      constructor
      · intro least ts e rest _ _ h
        cases h
      · intro ts e rest _ h
        cases ts <;> cases h
      · intro least left ts e rest _ _ _ h
        cases h
      · intro ts args rest _ h
        cases h
      · intro ts args rest _ h
        cases h
  | succ n below =>
      constructor
      · exact expr_sound below
      · exact fun wordy h => (operand_eq_ok h).sound below wordy
      · exact extend_sound below
      · intro ts args rest wordy h
        rcases arguments_eq_ok h with ⟨-, rfl, rfl⟩ | h
        · exact ⟨Reads.nil _, trivial⟩
        · obtain ⟨reads, all, -⟩ := below.argumentList wordy h
          exact ⟨reads, all⟩
      · exact argumentList_sound below

/-! ## §5. Whole bindings. -/

theorem eof_not_mem_nameYield (name : String) : .eof ∉ (nameYield name).map Symbol.kind := by
  obtain ⟨word, parts, yield, -⟩ := exists_nameYield_eq name
  rw [yield]
  simp only [dotYield, List.map_cons, List.map_flatMap]
  simp

mutual

theorem eof_not_mem_typeYield : (t : TypeExpr) → .eof ∉ t.yield.map Symbol.kind
  | .mk name args suffixes span => by
      have inSuffix (s : TypeSuffix) : .eof ∉ (suffixYield s).map Symbol.kind := by
        cases s <;> simp [suffixYield]
      simp only [TypeExpr.yield, List.map_append, List.mem_append, not_or, List.map_flatMap,
        List.mem_flatMap, not_exists, not_and]
      refine ⟨⟨eof_not_mem_nameYield name, ?_⟩, fun s _ => inSuffix s⟩
      match args with
      | [] => simp [TypeExpr.listYield]
      | t :: more =>
          have := eof_not_mem_typeYield t
          have := eof_not_mem_tailYield more
          simp_all [TypeExpr.listYield]

theorem eof_not_mem_tailYield : (types : List TypeExpr) →
    .eof ∉ (TypeExpr.tailYield types).map Symbol.kind
  | [] => by simp [TypeExpr.tailYield]
  | t :: more => by
      have := eof_not_mem_typeYield t
      have := eof_not_mem_tailYield more
      simp_all [TypeExpr.tailYield]

end

theorem eof_not_mem_calledYield (name : String) (args : List TypeExpr) :
    .eof ∉ (calledYield name args).map Symbol.kind := by
  cases args with
  | nil => simp [calledYield]
  | cons t more =>
      have := eof_not_mem_typeYield t
      have := eof_not_mem_tailYield more
      simp_all [calledYield, TypeExpr.listYield]

mutual

/-- The end of the binding is no part of a tree. -/
theorem Expr.eof_not_mem : (e : Expr) → .eof ∉ e.yield.map Symbol.kind
  | .literal value span => by
      cases value with
      | bool b => cases b <;> simp [Expr.yield, Symbol.literalKind]
      | _ => simp [Expr.yield, Symbol.literalKind]
  | .ident ident typeArgs span => eof_not_mem_calledYield ident.name typeArgs
  | .member target member typeArgs span => by
      have := Expr.eof_not_mem target
      have := eof_not_mem_calledYield member.name typeArgs
      simp_all [Expr.yield]
  | .call callee args span => by
      have := Expr.eof_not_mem callee
      have := Argument.eof_not_mem_list args
      simp_all [Expr.yield]
  | .index target index span => by
      have := Expr.eof_not_mem target
      have := Expr.eof_not_mem index
      simp_all [Expr.yield]
  | .unary op operand span => by
      have := Expr.eof_not_mem operand
      cases op <;> simp_all [Expr.yield, TokenKind.ofUnary]
  | .binary left op right span => by
      have := Expr.eof_not_mem left
      have := Expr.eof_not_mem right
      cases op <;> simp_all [Expr.yield, operatorYield, TokenKind.ofBinary]
  | .assign target value span => by
      have := Expr.eof_not_mem target
      have := Expr.eof_not_mem value
      simp_all [Expr.yield]
  | .paren inner span => by
      have := Expr.eof_not_mem inner
      simp_all [Expr.yield]

theorem Argument.eof_not_mem : (a : Argument) → .eof ∉ a.yield.map Symbol.kind
  | .mk (some name) value span => by
      have := Expr.eof_not_mem value
      simp_all [Argument.yield]
  | .mk none value span => Expr.eof_not_mem value

theorem Argument.eof_not_mem_list : (args : List Argument) →
    .eof ∉ (Argument.listYield args).map Symbol.kind
  | [] => by simp [Argument.listYield]
  | a :: args => by
      have := Argument.eof_not_mem a
      have := Argument.eof_not_mem_tail args
      simp_all [Argument.listYield]

theorem Argument.eof_not_mem_tail : (args : List Argument) →
    .eof ∉ (Argument.tailYield args).map Symbol.kind
  | [] => by simp [Argument.tailYield]
  | a :: args => by
      have := Argument.eof_not_mem a
      have := Argument.eof_not_mem_tail args
      simp_all [Argument.tailYield]

end

/-- What a whole binding leaves is its end. -/
theorem rest_eq_eof {ts rest : List Token} {stop : Span} {e : Expr}
    (lexed : ∀ t ∈ ts, t.Lexed) (reads : Reads (ts ++ [Token.eof stop]) e.yield rest)
    (done : nextKind rest = .eof) : rest = [Token.eof stop] := by
  have drop := reads.spells.rest_eq
  rcases Nat.lt_or_ge ts.length e.yield.length with long | short
  · -- Nothing is left, so the tree would have taken the end as well.
    have none_left : rest = [] := by
      rw [drop]
      exact List.drop_eq_nil_of_le (by simp; omega)
    have kinds := reads.spells.kinds_eq
    rw [none_left] at kinds
    refine absurd ?_ e.eof_not_mem
    rw [← List.append_nil (e.yield.map Symbol.kind), ← List.map_nil, ← kinds]
    simp [Token.eof]
  · rw [List.drop_append_of_le_length short] at drop
    cases left : ts.drop e.yield.length with
    | nil => rw [drop, left, List.nil_append]
    | cons t more =>
        -- A token is left, and it is not the end.
        have mem : t ∈ ts := List.mem_of_mem_drop (left ▸ List.mem_cons_self)
        obtain ⟨c, cs, length, found, -⟩ := lexed t mem
        rw [drop, left] at done
        exact absurd done (front_of_lexeme? found).nonempty.1

theorem wordy_of_lexed {ts : List Token} {stop : Span} (lexed : ∀ t ∈ ts, t.Lexed) :
    Wordy (ts ++ [Token.eof stop]) := by
  intro t mem kind
  rcases List.mem_append.1 mem with mem | mem
  · exact ((lexed t mem).word kind).1.dot_not_mem
  · cases List.mem_singleton.1 mem
    cases kind

/-- An accepted binding is an expression, read from its first token to its end. -/
theorem parse_eq_ok {source : String} {e : Expr} (h : parse source = .ok e) :
    ∃ n ts stop, lex source = .ok (ts ++ [Token.eof stop]) ∧ (∀ t ∈ ts, t.Lexed)
      ∧ expr n 0 (ts ++ [Token.eof stop]) = .ok (e, [Token.eof stop]) := by
  unfold parse at h
  split at h
  · cases h
  · rename_i toks lexes
    obtain ⟨ts, stop, rfl, lexed⟩ := lex_eq_ok lexes
    obtain ⟨⟨e', rest⟩, read, h⟩ := exists_ok_of_bind h
    have parsed := (sound _).expr (wordy_of_lexed lexed) (by decide) read
    dsimp only at h
    split at h
    · rename_i done
      cases h
      rw [rest_eq_eof lexed parsed.reads done] at read
      exact ⟨_, ts, stop, lexes, lexed, read⟩
    · cases h

/-- What is known of the tokens of an accepted binding. -/
theorem parse_reads {source : String} {e : Expr} (h : parse source = .ok e) :
    ∃ ts stop, lex source = .ok (ts ++ [Token.eof stop]) ∧ (∀ t ∈ ts, t.Lexed)
      ∧ Reads (ts ++ [Token.eof stop]) e.yield [Token.eof stop] ∧ e.Grouped false := by
  obtain ⟨n, ts, stop, lexes, lexed, read⟩ := parse_eq_ok h
  have parsed := (sound n).expr (wordy_of_lexed lexed) (by decide) read
  exact ⟨ts, stop, lexes, lexed, parsed.reads, parsed.grouped⟩

/-- **An accepted binding is the yield of its tree, and the tree is grouped by precedence.**
Its tokens up to the end are those of the yield one by one, and no name of the yield
without type arguments stands before what would be its type arguments. -/
theorem yield_grouped_of_parse {source : String} {e : Expr} (h : parse source = .ok e) :
    ∃ ts stop, lex source = .ok (ts ++ [Token.eof stop])
      ∧ Spells (ts ++ [Token.eof stop]) e.yield [Token.eof stop]
      ∧ e.Grouped false ∧ Clear e.yield := by
  obtain ⟨ts, stop, lexes, -, reads, grouped⟩ := parse_reads h
  exact ⟨ts, stop, lexes, reads.spells, grouped, reads.clear⟩

/-- A call with nested type arguments, a shift, a named argument and three operators. -/
def sampleText : String := "f<List<int>>(a >> 1, x: -b ?? 'c')"

/-- The tokens of `sampleText` before its end. -/
def sampleTokens : List Token :=
  [⟨.identifier, "f", ⟨1, 1, 1⟩⟩, ⟨.less, "<", ⟨1, 2, 1⟩⟩, ⟨.identifier, "List", ⟨1, 3, 4⟩⟩,
   ⟨.less, "<", ⟨1, 7, 1⟩⟩, ⟨.identifier, "int", ⟨1, 8, 3⟩⟩, ⟨.greater, ">", ⟨1, 11, 1⟩⟩,
   ⟨.greater, ">", ⟨1, 12, 1⟩⟩, ⟨.leftParen, "(", ⟨1, 13, 1⟩⟩, ⟨.identifier, "a", ⟨1, 14, 1⟩⟩,
   ⟨.greater, ">", ⟨1, 16, 1⟩⟩, ⟨.greater, ">", ⟨1, 17, 1⟩⟩, ⟨.intLiteral, "1", ⟨1, 19, 1⟩⟩,
   ⟨.comma, ",", ⟨1, 20, 1⟩⟩, ⟨.identifier, "x", ⟨1, 22, 1⟩⟩, ⟨.colon, ":", ⟨1, 23, 1⟩⟩,
   ⟨.minus, "-", ⟨1, 25, 1⟩⟩, ⟨.identifier, "b", ⟨1, 26, 1⟩⟩,
   ⟨.questionQuestion, "??", ⟨1, 28, 2⟩⟩, ⟨.stringLiteral, "'c'", ⟨1, 31, 3⟩⟩,
   ⟨.rightParen, ")", ⟨1, 34, 1⟩⟩]

/-- The tree of `sampleText`. -/
def sampleTree : Expr :=
  .call
    (.ident ⟨"f", ⟨1, 1, 1⟩⟩ [.mk "List" [.mk "int" [] [] ⟨1, 8, 3⟩] [] ⟨1, 3, 9⟩] ⟨1, 1, 12⟩)
    [.mk none
      (.binary (.ident ⟨"a", ⟨1, 14, 1⟩⟩ [] ⟨1, 14, 1⟩) .shiftRight
        (.literal (.int 1) ⟨1, 19, 1⟩) ⟨1, 14, 6⟩)
      ⟨1, 14, 6⟩,
     .mk (some ⟨"x", ⟨1, 22, 1⟩⟩)
      (.binary (.unary .neg (.ident ⟨"b", ⟨1, 26, 1⟩⟩ [] ⟨1, 26, 1⟩) ⟨1, 25, 2⟩) .coalesce
        (.literal (.string "c") ⟨1, 31, 3⟩) ⟨1, 25, 9⟩)
      ⟨1, 22, 12⟩]
    ⟨1, 1, 34⟩

theorem parse_sampleText : parse sampleText = .ok sampleTree := by
  have tokens : (lex sampleText).toOption = some (sampleTokens ++ [.eof ⟨1, 35, 0⟩]) := by
    decide +kernel
  unfold parse
  cases lexes : lex sampleText with
  | error fault => simp [lexes, Except.toOption] at tokens
  | ok ts =>
      rw [lexes] at tokens
      cases tokens
      rfl

theorem yield_grouped_of_parse_sample :
    parse sampleText = .ok sampleTree
      ∧ ∃ ts stop, lex sampleText = .ok (ts ++ [Token.eof stop])
        ∧ Spells (ts ++ [Token.eof stop]) sampleTree.yield [Token.eof stop]
        ∧ sampleTree.Grouped false ∧ Clear sampleTree.yield :=
  ⟨parse_sampleText, yield_grouped_of_parse parse_sampleText⟩

end BoundMarkup.Binding
