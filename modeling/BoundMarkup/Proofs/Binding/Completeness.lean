/-
  BoundMarkup.Proofs.Binding.Completeness
  ───────────────────────────────────────
  **WHAT IS GROUPED BY PRECEDENCE IS READ.**

  A grouped tree is read from its yield at every minimum power with which it may
  begin.  The induction is on the tree, and its statement speaks about the loop:
  on the tokens of a tree the reader comes to the point where that tree, up to
  spans, is the left side and the tokens behind it are next (`Reached`).
-/
import BoundMarkup.Proofs.Binding.Soundness

namespace BoundMarkup.Binding

/-! ## §1. How an expression starts. -/

/-- An expression starts with a token that starts operands. -/
theorem Expr.nextKind_ne (e : Expr) {ts rest : List Token} (reads : Reads ts e.yield rest)
    {k : TokenKind} (other : k.startsOperand = false) : nextKind ts ≠ k := by
  obtain ⟨s, ss, yield, starts⟩ := e.exists_yield_eq
  rw [yield] at reads
  obtain ⟨t, ts, rfl, stands, -⟩ := reads_cons.1 reads
  rw [← stands.kind_eq] at starts
  rintro rfl
  exact Bool.eq_false_iff.1 other starts

/-- An expression does not start with a name and a colon. -/
theorem Expr.not_named : (e : Expr) → ∀ {ts rest : List Token}, Reads ts e.yield rest →
    nextKind rest ≠ .colon → nextKind ts.tail ≠ .colon
  | .literal value span, ts, rest, reads, other => by
      obtain ⟨t, ts, rfl, -, -, -, reads⟩ := reads_cons.1 reads
      cases reads_nil.1 reads
      exact other
  | .ident i [] span, ts, rest, reads, other => by
      obtain ⟨t, ts, rfl, -, -, -, reads⟩ := reads_cons.1 reads
      cases reads_nil.1 reads
      exact other
  | .ident i (_ :: _) span, ts, rest, reads, other => by
      obtain ⟨t, ts, rfl, -, -, -, reads⟩ := reads_cons.1 reads
      obtain ⟨less, ts, rfl, kind, -⟩ := reads_mark.1 reads
      simp [nextKind, next, kind]
  | .member target _ _ _, ts, rest, reads, other | .call target _ _, ts, rest, reads, other
  | .index target _ _, ts, rest, reads, other | .assign target _ _, ts, rest, reads, other => by
      obtain ⟨mid, reads, more⟩ := reads_append.1 reads
      obtain ⟨mark, mid, rfl, kind, -⟩ := reads_mark.1 more
      exact target.not_named reads (by simp [nextKind, next, kind])
  | .unary op operand span, ts, rest, reads, other => by
      obtain ⟨t, ts, rfl, -, reads⟩ := reads_mark.1 reads
      exact operand.nextKind_ne reads rfl
  | .binary left op right span, ts, rest, reads, other => by
      obtain ⟨mid, reads, more⟩ := reads_append.1 reads
      obtain ⟨mid', readOp, -⟩ := reads_append.1 more
      refine left.not_named reads ?_
      cases op <;>
        (obtain ⟨t, ts, rfl, kind, -⟩ := reads_cons.1 readOp
         replace kind := kind.kind_eq
         simp [nextKind, next, kind, TokenKind.ofBinary])
  | .paren inner span, ts, rest, reads, other => by
      obtain ⟨t, ts, rfl, -, reads⟩ := reads_mark.1 reads
      obtain ⟨mid, reads, -⟩ := reads_append.1 reads
      exact inner.nextKind_ne reads rfl

/-! ## §2. Both ends of a grouped operand. -/

theorem Stops.mono {least least' : Nat} {ts : List Token} (h : Stops least ts)
    (le : least ≤ least') : Stops least' ts :=
  fun p found => Nat.lt_of_lt_of_le (h p found) le

/-- Nothing continues an expression at a closing token. -/
theorem leftPower?_closing {ts : List Token} (h : nextKind ts = .rightParen
    ∨ nextKind ts = .rightBracket ∨ nextKind ts = .comma ∨ nextKind ts = .eof) :
    leftPower? ts = none := by
  have noShift : atShiftRight ts = false := by
    match ts with
    | [] | [_] => rfl
    | a :: b :: ts =>
        have kind : a.kind ≠ .greater := by
          rintro greater
          simp [nextKind, next, greater] at h
        simp [atShiftRight, kind]
  rcases h with h | h | h | h <;> simp [leftPower?, h, operator?, noShift, TokenKind.binaryOp?]

theorem Expr.endsAt_closing (e : Expr) {ts : List Token} (h : leftPower? ts = none) :
    e.EndsAt ts := by
  cases e <;> first | trivial | exact stops_of_none h

theorem power_le_succ (op : BinaryOp) : op.power.2 ≤ op.power.1 + 1 := by
  cases op <;> decide

/-- What may stand right of an operator is as tight to its own right. -/
theorem power_mono {op op' : BinaryOp} (h : op.power.2 ≤ op'.power.1) :
    op.power.2 ≤ op'.power.2 := by
  cases op' with
  | coalesce =>
      -- The only operator whose right power is the smaller: it groups to the right.
      cases op <;> first | decide | exact absurd h (by decide)
  | _ => exact Nat.le_trans h (by decide)

namespace Expr

variable {e : Expr} {op : BinaryOp} {least : Nat} {ts : List Token}

theorem FitsPostfix.begins (h : e.FitsPostfix) (least : Nat) : e.Begins least := by
  cases e <;> trivial

theorem FitsPostfix.endsAt (h : e.FitsPostfix) (ts : List Token) : e.EndsAt ts := by
  cases e <;> trivial

theorem FitsUnary.begins (h : e.FitsUnary) (least : Nat) : e.Begins least := by
  cases e <;> trivial

theorem FitsUnary.endsAt (h : e.FitsUnary) (stops : Stops unaryPower ts) : e.EndsAt ts := by
  cases e <;> trivial

theorem FitsLeft.begins (h : e.FitsLeft op.power.1) (le : least ≤ op.power.1) : e.Begins least := by
  cases e with
  | binary left op' right span =>
      have := power_le_succ op'
      exact Nat.le_trans le (by simp only [FitsLeft] at h; omega)
  | assign target value span => exact h.elim
  | _ => trivial

theorem FitsLeft.endsAt (h : e.FitsLeft op.power.1) (power : leftPower? ts = some op.power.1) :
    e.EndsAt ts := by
  cases e with
  | unary op' operand span => exact (stops_iff power).2 (power_lt_unary op).1
  | binary left op' right span => exact (stops_iff power).2 h
  | assign target value span => exact h.elim
  | _ => trivial

theorem FitsRight.begins (h : e.FitsRight op.power.2) : e.Begins op.power.2 := by
  cases e with
  | assign target value span => exact h.elim
  | binary left op' right span => exact h
  | _ => trivial

theorem FitsRight.endsAt (h : e.FitsRight op.power.2) (stops : Stops op.power.2 ts) :
    e.EndsAt ts := by
  cases e with
  | unary op' operand span => exact stops.mono (Nat.le_of_lt (power_lt_unary op).2)
  | binary left op' right span => exact stops.mono (power_mono h)
  | assign target value span => exact h.elim
  | _ => trivial

theorem FitsAssign.begins (h : e.FitsAssign) (le : least ≤ assignPower.1) : e.Begins least := by
  cases e with
  | binary left op' right span => exact Nat.le_trans le (Nat.le_of_lt (assign_lt_power op').1)
  | assign target value span => exact h.elim
  | _ => trivial

theorem FitsAssign.endsAt (h : e.FitsAssign) (power : leftPower? ts = some assignPower.1) :
    e.EndsAt ts := by
  cases e with
  | unary op' operand span => exact (stops_iff power).2 (by decide)
  | binary left op' right span => exact (stops_iff power).2 (assign_lt_power op').2
  | assign target value span => exact h.elim
  | _ => trivial

/-- The value of an assignment may be anything. -/
theorem begins_assign (e : Expr) : e.Begins assignPower.2 := by
  cases e with
  | binary left op' right span =>
      exact Nat.le_trans (by decide) (Nat.le_of_lt (assign_lt_power op').1)
  | assign target value span => exact (by decide : assignPower.2 ≤ assignPower.1)
  | _ => trivial

theorem endsAt_assign (e : Expr) (stops : Stops assignPower.2 ts) : e.EndsAt ts := by
  cases e with
  | unary op' operand span => exact stops.mono (by decide)
  | binary left op' right span =>
      exact stops.mono (Nat.le_trans (by decide) (Nat.le_of_lt (assign_lt_power op').2))
  | assign target value span => exact stops
  | _ => trivial

theorem begins_zero (e : Expr) : e.Begins 0 := by
  cases e <;> first | trivial | exact Nat.zero_le _

end Expr

/-! ## §3. The loop comes to a tree. -/

/-- On the tokens `ts`, with `n` rounds, the reader comes to the left side `e`, up to
spans, before the tokens `rest`, with rounds enough for these. -/
def Reached (n least : Nat) (ts : List Token) (e : Expr) (rest : List Token) : Prop :=
  ∃ e' n', e'.bare = e.bare ∧ 5 * rest.length ≤ n'
    ∧ expr n least ts = extend (n' + 1) least e' rest

variable {n least : Nat} {ts mid rest : List Token} {e left : Expr}

theorem Reached.expr_eq (h : Reached n least ts e rest) (stops : Stops least rest) :
    ∃ e', expr n least ts = .ok (e', rest) ∧ e'.bare = e.bare := by
  obtain ⟨e', n', same, -, reached⟩ := h
  exact ⟨e', by rw [reached, extend_of_stops stops], same⟩

theorem Reached.of_operand (h : Operand n ts left rest) (same : left.bare = e.bare)
    (enough : 5 * rest.length ≤ n) : Reached (n + 2) least ts e rest := by
  refine ⟨left, n, same, enough, ?_⟩
  rw [expr, h.operand_eq]
  rfl

/-- One form more behind what has been reached. -/
theorem Reached.extend (h : Reached n least ts left mid) (longer : rest.length < mid.length)
    (grows : ∀ {left' n'}, left'.bare = left.bare → 5 * mid.length ≤ n' →
      ∃ e', Extends n' least left' mid e' rest ∧ e'.bare = e.bare) :
    Reached n least ts e rest := by
  obtain ⟨left', n', same, enough, reached⟩ := h
  obtain ⟨e', extends_, same'⟩ := grows same enough
  -- The form takes a token at least, which pays for the round.
  obtain ⟨n', rfl⟩ : ∃ k, n' = k + 1 := ⟨n' - 1, by omega⟩
  exact ⟨e', n', same', by omega, by rw [reached, extends_.extend_eq]⟩

theorem Reads.length_le {ss : List Symbol} (h : Reads ts ss rest) : rest.length ≤ ts.length := by
  rw [h.spells.length_eq]
  omega

/-- The rounds that are left for `ts` reach the tree `e`, however tightly it is bound. -/
def Complete (e : Expr) : Prop :=
  ∀ {called : Bool} {n least : Nat} {ts rest : List Token}, e.Grouped called →
    (called = true → nextKind rest = .leftParen) → least ≤ postfixPower → e.Begins least →
    e.EndsAt rest → Reads ts e.yield rest → 5 * ts.length + 2 ≤ n → Reached n least ts e rest

theorem Complete.expr_eq (h : Complete e) (grouped : e.Grouped false) (bound : least ≤ postfixPower)
    (begins : e.Begins least) (ends : e.EndsAt rest) (reads : Reads ts e.yield rest)
    (stops : Stops least rest) (enough : 5 * ts.length + 2 ≤ n) :
    ∃ e', expr n least ts = .ok (e', rest) ∧ e'.bare = e.bare :=
  (h grouped (by simp) bound begins ends reads enough).expr_eq stops

/-- Up to a closing token, whatever the tree. -/
theorem Complete.closing (h : Complete e) (grouped : e.Grouped false)
    (reads : Reads ts e.yield rest) (closing : leftPower? rest = none)
    (enough : 5 * ts.length + 2 ≤ n) :
    ∃ e', expr n 0 ts = .ok (e', rest) ∧ e'.bare = e.bare :=
  h.expr_eq grouped (Nat.zero_le _) e.begins_zero (e.endsAt_closing closing) reads
    (stops_of_none closing) enough

/-! ## §4. One case for each kind of tree. -/

theorem complete_literal (value : Constant) (span : Span) : Complete (.literal value span) := by
  intro called n least ts rest _ _ _ _ _ reads enough
  obtain ⟨t, ts, rfl, stands, -, -, reads⟩ := reads_cons.1 reads
  obtain rfl := reads_nil.1 reads
  obtain ⟨n, rfl⟩ : ∃ k, n = k + 2 := ⟨n - 2, by omega⟩
  rw [List.length_cons] at enough
  exact .of_operand (.literal stands.1 stands.2) rfl (by omega)

theorem complete_ident (i : Ident) (typeArgs : List TypeExpr) (span : Span) :
    Complete (.ident i typeArgs span) := by
  intro called n least ts rest grouped call _ _ _ reads enough
  obtain ⟨t, ts, args', last, rfl, word, name, read, same⟩ :=
    callTypeArgs_complete Token.span reads (grouped.imp_right call)
  have shorter := reads.length_le
  obtain ⟨n, rfl⟩ : ∃ k, n = k + 2 := ⟨n - 2, by omega⟩
  refine .of_operand (.ident word read) ?_ (by simp only [List.length_cons] at *; omega)
  simp only [Expr.bare, Ident.bare, same, name]

theorem complete_paren {inner : Expr} (span : Span) (h : Complete inner) :
    Complete (.paren inner span) := by
  intro called n least ts rest grouped _ _ _ _ reads enough
  obtain ⟨t, ts, rfl, opened, inside⟩ := reads_mark.1 reads
  obtain ⟨mid, readInner, more⟩ := reads_append.1 inside
  obtain ⟨close, mid, rfl, closed, done⟩ := reads_mark.1 more
  obtain rfl := reads_nil.1 done
  have shorter := readInner.length_le
  obtain ⟨n, rfl⟩ : ∃ k, n = k + 2 := ⟨n - 2, by omega⟩
  simp only [List.length_cons] at enough shorter
  have closing : leftPower? (close :: mid) = none := leftPower?_closing (Or.inl closed)
  obtain ⟨e', read, same⟩ := h.closing (n := n) grouped readInner closing (by omega)
  exact .of_operand (.paren opened read closed) (by simp only [Expr.bare, same]) (by omega)

theorem complete_unary {operand : Expr} (op : UnaryOp) (span : Span) (h : Complete operand) :
    Complete (.unary op operand span) := by
  intro called n least ts rest grouped _ _ _ ends reads enough
  obtain ⟨fits, grouped⟩ := grouped
  obtain ⟨t, ts, rfl, sign, reads⟩ := reads_mark.1 reads
  have shorter := reads.length_le
  obtain ⟨n, rfl⟩ : ∃ k, n = k + 2 := ⟨n - 2, by omega⟩
  rw [List.length_cons] at enough
  -- What stops the right end of a unary operator stops its operand.
  obtain ⟨e', read, same⟩ := h.expr_eq (n := n) grouped (by decide) (fits.begins _)
    (fits.endsAt ends) reads ends (by omega)
  have unary : t.kind.unaryOp? = some op := by rw [sign, unaryOp?_ofUnary]
  exact .of_operand (.unary unary read) (by simp only [Expr.bare, same]) (by omega)

theorem complete_member {target : Expr} (m : Ident) (typeArgs : List TypeExpr) (span : Span)
    (h : Complete target) : Complete (.member target m typeArgs span) := by
  intro called n least ts rest grouped call bound _ _ reads enough
  obtain ⟨some_args, fits, grouped⟩ := grouped
  obtain ⟨mid, reads, more⟩ := reads_append.1 reads
  obtain ⟨dot, mid, rfl, mark, more⟩ := reads_mark.1 more
  obtain ⟨name, mid, args', last, rfl, word, named, read, same⟩ :=
    callTypeArgs_complete Token.span more (some_args.imp_right call)
  have shorter := more.length_le
  refine (h grouped (by simp) bound (fits.begins least) (fits.endsAt _) reads enough).extend
    (by simp only [List.length_cons] at *; omega) ?_
  intro left' n' same' _
  refine ⟨_, .member bound mark word read, ?_⟩
  simp only [Expr.bare, Ident.bare, same, same', named]

theorem complete_index {target index : Expr} (span : Span) (h : Complete target)
    (h' : Complete index) : Complete (.index target index span) := by
  intro called n least ts rest grouped _ bound _ _ reads enough
  obtain ⟨fits, grouped, grouped'⟩ := grouped
  obtain ⟨mid, readTarget, more⟩ := reads_append.1 reads
  obtain ⟨opened, mid, rfl, mark, inside⟩ := reads_mark.1 more
  obtain ⟨mid', readIndex, last⟩ := reads_append.1 inside
  obtain ⟨close, mid', rfl, closed, done⟩ := reads_mark.1 last
  obtain rfl := reads_nil.1 done
  have shorter := readIndex.length_le
  simp only [List.length_cons] at shorter
  refine (h grouped (by simp) bound (fits.begins least) (fits.endsAt _) readTarget enough).extend
    (by simp only [List.length_cons]; omega) ?_
  intro left' n' same' enough'
  rw [List.length_cons] at enough'
  -- Inside the brackets any power will do, for the closing one has none.
  have closing : leftPower? (close :: mid') = none := leftPower?_closing (Or.inr (Or.inl closed))
  obtain ⟨index', read, same⟩ := h'.closing (n := n') grouped' readIndex closing (by omega)
  exact ⟨_, .index bound mark read closed, by simp only [Expr.bare, same, same']⟩

theorem complete_assign {target value : Expr} (span : Span) (h : Complete target)
    (h' : Complete value) : Complete (.assign target value span) := by
  intro called n least ts rest grouped _ bound begins ends reads enough
  obtain ⟨fits, grouped, grouped'⟩ := grouped
  obtain ⟨mid, reads, more⟩ := reads_append.1 reads
  obtain ⟨sign, mid, rfl, mark, more⟩ := reads_mark.1 more
  have kind : nextKind (sign :: mid) = .equal := mark
  have power : leftPower? (sign :: mid) = some assignPower.1 := by simp [leftPower?, kind]
  have shorter := more.length_le
  refine (h grouped (by simp) bound (fits.begins begins) (fits.endsAt power) reads enough).extend
    (by simp only [List.length_cons] at *; omega) ?_
  intro left' n' same' enough'
  rw [List.length_cons] at enough'
  obtain ⟨value', read, same⟩ := h'.expr_eq (n := n') grouped' (by decide) value.begins_assign
    (value.endsAt_assign ends) more ends (by omega)
  exact ⟨_, .assign begins mark read, by simp only [Expr.bare, same, same']⟩

theorem complete_binary {left right : Expr} (op : BinaryOp) (span : Span) (h : Complete left)
    (h' : Complete right) : Complete (.binary left op right span) := by
  intro called n least ts rest grouped _ bound begins ends reads enough
  obtain ⟨fits, fits', grouped, grouped'⟩ := grouped
  obtain ⟨mid, reads, more⟩ := reads_append.1 reads
  obtain ⟨mid', readOp, more⟩ := reads_append.1 more
  have mark := operator?_of_reads readOp (right.nextKind_ne more rfl)
  have power := leftPower?_of_operator? mark
  have shorter := more.length_le
  have longer : mid'.length < mid.length := by
    have := readOp.spells.length_eq
    cases op <;> simp [operatorYield] at this <;> omega
  refine (h grouped (by simp) bound (fits.begins begins) (fits.endsAt power) reads enough).extend
    (by omega) ?_
  intro left' n' same' enough'
  obtain ⟨right', read, same⟩ := h'.expr_eq (n := n') grouped'
    (Nat.le_of_lt (power_lt_postfixPower op).2) fits'.begins (fits'.endsAt ends) more ends (by omega)
  exact ⟨_, .binary begins mark read, by simp only [Expr.bare, same, same']⟩

/-! ## §5. Arguments. -/

/-- What is passed for the parameter. -/
def Argument.value : Argument → Expr
  | .mk _ value _ => value

theorem argumentList_last {n : Nat} {ts start mid : List Token} {name : Option Ident} {value : Expr}
    (named : argumentName ts = (name, start)) (read : expr n 0 start = .ok (value, mid))
    (other : nextKind mid ≠ .comma) :
    ∃ span, argumentList (n + 1) ts = .ok ([.mk name value span], mid) := by
  refine ⟨(next ts).span.merge value.span, ?_⟩
  rw [argumentList, named]
  simp only [read, bind, Except.bind, if_neg other]

theorem argumentList_cons {n : Nat} {ts start mid rest : List Token} {name : Option Ident}
    {value : Expr} {comma : Token} {more : List Argument} (named : argumentName ts = (name, start))
    (read : expr n 0 start = .ok (value, comma :: mid)) (isComma : comma.kind = .comma)
    (readMore : argumentList n mid = .ok (more, rest)) :
    ∃ span, argumentList (n + 1) ts = .ok (.mk name value span :: more, rest) := by
  refine ⟨(next ts).span.merge value.span, ?_⟩
  have kind : nextKind (comma :: mid) = .comma := isComma
  rw [argumentList, named]
  simp only [read, bind, Except.bind, if_pos kind, List.tail_cons, readMore]

theorem argumentName_complete {name : Option Ident} {value : Expr} {span : Span}
    (reads : Reads ts (Argument.mk name value span).yield mid) (other : nextKind mid ≠ .colon) :
    ∃ name' start, argumentName ts = (name', start)
      ∧ name'.map Ident.bare = name.map Ident.bare ∧ Reads start value.yield mid
      ∧ start.length ≤ ts.length := by
  rcases argumentName_cases ts with ⟨word, colon, start, rfl, isWord, isColon, found⟩ | ⟨not, found⟩
  · cases name with
    | none => exact absurd isColon (value.not_named reads other)
    | some i =>
        obtain ⟨_, _, ⟨⟩, stands, -, -, more⟩ := reads_cons.1 reads
        obtain ⟨_, _, ⟨⟩, -, more⟩ := reads_mark.1 more
        refine ⟨_, start, found, ?_, more, by simp; omega⟩
        simp only [Option.map_some, Ident.bare, stands.2]
  · cases name with
    | none => exact ⟨none, ts, found, rfl, reads, Nat.le_refl _⟩
    | some i =>
        obtain ⟨word, ts, rfl, stands, -, -, more⟩ := reads_cons.1 reads
        obtain ⟨colon, ts, rfl, isColon, -⟩ := reads_mark.1 more
        exact absurd ⟨stands.1, isColon⟩ not

theorem argumentList_complete {args : List Argument} {a : Argument}
    (all : ∀ b ∈ a :: args, Complete b.value) (grouped : Argument.AllGrouped (a :: args))
    (reads : Reads ts (Argument.listYield (a :: args)) rest)
    (closes : nextKind rest = .rightParen) (enough : 5 * ts.length + 3 ≤ n) :
    ∃ args', argumentList n ts = .ok (args', rest)
      ∧ Argument.bares args' = Argument.bares (a :: args) := by
  induction args generalizing a ts n with
  | nil =>
      obtain ⟨name, value, span⟩ := a
      obtain ⟨n, rfl⟩ : ∃ k, n = k + 1 := ⟨n - 1, by omega⟩
      rw [Argument.listYield, Argument.tailYield, List.append_nil] at reads
      obtain ⟨name', start, named, sameName, readValue, shorter⟩ :=
        argumentName_complete reads (by rw [closes]; decide)
      have complete : Complete value := all _ List.mem_cons_self
      obtain ⟨value', read, same⟩ := complete.closing (n := n) grouped.1 readValue
        (leftPower?_closing (Or.inl closes)) (by omega)
      obtain ⟨span', found⟩ := argumentList_last named read (by rw [closes]; decide)
      exact ⟨_, found, by simp only [Argument.bares, Argument.bare, sameName, same]⟩
  | cons b args ih =>
      obtain ⟨name, value, span⟩ := a
      obtain ⟨n, rfl⟩ : ∃ k, n = k + 1 := ⟨n - 1, by omega⟩
      obtain ⟨mid, reads, more⟩ := reads_append.1 reads
      obtain ⟨comma, mid, rfl, isComma, readMore⟩ := reads_mark.1 more
      have kind : nextKind (comma :: mid) = .comma := isComma
      obtain ⟨name', start, named, sameName, readValue, shorter⟩ :=
        argumentName_complete reads (by rw [kind]; decide)
      have longer := readValue.length_le
      rw [List.length_cons] at longer
      have complete : Complete value := all _ List.mem_cons_self
      obtain ⟨value', read, same⟩ := complete.closing (n := n) grouped.1 readValue
        (leftPower?_closing (Or.inr (Or.inr (Or.inl kind)))) (by omega)
      obtain ⟨more', readAll, sameAll⟩ := ih (n := n)
        (fun c mem => all c (List.mem_cons_of_mem _ mem)) grouped.2 readMore (by omega)
      obtain ⟨span', found⟩ := argumentList_cons named read isComma readAll
      refine ⟨_, found, ?_⟩
      rw [Argument.bares, sameAll]
      simp only [Argument.bares, Argument.bare, sameName, same]

theorem arguments_complete {args : List Argument} (all : ∀ a ∈ args, Complete a.value)
    (grouped : Argument.AllGrouped args) (reads : Reads ts (Argument.listYield args) rest)
    (closes : nextKind rest = .rightParen) (enough : 5 * ts.length + 4 ≤ n) :
    ∃ args', arguments n ts = .ok (args', rest) ∧ Argument.bares args' = Argument.bares args := by
  obtain ⟨n, rfl⟩ : ∃ k, n = k + 1 := ⟨n - 1, by omega⟩
  rw [arguments]
  cases args with
  | nil =>
      obtain rfl := reads_nil.1 reads
      exact ⟨[], if_pos closes, rfl⟩
  | cons a args =>
      have opens : nextKind ts ≠ .rightParen := by
        obtain ⟨mid, reads, -⟩ := reads_append.1 reads
        obtain ⟨_ | i, value, span⟩ := a
        · exact value.nextKind_ne reads rfl
        · obtain ⟨t, ts, rfl, stands, -⟩ := reads_cons.1 reads
          simp [nextKind, next, stands.1]
      rw [if_neg opens]
      exact argumentList_complete all grouped reads closes (by omega)

theorem complete_call {callee : Expr} {args : List Argument} (span : Span) (h : Complete callee)
    (all : ∀ a ∈ args, Complete a.value) : Complete (.call callee args span) := by
  intro called n least ts rest grouped _ bound _ _ reads enough
  obtain ⟨fits, grouped, allGrouped⟩ := grouped
  obtain ⟨mid, readCallee, more⟩ := reads_append.1 reads
  obtain ⟨opened, mid, rfl, mark, inside⟩ := reads_mark.1 more
  obtain ⟨mid', readArgs, last⟩ := reads_append.1 inside
  obtain ⟨close, mid', rfl, closed, done⟩ := reads_mark.1 last
  obtain rfl := reads_nil.1 done
  have shorter := readArgs.length_le
  simp only [List.length_cons] at shorter
  have called : nextKind (opened :: mid) = .leftParen := mark
  refine (h grouped (fun _ => called) bound (fits.begins least) (fits.endsAt _) readCallee
    enough).extend (by simp only [List.length_cons]; omega) ?_
  intro left' n' same' enough'
  rw [List.length_cons] at enough'
  have closing : nextKind (close :: mid') = .rightParen := closed
  obtain ⟨args', read, same⟩ :=
    arguments_complete (n := n') all allGrouped readArgs closing (by omega)
  exact ⟨_, .call bound mark read closed, by simp only [Expr.bare, same, same']⟩

/-! ## §6. Every tree. -/

mutual

/-- **Every grouped tree is reached.** -/
theorem Expr.complete : (e : Expr) → Complete e
  | .literal value span => complete_literal value span
  | .ident i typeArgs span => complete_ident i typeArgs span
  | .member target m typeArgs span => complete_member m typeArgs span (Expr.complete target)
  | .call callee args span =>
      complete_call span (Expr.complete callee) (Argument.complete_values args)
  | .index target at_ span => complete_index span (Expr.complete target) (Expr.complete at_)
  | .unary op operand span => complete_unary op span (Expr.complete operand)
  | .binary left op right span =>
      complete_binary op span (Expr.complete left) (Expr.complete right)
  | .assign target value span => complete_assign span (Expr.complete target) (Expr.complete value)
  | .paren inner span => complete_paren span (Expr.complete inner)

theorem Argument.complete_values : (args : List Argument) → ∀ a ∈ args, Complete a.value
  | [] => nofun
  | .mk _ value _ :: args =>
      List.forall_mem_cons.2 ⟨Expr.complete value, Argument.complete_values args⟩

end

/-- Tokens along the yield of a grouped tree are parsed to that tree. -/
theorem parseTokens_of_reads {stop : Token} (grouped : e.Grouped false)
    (reads : Reads ts e.yield [stop]) (done : stop.kind = .eof) :
    ∃ e', parseTokens ts = .ok e' ∧ e'.bare = e.bare := by
  have closing : leftPower? [stop] = none :=
    leftPower?_closing (Or.inr (Or.inr (Or.inr done)))
  obtain ⟨e', read, same⟩ := Complete.closing (n := 5 * ts.length + 5) (Expr.complete e) grouped
    reads closing (by omega)
  have last : nextKind [stop] = .eof := done
  refine ⟨e', ?_, same⟩
  simp only [parseTokens, read, bind, Except.bind, if_pos last]

/-- **A grouped tree is parsed from its yield, up to spans**, if no name of the yield
without type arguments stands before what would be its type arguments. -/
theorem parseTokens_of_grouped {stop : Token} (grouped : e.Grouped false) (clear : Clear e.yield)
    (spells : Spells ts e.yield [stop]) (done : stop.kind = .eof) :
    ∃ e', parseTokens ts = .ok e' ∧ e'.bare = e.bare := by
  refine parseTokens_of_reads grouped (spells.reads clear ?_) done
  rw [done]
  decide

/-- The yield of the sample, the closing brackets of its nested lists apart and the two
of its shift side by side. -/
theorem sampleTree_yield : sampleTree.yield =
    [.name "f", .mark .less, .name "List", .mark .less, .name "int", .mark .greater,
     .mark .greater, .mark .leftParen, .plain "a", .shift, .mark .greater, .constant (.int 1),
     .mark .comma, .name "x", .mark .colon, .mark .minus, .plain "b", .mark .questionQuestion,
     .constant (.string "c"), .mark .rightParen] := by
  rfl

theorem parseTokens_of_grouped_sample :
    sampleTree.Grouped false ∧ Clear sampleTree.yield
      ∧ Spells (sampleTokens ++ [.eof ⟨1, 35, 0⟩]) sampleTree.yield [.eof ⟨1, 35, 0⟩]
      ∧ ∃ e', parseTokens (sampleTokens ++ [.eof ⟨1, 35, 0⟩]) = .ok e'
        ∧ e'.bare = sampleTree.bare := by
  have grouped : sampleTree.Grouped false := by
    simp [sampleTree, Expr.Grouped, Argument.AllGrouped, Argument.IsGrouped, Expr.FitsPostfix,
      Expr.FitsLeft, Expr.FitsRight, Expr.FitsUnary]
  have clear : Clear sampleTree.yield := by
    rw [sampleTree_yield]
    simp [Clear, not_opensCall_of_not_mem, Symbol.literalKind]
  have spells : Spells (sampleTokens ++ [.eof ⟨1, 35, 0⟩]) sampleTree.yield [.eof ⟨1, 35, 0⟩] := by
    rw [sampleTree_yield]
    simp only [Spells, sampleTokens, Symbol.Stands, List.cons_append, List.nil_append]
    simp only [TokenKind.isLiteral, atShiftRight, reduceCtorEq, false_implies, true_and, and_true]
    exact ⟨by decide, rfl, rfl⟩
  exact ⟨grouped, clear, spells, parseTokens_of_grouped grouped clear spells rfl⟩

end BoundMarkup.Binding
