/-
  BoundMarkup.Proofs.Binding.Rounds
  ─────────────────────────────────
  **ONE ROUND OF EACH READER.**

  The readers of expressions call each other with one round less.  What a single
  round can do is said once here, guards included, as a relation for each reader
  with a choice:

    • `Operand` — what an operand is,
    • `Extends` — how a left side grows by one postfix form or operator,
    • `Stops` — when it does not grow any more.

  Each comes with an equivalence to the reader, so that nothing later opens the
  readers themselves.
-/
import BoundMarkup.Proofs.Binding.TypeArguments
import BoundMarkup.Proofs.Steps

namespace BoundMarkup.Binding

/-! ## §1. Small readers. -/

theorem expect_eq_ok {kind : TokenKind} {ts rest : List Token} {t : Token} :
    expect kind ts = .ok (t, rest) ↔ ts = t :: rest ∧ t.kind = kind := by
  cases ts with
  | nil => simp [expect, faultAt]
  | cons u ts =>
      rw [expect]
      constructor
      · intro h
        split at h
        · cases h
          exact ⟨rfl, ‹_›⟩
        · simp [faultAt] at h
      · rintro ⟨⟨⟩, rfl⟩
        exact if_pos rfl

theorem nextKind_cons {ts : List Token} {k : TokenKind} (h : nextKind ts = k) (other : k ≠ .eof) :
    ∃ t ts', ts = t :: ts' ∧ t.kind = k := by
  cases ts with
  | nil => exact absurd h.symm other
  | cons t ts => exact ⟨t, ts, rfl, h⟩

theorem ofBinary_of_binaryOp? {k : TokenKind} {op : BinaryOp} (h : k.binaryOp? = some op) :
    k = .ofBinary op ∧ operatorYield op = [.mark k] := by
  cases k <;> cases h <;> exact ⟨rfl, rfl⟩

theorem ofUnary_of_unaryOp? {k : TokenKind} {op : UnaryOp} (h : k.unaryOp? = some op) :
    k = .ofUnary op := by
  cases k <;> cases h <;> rfl

theorem unaryOp?_ofUnary (op : UnaryOp) : (TokenKind.ofUnary op).unaryOp? = some op := by
  cases op <;> rfl

/-- The tokens of an operator are passed over. -/
theorem operator?_reads {ts rest : List Token} {op : BinaryOp} (h : operator? ts = some (op, rest)) :
    Reads ts (operatorYield op) rest := by
  unfold operator? at h
  split at h
  · rename_i shifts
    cases h
    match ts, shifts with
    | a :: b :: ts, shifts =>
        have kinds := shifts
        simp only [atShiftRight, Bool.and_eq_true, beq_iff_eq] at kinds
        exact ⟨kinds.1.1.1, fun _ => shifts, by simp, kinds.1.1.2, by simp, by simp, Reads.nil _⟩
  · obtain ⟨op, found, done⟩ := Option.map_eq_some_iff.1 h
    cases done
    obtain ⟨kind, yield⟩ := ofBinary_of_binaryOp? found
    rw [yield, kind]
    obtain ⟨t, ts, rfl, kind⟩ := nextKind_cons kind (by cases op <;> decide)
    exact reads_mark.2 ⟨t, ts, rfl, kind, Reads.nil _⟩

/-- An operator is found where its tokens stand, unless a `>` follows. -/
theorem operator?_of_reads {ts rest : List Token} {op : BinaryOp}
    (h : Reads ts (operatorYield op) rest) (other : nextKind rest ≠ .greater) :
    operator? ts = some (op, rest) := by
  by_cases shift : op = .shiftRight
  · subst shift
    obtain ⟨a, ts, rfl, -, shifts, -, h⟩ := reads_cons.1 h
    obtain ⟨b, ts, rfl, -, h⟩ := reads_mark.1 h
    cases reads_nil.1 h
    rw [operator?, if_pos (shifts rfl)]
    rfl
  · have yield : operatorYield op = [.mark (.ofBinary op)] := by cases op <;> first | rfl | contradiction
    rw [yield] at h
    obtain ⟨t, ts, rfl, kind, h⟩ := reads_mark.1 h
    obtain rfl := reads_nil.1 h
    have single : atShiftRight (t :: ts) = false := by
      cases ts with
      | nil => rfl
      | cons u ts => simp [atShiftRight, show u.kind ≠ .greater from other]
    have found : t.kind.binaryOp? = some op := by
      rw [kind]
      cases op <;> first | rfl | contradiction
    simp [operator?, single, nextKind, next, found]

theorem nextKind_of_operator? {ts rest : List Token} {op : BinaryOp}
    (h : operator? ts = some (op, rest)) : nextKind ts = .ofBinary op := by
  have reads := operator?_reads h
  cases op <;> (obtain ⟨t, ts, rfl, kind, -⟩ := reads_cons.1 reads; exact kind)

/-! ## §2. Operands. -/

/-- **What an operand is**, read with `n` rounds left for what is inside it. -/
inductive Operand (n : Nat) : List Token → Expr → List Token → Prop where
  | unary {t ts op inner rest} (sign : t.kind.unaryOp? = some op)
      (read : expr n unaryPower ts = .ok (inner, rest)) :
      Operand n (t :: ts) (.unary op inner (t.span.merge inner.span)) rest
  | literal {t ts value} (literal : t.kind.isLiteral = true) (read : constantOf t = .ok value) :
      Operand n (t :: ts) (.literal value t.span) ts
  | ident {t ts typeArgs last rest} (word : t.kind = .identifier)
      (read : callTypeArgs t.span ts = (typeArgs, last, rest)) :
      Operand n (t :: ts)
        (.ident ⟨t.lexeme, t.span⟩ typeArgs
          (if typeArgs.isEmpty then t.span else t.span.merge last)) rest
  | paren {t ts inner close rest} (opened : t.kind = .leftParen)
      (read : expr n 0 ts = .ok (inner, close :: rest)) (closed : close.kind = .rightParen) :
      Operand n (t :: ts) (.paren inner (t.span.merge close.span)) rest

theorem operand_eq_ok {n : Nat} {ts rest : List Token} {e : Expr}
    (h : operand (n + 1) ts = .ok (e, rest)) : Operand n ts e rest := by
  cases ts with
  | nil => simp [operand, faultAt] at h
  | cons t ts =>
      rw [operand] at h
      split at h
      case h_1 op sign =>
        obtain ⟨⟨inner, rest'⟩, read, done⟩ := exists_ok_of_bind h
        cases done
        exact .unary sign read
      case h_2 =>
        split at h
        · rename_i literal
          split at h
          · cases h
            exact .literal literal ‹_›
          · cases h
        · split at h
          · rename_i word
            rcases read : callTypeArgs t.span ts with ⟨typeArgs, last, rest'⟩
            rw [read] at h
            cases h
            exact .ident word read
          · split at h
            · rename_i opened
              obtain ⟨⟨inner, rest'⟩, read, h⟩ := exists_ok_of_bind h
              obtain ⟨⟨close, rest''⟩, closed, done⟩ := exists_ok_of_bind h
              cases done
              obtain ⟨rfl, closing⟩ := expect_eq_ok.1 closed
              exact .paren opened read closing
            · cases h

theorem Operand.operand_eq {n : Nat} {ts rest : List Token} {e : Expr} (h : Operand n ts e rest) :
    operand (n + 1) ts = .ok (e, rest) := by
  cases h with
  | unary sign read => simp only [operand, sign, read]; rfl
  | @literal t ts value literal read =>
      have noSign : t.kind.unaryOp? = none := by
        cases hk : t.kind <;> simp_all [TokenKind.isLiteral, TokenKind.unaryOp?]
      simp only [operand, noSign, literal, read, if_true]
  | ident word read =>
      simp only [operand, word, TokenKind.unaryOp?, TokenKind.isLiteral, read]
      rfl
  | @paren t ts inner close rest opened read closed =>
      have closing : expect .rightParen (close :: rest) = .ok (close, rest) :=
        expect_eq_ok.2 ⟨rfl, closed⟩
      simp only [operand, opened, TokenKind.unaryOp?, TokenKind.isLiteral, read, bind, Except.bind,
        closing]
      rfl

/-! ## §3. Extensions of a left side. -/

/-- The power with which the next token would continue an expression. -/
def leftPower? (ts : List Token) : Option Nat :=
  match nextKind ts with
  | .dot | .leftParen | .leftBracket => some postfixPower
  | .equal => some assignPower.1
  | _ => (operator? ts).map (·.1.power.1)

/-- Nothing that binds with at least the power `least` comes next. -/
def Stops (least : Nat) (ts : List Token) : Prop := ∀ p, leftPower? ts = some p → p < least

/-- **How a left side grows by one form**, with `n` rounds left for what is inside it. -/
inductive Extends (n least : Nat) (left : Expr) : List Token → Expr → List Token → Prop where
  | member {dot name ts typeArgs last rest} (tight : least ≤ postfixPower)
      (mark : dot.kind = .dot) (word : name.kind = .identifier)
      (read : callTypeArgs name.span ts = (typeArgs, last, rest)) :
      Extends n least left (dot :: name :: ts)
        (.member left ⟨name.lexeme, name.span⟩ typeArgs (left.span.merge last)) rest
  | call {opened ts args close rest} (tight : least ≤ postfixPower)
      (mark : opened.kind = .leftParen) (read : arguments n ts = .ok (args, close :: rest))
      (closed : close.kind = .rightParen) :
      Extends n least left (opened :: ts) (.call left args (left.span.merge close.span)) rest
  | index {opened ts index close rest} (tight : least ≤ postfixPower)
      (mark : opened.kind = .leftBracket) (read : expr n 0 ts = .ok (index, close :: rest))
      (closed : close.kind = .rightBracket) :
      Extends n least left (opened :: ts) (.index left index (left.span.merge close.span)) rest
  | assign {sign ts value rest} (tight : least ≤ assignPower.1) (mark : sign.kind = .equal)
      (read : expr n assignPower.2 ts = .ok (value, rest)) :
      Extends n least left (sign :: ts) (.assign left value (left.span.merge value.span)) rest
  | binary {ts op mid right rest} (tight : least ≤ op.power.1) (mark : operator? ts = some (op, mid))
      (read : expr n op.power.2 mid = .ok (right, rest)) :
      Extends n least left ts (.binary left op right (left.span.merge right.span)) rest

theorem leftPower?_of_operator? {ts rest : List Token} {op : BinaryOp}
    (h : operator? ts = some (op, rest)) : leftPower? ts = some op.power.1 := by
  have kind := nextKind_of_operator? h
  unfold leftPower?
  rw [kind, h]
  cases op <;> rfl

theorem extend_of_stops {n least : Nat} {left : Expr} {ts : List Token} (h : Stops least ts) :
    extend (n + 1) least left ts = .ok (left, ts) := by
  unfold extend
  split
  case h_1 k | h_2 k | h_3 k => exact if_pos (h _ (by simp [leftPower?, k]))
  case h_4 k => exact if_pos (h _ (by simp [leftPower?, k]))
  case h_5 =>
    split
    · rfl
    · rename_i op rest found
      exact if_pos (h _ (leftPower?_of_operator? found))

/-- Where an operator stands, `extend` looks for operators. -/
theorem extend_at_operator {n least : Nat} {left : Expr} {ts mid : List Token} {op : BinaryOp}
    (h : operator? ts = some (op, mid)) :
    extend (n + 1) least left ts =
      if op.power.1 < least then .ok (left, ts)
      else expr n op.power.2 mid >>= fun (right, rest) =>
        extend n least (.binary left op right (left.span.merge right.span)) rest := by
  have kind := nextKind_of_operator? h
  rw [extend]
  split
  case h_1 k | h_2 k | h_3 k | h_4 k => rw [k] at kind; cases op <;> cases kind
  case h_5 => rw [h]

theorem Extends.extend_eq {n least : Nat} {left left' : Expr} {ts mid : List Token}
    (h : Extends n least left ts left' mid) :
    extend (n + 1) least left ts = extend n least left' mid := by
  cases h with
  | @member dot name ts typeArgs last rest tight mark word read =>
      have kind : nextKind (dot :: name :: ts) = .dot := mark
      rw [extend, kind]
      simp only [Nat.not_lt.2 tight, if_false, List.tail_cons, word, if_true, read]
  | @call opened ts args close rest tight mark read closed =>
      have kind : nextKind (opened :: ts) = .leftParen := mark
      have closing : expect .rightParen (close :: mid) = .ok (close, mid) :=
        expect_eq_ok.2 ⟨rfl, closed⟩
      rw [extend, kind]
      simp only [Nat.not_lt.2 tight, if_false, List.tail_cons, read, bind, Except.bind, closing]
  | @index opened ts index close rest tight mark read closed =>
      have kind : nextKind (opened :: ts) = .leftBracket := mark
      have closing : expect .rightBracket (close :: mid) = .ok (close, mid) :=
        expect_eq_ok.2 ⟨rfl, closed⟩
      rw [extend, kind]
      simp only [Nat.not_lt.2 tight, if_false, List.tail_cons, read, bind, Except.bind, closing]
  | @assign sign ts value rest tight mark read =>
      have kind : nextKind (sign :: ts) = .equal := mark
      rw [extend, kind]
      simp only [Nat.not_lt.2 tight, if_false, List.tail_cons, read, bind, Except.bind]
  | binary tight mark read =>
      rw [extend_at_operator mark, if_neg (Nat.not_lt.2 tight), read]
      rfl

/-- **A left side stops, or it grows by one form and is extended further.** -/
theorem extend_eq_ok {n least : Nat} {left e : Expr} {ts rest : List Token}
    (h : extend (n + 1) least left ts = .ok (e, rest)) :
    (Stops least ts ∧ e = left ∧ rest = ts)
      ∨ ∃ left' mid, Extends n least left ts left' mid ∧ extend n least left' mid = .ok (e, rest) := by
  by_cases low : Stops least ts
  · rw [extend_of_stops low] at h
    cases h
    exact Or.inl ⟨low, rfl, rfl⟩
  -- The next power is high enough, so the branch of the next token is taken.
  have binds : ∀ {p}, leftPower? ts = some p → ¬ p < least := fun {p} found lt =>
    low (fun p' found' => Option.some.inj (found.symm.trans found') ▸ lt)
  refine Or.inr ?_
  rw [extend] at h
  split at h
  case h_1 kind =>
    have tight := binds (show leftPower? ts = some postfixPower by simp [leftPower?, kind])
    obtain ⟨dot, ts, rfl, mark⟩ := nextKind_cons kind (by decide)
    rw [if_neg tight] at h
    cases ts with
    | nil => cases h
    | cons name ts =>
        simp only [List.tail_cons] at h
        split at h
        · rename_i word
          rcases read : callTypeArgs name.span ts with ⟨typeArgs, last, mid⟩
          rw [read] at h
          exact ⟨_, _, .member (Nat.not_lt.1 tight) mark word read, h⟩
        · cases h
  case h_2 kind =>
    have tight := binds (show leftPower? ts = some postfixPower by simp [leftPower?, kind])
    obtain ⟨opened, ts, rfl, mark⟩ := nextKind_cons kind (by decide)
    rw [if_neg tight] at h
    obtain ⟨⟨args, mid⟩, read, h⟩ := exists_ok_of_bind h
    obtain ⟨⟨close, mid'⟩, closed, more⟩ := exists_ok_of_bind h
    obtain ⟨rfl, closing⟩ := expect_eq_ok.1 closed
    exact ⟨_, _, .call (Nat.not_lt.1 tight) mark read closing, more⟩
  case h_3 kind =>
    have tight := binds (show leftPower? ts = some postfixPower by simp [leftPower?, kind])
    obtain ⟨opened, ts, rfl, mark⟩ := nextKind_cons kind (by decide)
    rw [if_neg tight] at h
    obtain ⟨⟨index, mid⟩, read, h⟩ := exists_ok_of_bind h
    obtain ⟨⟨close, mid'⟩, closed, more⟩ := exists_ok_of_bind h
    obtain ⟨rfl, closing⟩ := expect_eq_ok.1 closed
    exact ⟨_, _, .index (Nat.not_lt.1 tight) mark read closing, more⟩
  case h_4 kind =>
    have tight := binds (show leftPower? ts = some assignPower.1 by simp [leftPower?, kind])
    obtain ⟨sign, ts, rfl, mark⟩ := nextKind_cons kind (by decide)
    rw [if_neg tight] at h
    obtain ⟨⟨value, mid⟩, read, h⟩ := exists_ok_of_bind h
    exact ⟨_, _, .assign (Nat.not_lt.1 tight) mark read, h⟩
  case h_5 noDot noParen noBracket noEqual =>
    have power : leftPower? ts = (operator? ts).map (·.1.power.1) := by
      unfold leftPower?
      split <;> simp_all
    cases found : operator? ts with
    | none => exact absurd (fun p hp => by simp [power, found] at hp) low
    | some answer =>
        obtain ⟨op, mid⟩ := answer
        have tight := binds (leftPower?_of_operator? found)
        rw [found] at h
        simp only [if_neg tight] at h
        obtain ⟨⟨right, mid'⟩, read, h⟩ := exists_ok_of_bind h
        exact ⟨_, _, .binary (Nat.not_lt.1 tight) found read, h⟩

/-! ## §4. Arguments. -/

/-- A named argument, or one by position. -/
theorem argumentName_cases (ts : List Token) :
    (∃ name colon rest, ts = name :: colon :: rest ∧ name.kind = .identifier
        ∧ colon.kind = .colon ∧ argumentName ts = (some ⟨name.lexeme, name.span⟩, rest))
      ∨ (¬ (nextKind ts = .identifier ∧ nextKind ts.tail = .colon)
        ∧ argumentName ts = (none, ts)) := by
  unfold argumentName
  split
  · rename_i name colon rest
    by_cases kinds : name.kind = .identifier ∧ colon.kind = .colon
    · exact Or.inl ⟨name, colon, rest, rfl, kinds.1, kinds.2, if_pos kinds⟩
    · exact Or.inr ⟨kinds, if_neg kinds⟩
  · rename_i none_or_one
    refine Or.inr ⟨?_, rfl⟩
    rintro ⟨word, colon⟩
    obtain ⟨name, ts, rfl, -⟩ := nextKind_cons word (by decide)
    obtain ⟨colon, ts, rfl, -⟩ := nextKind_cons colon (by decide)
    exact none_or_one _ _ _ rfl

theorem arguments_eq_ok {n : Nat} {ts rest : List Token} {args : List Argument}
    (h : arguments (n + 1) ts = .ok (args, rest)) :
    (nextKind ts = .rightParen ∧ args = [] ∧ rest = ts) ∨ argumentList n ts = .ok (args, rest) := by
  rw [arguments] at h
  split at h
  · cases h
    exact Or.inl ⟨‹_›, rfl, rfl⟩
  · exact Or.inr h

theorem argumentList_eq_ok {n : Nat} {ts rest : List Token} {args : List Argument}
    (h : argumentList (n + 1) ts = .ok (args, rest)) :
    ∃ name start value more mid, argumentName ts = (name, start)
      ∧ expr n 0 start = .ok (value, mid)
      ∧ args = .mk name value ((next ts).span.merge value.span) :: more
      ∧ (more = [] ∧ rest = mid
        ∨ ∃ comma mid', mid = comma :: mid' ∧ comma.kind = .comma
          ∧ argumentList n mid' = .ok (more, rest)) := by
  rcases named : argumentName ts with ⟨name, start⟩
  rw [argumentList, named] at h
  obtain ⟨⟨value, mid⟩, read, h⟩ := exists_ok_of_bind h
  dsimp only at h
  split at h
  · rename_i kind
    obtain ⟨comma, mid, rfl, isComma⟩ := nextKind_cons kind (by decide)
    obtain ⟨⟨more, rest'⟩, readMore, done⟩ := exists_ok_of_bind h
    cases done
    exact ⟨name, start, value, more, comma :: mid, rfl, read, rfl,
      Or.inr ⟨comma, mid, rfl, isComma, readMore⟩⟩
  · cases h
    exact ⟨name, start, value, [], rest, rfl, read, rfl, Or.inl ⟨rfl, rfl⟩⟩

/-! ## §5. The two ends of an expression. -/

theorem assign_lt_power (op : BinaryOp) : assignPower.1 < op.power.1 ∧ assignPower.1 < op.power.2 := by
  cases op <;> decide

theorem power_lt_unary (op : BinaryOp) : op.power.1 < unaryPower ∧ op.power.2 < unaryPower := by
  cases op <;> decide

theorem power_lt_postfixPower (op : BinaryOp) :
    op.power.1 < postfixPower ∧ op.power.2 < postfixPower := by
  cases op <;> decide

/-- The outermost operator, if there is one, binds with at least the power `least`: the
expression is what a reader with that minimum answers. -/
def Expr.Begins (least : Nat) : Expr → Prop
  | .binary _ op _ _ => least ≤ op.power.1
  | .assign .. => least ≤ assignPower.1
  | _ => True

/-- The operand at the right end, if there is one, takes nothing of what follows. -/
def Expr.EndsAt (rest : List Token) : Expr → Prop
  | .unary .. => Stops unaryPower rest
  | .binary _ op _ _ => Stops op.power.2 rest
  | .assign .. => Stops assignPower.2 rest
  | _ => True

theorem stops_iff {least p : Nat} {ts : List Token} (h : leftPower? ts = some p) :
    Stops least ts ↔ p < least := by
  simp [Stops, h]

theorem stops_of_none {least : Nat} {ts : List Token} (h : leftPower? ts = none) :
    Stops least ts := by
  simp [Stops, h]

theorem leftPower?_of_nextKind {ts : List Token}
    (h : nextKind ts = .dot ∨ nextKind ts = .leftParen ∨ nextKind ts = .leftBracket) :
    leftPower? ts = some postfixPower := by
  rcases h with h | h | h <;> simp [leftPower?, h]

/-- What takes a postfix form is no operator with an open right end. -/
theorem Expr.EndsAt.fitsPostfix {e : Expr} {ts : List Token} (h : e.EndsAt ts)
    (power : leftPower? ts = some postfixPower) : e.FitsPostfix := by
  cases e with
  | unary op operand span => exact absurd ((stops_iff power).1 h) (by decide)
  | binary left op right span =>
      exact absurd ((stops_iff power).1 h) (Nat.not_lt.2 (Nat.le_of_lt (power_lt_postfixPower op).2))
  | assign target value span => exact absurd ((stops_iff power).1 h) (by decide)
  | _ => trivial

/-- What stands before an operator is left of it. -/
theorem Expr.EndsAt.fitsLeft {e : Expr} {ts : List Token} {op : BinaryOp} (h : e.EndsAt ts)
    (power : leftPower? ts = some op.power.1) : e.FitsLeft op.power.1 := by
  cases e with
  | binary left op' right span => exact (stops_iff power).1 h
  | assign target value span =>
      have low := (stops_iff power).1 h
      exact absurd low (by have := assign_lt_power op; simp only [assignPower] at *; omega)
  | _ => trivial

theorem Expr.EndsAt.fitsAssign {e : Expr} {ts : List Token} (h : e.EndsAt ts)
    (power : leftPower? ts = some assignPower.1) : e.FitsAssign := by
  cases e with
  | assign target value span => exact absurd ((stops_iff power).1 h) (by decide)
  | _ => trivial

theorem Expr.Begins.fitsRight {e : Expr} {op : BinaryOp} (h : e.Begins op.power.2) :
    e.FitsRight op.power.2 := by
  cases e with
  | binary left op' right span => exact h
  | assign target value span => exact absurd h (Nat.not_le.2 (assign_lt_power op).2)
  | _ => trivial

theorem Expr.Begins.fitsUnary {e : Expr} (h : e.Begins unaryPower) : e.FitsUnary := by
  cases e with
  | binary left op right span => exact absurd h (Nat.not_le.2 (power_lt_unary op).1)
  | assign target value span =>
      exact absurd (show unaryPower ≤ assignPower.1 from h) (by decide)
  | _ => trivial

end BoundMarkup.Binding
