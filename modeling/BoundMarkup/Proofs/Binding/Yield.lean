/-
  BoundMarkup.Proofs.Binding.Yield
  ────────────────────────────────
  **THE TOKENS OF A TREE, IN ORDER, AND THE TREES THAT CAN BE READ.**

  `Expr.yield` writes a tree as symbols, one for each token.  A symbol says what
  a token has to be: of some kind, a name, or a literal of some value.  What the
  parser accepts is described by

    • `Spells` — tokens are those that a yield asks for,
    • `Expr.Grouped` — operands bind tightly enough for the place they are in,
    • `Clear` — no plain name of a yield looks like the name of a generic call.

  `Expr.bare` is a tree up to spans.
-/
import BoundMarkup.Binding.Parser
import BoundMarkup.Text.Segments

namespace BoundMarkup.Binding

/-! ## §1. Symbols. -/

/-- What one token of a yield has to be. -/
inductive Symbol where
  /-- Any token of the kind. -/
  | mark (kind : TokenKind)
  /-- The first `>` of a right shift, with the second one right behind it. -/
  | shift
  /-- The name of a type or argument, or of what is called with type arguments. -/
  | name (text : String)
  /-- The name of an identifier or a member without type arguments. -/
  | plain (text : String)
  /-- A literal of the value. -/
  | constant (value : Constant)
  deriving DecidableEq, Repr

namespace Symbol

/-- The kind of literal that a constant is read from. -/
def literalKind : Constant → TokenKind
  | .null => .null_
  | .bool true => .true_
  | .bool false => .false_
  | .int _ | .long _ => .intLiteral
  | .double _ => .realLiteral
  | .decimal _ => .decimalLiteral
  | .char _ | .string _ => .stringLiteral

/-- The kind of the tokens that a symbol stands for. -/
def kind : Symbol → TokenKind
  | mark kind => kind
  | shift => .greater
  | name _ | plain _ => .identifier
  | constant value => literalKind value

/-- The symbol is a name without type arguments. -/
def isPlain : Symbol → Bool
  | plain _ => true
  | _ => false

@[simp] theorem kind_mark (k : TokenKind) : (mark k).kind = k := rfl

@[simp] theorem kind_shift : shift.kind = .greater := rfl

@[simp] theorem kind_name (text : String) : (name text).kind = .identifier := rfl

@[simp] theorem kind_plain (text : String) : (plain text).kind = .identifier := rfl

@[simp] theorem kind_constant (value : Constant) : (constant value).kind = literalKind value := rfl

@[simp] theorem isPlain_mark (k : TokenKind) : (mark k).isPlain = false := rfl

@[simp] theorem isPlain_shift : shift.isPlain = false := rfl

@[simp] theorem isPlain_name (text : String) : (name text).isPlain = false := rfl

@[simp] theorem isPlain_plain (text : String) : (plain text).isPlain = true := rfl

@[simp] theorem isPlain_constant (value : Constant) : (constant value).isPlain = false := rfl

/-- The token is one that the symbol stands for. -/
def Stands (t : Token) : Symbol → Prop
  | mark kind => t.kind = kind
  | shift => t.kind = .greater
  | name text | plain text => t.kind = .identifier ∧ t.lexeme = text
  | constant value => t.kind.isLiteral = true ∧ constantOf t = .ok value

end Symbol

/-- **The tokens are those of the symbols, then `rest`.**  The second `>` of a right
shift stands directly behind the first. -/
def Spells : List Token → List Symbol → List Token → Prop
  | ts, [], rest => ts = rest
  | [], _ :: _, _ => False
  | t :: ts, s :: ss, rest =>
      s.Stands t ∧ (s = .shift → atShiftRight (t :: ts) = true) ∧ Spells ts ss rest

/-! ## §2. The yield of a tree. -/

/-- The token a binary operator is written with, for a right shift each of the two. -/
def TokenKind.ofBinary : BinaryOp → TokenKind
  | .coalesce => .questionQuestion
  | .orElse => .pipePipe
  | .andAlso => .ampAmp
  | .bitOr => .pipe
  | .bitXor => .caret
  | .bitAnd => .amp
  | .equal => .equalEqual
  | .notEqual => .bangEqual
  | .less => .less
  | .lessEqual => .lessEqual
  | .greater | .shiftRight => .greater
  | .greaterEqual => .greaterEqual
  | .shiftLeft => .lessLess
  | .add => .plus
  | .sub => .minus
  | .mul => .star
  | .div => .slash
  | .mod => .percent

/-- The token a unary operator is written with. -/
def TokenKind.ofUnary : UnaryOp → TokenKind
  | .not => .bang
  | .neg => .minus
  | .plus => .plus
  | .bitNot => .tilde

/-- A binary operator. -/
def operatorYield : BinaryOp → List Symbol
  | .shiftRight => [.shift, .mark .greater]
  | op => [.mark (.ofBinary op)]

/-- Further parts of a dotted name. -/
def dotYield (parts : List String) : List Symbol :=
  parts.flatMap (fun part => [.mark .dot, .name part])

/-- A dotted name. -/
def nameYield (name : String) : List Symbol :=
  match Text.segments '.' name with
  | [] => []
  | part :: parts => .name part :: dotYield parts

/-- A type suffix. -/
def suffixYield : TypeSuffix → List Symbol
  | .array => [.mark .leftBracket, .mark .rightBracket]
  | .nullable => [.mark .question]

mutual

/-- The symbols of a type. -/
def TypeExpr.yield : TypeExpr → List Symbol
  | .mk name args suffixes _ =>
      nameYield name ++ TypeExpr.listYield args ++ suffixes.flatMap suffixYield

/-- The symbols of a list of type arguments in angle brackets; none for no list. -/
def TypeExpr.listYield : List TypeExpr → List Symbol
  | [] => []
  | t :: ts => .mark .less :: (t.yield ++ TypeExpr.tailYield ts ++ [.mark .greater])

/-- The symbols of further types, each after a comma. -/
def TypeExpr.tailYield : List TypeExpr → List Symbol
  | [] => []
  | t :: ts => .mark .comma :: (t.yield ++ TypeExpr.tailYield ts)

end

/-- The name of an identifier or a member, with its type arguments. -/
def calledYield (name : String) : List TypeExpr → List Symbol
  | [] => [.plain name]
  | t :: ts => .name name :: TypeExpr.listYield (t :: ts)

mutual

/-- **The tokens of an expression, in order.** -/
def Expr.yield : Expr → List Symbol
  | .literal value _ => [.constant value]
  | .ident ident typeArgs _ => calledYield ident.name typeArgs
  | .member target member typeArgs _ =>
      target.yield ++ .mark .dot :: calledYield member.name typeArgs
  | .call callee args _ =>
      callee.yield ++ .mark .leftParen :: (Argument.listYield args ++ [.mark .rightParen])
  | .index target index _ =>
      target.yield ++ .mark .leftBracket :: (index.yield ++ [.mark .rightBracket])
  | .unary op operand _ => .mark (.ofUnary op) :: operand.yield
  | .binary left op right _ => left.yield ++ (operatorYield op ++ right.yield)
  | .assign target value _ => target.yield ++ .mark .equal :: value.yield
  | .paren inner _ => .mark .leftParen :: (inner.yield ++ [.mark .rightParen])

/-- The symbols of an argument. -/
def Argument.yield : Argument → List Symbol
  | .mk (some name) value _ => .name name.name :: .mark .colon :: value.yield
  | .mk none value _ => value.yield

/-- The symbols of a list of arguments. -/
def Argument.listYield : List Argument → List Symbol
  | [] => []
  | a :: as => a.yield ++ Argument.tailYield as

/-- The symbols of further arguments, each after a comma. -/
def Argument.tailYield : List Argument → List Symbol
  | [] => []
  | a :: as => .mark .comma :: (a.yield ++ Argument.tailYield as)

end

/-- The kinds of tokens an expression can start with. -/
def TokenKind.startsOperand (k : TokenKind) : Bool :=
  k.isLiteral || k == .identifier || k == .leftParen || k.unaryOp?.isSome

theorem Symbol.isLiteral_literalKind (value : Constant) : (literalKind value).isLiteral = true := by
  cases value with
  | bool value => cases value <;> rfl
  | _ => rfl

theorem Expr.exists_yield_eq :
    (e : Expr) → ∃ s ss, e.yield = s :: ss ∧ s.kind.startsOperand = true
  | .literal value _ =>
      ⟨_, _, rfl, by simp [TokenKind.startsOperand, Symbol.isLiteral_literalKind]⟩
  | .ident _ [] _ => ⟨_, _, rfl, rfl⟩
  | .ident _ (_ :: _) _ => ⟨_, _, rfl, rfl⟩
  | .member target _ _ _ | .call target _ _ | .index target _ _ | .binary target _ _ _
  | .assign target _ _ => by
      obtain ⟨s, ss, yield, starts⟩ := target.exists_yield_eq
      exact ⟨s, _, by rw [Expr.yield, yield]; rfl, starts⟩
  | .unary op _ _ => ⟨_, _, rfl, by cases op <;> rfl⟩
  | .paren _ _ => ⟨_, _, rfl, rfl⟩

/-! ## §3. Precedence. -/

/-- What may stand left of an operator of left power `l`: operators that bind tighter,
and no assignment. -/
def Expr.FitsLeft (l : Nat) : Expr → Prop
  | .binary _ op _ _ => l < op.power.2
  | .assign .. => False
  | _ => True

/-- What may stand right of an operator of right power `r`: operators that bind at
least as tightly, and no assignment. -/
def Expr.FitsRight (r : Nat) : Expr → Prop
  | .binary _ op _ _ => r ≤ op.power.1
  | .assign .. => False
  | _ => True

/-- What may stand left of `=`: anything but an assignment. -/
def Expr.FitsAssign : Expr → Prop
  | .assign .. => False
  | _ => True

/-- What may stand behind a unary operator: no binary operator and no assignment. -/
def Expr.FitsUnary : Expr → Prop
  | .binary .. | .assign .. => False
  | _ => True

/-- What a member access, call or index may follow: no operator at all. -/
def Expr.FitsPostfix : Expr → Prop
  | .unary .. | .binary .. | .assign .. => False
  | _ => True

mutual

/-- **Every operand binds tightly enough for its place**, and type arguments belong to
names that are called; `called` says whether the expression itself is. -/
def Expr.Grouped : Expr → Bool → Prop
  | .literal .., _ => True
  | .ident _ typeArgs _, called => typeArgs = [] ∨ called = true
  | .member target _ typeArgs _, called =>
      (typeArgs = [] ∨ called = true) ∧ target.FitsPostfix ∧ target.Grouped false
  | .call callee args _, _ => callee.FitsPostfix ∧ callee.Grouped true ∧ Argument.AllGrouped args
  | .index target index _, _ => target.FitsPostfix ∧ target.Grouped false ∧ index.Grouped false
  | .unary _ operand _, _ => operand.FitsUnary ∧ operand.Grouped false
  | .binary left op right _, _ =>
      left.FitsLeft op.power.1 ∧ right.FitsRight op.power.2
        ∧ left.Grouped false ∧ right.Grouped false
  | .assign target value _, _ => target.FitsAssign ∧ target.Grouped false ∧ value.Grouped false
  | .paren inner _, _ => inner.Grouped false

/-- The value of the argument is grouped. -/
def Argument.IsGrouped : Argument → Prop
  | .mk _ value _ => value.Grouped false

/-- The values of the arguments are grouped. -/
def Argument.AllGrouped : List Argument → Prop
  | [] => True
  | a :: as => a.IsGrouped ∧ Argument.AllGrouped as

end

/-! ## §4. Names before `<`. -/

/-- The kinds start with a complete list of type arguments and `(`. -/
def OpensCall (kinds : List TokenKind) : Prop :=
  ∃ args after, args ≠ []
    ∧ kinds = (TypeExpr.listYield args).map Symbol.kind ++ .leftParen :: after

/-- **No name without type arguments stands before what would be its type arguments.** -/
def Clear : List Symbol → Prop
  | [] => True
  | s :: ss => (s.isPlain = true → ¬ OpensCall (ss.map Symbol.kind)) ∧ Clear ss

/-! ## §5. Trees up to spans. -/

def Ident.bare (ident : Ident) : Ident := ⟨ident.name, .start⟩

mutual

/-- The type with all spans forgotten. -/
def TypeExpr.bare : TypeExpr → TypeExpr
  | .mk name args suffixes _ => .mk name (TypeExpr.bares args) suffixes .start

def TypeExpr.bares : List TypeExpr → List TypeExpr
  | [] => []
  | t :: ts => t.bare :: TypeExpr.bares ts

end

mutual

/-- **The expression with all spans forgotten.** -/
def Expr.bare : Expr → Expr
  | .literal value _ => .literal value .start
  | .ident ident typeArgs _ => .ident ident.bare (TypeExpr.bares typeArgs) .start
  | .member target member typeArgs _ =>
      .member target.bare member.bare (TypeExpr.bares typeArgs) .start
  | .call callee args _ => .call callee.bare (Argument.bares args) .start
  | .index target index _ => .index target.bare index.bare .start
  | .unary op operand _ => .unary op operand.bare .start
  | .binary left op right _ => .binary left.bare op right.bare .start
  | .assign target value _ => .assign target.bare value.bare .start
  | .paren inner _ => .paren inner.bare .start

/-- The argument with all spans forgotten. -/
def Argument.bare : Argument → Argument
  | .mk name value _ => .mk (name.map Ident.bare) value.bare .start

def Argument.bares : List Argument → List Argument
  | [] => []
  | a :: as => a.bare :: Argument.bares as

end

mutual

theorem TypeExpr.yield_bare : (t : TypeExpr) → t.bare.yield = t.yield
  | .mk name args suffixes _ => by
      rw [TypeExpr.bare, TypeExpr.yield, TypeExpr.yield, TypeExpr.listYield_bares args]

theorem TypeExpr.listYield_bares :
    (ts : List TypeExpr) → TypeExpr.listYield (TypeExpr.bares ts) = TypeExpr.listYield ts
  | [] => rfl
  | t :: ts => by
      rw [TypeExpr.bares, TypeExpr.listYield, TypeExpr.listYield, t.yield_bare,
        TypeExpr.tailYield_bares ts]

theorem TypeExpr.tailYield_bares :
    (ts : List TypeExpr) → TypeExpr.tailYield (TypeExpr.bares ts) = TypeExpr.tailYield ts
  | [] => rfl
  | t :: ts => by
      rw [TypeExpr.bares, TypeExpr.tailYield, TypeExpr.tailYield, t.yield_bare,
        TypeExpr.tailYield_bares ts]

end

theorem calledYield_bares (name : String) (typeArgs : List TypeExpr) :
    calledYield name (TypeExpr.bares typeArgs) = calledYield name typeArgs := by
  cases typeArgs with
  | nil => rfl
  | cons t ts =>
      rw [calledYield, ← TypeExpr.listYield_bares]
      rfl

mutual

/-- Trees that are the same up to spans have the same tokens. -/
theorem Expr.yield_bare : (e : Expr) → e.bare.yield = e.yield
  | .literal _ _ => rfl
  | .ident ident typeArgs _ => calledYield_bares ident.name typeArgs
  | .member target member typeArgs _ => by
      rw [Expr.bare, Expr.yield, Expr.yield, target.yield_bare, calledYield_bares]
      rfl
  | .call callee args _ => by
      rw [Expr.bare, Expr.yield, Expr.yield, callee.yield_bare, Argument.listYield_bares args]
  | .index target index _ => by
      rw [Expr.bare, Expr.yield, Expr.yield, target.yield_bare, index.yield_bare]
  | .unary op operand _ => by
      rw [Expr.bare, Expr.yield, Expr.yield, operand.yield_bare]
  | .binary left op right _ => by
      rw [Expr.bare, Expr.yield, Expr.yield, left.yield_bare, right.yield_bare]
  | .assign target value _ => by
      rw [Expr.bare, Expr.yield, Expr.yield, target.yield_bare, value.yield_bare]
  | .paren inner _ => by
      rw [Expr.bare, Expr.yield, Expr.yield, inner.yield_bare]

theorem Argument.yield_bare : (a : Argument) → a.bare.yield = a.yield
  | .mk none value _ => value.yield_bare
  | .mk (some name) value _ => by
      show Symbol.name name.name :: .mark .colon :: value.bare.yield = _
      rw [value.yield_bare]
      rfl

theorem Argument.listYield_bares :
    (as : List Argument) → Argument.listYield (Argument.bares as) = Argument.listYield as
  | [] => rfl
  | a :: as => by
      rw [Argument.bares, Argument.listYield, Argument.listYield, a.yield_bare,
        Argument.tailYield_bares as]

theorem Argument.tailYield_bares :
    (as : List Argument) → Argument.tailYield (Argument.bares as) = Argument.tailYield as
  | [] => rfl
  | a :: as => by
      rw [Argument.bares, Argument.tailYield, Argument.tailYield, a.yield_bare,
        Argument.tailYield_bares as]

end

/-! ## §6. Reading along a yield. -/

/-- Tokens that spell symbols, each plain name clear of the tokens that really follow
it.  This is what one step of the parser establishes, and what it needs. -/
def Reads : List Token → List Symbol → List Token → Prop
  | ts, [], rest => ts = rest
  | [], _ :: _, _ => False
  | t :: ts, s :: ss, rest =>
      s.Stands t ∧ (s = .shift → atShiftRight (t :: ts) = true)
        ∧ (s.isPlain = true → ¬ OpensCall (ts.map Token.kind)) ∧ Reads ts ss rest

theorem Reads.nil (ts : List Token) : Reads ts [] ts := by
  cases ts <;> rfl

theorem reads_nil {ts rest : List Token} : Reads ts [] rest ↔ ts = rest := by
  cases ts <;> rfl

theorem reads_cons {ts rest : List Token} {s : Symbol} {ss : List Symbol} :
    Reads ts (s :: ss) rest ↔ ∃ t ts', ts = t :: ts' ∧ s.Stands t
      ∧ (s = .shift → atShiftRight (t :: ts') = true)
      ∧ (s.isPlain = true → ¬ OpensCall (ts'.map Token.kind)) ∧ Reads ts' ss rest := by
  cases ts with
  | nil => simp [Reads]
  | cons t ts =>
      constructor
      · intro h
        exact ⟨t, ts, rfl, h⟩
      · rintro ⟨_, _, ⟨⟩, h⟩
        exact h

theorem reads_append {ss ss' : List Symbol} {ts rest : List Token} :
    Reads ts (ss ++ ss') rest ↔ ∃ mid, Reads ts ss mid ∧ Reads mid ss' rest := by
  induction ss generalizing ts with
  | nil => simp [reads_nil]
  | cons s ss ih =>
      cases ts with
      | nil => simp [Reads]
      | cons t ts => simp [Reads, ih]; grind

/-- A mark is a token of its kind. -/
theorem reads_mark {ts rest : List Token} {k : TokenKind} {ss : List Symbol} :
    Reads ts (.mark k :: ss) rest ↔ ∃ t ts', ts = t :: ts' ∧ t.kind = k ∧ Reads ts' ss rest := by
  simp [reads_cons, Symbol.Stands, Symbol.isPlain]

theorem Reads.append {ss ss' : List Symbol} {ts mid rest : List Token} (h : Reads ts ss mid)
    (h' : Reads mid ss' rest) : Reads ts (ss ++ ss') rest :=
  reads_append.2 ⟨mid, h, h'⟩

theorem Reads.spells {ts rest : List Token} {ss : List Symbol} (h : Reads ts ss rest) :
    Spells ts ss rest := by
  induction ss generalizing ts with
  | nil => cases ts <;> exact h
  | cons s ss ih =>
      cases ts with
      | nil => exact h
      | cons t ts => exact ⟨h.1, h.2.1, ih h.2.2.2⟩

theorem spells_nil (ts : List Token) : Spells ts [] ts := by
  cases ts <;> rfl

theorem spells_append {ss ss' : List Symbol} {ts rest : List Token} :
    Spells ts (ss ++ ss') rest ↔ ∃ mid, Spells ts ss mid ∧ Spells mid ss' rest := by
  induction ss generalizing ts with
  | nil => cases ts <;> simp [Spells]
  | cons s ss ih =>
      cases ts with
      | nil => simp [Spells]
      | cons t ts => simp [Spells, ih]; grind

/-- What is left after the symbols is what is left after as many tokens. -/
theorem Spells.rest_eq {ts rest : List Token} {ss : List Symbol} (h : Spells ts ss rest) :
    rest = ts.drop ss.length := by
  induction ss generalizing ts with
  | nil => cases ts <;> exact h.symm
  | cons s ss ih =>
      cases ts with
      | nil => exact h.elim
      | cons t ts => exact ih h.2.2

theorem Reads.unique {ts rest rest' : List Token} {ss : List Symbol} (h : Reads ts ss rest)
    (h' : Reads ts ss rest') : rest = rest' := by
  rw [h.spells.rest_eq, h'.spells.rest_eq]

theorem Spells.length_eq {ts rest : List Token} {ss : List Symbol} (h : Spells ts ss rest) :
    ts.length = ss.length + rest.length := by
  induction ss generalizing ts with
  | nil => cases ts <;> simp_all [Spells]
  | cons s ss ih =>
      cases ts with
      | nil => exact h.elim
      | cons t ts =>
          have := ih h.2.2
          simp only [List.length_cons]; omega

theorem literalKind_of_wholeConstant? {cs : List Char} {value : Constant}
    (h : wholeConstant? cs = some value) : Symbol.literalKind value = .intLiteral := by
  obtain ⟨n, -, hn⟩ := Option.bind_eq_some_iff.1 h
  split at hn
  · cases hn; rfl
  · split at hn
    · cases hn; rfl
    · cases hn

/-- A literal token is of the kind of its value. -/
theorem kind_of_constantOf {t : Token} {value : Constant} (reads : constantOf t = .ok value) :
    t.kind = Symbol.literalKind value := by
  unfold constantOf at reads
  split at reads
  case h_1 hk | h_2 hk | h_3 hk | h_6 hk | h_7 hk => cases reads; exact hk
  case h_4 hk =>
    dsimp only at reads
    split at reads <;> cases reads
    rw [hk, literalKind_of_wholeConstant? ‹_›]
  case h_5 hk =>
    dsimp only at reads
    split at reads <;> cases reads
    exact hk
  case h_8 => cases reads

theorem Symbol.Stands.kind_eq {t : Token} {s : Symbol} (h : s.Stands t) : t.kind = s.kind := by
  cases s with
  | mark k => exact h
  | shift => exact h
  | name text => exact h.1
  | plain text => exact h.1
  | constant value => exact kind_of_constantOf h.2

theorem Spells.kinds_eq {ts rest : List Token} {ss : List Symbol} (h : Spells ts ss rest) :
    ts.map Token.kind = ss.map Symbol.kind ++ rest.map Token.kind := by
  induction ss generalizing ts with
  | nil => cases ts <;> simp_all [Spells]
  | cons s ss ih =>
      cases ts with
      | nil => exact h.elim
      | cons t ts => simp [h.1.kind_eq, ih h.2.2]

/-! ## §7. Clear names. -/

theorem OpensCall.append {ks : List TokenKind} (h : OpensCall ks) (more : List TokenKind) :
    OpensCall (ks ++ more) := by
  obtain ⟨args, after, some_args, rfl⟩ := h
  exact ⟨args, after ++ more, some_args, by simp⟩

/-- The end of a binding is no part of a list of type arguments. -/
theorem OpensCall.of_concat {ks : List TokenKind} {k : TokenKind} (other : k ≠ .leftParen)
    (h : OpensCall (ks ++ [k])) : OpensCall ks := by
  obtain ⟨args, after, some_args, eq⟩ := h
  obtain rfl | ⟨after, last, rfl⟩ := List.eq_nil_or_concat after
  · exact absurd (List.cons.inj (List.append_inj_right' eq rfl)).1 other
  · rw [List.concat_eq_append, ← List.cons_append, ← List.append_assoc] at eq
    exact ⟨args, after, some_args, List.append_inj_left' eq rfl⟩

/-- Without `(` nothing is called. -/
theorem not_opensCall_of_not_mem {ks : List TokenKind} (h : .leftParen ∉ ks) :
    ¬ OpensCall ks := by
  rintro ⟨args, after, _, rfl⟩
  simp at h

theorem Reads.clear {ts rest : List Token} {ss : List Symbol} (h : Reads ts ss rest) :
    Clear ss := by
  induction ss generalizing ts with
  | nil => trivial
  | cons s ss ih =>
      cases ts with
      | nil => exact h.elim
      | cons t ts =>
          refine ⟨fun plain opens => h.2.2.1 plain ?_, ih h.2.2.2⟩
          rw [h.2.2.2.spells.kinds_eq]
          exact opens.append _

/-- What a clear yield spells reads along it, up to the end of the binding. -/
theorem Spells.reads {ts : List Token} {ss : List Symbol} {last : Token}
    (h : Spells ts ss [last]) (clear : Clear ss) (other : last.kind ≠ .leftParen) :
    Reads ts ss [last] := by
  induction ss generalizing ts with
  | nil => cases ts <;> exact h
  | cons s ss ih =>
      cases ts with
      | nil => exact h.elim
      | cons t ts =>
          refine ⟨h.1, h.2.1, fun plain opens => clear.1 plain ?_, ih h.2.2 clear.2⟩
          rw [h.2.2.kinds_eq] at opens
          exact opens.of_concat other

end BoundMarkup.Binding
