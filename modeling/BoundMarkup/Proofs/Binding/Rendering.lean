/-
  BoundMarkup.Proofs.Binding.Rendering
  ────────────────────────────────────
  **THE TEXT OF A TREE IS CUT INTO THE YIELD OF THE TREE.**

  One lemma for each form of a type and of an expression, put together by two
  short inductions.  A text has no separators but those of the form, so each
  lemma shows that the pieces it joins do not run into each other.  Only two `?`
  side by side do, and only some constants are written as anything but a literal
  of theirs: `Expr.Legible` says that a tree has neither.
-/
import BoundMarkup.Proofs.Binding.Literals

namespace BoundMarkup.Binding

variable {follow : List Char} {ss ss' : List Symbol}

/-! ## §1. Legible trees. -/

/-- Suffixes that stay apart when one is written behind the other. -/
def TypeSuffix.Apart (a b : TypeSuffix) : Prop := a = .array ∨ b = .array

mutual

/-- **No type is marked nullable twice in a row.** -/
def TypeExpr.Legible : TypeExpr → Prop
  | .mk _ args suffixes _ => TypeExpr.AllLegible args ∧ suffixes.IsChain TypeSuffix.Apart

def TypeExpr.AllLegible : List TypeExpr → Prop
  | [] => True
  | t :: ts => t.Legible ∧ TypeExpr.AllLegible ts

end

mutual

/-- **All constants and types of the expression are legible.** -/
def Expr.Legible : Expr → Prop
  | .literal value _ => value.Legible
  | .ident _ typeArgs _ => TypeExpr.AllLegible typeArgs
  | .member target _ typeArgs _ => target.Legible ∧ TypeExpr.AllLegible typeArgs
  | .call callee args _ => callee.Legible ∧ Argument.AllLegible args
  | .index target index _ => target.Legible ∧ index.Legible
  | .unary _ operand _ => operand.Legible
  | .binary left _ right _ => left.Legible ∧ right.Legible
  | .assign target value _ => target.Legible ∧ value.Legible
  | .paren inner _ => inner.Legible

/-- The value of the argument is legible. -/
def Argument.Legible : Argument → Prop
  | .mk _ value _ => value.Legible

def Argument.AllLegible : List Argument → Prop
  | [] => True
  | a :: as => a.Legible ∧ Argument.AllLegible as

end

/-- Symbols that tokens stand for. -/
def AllWritten (ss : List Symbol) : Prop := ∀ s ∈ ss, s.Written

namespace AllWritten

theorem left (h : AllWritten (ss ++ ss')) : AllWritten ss := (List.forall_mem_append.1 h).1

theorem right (h : AllWritten (ss ++ ss')) : AllWritten ss' := (List.forall_mem_append.1 h).2

theorem head {s : Symbol} (h : AllWritten (s :: ss)) : s.Written := (List.forall_mem_cons.1 h).1

theorem tail {s : Symbol} (h : AllWritten (s :: ss)) : AllWritten ss := (List.forall_mem_cons.1 h).2

end AllWritten

/-! ## §2. Names. -/

theorem Symbol.Written.word {text : String} {s : Symbol} (written : s.Written)
    (isName : s = .name text ∨ s = .plain text) :
    IsWord text.toList ∧ wordKind text.toList = .identifier := by
  obtain ⟨t, lexed, stands⟩ := written
  rcases isName with rfl | rfl
  all_goals
    rw [← stands.2]
    exact lexed.word stands.1

/-- A name is taken alone where no name character follows. -/
theorem emits_name {text : String} {s : Symbol} (written : s.Written)
    (isName : s = .name text ∨ s = .plain text)
    (ends : ∀ c, follow.head? = some c → isIdentContinue c = false) :
    Emits text.toList [s] follow := by
  obtain ⟨word, kind⟩ := written.word isName
  rcases isName with rfl | rfl
  all_goals exact .word word ends nofun fun span => ⟨kind, String.ofList_toList⟩

/-- The parts of a dotted name. -/
theorem emits_dots {parts : List String} (written : AllWritten (dotYield parts))
    (ends : ∀ c, follow.head? = some c → isIdentContinue c = false) :
    Emits ((parts.map String.toList).flatMap ('.' :: ·)) (dotYield parts) follow
      ∧ ∀ c, ((parts.map String.toList).flatMap ('.' :: ·) ++ follow).head? = some c →
        isIdentContinue c = false := by
  induction parts with
  | nil => exact ⟨.nil follow, ends⟩
  | cons part parts ih =>
      obtain ⟨rest, stop⟩ := ih written.tail.tail
      have name := emits_name written.tail.head (Or.inl rfl) stop
      refine ⟨?_, ?_⟩
      · show Emits (['.'] ++ (part.toList ++ _)) ([.mark .dot] ++ ([.name part] ++ _)) follow
        exact Emits.append (Emits.mark rfl) (name.append rest)
      · rintro c next
        cases next
        decide

theorem emits_dotted {name : String} (written : AllWritten (nameYield name))
    (ends : ∀ c, follow.head? = some c → isIdentContinue c = false) :
    Emits name.toList (nameYield name) follow := by
  obtain ⟨word, parts, yield, rfl⟩ := exists_nameYield_eq name
  rw [yield] at written ⊢
  rw [toList_dotted]
  obtain ⟨rest, stop⟩ := emits_dots written.tail ends
  exact (emits_name written.head (Or.inl rfl) stop).append rest

/-! ## §3. Types. -/

/-- Suffixes are told apart just if no two `?` stand side by side. -/
theorem emitsIff_suffixes (single : follow.head? ≠ some '?') : (suffixes : List TypeSuffix) →
    EmitsIff ((suffixes.map TypeSuffix.text).flatMap String.toList) (suffixes.flatMap suffixYield)
      follow (suffixes.IsChain TypeSuffix.Apart)
  | [] => (Emits.nil follow).congr (by simp)
  | .array :: suffixes => by
      have brackets : Emits (['['] ++ [']']) ([.mark .leftBracket] ++ [.mark .rightBracket])
          ((suffixes.map TypeSuffix.text).flatMap String.toList ++ follow) :=
        Emits.append (Emits.mark rfl) (Emits.mark rfl)
      refine (EmitsIff.before brackets (emitsIff_suffixes single suffixes)).congr ?_
      cases suffixes <;> simp [TypeSuffix.Apart]
  | [.nullable] => (Emits.question single).congr (by simp)
  | .nullable :: .array :: suffixes =>
      (EmitsIff.before (Emits.question (by simp [TypeSuffix.text]))
        (emitsIff_suffixes single (.array :: suffixes))).congr (by simp [TypeSuffix.Apart])
  | .nullable :: .nullable :: suffixes =>
      ((Emits.double_question _).append (emitsIff_suffixes single suffixes)).congr
        (by simp [TypeSuffix.Apart])

/-- What stands behind a type in a list. -/
def ClosesType (follow : List Char) : Prop := follow.head? = some ',' ∨ follow.head? = some '>'

/-- Further texts of a list, each behind a comma and a blank. -/
def listTail (pieces : List String) : List Char := pieces.flatMap (fun next => [',', ' '] ++ next.toList)

theorem closesType_listTail (pieces : List String) (follow : List Char) :
    ClosesType (listTail pieces ++ '>' :: follow) := by
  cases pieces with
  | nil => exact Or.inr rfl
  | cons piece pieces => exact Or.inl rfl

theorem toList_listText (t : TypeExpr) (ts : List TypeExpr) :
    (TypeExpr.listText (t :: ts)).toList
      = ['<'] ++ ((t.text.toList ++ listTail (TypeExpr.texts ts)) ++ ['>']) := by
  rw [TypeExpr.listText, String.toList_append, String.toList_append, Text.toList_join]
  simp [listTail]

/-- A type starts with a name. -/
theorem TypeExpr.exists_yield_eq (t : TypeExpr) : ∃ word ss, t.yield = .name word :: ss := by
  obtain ⟨name, args, suffixes, span⟩ := t
  obtain ⟨word, parts, yield, -⟩ := exists_nameYield_eq name
  exact ⟨word, _, by rw [TypeExpr.yield, yield]; rfl⟩

/-- Suffixes and what stands behind a type start with a mark. -/
theorem head_suffixes (suffixes : List TypeSuffix) (closes : ClosesType follow) :
    ∀ c, ((suffixes.map TypeSuffix.text).flatMap String.toList ++ follow).head? = some c →
      c ∈ ['[', '?', ',', '>'] := by
  intro c head
  cases suffixes with
  | nil =>
      have : some c = some ',' ∨ some c = some '>' := head ▸ closes
      rcases this with h | h <;> cases h <;> simp
  | cons suffix suffixes =>
      cases suffix <;>
      · simp only [List.map_cons, TypeSuffix.text, List.flatMap_cons] at head
        cases head
        decide

theorem emitsIff_type {name : String} {args : List TypeExpr} {suffixes : List TypeSuffix}
    {span : Span}
    (list : ∀ {follow}, follow.head? ≠ some '=' →
      EmitsIff (TypeExpr.listText args).toList (TypeExpr.listYield args) follow
        (TypeExpr.AllLegible args))
    (written : AllWritten (TypeExpr.mk name args suffixes span).yield)
    (closes : ClosesType follow) :
    EmitsIff (TypeExpr.mk name args suffixes span).text.toList
      (TypeExpr.mk name args suffixes span).yield follow
      (TypeExpr.mk name args suffixes span).Legible := by
  rw [TypeExpr.yield] at written ⊢
  rw [TypeExpr.text, String.toList_append, String.toList_append, String.toList_join]
  have marks : ∀ d ∈ ['[', '?', ',', '>'], isIdentContinue d = false ∧ d ≠ '=' :=
    forall_mem_of_all (by decide)
  have head := head_suffixes suffixes closes
  have single : follow.head? ≠ some '?' := by
    rcases closes with h | h <;> simp [h]
  refine (EmitsIff.before (emits_dotted written.left.left ?_) (list ?_)).append
    (emitsIff_suffixes single suffixes)
  · -- The name ends at `<` if there are type arguments, else at a suffix or behind the type.
    intro c next
    cases args with
    | nil => exact (marks c (head c next)).1
    | cons t ts =>
        rw [toList_listText] at next
        cases next
        decide
  · exact fun equal => (marks '=' (head '=' equal)).2 rfl

/-- Type arguments in angle brackets, given the first of them. -/
theorem emitsIff_listText {t : TypeExpr} {ts : List TypeExpr} {fine fine' : Prop}
    (first : EmitsIff t.text.toList t.yield
      (listTail (TypeExpr.texts ts) ++ '>' :: follow) fine)
    (tail : EmitsIff (listTail (TypeExpr.texts ts)) (TypeExpr.tailYield ts) ('>' :: follow) fine')
    (noEqual : follow.head? ≠ some '=') :
    EmitsIff (TypeExpr.listText (t :: ts)).toList (TypeExpr.listYield (t :: ts)) follow
      (fine ∧ fine') := by
  have inner := first.append tail
  -- The bracket is taken alone, for a type starts with a name.
  have opens : ∀ c, c = '=' ∨ c = '<' →
      ((t.text.toList ++ listTail (TypeExpr.texts ts)) ++ ('>' :: follow)).head? ≠ some c := by
    obtain ⟨word, ss, yield⟩ := t.exists_yield_eq
    rw [yield] at inner
    exact fun c => inner.head_ne_mark rfl
  rw [toList_listText]
  refine EmitsIff.before (Emits.less ?_ ?_) (inner.behind (Emits.greater noEqual))
  · rw [List.append_assoc]
    exact opens '=' (Or.inl rfl)
  · rw [List.append_assoc]
    exact opens '<' (Or.inr rfl)

mutual

/-- **The text of a type is cut into its yield just if the type is legible.** -/
theorem TypeExpr.emitsIff : (t : TypeExpr) → AllWritten t.yield → ∀ {follow}, ClosesType follow →
    EmitsIff t.text.toList t.yield follow t.Legible
  | .mk _ args _ _, written, _, closes =>
      emitsIff_type (TypeExpr.emitsIff_list args written.left.right) written closes

/-- Type arguments in angle brackets. -/
theorem TypeExpr.emitsIff_list : (ts : List TypeExpr) → AllWritten (TypeExpr.listYield ts) →
    ∀ {follow}, follow.head? ≠ some '=' →
      EmitsIff (TypeExpr.listText ts).toList (TypeExpr.listYield ts) follow (TypeExpr.AllLegible ts)
  | [], _, _, _ => Emits.nil _
  | t :: ts, written, follow, noEqual =>
      emitsIff_listText (t.emitsIff written.tail.left.left (closesType_listTail _ follow))
        (TypeExpr.emitsIff_tail ts written.tail.left.right follow) noEqual

/-- Further type arguments. -/
theorem TypeExpr.emitsIff_tail : (ts : List TypeExpr) → AllWritten (TypeExpr.tailYield ts) →
    ∀ follow, EmitsIff (listTail (TypeExpr.texts ts)) (TypeExpr.tailYield ts) ('>' :: follow)
      (TypeExpr.AllLegible ts)
  | [], _, _ => Emits.nil _
  | t :: ts, written, follow => by
      have first := t.emitsIff written.tail.left (closesType_listTail (TypeExpr.texts ts) follow)
      have tail := TypeExpr.emitsIff_tail ts written.tail.right follow
      show EmitsIff ([','] ++ ' ' :: (t.text.toList ++ listTail (TypeExpr.texts ts)))
        ([.mark .comma] ++ (t.yield ++ TypeExpr.tailYield ts)) ('>' :: follow) _
      refine EmitsIff.before (Emits.mark rfl) (EmitsIff.blank (first.append tail) ?_)
      obtain ⟨word, ss, yield⟩ := t.exists_yield_eq
      simp [yield]

end

/-! ## §4. Expressions. -/

/-- A name with its type arguments. -/
theorem emitsIff_called {name : String} {typeArgs : List TypeExpr}
    (written : AllWritten (calledYield name typeArgs)) (apart : Apart follow) :
    EmitsIff (name.toList ++ (TypeExpr.listText typeArgs).toList) (calledYield name typeArgs) follow
      (TypeExpr.AllLegible typeArgs) := by
  cases typeArgs with
  | nil =>
      rw [TypeExpr.listText, String.toList_empty, List.append_nil]
      exact emits_name written.head (Or.inr rfl) apart.other
  | cons t ts =>
      refine EmitsIff.before (emits_name written.head (Or.inl rfl) ?_)
        (TypeExpr.emitsIff_list (t :: ts) written.tail apart.noEqual)
      intro c next
      rw [toList_listText] at next
      cases next
      decide

theorem isWord_of_called {name : String} {typeArgs : List TypeExpr}
    (written : AllWritten (calledYield name typeArgs)) : IsWord name.toList := by
  cases typeArgs with
  | nil => exact (written.head.word (Or.inr rfl)).1
  | cons t ts => exact (written.head.word (Or.inl rfl)).1

theorem emitsIff_unary (op : UnaryOp) {cs : List Char} {s : Symbol} {fine : Prop}
    (operand : EmitsIff cs (s :: ss) follow fine) (starts : s.kind.startsOperand = true) :
    EmitsIff (op.text.toList ++ cs) (.mark (.ofUnary op) :: s :: ss) follow fine := by
  cases op with
  | not => exact .before (Emits.bang (operand.head_ne_mark starts (Or.inl rfl))) operand
  | neg | plus | bitNot => exact .before (Emits.mark rfl) operand

/-- The arguments of a call behind the first. -/
theorem toList_argumentTexts (a : Argument) (as : List Argument) :
    (Text.join ", " (Argument.texts (a :: as))).toList
      = a.text.toList ++ listTail (Argument.texts as) := by
  rw [Argument.texts, Text.toList_join]
  rfl

/-- Behind an argument stands a comma or the end of the list. -/
theorem apart_listTail (pieces : List String) (follow : List Char) :
    Apart (listTail pieces ++ ')' :: follow) := by
  cases pieces with
  | nil => exact apart_cons (by decide) follow
  | cons piece pieces => exact apart_cons (by decide) _

theorem operatorYield_ne_nil (op : BinaryOp) : operatorYield op ≠ [] := by
  cases op <;> nofun

theorem Expr.yield_ne_nil (e : Expr) : e.yield ≠ [] := by
  obtain ⟨s, ss, yield, -⟩ := e.exists_yield_eq
  rw [yield]
  nofun

theorem Argument.yield_ne_nil : (a : Argument) → a.yield ≠ []
  | .mk (some _) _ _ => nofun
  | .mk none value _ => value.yield_ne_nil

mutual

/-- **The text of an expression is cut into its yield just if the expression is legible.** -/
theorem Expr.emitsIff : (e : Expr) → AllWritten e.yield → ∀ {follow}, Apart follow →
    EmitsIff e.text.toList e.yield follow e.Legible
  | .literal _ _, written, _, apart => emitsIff_constant written.head apart.toEnds
  | .ident i typeArgs span, written, _, apart => by
      have text : (Expr.ident i typeArgs span).text.toList
          = i.name.toList ++ (TypeExpr.listText typeArgs).toList := by
        simp [Expr.text]
      rw [text]
      exact emitsIff_called written apart
  | .member target m typeArgs span, written, _, apart => by
      have text : (Expr.member target m typeArgs span).text.toList
          = target.text.toList
            ++ (['.'] ++ (m.name.toList ++ (TypeExpr.listText typeArgs).toList)) := by
        simp [Expr.text]
      -- The point starts no fraction, even behind a whole number.
      have called := written.right.tail
      rw [text, Expr.yield]
      refine EmitsIff.append (target.emitsIff written.left ?_)
        (.before (Emits.mark rfl) (emitsIff_called called apart))
      rw [List.append_assoc, List.append_assoc]
      exact apart_member (isWord_of_called called) _
  | .call callee args span, written, follow, apart => by
      have text : (Expr.call callee args span).text.toList
          = callee.text.toList
            ++ (['('] ++ ((Text.join ", " (Argument.texts args)).toList ++ [')'])) := by
        simp [Expr.text]
      have list := Argument.emitsIff_list args written.right.tail.left follow
      rw [text, Expr.yield]
      exact EmitsIff.append (callee.emitsIff written.left (apart_cons (by decide) _))
        (.before (Emits.mark rfl) (list.behind (Emits.mark rfl)))
  | .index target at_ span, written, follow, _ => by
      have text : (Expr.index target at_ span).text.toList
          = target.text.toList ++ (['['] ++ (at_.text.toList ++ [']'])) := by
        simp [Expr.text]
      have closing : Apart (']' :: follow) := apart_cons (by decide) follow
      have inner := at_.emitsIff written.right.tail.left closing
      rw [text, Expr.yield]
      exact EmitsIff.append (target.emitsIff written.left (apart_cons (by decide) _))
        (.before (Emits.mark rfl) (inner.behind (Emits.mark rfl)))
  | .unary op operand span, written, _, apart => by
      have text : (Expr.unary op operand span).text.toList
          = op.text.toList ++ operand.text.toList := by
        simp [Expr.text]
      have inner := operand.emitsIff written.tail apart
      obtain ⟨s, ss, yield, starts⟩ := operand.exists_yield_eq
      rw [text, Expr.yield]
      rw [yield] at inner ⊢
      exact emitsIff_unary op inner starts
  | .binary left op right span, written, _, apart => by
      have text : (Expr.binary left op right span).text.toList
          = left.text.toList ++ ((' ' :: op.text.toList) ++ ' ' :: right.text.toList) := by
        simp [Expr.text]
      have second := (right.emitsIff written.right.right apart).blank right.yield_ne_nil
      rw [text, Expr.yield]
      exact EmitsIff.append (left.emitsIff written.left (apart_cons (by decide) _))
        (.before (EmitsIff.blank (Emits.operator op _) (operatorYield_ne_nil op)) second)
  | .assign target value span, written, _, apart => by
      have text : (Expr.assign target value span).text.toList
          = target.text.toList ++ ([' ', '='] ++ ' ' :: value.text.toList) := by
        simp [Expr.text]
      have second := (value.emitsIff written.right.tail apart).blank value.yield_ne_nil
      rw [text, Expr.yield]
      exact EmitsIff.append (target.emitsIff written.left (apart_cons (by decide) _))
        (.before (EmitsIff.blank (Emits.mark rfl) nofun) second)
  | .paren inner span, written, follow, _ => by
      have text : (Expr.paren inner span).text.toList
          = ['('] ++ (inner.text.toList ++ [')']) := by
        simp [Expr.text]
      have closing : Apart (')' :: follow) := apart_cons (by decide) follow
      have between := inner.emitsIff written.tail.left closing
      rw [text, Expr.yield]
      exact EmitsIff.before (Emits.mark rfl) (between.behind (Emits.mark rfl))

/-- **The text of an argument is cut into its yield just if the argument is legible.** -/
theorem Argument.emitsIff : (a : Argument) → AllWritten a.yield → ∀ {follow}, Apart follow →
    EmitsIff a.text.toList a.yield follow a.Legible
  | .mk none value _, written, _, apart => value.emitsIff written apart
  | .mk (some name) value span, written, _, apart => by
      have text : (Argument.mk (some name) value span).text.toList
          = name.name.toList ++ ([':'] ++ ' ' :: value.text.toList) := by
        simp [Argument.text]
      have second := (value.emitsIff written.tail.tail apart).blank value.yield_ne_nil
      rw [text]
      exact EmitsIff.before (emits_name written.head (Or.inl rfl) (apart_cons (by decide) _).other)
        (.before (Emits.mark rfl) second)

/-- The arguments of a call. -/
theorem Argument.emitsIff_list : (as : List Argument) → AllWritten (Argument.listYield as) →
    ∀ follow, EmitsIff (Text.join ", " (Argument.texts as)).toList (Argument.listYield as)
      (')' :: follow) (Argument.AllLegible as)
  | [], _, _ => Emits.nil _
  | a :: as, written, follow => by
      rw [toList_argumentTexts]
      exact EmitsIff.append (a.emitsIff written.left (apart_listTail _ _))
        (Argument.emitsIff_tail as written.right follow)

/-- Further arguments. -/
theorem Argument.emitsIff_tail : (as : List Argument) → AllWritten (Argument.tailYield as) →
    ∀ follow, EmitsIff (listTail (Argument.texts as)) (Argument.tailYield as) (')' :: follow)
      (Argument.AllLegible as)
  | [], _, _ => Emits.nil _
  | a :: as, written, follow => by
      have first := a.emitsIff written.tail.left (apart_listTail (Argument.texts as) follow)
      have more := Argument.emitsIff_tail as written.tail.right follow
      show EmitsIff ([','] ++ ' ' :: (a.text.toList ++ listTail (Argument.texts as)))
        ([.mark .comma] ++ (a.yield ++ Argument.tailYield as)) (')' :: follow) _
      refine EmitsIff.before (Emits.mark rfl) (EmitsIff.blank (first.append more) ?_)
      exact List.append_ne_nil_of_left_ne_nil a.yield_ne_nil _

end

end BoundMarkup.Binding
