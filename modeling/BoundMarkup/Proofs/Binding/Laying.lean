/-
  BoundMarkup.Proofs.Binding.Laying
  ─────────────────────────────────
  **EVERY TOKEN IS WHERE ITS SPAN SAYS.**

  Tokens are laid in a text from a position on: between them there are only
  blanks, and the span of each is the region of its lexeme.  The lexer answers
  tokens that are laid in the whole text, or it stops where the text breaks
  (`lexFrom_meets`), and there is only one such place (`BreaksAt.unique`).  Tokens
  laid in a text from its own start are laid in it from any other position once
  their spans are moved there (`Laid.moved`), and it breaks where it did.
-/
import BoundMarkup.Proofs.Binding.Lexing
import BoundMarkup.Proofs.Source.Positions
import BoundMarkup.Proofs.Steps

namespace BoundMarkup.Binding

/-! ## §1. Tokens in a text. -/

/-- **Tokens laid in a text** that starts at a position.  Between them and at both ends
there may be blanks, no lexeme begins with one, and nothing else is in the text. -/
inductive Laid : Position → List Char → List Token → Prop
  | nil {p : Position} {gap : List Char} (blank : ∀ c ∈ gap, Text.isBlank c = true) : Laid p gap []
  | cons {p : Position} {gap lexeme rest : List Char} {kind : TokenKind} {ts : List Token}
      (blank : ∀ c ∈ gap, Text.isBlank c = true)
      (visible : ∃ c, lexeme.head? = some c ∧ Text.isBlank c = false)
      (more : Laid (p.after (gap ++ lexeme)) rest ts) :
      Laid p (gap ++ lexeme ++ rest)
        (⟨kind, String.ofList lexeme, (p.after gap).spanTo (p.after (gap ++ lexeme))⟩ :: ts)

/-- All tokens of a text, with the end of the text last. -/
def LaidOut (p : Position) (cs : List Char) (toks : List Token) : Prop :=
  ∃ ts, toks = ts ++ [Token.eof (p.after cs).span] ∧ Laid p cs ts

/-- **Where a text breaks, and why.**  Up to that place the text is cut into the lexer's own
tokens, each of them the one at the front of all that is left, and at that place no token is
at the front of what is left. -/
inductive BreaksAt (reason : LexFault) : Position → List Char → Position → Prop
  | here {p : Position} {gap back : List Char} {c : Char}
      (blank : ∀ d ∈ gap, Text.isBlank d = true) (visible : Text.isBlank c = false)
      (fails : lexeme? c back = .error reason) : BreaksAt reason p (gap ++ c :: back) (p.after gap)
  | behind {p place : Position} {gap back : List Char} {c : Char} {kind : TokenKind} {length : Nat}
      (blank : ∀ d ∈ gap, Text.isBlank d = true) (visible : Text.isBlank c = false)
      (token : lexeme? c back = .ok (kind, length))
      (more : BreaksAt reason (p.after (gap ++ (c :: back).take length))
        ((c :: back).drop length) place) :
      BreaksAt reason p (gap ++ c :: back) place

/-- The error is the lexer's own, at the place where the text breaks. -/
def BrokenBy (p : Position) (cs : List Char) (e : LexError) : Prop :=
  ∃ reason place, e = reason.at place ∧ BreaksAt reason p cs place

variable {p : Position} {gap lexeme rest cs : List Char} {ts toks : List Token}

/-- No token is laid before the start of the text. -/
theorem Laid.precedes (h : Laid p cs ts) : ∀ t ∈ ts, p.span.Precedes t.span := by
  induction h with
  | nil blank => exact nofun
  | @cons p gap lexeme rest kind ts blank visible more ih =>
      refine List.forall_mem_cons.2 ⟨p.precedes_after gap, fun t ht => ?_⟩
      exact (p.precedes_after (gap ++ lexeme)).trans (ih t ht)

/-- **Every token ends before the next one starts.** -/
theorem LaidOut.cleared (h : LaidOut p cs toks) :
    toks.Pairwise (fun t u => t.span.Clears u.span) := by
  obtain ⟨ts, rfl, laid⟩ := h
  induction laid with
  | nil blank => exact List.pairwise_singleton _ _
  | @cons p gap lexeme rest kind ts blank visible more ih =>
      rw [Position.after_append p (gap ++ lexeme) rest, List.cons_append]
      refine List.pairwise_cons.2 ⟨fun t ht => ?_, ih⟩
      -- What follows is laid behind the lexeme.
      have hlexeme : ((p.after gap).spanTo (p.after (gap ++ lexeme))).Clears
          (p.after (gap ++ lexeme)).span := by
        rw [Position.after_append]
        exact (p.after gap).spanTo_clears lexeme
      refine hlexeme.trans_precedes ?_
      rcases List.mem_append.1 ht with ht | ht
      · exact more.precedes t ht
      · rw [List.mem_singleton.1 ht]
        exact Position.precedes_after _ rest

/-- **Tokens are laid in their order.** -/
theorem LaidOut.ordered (h : LaidOut p cs toks) :
    toks.Pairwise (fun t u => t.span.Precedes u.span) :=
  h.cleared.imp Span.Clears.precedes

/-- The tokens of a text without a line break are on its line. -/
theorem LaidOut.line_eq (h : LaidOut p cs toks) (hcs : '\n' ∉ cs) :
    ∀ t ∈ toks, t.span.line = p.line := by
  obtain ⟨ts, rfl, laid⟩ := h
  have hends : (p.after cs).line = p.line := p.line_after hcs
  have hstop := (LaidOut.ordered ⟨ts, rfl, laid⟩ : List.Pairwise _ (ts ++ _))
  intro t ht
  rcases List.mem_append.1 ht with ht | ht
  · -- No token is on an earlier line, and the end of the text is on no later one.
    have hstart := laid.precedes t ht
    have hend := (List.pairwise_append.1 hstop).2.2 t ht _ (List.mem_singleton.2 rfl)
    unfold Span.Precedes at hstart hend
    simp only [Position.span, Span.point, Token.eof] at hstart hend
    omega
  · rw [List.mem_singleton.1 ht]
    exact hends

/-- Blanks end where the first other character is. -/
theorem gap_unique {gap' back back' : List Char} {c c' : Char}
    (blank : ∀ d ∈ gap, Text.isBlank d = true) (visible : Text.isBlank c = false)
    (blank' : ∀ d ∈ gap', Text.isBlank d = true) (visible' : Text.isBlank c' = false)
    (h : gap ++ c :: back = gap' ++ c' :: back') : gap = gap' ∧ c = c' ∧ back = back' := by
  have htake : ∀ {gap back : List Char} {c : Char}, (∀ d ∈ gap, Text.isBlank d = true) →
      Text.isBlank c = false → (gap ++ c :: back).takeWhile Text.isBlank = gap := by
    intro gap back c blank visible
    rw [List.takeWhile_append_of_pos blank,
      List.takeWhile_cons_of_neg (Bool.not_eq_true _ ▸ visible), List.append_nil]
  obtain rfl : gap = gap' := by
    rw [← htake blank visible, h, htake blank' visible']
  obtain ⟨hc, hback⟩ := List.cons.inj (List.append_cancel_left h)
  exact ⟨rfl, hc, hback⟩

/-- **A text breaks at one place only**, and for one reason. -/
theorem BreaksAt.unique {reason reason' : LexFault} {place place' : Position}
    (h : BreaksAt reason p cs place) (h' : BreaksAt reason' p cs place') :
    reason = reason' ∧ place = place' := by
  -- By induction on the rounds: each of them takes the same token off the same text in both.
  induction h with
  | @here p gap back c blank visible fails =>
      generalize hcs : gap ++ c :: back = cs at h'
      cases h' with
      | here blank' visible' fails' =>
          obtain ⟨rfl, rfl, rfl⟩ := gap_unique blank visible blank' visible' hcs
          exact ⟨Except.error.inj (fails.symm.trans fails'), rfl⟩
      | behind blank' visible' token' _ =>
          obtain ⟨-, rfl, rfl⟩ := gap_unique blank visible blank' visible' hcs
          cases fails.symm.trans token'
  | @behind p place gap back c kind length blank visible token more ih =>
      generalize hcs : gap ++ c :: back = cs at h'
      cases h' with
      | here blank' visible' fails' =>
          obtain ⟨-, rfl, rfl⟩ := gap_unique blank visible blank' visible' hcs
          cases token.symm.trans fails'
      | behind blank' visible' token' more' =>
          obtain ⟨rfl, rfl, rfl⟩ := gap_unique blank visible blank' visible' hcs
          cases token.symm.trans token'
          exact ih more'

/-! ## §2. The lexer. -/

theorem LaidOut.cons {kind : TokenKind} (blank : ∀ c ∈ gap, Text.isBlank c = true)
    (visible : ∃ c, lexeme.head? = some c ∧ Text.isBlank c = false)
    (more : LaidOut (p.after (gap ++ lexeme)) rest toks) :
    LaidOut p (gap ++ lexeme ++ rest)
      (⟨kind, String.ofList lexeme, (p.after gap).spanTo (p.after (gap ++ lexeme))⟩ :: toks) := by
  obtain ⟨ts, rfl, laid⟩ := more
  rw [← Position.after_append]
  exact ⟨_ :: ts, rfl, .cons blank visible laid⟩

theorem span_at (fault : LexFault) (p : Position) : (fault.at p).span.place = p.span.place := by
  cases fault <;> rfl

section Rounds

variable {n length : Nat} {c : Cursor} {ch : Char} {kind : TokenKind} {fault : LexFault}

theorem lexFrom_end (h : c.skipBlank.rest = []) :
    lexFrom (n + 1) c = .ok [Token.eof c.skipBlank.pos.span] := by
  simp only [lexFrom, h]

theorem lexFrom_fault (h : c.skipBlank.rest = ch :: cs) (found : lexeme? ch cs = .error fault) :
    lexFrom (n + 1) c = .error (fault.at c.skipBlank.pos) := by
  simp only [lexFrom, h, found]

theorem lexFrom_token (h : c.skipBlank.rest = ch :: cs)
    (found : lexeme? ch cs = .ok (kind, length)) :
    lexFrom (n + 1) c
      = (lexFrom n (c.skipBlank.skip length)).map (tokenAt c.skipBlank kind length :: ·) := by
  simp only [lexFrom, h, found, tokenAt]

end Rounds

/-- **The lexer lays out a text, or it says where the text breaks.** -/
theorem lexFrom_meets {n : Nat} {c : Cursor} (enough : c.rest.length < n) :
    Meets (LaidOut c.pos c.rest) (BrokenBy c.pos c.rest) (lexFrom n c) := by
  induction n generalizing c with
  | zero => omega
  | succ n ih =>
      obtain ⟨gap, hblank, hrest, hpos, hvisible⟩ := c.exists_gap
      cases hfront : c.skipBlank.rest with
      | nil =>
          rw [lexFrom_end hfront]
          show LaidOut c.pos c.rest [Token.eof c.skipBlank.pos.span]
          rw [hfront, List.append_nil] at hrest
          rw [hpos, hrest]
          exact ⟨[], rfl, .nil hblank⟩
      | cons ch cs =>
          rw [hfront] at hrest hvisible
          have hch : Text.isBlank ch = false := hvisible ch rfl
          cases hfound : lexeme? ch cs with
          | error fault =>
              rw [lexFrom_fault hfront hfound]
              show BrokenBy c.pos c.rest (fault.at c.skipBlank.pos)
              rw [hpos, hrest]
              exact ⟨fault, _, rfl, .here hblank hch hfound⟩
          | ok found =>
              obtain ⟨kind, length⟩ := found
              rw [lexFrom_token hfront hfound]
              -- The lexeme is cut off, and one round fewer is enough for the rest.
              have hlength : 0 < length := (front_of_lexeme? hfound).nonempty.2
              let lexeme := (ch :: cs).take length
              let rest := (ch :: cs).drop length
              have hstop : c.skipBlank.skip length = ⟨rest, c.pos.after (gap ++ lexeme)⟩ := by
                unfold Cursor.skip
                rw [hfront, hpos, ← Position.after_append]
              have htoken : tokenAt c.skipBlank kind length = ⟨kind, String.ofList lexeme,
                  (c.pos.after gap).spanTo (c.pos.after (gap ++ lexeme))⟩ := by
                rw [tokenAt, hstop, hfront, hpos]
              have hsplit : c.rest = gap ++ lexeme ++ rest := by
                rw [hrest, List.append_assoc, List.take_append_drop]
              have hhead : ∃ d, lexeme.head? = some d ∧ Text.isBlank d = false := by
                refine ⟨ch, ?_, hch⟩
                show ((ch :: cs).take length).head? = some ch
                rw [List.head?_take, if_neg (by omega)]
                rfl
              have hshort : rest.length < n := by
                have hdrop : rest.length = cs.length + 1 - length := List.length_drop
                rw [hrest, List.length_append, List.length_cons] at enough
                omega
              rw [hstop, htoken]
              refine (ih hshort).map ?_ |>.mono (fun _ h => h) ?_
              · intro toks more
                rw [hsplit]
                exact .cons hblank hhead more
              · rintro e ⟨reason, place, rfl, more⟩
                rw [hrest]
                exact ⟨reason, place, rfl, .behind hblank hch hfound more⟩

theorem lex_meets (source : String) :
    Meets (LaidOut .start source.toList) (BrokenBy .start source.toList) (lex source) :=
  lexFrom_meets (Nat.lt_succ_self _)

/-! ## §3. Texts inside files. -/

/-- The token with its span moved into the coordinates of `base`. -/
def Token.moved (base : Span) (t : Token) : Token := { t with span := t.span.offset base }

variable {base r a : Position}

/-- **Tokens laid in a text are laid in the file** once their spans are moved there. -/
theorem Laid.moved (h : Laid r cs ts) (shifted : Position.Shifted base r a) :
    Laid a cs (ts.map (Token.moved base.span)) := by
  induction h generalizing a with
  | nil blank => exact .nil blank
  | @cons r gap lexeme rest kind ts blank visible more ih =>
      have hspan : ((r.after gap).spanTo (r.after (gap ++ lexeme))).offset base.span
          = (a.after gap).spanTo (a.after (gap ++ lexeme)) := by
        rw [Position.after_append, Position.after_append]
        exact (shifted.after gap).offset_spanTo lexeme
      rw [List.map_cons, Token.moved, hspan]
      exact .cons blank visible (ih (shifted.after (gap ++ lexeme)))

theorem LaidOut.moved (h : LaidOut .start cs toks) (base : Position) :
    LaidOut base cs (toks.map (Token.moved base.span)) := by
  obtain ⟨ts, rfl, laid⟩ := h
  refine ⟨ts.map (Token.moved base.span), ?_, laid.moved (.start base)⟩
  rw [List.map_append]
  show _ ++ [Token.eof ((Position.start.after cs).span.offset base.span)] = _
  rw [((Position.Shifted.start base).after cs).moved]

/-- A text breaks in the file where it breaks by itself. -/
theorem BreaksAt.moved {reason : LexFault} {stop : Position} (h : BreaksAt reason r cs stop)
    (shifted : Position.Shifted base r a) :
    ∃ place, Position.Shifted base stop place ∧ BreaksAt reason a cs place := by
  induction h generalizing a with
  | @here r gap back c blank visible fails =>
      exact ⟨_, shifted.after gap, .here blank visible fails⟩
  | @behind r stop gap back c kind length blank visible token more ih =>
      obtain ⟨place, hplace, hmore⟩ := ih (shifted.after (gap ++ (c :: back).take length))
      exact ⟨place, hplace, .behind blank visible token hmore⟩

end BoundMarkup.Binding
