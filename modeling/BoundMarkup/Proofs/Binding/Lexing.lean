/-
  BoundMarkup.Proofs.Binding.Lexing
  ─────────────────────────────────
  **TOKENS LIE ONE AFTER ANOTHER IN THE TEXT.**

  `Cuts` is the lexer without its bound on rounds: blanks are passed over, then
  one token is taken.  The lexer answers the tokens of such a run to the end of
  the text (`lex_of_cuts`), and each of them is a token that stands at the front
  of some text (`Token.Lexed`).
-/
import BoundMarkup.Proofs.Binding.Numerals
import BoundMarkup.Proofs.Binding.TypeArguments

namespace BoundMarkup.Binding

/-! ## §1. Runs of the lexer. -/

/-- The token of the given kind and length at a cursor. -/
def tokenAt (c : Cursor) (kind : TokenKind) (length : Nat) : Token :=
  ⟨kind, String.ofList (c.rest.take length), c.pos.spanTo (c.skip length).pos⟩

/-- **The tokens between two cursors.** -/
inductive Cuts : Cursor → List Token → Cursor → Prop where
  | nil (c : Cursor) : Cuts c [] c
  | cons {c d : Cursor} {ch : Char} {cs : List Char} {kind : TokenKind} {length : Nat}
      {ts : List Token} (front : c.skipBlank.rest = ch :: cs)
      (found : lexeme? ch cs = .ok (kind, length)) (more : Cuts (c.skipBlank.skip length) ts d) :
      Cuts c (tokenAt c.skipBlank kind length :: ts) d

theorem Cuts.append {c d d' : Cursor} {ts ts' : List Token} (h : Cuts c ts d)
    (h' : Cuts d ts' d') : Cuts c (ts ++ ts') d' := by
  induction h with
  | nil c => exact h'
  | cons front found _ ih => exact .cons front found (ih h')

/-! ## §2. What stands at the front of a text. -/

/-- A token that stands at the front of some text. -/
def Token.Lexed (t : Token) : Prop :=
  ∃ c cs length, lexeme? c cs = .ok (t.kind, length)
    ∧ t.lexeme = String.ofList ((c :: cs).take length)

theorem Cuts.lexed {c d : Cursor} {ts : List Token} (h : Cuts c ts d) : ∀ t ∈ ts, t.Lexed := by
  induction h with
  | nil c => simp
  | cons front found _ ih =>
      refine List.forall_mem_cons.2 ⟨⟨_, _, _, found, ?_⟩, ih⟩
      rw [tokenAt, front]

/-- A name as it is written: a start character, then name characters. -/
structure IsWord (w : List Char) : Prop where
  start : ∃ c cs, w = c :: cs ∧ isIdentStart c = true
  continues : ∀ c ∈ w, isIdentContinue c = true

theorem IsWord.dot_not_mem {w : List Char} (h : IsWord w) : '.' ∉ w := fun dot =>
  absurd (h.continues '.' dot) (by decide)

theorem wordKind_cases (cs : List Char) :
    wordKind cs = .true_ ∨ wordKind cs = .false_ ∨ wordKind cs = .null_
      ∨ wordKind cs = .identifier := by
  unfold wordKind
  split
  · exact Or.inl rfl
  · split
    · exact Or.inr (Or.inl rfl)
    · split
      · exact Or.inr (Or.inr (Or.inl rfl))
      · exact Or.inr (Or.inr (Or.inr rfl))

theorem operatorLexeme_eq_some {cs : List Char} {kind : TokenKind} {length : Nat}
    (h : operatorLexeme cs = some (kind, length)) :
    kind ≠ .eof ∧ kind ≠ .identifier ∧ kind.isLiteral = false ∧ 0 < length := by
  unfold operatorLexeme at h
  split at h <;> cases h <;> decide

/-- What scanners of string literals ask of a character that is no escape. -/
theorem ne_backslash {c : Char} {cs : List Char} (hsingle : c = '\\' → cs = [] → False)
    (hescape : ∀ d ds, c = '\\' → cs = d :: ds → False) : c ≠ '\\' := by
  intro hc
  cases cs with
  | nil => exact hsingle hc rfl
  | cons d ds => exact hescape d ds hc rfl

/-- **What may stand at the front of a text**: a word, a number, a string or a mark. -/
inductive Front (c : Char) (cs : List Char) : TokenKind → Nat → Prop where
  | word {w : List Char} (isWord : IsWord w) (taken : w = (c :: cs).takeWhile isIdentContinue) :
      Front c cs (wordKind w) w.length
  | number {kind : TokenKind} {length : Nat} (digit : c.isDigit = true)
      (found : numberLexeme (c :: cs) = .ok (kind, length)) : Front c cs kind length
  | string {n : Nat} (quote : c = '"' ∨ c = '\'') (found : quoteLength c cs = some n) :
      Front c cs .stringLiteral (n + 1)
  | mark {kind : TokenKind} {length : Nat}
      (found : operatorLexeme (c :: cs) = some (kind, length)) : Front c cs kind length

theorem front_of_lexeme? {c : Char} {cs : List Char} {kind : TokenKind} {length : Nat}
    (h : lexeme? c cs = .ok (kind, length)) : Front c cs kind length := by
  unfold lexeme? at h
  split at h
  · rename_i start
    cases h
    refine .word ⟨⟨c, cs.takeWhile isIdentContinue, ?_, start⟩, ?_⟩ rfl
    · simp [isIdentContinue_of_start start]
    · exact fun d hd => List.all_eq_true.1 List.all_takeWhile d hd
  · split at h
    · exact .number ‹_› h
    · split at h
      · split at h <;> cases h
        exact .string ‹_› ‹_›
      · split at h <;> cases h
        exact .mark ‹_›

theorem digitRun_ne_zero {c : Char} {cs : List Char} (digit : c.isDigit = true) :
    digitRun (c :: cs) ≠ 0 := by
  simp [digitRun, digit]

/-- A number is of one of three kinds. -/
theorem kind_of_isSuffix {f e s : List Char} {kind : TokenKind}
    (h : IsSuffix (plainKind f e) s kind) :
    kind = .intLiteral ∨ kind = .realLiteral ∨ kind = .decimalLiteral := by
  cases h with
  | none =>
      unfold plainKind
      split
      · exact Or.inl rfl
      · exact Or.inr (Or.inl rfl)
  | decimal letter => exact Or.inr (Or.inr rfl)
  | long letter whole => exact Or.inl rfl
  | double letter => exact Or.inr (Or.inl rfl)

/-- A token takes at least one character, and is not the end of the binding. -/
theorem Front.nonempty {c : Char} {cs : List Char} {kind : TokenKind} {length : Nat}
    (h : Front c cs kind length) : kind ≠ .eof ∧ 0 < length := by
  cases h with
  | @word w isWord taken =>
      obtain ⟨d, ds, rfl, -⟩ := isWord.start
      refine ⟨?_, by simp⟩
      rcases wordKind_cases (d :: ds) with h | h | h | h <;> simp [h]
  | number digit found =>
      obtain ⟨w, f, e, s, taken, digits, -, -, suffix⟩ :=
        form_of_numberLexeme (digitRun_ne_zero digit) found
      refine ⟨?_, Nat.pos_of_ne_zero ?_⟩
      · rcases kind_of_isSuffix suffix with rfl | rfl | rfl <;> decide
      · rintro rfl
        simp [digits.nonempty] at taken
  | string quote found => exact ⟨by decide, by omega⟩
  | mark found =>
      obtain ⟨notEof, -, -, pos⟩ := operatorLexeme_eq_some found
      exact ⟨notEof, pos⟩

/-- The lexeme of an identifier is a word, and none of the three with a kind of their own. -/
theorem Token.Lexed.word {t : Token} (h : t.Lexed) (kind : t.kind = .identifier) :
    IsWord t.lexeme.toList ∧ wordKind t.lexeme.toList = .identifier := by
  obtain ⟨c, cs, length, found, lexeme⟩ := h
  rw [kind] at found
  generalize id : TokenKind.identifier = k at found ⊢
  cases front_of_lexeme? found with
  | @word w isWord taken =>
      -- A word is a front part of the text, so its length cuts it out.
      have : (c :: cs).take w.length = w := by
        rw [taken]
        exact (List.prefix_iff_eq_take.1 (List.takeWhile_prefix _)).symm
      rw [lexeme, String.toList_ofList, this]
      exact ⟨isWord, rfl⟩
  | number digit found =>
      obtain ⟨w, f, e, s, -, -, -, -, suffix⟩ :=
        form_of_numberLexeme (digitRun_ne_zero digit) found
      rcases kind_of_isSuffix suffix with rfl | rfl | rfl <;> cases id
  | string quote found => cases id
  | mark found => exact absurd id.symm (operatorLexeme_eq_some found).2.1

/-! ## §3. The whole text. -/

theorem length_skipBlank_le (c : Cursor) : c.skipBlank.rest.length ≤ c.rest.length := by
  simp [Cursor.skipBlank, Cursor.skipWhile, Cursor.takeWhile, Cursor.skip]

/-- The lexer answers tokens that stand at the front of some text, and the end. -/
theorem lexFrom_eq_ok {n : Nat} {c : Cursor} {toks : List Token} (h : lexFrom n c = .ok toks) :
    ∃ ts stop, toks = ts ++ [Token.eof stop] ∧ ∀ t ∈ ts, t.Lexed := by
  induction n generalizing c toks with
  | zero =>
      cases h
      exact ⟨[], _, rfl, by simp⟩
  | succ n ih =>
      simp only [lexFrom] at h
      split at h
      · cases h
        exact ⟨[], _, rfl, by simp⟩
      · rename_i ch cs front
        split at h
        · cases h
        · rename_i kind length found
          cases read : lexFrom n (c.skipBlank.skip length) with
          | error e => rw [read] at h; cases h
          | ok more =>
              rw [read] at h
              cases h
              obtain ⟨ts, stop, rfl, lexed⟩ := ih read
              have first : (tokenAt c.skipBlank kind length).Lexed :=
                (Cuts.cons front found (.nil _)).lexed _ List.mem_cons_self
              refine ⟨tokenAt c.skipBlank kind length :: ts, stop, ?_,
                List.forall_mem_cons.2 ⟨first, lexed⟩⟩
              rw [tokenAt, front]
              rfl

/-- A run to the end of the text is what the lexer answers, given a round for each character. -/
theorem Cuts.lexFrom_eq {c d : Cursor} {ts : List Token} (h : Cuts c ts d)
    (done : d.skipBlank.rest = []) {n : Nat} (enough : c.rest.length < n) :
    lexFrom n c = .ok (ts ++ [Token.eof d.skipBlank.pos.span]) := by
  induction h generalizing n with
  | nil c =>
      obtain ⟨n, rfl⟩ : ∃ n', n = n' + 1 := ⟨n - 1, by omega⟩
      simp only [lexFrom, done]
      rfl
  | @cons c d ch cs kind length ts front found more ih =>
      obtain ⟨n, rfl⟩ : ∃ n', n = n' + 1 := ⟨n - 1, by omega⟩
      -- Every token takes a character, so one round fewer is enough for the rest.
      have pos := (front_of_lexeme? found).nonempty.2
      have shorter : (c.skipBlank.skip length).rest.length < n := by
        have := length_skipBlank_le c
        have : (c.skipBlank.skip length).rest.length = c.skipBlank.rest.length - length := by
          simp [Cursor.skip]
        have : 0 < c.skipBlank.rest.length := by simp [front]
        omega
      simp only [lexFrom, front, found, ih done shorter]
      rw [tokenAt, front]
      rfl

theorem lex_eq_ok {source : String} {toks : List Token} (h : lex source = .ok toks) :
    ∃ ts stop, toks = ts ++ [Token.eof stop] ∧ ∀ t ∈ ts, t.Lexed :=
  lexFrom_eq_ok h

/-- **A text is cut into the tokens of a run through it.** -/
theorem lex_of_cuts {source : String} {ts : List Token} {d : Cursor}
    (h : Cuts (Cursor.ofChars source.toList) ts d) (done : d.skipBlank.rest = []) :
    lex source = .ok (ts ++ [Token.eof d.skipBlank.pos.span]) :=
  h.lexFrom_eq done (by simp [Cursor.ofChars])

end BoundMarkup.Binding
