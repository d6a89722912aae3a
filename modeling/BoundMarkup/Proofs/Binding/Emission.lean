/-
  BoundMarkup.Proofs.Binding.Emission
  ───────────────────────────────────
  **TEXT THAT IS CUT INTO GIVEN TOKENS.**

  `Emits cs ss follow` says that `cs`, where `follow` comes next, is cut into
  tokens that spell the symbols `ss`; `EmitsIff` says so under a condition that
  is also necessary.  Texts are put together from pieces; what a piece asks of
  the text behind it is said by the lemma about the piece.
-/
import BoundMarkup.Proofs.Binding.Lexing

namespace BoundMarkup.Binding

/-! ## §1. Emission. -/

/-- Blanks in front of the first token do not matter. -/
theorem Cuts.of_skipBlank_eq {c c' d : Cursor} {t : Token} {ts : List Token}
    (h : Cuts c (t :: ts) d) (same : c'.skipBlank = c.skipBlank) : Cuts c' (t :: ts) d := by
  generalize all : t :: ts = us at h
  cases h with
  | nil => cases all
  | cons front found more =>
      rw [← same] at front more ⊢
      exact .cons front found more

/-- The first token stands behind the blanks. -/
theorem Cuts.head {c d : Cursor} {t : Token} {ts : List Token} (h : Cuts c (t :: ts) d) :
    ∃ ch cs length, c.skipBlank.rest = ch :: cs ∧ lexeme? ch cs = .ok (t.kind, length) := by
  generalize all : t :: ts = us at h
  cases h with
  | nil => cases all
  | cons front found more =>
      cases all
      exact ⟨_, _, _, front, found⟩

/-- **The tokens spell the symbols just if `fine`.**  Otherwise there are no more tokens
than symbols, so that parts which are not spelled cannot make up for each other. -/
structure SpellsIff (ts : List Token) (ss : List Symbol) (fine : Prop) : Prop where
  shorter : ts.length ≤ ss.length
  starts : ∀ s ∈ ss.head?, ∃ t ∈ ts.head?, t.kind.startsOperand = s.kind.startsOperand
  spells : fine → ∀ rest, Spells (ts ++ rest) ss rest
  only : ∀ rest, Spells (ts ++ rest) ss rest → fine

namespace SpellsIff

variable {ts ts' : List Token} {ss ss' : List Symbol} {fine fine' : Prop}

theorem of_spells (h : ∀ rest, Spells (ts ++ rest) ss rest) : SpellsIff ts ss True := by
  refine ⟨?_, ?_, fun _ => h, fun _ _ => trivial⟩
  · exact Nat.le_of_eq (by simpa using (h []).length_eq)
  · rintro s first
    cases ts with
    | nil =>
        have := (h []).length_eq
        cases ss <;> simp_all
    | cons t ts =>
        obtain ⟨ss, rfl⟩ := List.head?_eq_some_iff.1 first
        exact ⟨t, rfl, by rw [(h []).1.kind_eq]⟩

theorem append (h : SpellsIff ts ss fine) (h' : SpellsIff ts' ss' fine') :
    SpellsIff (ts ++ ts') (ss ++ ss') (fine ∧ fine') := by
  refine ⟨?_, ?_, ?_, ?_⟩
  · rw [List.length_append, List.length_append]
    exact Nat.add_le_add h.shorter h'.shorter
  · rintro s first
    cases ss with
    | nil =>
        -- No symbols, so no tokens: the second part comes first.
        obtain rfl : ts = [] := List.length_eq_zero_iff.1 (Nat.le_zero.1 h.shorter)
        exact h'.starts s first
    | cons s' ss =>
        obtain ⟨t, front, same⟩ := h.starts s first
        obtain ⟨ts, rfl⟩ := List.head?_eq_some_iff.1 front
        exact ⟨t, rfl, same⟩
  · rintro ⟨f, f'⟩ rest
    rw [List.append_assoc]
    exact spells_append.2 ⟨_, h.spells f _, h'.spells f' rest⟩
  · intro rest all
    -- Neither part has too many tokens, so together they can only be right if both are.
    have length := all.length_eq
    have := h.shorter
    have := h'.shorter
    simp only [List.length_append] at length
    rw [List.append_assoc] at all
    obtain ⟨mid, first, second⟩ := spells_append.1 all
    obtain rfl : mid = ts' ++ rest := by
      rw [first.rest_eq, show ss.length = ts.length by omega, List.drop_left]
    exact ⟨h.only _ first, h'.only _ second⟩

theorem congr (h : SpellsIff ts ss fine) (same : fine ↔ fine') : SpellsIff ts ss fine' :=
  ⟨h.shorter, h.starts, h.spells ∘ same.2, fun rest => same.1 ∘ h.only rest⟩

end SpellsIff

/-- **Where `follow` comes next, `cs` is cut into tokens that spell `ss` just if `fine`.** -/
def EmitsIff (cs : List Char) (ss : List Symbol) (follow : List Char) (fine : Prop) : Prop :=
  ∀ pos : Position, ∃ ts, Cuts ⟨cs ++ follow, pos⟩ ts ⟨follow, pos.after cs⟩ ∧ SpellsIff ts ss fine

/-- **Where `follow` comes next, `cs` is cut into tokens that spell `ss`.** -/
def Emits (cs : List Char) (ss : List Symbol) (follow : List Char) : Prop :=
  EmitsIff cs ss follow True

namespace EmitsIff

variable {c : Char} {cs cs' follow : List Char} {s : Symbol} {ss ss' : List Symbol}
  {fine fine' : Prop}

theorem congr (h : EmitsIff cs ss follow fine) (same : fine ↔ fine') :
    EmitsIff cs ss follow fine' := fun pos =>
  (h pos).imp fun _ emitted => ⟨emitted.1, emitted.2.congr same⟩

theorem append (h : EmitsIff cs ss (cs' ++ follow) fine) (h' : EmitsIff cs' ss' follow fine') :
    EmitsIff (cs ++ cs') (ss ++ ss') follow (fine ∧ fine') := by
  intro pos
  obtain ⟨ts, cuts, spells⟩ := h pos
  obtain ⟨ts', cuts', spells'⟩ := h' (pos.after cs)
  refine ⟨ts ++ ts', ?_, spells.append spells'⟩
  rw [List.append_assoc, Position.after_append]
  exact cuts.append cuts'

/-- A piece that is always spelled adds no condition. -/
theorem before (h : Emits cs ss (cs' ++ follow)) (h' : EmitsIff cs' ss' follow fine) :
    EmitsIff (cs ++ cs') (ss ++ ss') follow fine :=
  (append h h').congr (by rw [true_and])

theorem behind (h : EmitsIff cs ss (cs' ++ follow) fine) (h' : Emits cs' ss' follow) :
    EmitsIff (cs ++ cs') (ss ++ ss') follow fine :=
  (append h h').congr (by rw [and_true])

/-- Blanks in front of a token are passed over. -/
theorem skipBlank_cons {rest : List Char} (blank : Text.isBlank c = true) (pos : Position) :
    (⟨c :: rest, pos⟩ : Cursor).skipBlank = (⟨rest, pos.step c⟩ : Cursor).skipBlank := by
  simp [Cursor.skipBlank, Cursor.skipWhile, Cursor.takeWhile, Cursor.skip, blank, Position.after]

theorem skipBlank_of_not (rest : List Char) (visible : Text.isBlank c = false) (pos : Position) :
    (⟨c :: rest, pos⟩ : Cursor).skipBlank = ⟨c :: rest, pos⟩ := by
  simp [Cursor.skipBlank, Cursor.skipWhile, Cursor.takeWhile, Cursor.skip, visible, Position.after]

theorem blank (h : EmitsIff cs ss follow fine) (some_symbols : ss ≠ []) :
    EmitsIff (' ' :: cs) ss follow fine := by
  intro pos
  obtain ⟨ts, cuts, spells⟩ := h (pos.step ' ')
  obtain ⟨s, ss, rfl⟩ := List.exists_cons_of_ne_nil some_symbols
  obtain ⟨t, first, -⟩ := spells.starts s rfl
  obtain ⟨ts, rfl⟩ := List.head?_eq_some_iff.1 first
  exact ⟨t :: ts, cuts.of_skipBlank_eq (skipBlank_cons (by decide) pos), spells⟩

/-- A text that starts an operand does not start with a character of other tokens. -/
theorem head_ne (h : EmitsIff cs (s :: ss) follow fine) (starts : s.kind.startsOperand = true)
    (visible : Text.isBlank c = false)
    (others : ∀ rest kind length, lexeme? c rest = .ok (kind, length) →
      kind.startsOperand = false) :
    (cs ++ follow).head? ≠ some c := by
  intro head
  obtain ⟨rest, text⟩ := List.head?_eq_some_iff.1 head
  obtain ⟨ts, cuts, spells⟩ := h .start
  obtain ⟨t, first, same⟩ := spells.starts s rfl
  obtain ⟨ts, rfl⟩ := List.head?_eq_some_iff.1 first
  obtain ⟨d, ds, length, front, found⟩ := cuts.head
  rw [text, skipBlank_of_not rest visible] at front
  cases front
  rw [others _ _ _ found, starts] at same
  cases same

/-- One token, with its place. -/
theorem cuts_token (cs : List Char) {kind : TokenKind} (visible : Text.isBlank c = false)
    (found : lexeme? c (cs ++ follow) = .ok (kind, cs.length + 1)) (pos : Position) :
    Cuts ⟨c :: cs ++ follow, pos⟩
      [⟨kind, String.ofList (c :: cs), pos.spanTo (pos.after (c :: cs))⟩]
      ⟨follow, pos.after (c :: cs)⟩ := by
  have here := skipBlank_of_not (cs ++ follow) visible pos
  have start : (⟨c :: (cs ++ follow), pos⟩ : Cursor).skipBlank.rest = c :: (cs ++ follow) := by
    rw [here]
  have cuts := Cuts.cons start found (.nil _)
  rw [here] at cuts
  simpa [Cursor.skip, tokenAt] using cuts

theorem token {kind : TokenKind} (visible : Text.isBlank c = false)
    (found : lexeme? c (cs ++ follow) = .ok (kind, cs.length + 1)) (other : s ≠ .shift)
    (starts : kind.startsOperand = s.kind.startsOperand)
    (stands : ∀ span, s.Stands ⟨kind, String.ofList (c :: cs), span⟩ ↔ fine) :
    EmitsIff (c :: cs) [s] follow fine := by
  refine fun pos => ⟨_, cuts_token cs visible found pos, ?_⟩
  refine ⟨Nat.le_refl 1, ?_, fun f rest => ?_, fun rest spells => (stands _).1 spells.1⟩
  · rintro _ ⟨⟩
    exact ⟨_, rfl, starts⟩
  · exact ⟨(stands _).2 f, fun shift => absurd shift other, spells_nil rest⟩

end EmitsIff

namespace Emits

variable {c : Char} {cs cs' follow : List Char} {s : Symbol} {ss ss' : List Symbol}

theorem nil (follow : List Char) : Emits [] [] follow := fun _ =>
  ⟨[], .nil _, .of_spells spells_nil⟩

theorem append (h : Emits cs ss (cs' ++ follow)) (h' : Emits cs' ss' follow) :
    Emits (cs ++ cs') (ss ++ ss') follow :=
  EmitsIff.before h h'

theorem token {kind : TokenKind} (visible : Text.isBlank c = false)
    (found : lexeme? c (cs ++ follow) = .ok (kind, cs.length + 1)) (other : s ≠ .shift)
    (stands : ∀ span, s.Stands ⟨kind, String.ofList (c :: cs), span⟩) :
    Emits (c :: cs) [s] follow := by
  have starts : kind = s.kind := (stands .start).kind_eq
  exact EmitsIff.token visible found other (by rw [starts]) fun span => iff_true_intro (stands span)

end Emits

/-! ## §2. Marks. -/

/-- A property of some characters is checked one by one. -/
theorem forall_mem_of_all {P : Char → Prop} [DecidablePred P] {cs : List Char}
    (all : cs.all (fun c => decide (P c)) = true) : ∀ c ∈ cs, P c :=
  fun c mem => of_decide_eq_true (List.all_eq_true.1 all c mem)

/-- The characters that marks start with. -/
def markChars : List Char :=
  ['?', '!', '&', '|', '<', '>', '=', '.', ',', ':', '(', ')', '[', ']', '+', '-', '*', '/', '%',
   '~', '^']

theorem mem_markChars {c : Char} {cs : List Char} {kind : TokenKind} {length : Nat}
    (h : operatorLexeme (c :: cs) = some (kind, length)) : c ∈ markChars := by
  generalize text : c :: cs = ds at h
  unfold operatorLexeme at h
  split at h <;> cases text <;> first | decide | cases h

theorem isBlank_markChars {c : Char} (mark : c ∈ markChars) : Text.isBlank c = false := by
  have all : ∀ d ∈ markChars, Text.isBlank d = false := forall_mem_of_all (by decide)
  exact all c mark

/-- What starts with such a character is a mark. -/
theorem lexeme?_markChars {c : Char} (mark : c ∈ markChars) (cs : List Char)
    (found : TokenKind × Nat) :
    lexeme? c cs = .ok found ↔ operatorLexeme (c :: cs) = some found := by
  have others : ∀ d ∈ markChars,
      isIdentStart d = false ∧ d.isDigit = false ∧ ¬ (d = '"' ∨ d = '\'') :=
    forall_mem_of_all (by decide)
  obtain ⟨word, digit, quote⟩ := others c mark
  simp only [lexeme?, word, digit, if_neg quote, Bool.false_eq_true, if_false]
  cases operatorLexeme (c :: cs) <;> simp

/-- No operand starts with a token that starts with `=` or `<`. -/
theorem startsOperand_of_mark {c : Char} (mark : c = '=' ∨ c = '<') {cs : List Char}
    {kind : TokenKind} {length : Nat} (h : lexeme? c cs = .ok (kind, length)) :
    kind.startsOperand = false := by
  rw [lexeme?_markChars (by rcases mark with rfl | rfl <;> decide)] at h
  generalize text : c :: cs = ds at h
  unfold operatorLexeme at h
  split at h <;> cases text <;> cases h <;> first | rfl | simp at mark

/-- So the text of an operand starts with neither. -/
theorem EmitsIff.head_ne_mark {cs follow : List Char} {s : Symbol} {ss : List Symbol} {fine : Prop}
    (h : EmitsIff cs (s :: ss) follow fine) (starts : s.kind.startsOperand = true) {c : Char}
    (mark : c = '=' ∨ c = '<') : (cs ++ follow).head? ≠ some c := by
  refine h.head_ne starts ?_ fun _ _ _ => startsOperand_of_mark mark
  rcases mark with rfl | rfl <;> decide

theorem operatorLexeme_greater {follow : List Char} (noEqual : follow.head? ≠ some '=') :
    operatorLexeme ('>' :: follow) = some (.greater, 1) := by
  rw [operatorLexeme]
  rintro cs rfl
  exact noEqual rfl

namespace Emits

variable {c : Char} {cs cs' follow : List Char} {s : Symbol} {ss ss' : List Symbol}

/-- A mark, by what the lexer finds at its front. -/
theorem mark {kind : TokenKind}
    (found : operatorLexeme (c :: (cs ++ follow)) = some (kind, cs.length + 1)) :
    Emits (c :: cs) [.mark kind] follow := by
  have mark := mem_markChars found
  exact token (isBlank_markChars mark) ((lexeme?_markChars mark _ _).2 found) nofun fun _ => rfl

/-- A mark that the lexer takes alone unless `=` follows. -/
theorem greater (noEqual : follow.head? ≠ some '=') : Emits ['>'] [.mark .greater] follow :=
  mark (operatorLexeme_greater noEqual)

/-- A mark that the lexer takes alone unless `=` or another `<` follows. -/
theorem less (noEqual : follow.head? ≠ some '=') (single : follow.head? ≠ some '<') :
    Emits ['<'] [.mark .less] follow := by
  refine mark ?_
  rw [List.nil_append, operatorLexeme]
  · rfl
  · rintro cs rfl
    exact noEqual rfl
  · rintro cs rfl
    exact single rfl

theorem bang (noEqual : follow.head? ≠ some '=') : Emits ['!'] [.mark .bang] follow := by
  refine mark ?_
  rw [List.nil_append, operatorLexeme]
  · rfl
  · rintro cs rfl
    exact noEqual rfl

theorem question (single : follow.head? ≠ some '?') : Emits ['?'] [.mark .question] follow := by
  refine mark ?_
  rw [List.nil_append, operatorLexeme]
  · rfl
  · rintro cs rfl
    exact single rfl

/-- Two `?` side by side are one mark, so they spell no two. -/
theorem double_question (follow : List Char) :
    EmitsIff ['?', '?'] [.mark .question, .mark .question] follow False := by
  have mark : '?' ∈ markChars := by decide
  have found := (lexeme?_markChars mark ('?' :: follow) (.questionQuestion, 2)).2 rfl
  refine fun pos => ⟨_, EmitsIff.cuts_token ['?'] (isBlank_markChars mark) found pos, ?_⟩
  refine ⟨Nat.le_succ 1, ?_, False.elim, fun rest spells => ?_⟩
  · rintro _ ⟨⟩
    exact ⟨_, rfl, rfl⟩
  · cases spells.1

/-- Both `>` of a shift, one right behind the other. -/
theorem shift (noEqual : follow.head? ≠ some '=') :
    Emits ['>', '>'] [.shift, .mark .greater] follow := by
  have mark : '>' ∈ markChars := by decide
  have visible := isBlank_markChars mark
  have first := (lexeme?_markChars mark ('>' :: follow) (.greater, 1)).2 rfl
  have second := (lexeme?_markChars mark _ _).2 (operatorLexeme_greater noEqual)
  intro pos
  -- Each `>` is a token of its own; their places tell that nothing is between them.
  refine ⟨_, (EmitsIff.cuts_token [] visible first pos).append
    (EmitsIff.cuts_token [] visible second _),
    .of_spells fun rest => ⟨rfl, fun _ => ?_, rfl, nofun, ?_⟩⟩
  · simp [atShiftRight, Position.after, Position.step, Position.spanTo]
  · exact spells_nil rest

/-- A binary operator between blanks. -/
theorem operator (op : BinaryOp) (follow : List Char) :
    Emits op.text.toList (operatorYield op) (' ' :: follow) := by
  cases op
  case shiftRight => exact shift (by simp)
  all_goals exact mark rfl

end Emits

/-! ## §3. Words and numbers. -/

/-- What holds of the first 128 characters holds of every ASCII character. -/
theorem of_ascii {P : Char → Prop} (all : ∀ n : Fin 128, P (Char.ofNat n)) {c : Char}
    (ascii : c.toNat < 128) : P c := by
  have := all ⟨c.toNat, ascii⟩
  rwa [Char.ofNat_toNat] at this

/-- A name does not start with a blank. -/
theorem isBlank_of_isIdentStart {c : Char} (start : isIdentStart c = true) :
    Text.isBlank c = false := by
  by_cases ascii : c.toNat < 128
  · exact of_ascii (P := fun d => isIdentStart d = true → Text.isBlank d = false)
      (by decide +kernel) ascii start
  · -- Beyond ASCII names start with letters, and no letter is in the ranges of blanks.
    have beyond : ¬ c.val < 0x80 := ascii
    have letter : Text.inRanges Text.alphabeticRanges c.toNat = true := by
      have underscore : c ≠ '_' := fun h => ascii (by rw [h]; decide)
      simpa [isIdentStart, Text.isAlphabetic, Text.classMember, beyond, underscore] using start
    rw [Text.isBlank, Text.classMember, if_neg beyond]
    exact Text.inRanges_eq_false (by decide +kernel) letter

/-- A word is taken as far as it goes. -/
theorem lexeme?_word {c : Char} {cs follow : List Char} (word : IsWord (c :: cs))
    (ends : ∀ d, follow.head? = some d → isIdentContinue d = false) :
    lexeme? c (cs ++ follow) = .ok (wordKind (c :: cs), cs.length + 1)
      ∧ Text.isBlank c = false := by
  obtain ⟨_, _, eq, start⟩ := word.start
  obtain ⟨rfl, rfl⟩ := List.cons.inj eq
  refine ⟨?_, isBlank_of_isIdentStart start⟩
  -- The word goes on as long as there are name characters, which `follow` does not start with.
  have stop : follow.takeWhile isIdentContinue = [] := by
    cases follow with
    | nil => rfl
    | cons d follow => exact List.takeWhile_cons_of_neg (by simp [ends d rfl])
  have taken : (c :: (cs ++ follow)).takeWhile isIdentContinue = c :: cs := by
    rw [← List.cons_append, List.takeWhile_append_of_pos word.continues, stop, List.append_nil]
  simp only [lexeme?, start, taken, if_true, List.length_cons]

/-- A digit starts no name and is no blank. -/
theorem not_isIdentStart_of_isDigit {c : Char} (digit : c.isDigit = true) :
    isIdentStart c = false ∧ Text.isBlank c = false := by
  have ascii : c.toNat < 128 := by
    simp only [Char.isDigit, Bool.and_eq_true, decide_eq_true_eq] at digit
    exact Nat.lt_of_le_of_lt (UInt32.le_iff_toNat_le.1 digit.2) (by decide)
  exact of_ascii
    (P := fun d => d.isDigit = true → isIdentStart d = false ∧ Text.isBlank d = false)
    (by decide +kernel) ascii digit

/-- A number is taken as far as it goes. -/
theorem lexeme?_number {w f e s follow : List Char} {kind : TokenKind} (whole : IsDigits w)
    (fraction : IsFraction f) (exponent : IsExponent e) (suffix : IsSuffix (plainKind f e) s kind)
    (ends : Ends follow) {c : Char} {cs : List Char} (text : c :: cs = w ++ (f ++ (e ++ s))) :
    lexeme? c (cs ++ follow) = .ok (kind, cs.length + 1) ∧ Text.isBlank c = false := by
  have found := numberLexeme_of_form whole fraction exponent suffix ends
  have size := congrArg List.length text
  have digit : c.isDigit = true := by
    obtain ⟨d, ds, rfl⟩ := List.exists_cons_of_ne_nil whole.nonempty
    cases text
    exact whole.head
  obtain ⟨noName, visible⟩ := not_isIdentStart_of_isDigit digit
  have all : c :: (cs ++ follow) = w ++ (f ++ (e ++ (s ++ follow))) := by
    rw [← List.cons_append, text]
    simp
  refine ⟨?_, visible⟩
  simp only [lexeme?, noName, digit, all, found, if_true, Bool.false_eq_true, if_false]
  simp only [List.length_cons, List.length_append] at size
  rw [size]
  simp only [Nat.add_assoc]

namespace Emits

variable {follow : List Char} {s : Symbol}

/-- A word, by the token that it is. -/
theorem word {w : List Char} (word : IsWord w)
    (ends : ∀ d, follow.head? = some d → isIdentContinue d = false) (other : s ≠ .shift)
    (stands : ∀ span, s.Stands ⟨wordKind w, String.ofList w, span⟩) : Emits w [s] follow := by
  obtain ⟨c, cs, rfl, -⟩ := word.start
  obtain ⟨found, visible⟩ := lexeme?_word word ends
  exact token visible found other stands

/-- A number, by the constant it is read as. -/
theorem number {w f e suffix : List Char} {kind : TokenKind} {value : Constant}
    (whole : IsDigits w) (fraction : IsFraction f) (exponent : IsExponent e)
    (isSuffix : IsSuffix (plainKind f e) suffix kind) (ends : Ends follow)
    (read : ∀ span, constantOf ⟨kind, String.ofList (w ++ (f ++ (e ++ suffix))), span⟩ = .ok value) :
    Emits (w ++ (f ++ (e ++ suffix))) [.constant value] follow := by
  obtain ⟨c, cs, text⟩ := List.exists_cons_of_ne_nil
    (List.append_ne_nil_of_left_ne_nil whole.nonempty (f ++ (e ++ suffix)))
  obtain ⟨found, visible⟩ := lexeme?_number whole fraction exponent isSuffix ends text.symm
  rw [text] at read ⊢
  refine token visible found nofun fun span => ⟨?_, read span⟩
  rcases kind_of_isSuffix isSuffix with rfl | rfl | rfl <;> rfl

end Emits

/-! ## §4. What may follow an expression. -/

/-- A word, number or `>` that stands before the text ends there. -/
structure Apart (follow : List Char) : Prop extends Ends follow where
  noEqual : follow.head? ≠ some '='

theorem apart_nil : Apart [] := ⟨⟨nofun, rfl⟩, nofun⟩

/-- Blanks, brackets and separators. -/
theorem apart_cons {c : Char} (closing : c ∈ [' ', '(', ')', '[', ']', ',', ':', '<', '?'])
    (follow : List Char) : Apart (c :: follow) := by
  have facts : ∀ d ∈ [' ', '(', ')', '[', ']', ',', ':', '<', '?'],
      isIdentContinue d = false ∧ d ≠ '.' ∧ d ≠ '=' :=
    forall_mem_of_all (by decide)
  obtain ⟨other, point, equal⟩ := facts c closing
  refine ⟨⟨?_, ?_⟩, by simpa using equal⟩
  · rintro d next
    cases next
    exact other
  · unfold fractionLength
    split
    · rename_i eq
      exact absurd (List.cons.inj eq).1 point
    · rfl

/-- A point before a name. -/
theorem apart_member {w : List Char} (word : IsWord w) (follow : List Char) :
    Apart ('.' :: (w ++ follow)) := by
  obtain ⟨c, cs, rfl, start⟩ := word.start
  -- A point starts a fraction only before a digit, and names do not start with one.
  have letter : c.isDigit = false := by
    refine Bool.eq_false_iff.2 fun digit => ?_
    rw [(not_isIdentStart_of_isDigit digit).1] at start
    cases start
  refine ⟨⟨?_, ?_⟩, by simp⟩
  · rintro d next
    cases next
    decide
  · simp [fractionLength, digitRun, letter]

end BoundMarkup.Binding
