/-
  BoundMarkup.Proofs.Binding.Lossless
  ───────────────────────────────────
  **THE LEXEMES OF A BINDING ARE ITS TEXT, BUT FOR BLANKS.**

  Tokens with the blanks in front of each make up the text they were read from,
  and each span is the region of its lexeme (`Spaced`).  What a lexeme is read as
  does not depend on what it was read next to, as long as a blank or the end of
  the text follows (`lexeme?_apart`); so the lexemes can be set apart by single
  blanks and are read as they were (`lex_lossless`).
-/
import BoundMarkup.Proofs.Binding.Emission
import BoundMarkup.Proofs.Binding.Laying

namespace BoundMarkup.Binding

/-! ## §1. Tokens and the blanks between them. -/

/-- The lexemes of tokens, each behind its gap. -/
def spread : List (List Char) → List Token → List Char
  | gap :: gaps, t :: ts => gap ++ t.lexeme.toList ++ spread gaps ts
  | _, _ => []

/-- **The tokens make up the text** with blanks in front of each of them, and the span of each
is the line and column at which its lexeme starts, with the number of its characters. -/
structure Spaced (p : Position) (cs : List Char) (ts : List Token) (gaps : List (List Char)) :
    Prop where
  count : gaps.length = ts.length
  blank : ∀ gap ∈ gaps, ∀ c ∈ gap, Text.isBlank c = true
  text : cs = spread gaps ts
  spans : ∀ i gap t, gaps[i]? = some gap → ts[i]? = some t →
    t.span.place = (p.after (spread (gaps.take i) (ts.take i) ++ gap)).span.place
      ∧ t.span.len = t.lexeme.length

/-- What a token says, wherever it stands. -/
def Token.says (t : Token) : TokenKind × String := (t.kind, t.lexeme)

variable {p : Position} {gap cs : List Char} {gaps : List (List Char)} {t : Token}
  {ts toks : List Token}

/-- The end of a text, behind the last blanks. -/
theorem Spaced.eof (blank : ∀ c ∈ gap, Text.isBlank c = true) :
    Spaced p gap [Token.eof (p.after gap).span] [gap] := by
  constructor
  case count => rfl
  case blank => exact List.forall_mem_singleton.2 blank
  case text => simp [spread, Token.eof]
  case spans =>
    intro i gap' t hgap ht
    cases i with
    | succ i => cases ht
    | zero =>
        cases hgap
        cases ht
        exact ⟨rfl, rfl⟩

/-- One more token in front. -/
theorem Spaced.cons (h : Spaced (p.after (gap ++ t.lexeme.toList)) cs ts gaps)
    (blank : ∀ c ∈ gap, Text.isBlank c = true) (place : t.span.place = (p.after gap).span.place)
    (len : t.span.len = t.lexeme.length) :
    Spaced p (gap ++ t.lexeme.toList ++ cs) (t :: ts) (gap :: gaps) := by
  constructor
  case count => rw [List.length_cons, List.length_cons, h.count]
  case blank => exact List.forall_mem_cons.2 ⟨blank, h.blank⟩
  case text => rw [spread, ← h.text]
  case spans =>
    intro i gap' t' hgap ht
    cases i with
    | zero =>
        cases hgap
        cases ht
        exact ⟨place, len⟩
    | succ i =>
        obtain ⟨hplace, hlen⟩ := h.spans i gap' t' hgap ht
        refine ⟨?_, hlen⟩
        rw [hplace, List.take_succ_cons, List.take_succ_cons, spread, List.append_assoc _ _ gap',
          Position.after_append p (gap ++ t.lexeme.toList)]

/-- **Tokens that are laid in a text make it up.** -/
theorem Laid.spaced (h : Laid p cs ts) :
    ∃ gaps, Spaced p cs (ts ++ [Token.eof (p.after cs).span]) gaps := by
  induction h with
  | nil blank => exact ⟨_, .eof blank⟩
  | @cons p gap lexeme rest kind ts blank visible more ih =>
      obtain ⟨gaps, ih⟩ := ih
      let t : Token :=
        ⟨kind, String.ofList lexeme, (p.after gap).spanTo (p.after (gap ++ lexeme))⟩
      have hlexeme : t.lexeme.toList = lexeme := String.toList_ofList
      have hlen : t.span.len = t.lexeme.length := by
        rw [← String.length_toList, hlexeme]
        show (p.after (gap ++ lexeme)).offset - (p.after gap).offset = lexeme.length
        rw [Position.offset_after, Position.offset_after, List.length_append]
        omega
      refine ⟨gap :: gaps, ?_⟩
      rw [Position.after_append p (gap ++ lexeme) rest, List.cons_append]
      have hcons := Spaced.cons (t := t) (by rwa [hlexeme]) blank rfl hlen
      rwa [hlexeme] at hcons

/-! ## §2. Lexemes by themselves. -/

/-- Only its quote and a backslash have a meaning inside a string. -/
theorem quoteLength_plain {q c : Char} (hc : c ≠ '\\') :
    quoteLength q (c :: cs) = if c = q then some 1 else (quoteLength q cs).map (· + 1) := by
  rw [quoteLength]
  · exact fun hslash _ => hc hslash
  · exact fun _ _ hslash _ => hc hslash

/-- A string ends at its quote, whatever comes behind it. -/
theorem quoteLength_take {q : Char} {n : Nat} (h : quoteLength q cs = some n)
    (rest : List Char) : quoteLength q (cs.take n ++ rest) = some n ∧ n ≤ cs.length := by
  fun_induction quoteLength q cs generalizing n with
  | case1 => cases h
  | case2 => cases h
  | case3 c cs ih =>
      obtain ⟨m, hm, rfl⟩ := Option.map_eq_some_iff.1 h
      obtain ⟨htake, hle⟩ := ih hm
      refine ⟨?_, Nat.add_le_add_right hle 2⟩
      rw [List.take_succ_cons, List.take_succ_cons, List.cons_append, List.cons_append,
        quoteLength, htake]
      rfl
  | case4 cs hsingle hescape =>
      cases h
      refine ⟨?_, Nat.le_add_left 1 _⟩
      rw [List.take_succ_cons, List.cons_append,
        quoteLength_plain (ne_backslash hsingle hescape), if_pos rfl]
  | case5 c cs hsingle hescape hc ih =>
      obtain ⟨m, hm, rfl⟩ := Option.map_eq_some_iff.1 h
      obtain ⟨htake, hle⟩ := ih hm
      refine ⟨?_, Nat.add_le_add_right hle 1⟩
      rw [List.take_succ_cons, List.cons_append,
        quoteLength_plain (ne_backslash hsingle hescape), if_neg hc, htake]
      rfl

/-- The text behind a lexeme is empty or starts with a blank. -/
def SetApart (rest : List Char) : Prop := ∀ c, rest.head? = some c → c = ' '

theorem SetApart.ends {rest : List Char} (h : SetApart rest) : Ends rest := by
  cases rest with
  | nil => exact ⟨nofun, rfl⟩
  | cons c rest =>
      obtain rfl := h c rfl
      exact (apart_cons (by decide) rest).toEnds

/-- A mark is read by itself as it was read in a longer text. -/
theorem operatorLexeme_take {kind : TokenKind} {length : Nat}
    (h : operatorLexeme cs = some (kind, length)) {rest : List Char} (apart : SetApart rest) :
    operatorLexeme (cs.take length ++ rest) = some (kind, length) ∧ length ≤ cs.length := by
  have hfollow : rest = [] ∨ ∃ more, rest = ' ' :: more := by
    cases rest with
    | nil => exact .inl rfl
    | cons c more => exact .inr ⟨more, by rw [apart c rfl]⟩
  unfold operatorLexeme at h
  rcases hfollow with rfl | ⟨more, rfl⟩ <;> split at h <;> cases h <;>
    exact ⟨rfl, by simp⟩

/-- **What a lexeme is read as does not depend on what it was read next to**, if it is set apart
from what comes behind it. -/
theorem lexeme?_apart {c : Char} {kind : TokenKind} {n : Nat}
    (h : lexeme? c cs = .ok (kind, n + 1)) {rest : List Char} (apart : SetApart rest) :
    lexeme? c (cs.take n ++ rest) = .ok (kind, (cs.take n).length + 1)
      ∧ Text.isBlank c = false := by
  generalize hlength : n + 1 = length at h
  cases front_of_lexeme? h with
  | @word w isWord taken =>
      have hw : w = c :: cs.take n := by
        rw [taken, ← Cursor.take_length_takeWhile, ← taken, ← hlength, List.take_succ_cons]
      subst hw
      exact lexeme?_word isWord apart.ends.other
  | number digit found =>
      obtain ⟨w, f, e, s, taken, whole, fraction, exponent, suffix⟩ :=
        form_of_numberLexeme (digitRun_ne_zero digit) found
      rw [← hlength, List.take_succ_cons] at taken
      exact lexeme?_number whole fraction exponent suffix apart.ends taken
  | @string m quote found =>
      obtain rfl : n = m := Nat.succ.inj hlength
      obtain ⟨htake, hle⟩ := quoteLength_take found rest
      have hother : isIdentStart c = false ∧ c.isDigit = false ∧ Text.isBlank c = false := by
        rcases quote with rfl | rfl <;> decide
      refine ⟨?_, hother.2.2⟩
      unfold lexeme?
      rw [if_neg (by simp [hother.1]), if_neg (by simp [hother.2.1]), if_pos quote, htake,
        List.length_take_of_le hle]
  | mark found =>
      have mark := mem_markChars found
      obtain ⟨htake, hle⟩ := operatorLexeme_take found apart
      subst hlength
      rw [List.length_take_of_le (Nat.le_of_succ_le_succ hle)]
      exact ⟨(lexeme?_markChars mark _ _).2 htake, isBlank_markChars mark⟩

/-! ## §3. Lexemes set apart. -/

/-- Lexemes with a blank behind each of them. -/
def spacedOut (ts : List Token) : List Char := ts.flatMap (fun t => t.lexeme.toList ++ [' '])

/-- The end has no lexeme, so the blank before it is the last character. -/
theorem toList_join_lexemes (ts : List Token) (stop : Span) :
    (Text.join " " ((ts ++ [Token.eof stop]).map Token.lexeme)).toList = spacedOut ts := by
  have hshift : ∀ ts : List Token,
      ((ts ++ [Token.eof stop]).map Token.lexeme).flatMap (fun next => " ".toList ++ next.toList)
        = ' ' :: spacedOut ts := by
    intro ts
    induction ts with
    | nil => rfl
    | cons t ts ih =>
        rw [List.cons_append, List.map_cons, List.flatMap_cons, ih]
        simp [spacedOut]
  cases ts with
  | nil => rfl
  | cons t ts =>
      rw [List.cons_append, List.map_cons, Text.toList_join, hshift]
      simp [spacedOut]

/-- A blank in front of a run to the end of the text. -/
theorem Cuts.behind_blank {c : Char} {d : Cursor} (h : Cuts ⟨cs, p.step c⟩ ts d)
    (done : d.skipBlank.rest = []) (blank : Text.isBlank c = true) :
    ∃ d', Cuts ⟨c :: cs, p⟩ ts d' ∧ d'.skipBlank.rest = [] := by
  have hskip : (⟨c :: cs, p⟩ : Cursor).skipBlank = (⟨cs, p.step c⟩ : Cursor).skipBlank :=
    EmitsIff.skipBlank_cons blank p
  cases ts with
  | cons t ts => exact ⟨d, h.of_skipBlank_eq hskip, done⟩
  | nil =>
      cases h
      exact ⟨_, .nil _, by rw [hskip, done]⟩

/-- **Lexemes that are set apart are read as they were**, wherever they stand. -/
theorem cuts_spacedOut (lexed : ∀ t ∈ ts, t.Lexed) (p : Position) :
    ∃ again d, Cuts ⟨spacedOut ts, p⟩ again d ∧ d.skipBlank.rest = []
      ∧ again.map Token.says = ts.map Token.says := by
  induction ts generalizing p with
  | nil => exact ⟨[], _, .nil _, rfl, rfl⟩
  | cons t ts ih =>
      obtain ⟨first, lexed⟩ := List.forall_mem_cons.1 lexed
      obtain ⟨c, cs, length, found, lexeme⟩ := first
      obtain ⟨n, rfl⟩ : ∃ n, length = n + 1 :=
        Nat.exists_eq_succ_of_ne_zero (Nat.ne_of_gt (front_of_lexeme? found).nonempty.2)
      rw [List.take_succ_cons] at lexeme
      obtain ⟨again, d, cuts, done, same⟩ := ih lexed ((p.after (c :: cs.take n)).step ' ')
      obtain ⟨d', cuts', done'⟩ := cuts.behind_blank done (by decide)
      have apart : SetApart (' ' :: spacedOut ts) := by
        rintro _ ⟨⟩
        rfl
      obtain ⟨found', visible⟩ := lexeme?_apart found apart
      have here := EmitsIff.cuts_token (cs.take n) visible found' p
      have htext : spacedOut (t :: ts) = c :: cs.take n ++ ' ' :: spacedOut ts := by
        simp [spacedOut, lexeme]
      rw [htext]
      refine ⟨_, d', here.append cuts', done', ?_⟩
      rw [List.singleton_append, List.map_cons, List.map_cons, same, Token.says, Token.says, lexeme]

/-! ## §4. The whole text. -/

/-- **Reading a binding loses nothing but blanks, and is stable.**  The lexemes are the text, with
blanks in front of each, and the spans are exact.  All lexemes but the last one, the end, have
characters.  Joined by single blanks they are read as the same kinds and lexemes again. -/
theorem lex_lossless {source : String} (h : lex source = .ok toks) :
    (∃ gaps, Spaced .start source.toList toks gaps)
      ∧ (∃ ts stop, toks = ts ++ [Token.eof stop] ∧ ∀ t ∈ ts, t.kind ≠ .eof ∧ t.lexeme ≠ "")
      ∧ ∃ again, lex (Text.join " " (toks.map Token.lexeme)) = .ok again
        ∧ again.map Token.says = toks.map Token.says := by
  obtain ⟨ts, htoks, laid⟩ := (lex_meets source).of_ok h
  obtain ⟨ts', stop, htoks', lexed⟩ := lex_eq_ok h
  obtain ⟨rfl, -⟩ := List.append_inj' (htoks.symm.trans htoks') rfl
  obtain ⟨again, d, cuts, done, same⟩ := cuts_spacedOut lexed .start
  refine ⟨?_, ⟨ts, stop, htoks', fun t ht => ?_⟩, ?_⟩
  · rw [htoks]
    exact laid.spaced
  · obtain ⟨c, cs, length, found, lexeme⟩ := lexed t ht
    obtain ⟨notEof, hpos⟩ := (front_of_lexeme? found).nonempty
    obtain ⟨n, rfl⟩ := Nat.exists_eq_succ_of_ne_zero (Nat.ne_of_gt hpos)
    refine ⟨notEof, fun hempty => ?_⟩
    rw [hempty] at lexeme
    simpa using congrArg String.toList lexeme
  · rw [← toList_join_lexemes ts stop, ← htoks'] at cuts
    refine ⟨_, lex_of_cuts cuts done, ?_⟩
    rw [htoks', List.map_append, List.map_append, same]
    rfl

/-- Two lines, with tokens that touch each other and a blank inside a string. -/
def crampedText : String := "total>=1.5M\n  &&'a b'"

def crampedTokens : List Token :=
  [⟨.identifier, "total", ⟨1, 1, 5⟩⟩, ⟨.greaterEqual, ">=", ⟨1, 6, 2⟩⟩,
    ⟨.decimalLiteral, "1.5M", ⟨1, 8, 4⟩⟩, ⟨.ampAmp, "&&", ⟨2, 3, 2⟩⟩,
    ⟨.stringLiteral, "'a b'", ⟨2, 5, 5⟩⟩, .eof ⟨2, 10, 0⟩]

theorem lex_crampedText : lex crampedText = .ok crampedTokens := by
  have htokens : (lex crampedText).toOption.map id = some crampedTokens := by decide +kernel
  obtain ⟨toks, hlex, htoks⟩ := exists_ok_of_toOption htokens
  rw [hlex]
  exact congrArg Except.ok htoks

theorem lex_lossless_cramped : lex crampedText = .ok crampedTokens
    ∧ (∃ gaps, Spaced .start crampedText.toList crampedTokens gaps)
    ∧ ∃ again, lex "total >= 1.5M && 'a b' " = .ok again
      ∧ again.map Token.says = crampedTokens.map Token.says := by
  obtain ⟨spaced, -, stable⟩ := lex_lossless lex_crampedText
  exact ⟨lex_crampedText, spaced, stable⟩

end BoundMarkup.Binding
