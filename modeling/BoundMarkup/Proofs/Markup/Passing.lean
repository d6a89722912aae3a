/-
  BoundMarkup.Proofs.Markup.Passing
  ─────────────────────────────────
  **THE MARKUP SCANNER PASSES OVER WHAT THE LEXER ACCEPTS.**

  Both read the same characters, one to find closing braces, the other to find
  tokens.  `Passes` says of a piece of text that the scanner, outside of string
  literals before it, is outside of them again behind it and has found no end:

    • pieces without quotes and closing braces pass (`Passes.of_plain`), and so
      does a whole string literal, whatever stands in it (`passes_string`),
    • so every token passes, and every text the lexer accepts (`passes_of_lex`),
    • what passes ends where its braces are (`Passes.expressionLength`).
-/
import BoundMarkup.Markup.Scanner
import BoundMarkup.Proofs.Binding.Emission
import BoundMarkup.Proofs.Binding.Lexing
import BoundMarkup.Proofs.Steps

namespace BoundMarkup.Markup

open Binding

/-! ## §1. One character. -/

/-- A character without a meaning of its own to the scanner. -/
def IsPlain (c : Char) : Prop := ¬ (c = '"' ∨ c = '\'') ∧ c ≠ closeBrace

instance : DecidablePred IsPlain := fun c =>
  inferInstanceAs (Decidable (¬ (c = '"' ∨ c = '\'') ∧ c ≠ closeBrace))

variable {braces : Braces} {closing cs : List Char} {c q : Char}

/-- Closing braces are braces, so no other character begins them. -/
theorem not_isPrefixOf_closing (hc : c ≠ closeBrace) :
    ¬ braces.closing.isPrefixOf (c :: cs) = true := by
  cases braces <;>
    simp [Braces.closing, Braces.count, List.replicate, List.isPrefixOf, hc.symm]

theorem expressionLength_plain (hc : IsPlain c) :
    expressionLength braces.closing none (c :: cs)
      = (expressionLength braces.closing none cs).map (· + 1) := by
  obtain ⟨hquote, hbrace⟩ := hc
  rw [expressionLength, if_neg hquote, if_neg (not_isPrefixOf_closing hbrace)]

/-- A quote outside of string literals starts one. -/
theorem expressionLength_quote (hc : c = '"' ∨ c = '\'') :
    expressionLength closing none (c :: cs)
      = (expressionLength closing (some c) cs).map (· + 1) := by
  rw [expressionLength, if_pos hc]

/-- Inside a string literal only its quote and a backslash have a meaning. -/
theorem expressionLength_inside (hc : c ≠ '\\') :
    expressionLength closing (some q) (c :: cs)
      = (expressionLength closing (if c = q then none else some q) cs).map (· + 1) := by
  rw [expressionLength]
  · rintro rfl
    exact absurd rfl hc
  · rintro d ds rfl
    exact absurd rfl hc

/-! ## §2. Pieces that pass. -/

/-- The scanner passes over the piece as a whole. -/
def Passes (closing piece : List Char) : Prop :=
  ∀ rest, expressionLength closing none (piece ++ rest)
    = (expressionLength closing none rest).map (· + piece.length)

namespace Passes

variable {piece piece' : List Char}

theorem nil (closing : List Char) : Passes closing [] := by
  intro rest
  rw [List.nil_append, List.length_nil]
  exact Option.map_id'.symm

theorem append (h : Passes closing piece) (h' : Passes closing piece') :
    Passes closing (piece ++ piece') := by
  intro rest
  rw [List.append_assoc, h, h', Option.map_map, List.length_append]
  congr 1
  funext n
  show n + piece'.length + piece.length = n + (piece.length + piece'.length)
  omega

theorem of_plain (h : ∀ c ∈ piece, IsPlain c) : Passes braces.closing piece := by
  induction piece with
  | nil => exact nil _
  | cons c cs ih =>
      obtain ⟨hc, hcs⟩ := List.forall_mem_cons.1 h
      intro rest
      rw [List.cons_append, expressionLength_plain hc, ih hcs, Option.map_map]
      rfl

/-- **An expression that passes ends where its braces are.** -/
theorem expressionLength (h : Passes braces.closing piece) (rest : List Char) :
    Markup.expressionLength braces.closing none (piece ++ (braces.closing ++ rest))
      = some piece.length := by
  have hend : Markup.expressionLength braces.closing none (braces.closing ++ rest) = some 0 := by
    cases braces <;> simp [Braces.closing, Braces.count, List.replicate, Markup.expressionLength,
      closeBrace, List.isPrefixOf]
  rw [h, hend, Option.map_some, Nat.zero_add]

end Passes

/-! ## §3. Tokens. -/

/-- **Behind the closing quote** that the lexer finds, the scanner is outside again. -/
theorem expressionLength_of_quoteLength {n : Nat} (h : quoteLength q cs = some n)
    (rest : List Char) : expressionLength closing (some q) (cs.take n ++ rest)
      = (expressionLength closing none rest).map (· + (cs.take n).length) := by
  fun_induction quoteLength q cs generalizing n with
  | case1 => cases h
  | case2 => cases h
  | case3 c cs ih =>
      obtain ⟨m, hm, rfl⟩ := Option.map_eq_some_iff.1 h
      rw [List.take_succ_cons, List.take_succ_cons, List.cons_append, List.cons_append,
        expressionLength, ih hm, Option.map_map]
      rfl
  | case4 cs hsingle hescape =>
      cases h
      rw [List.take_succ_cons, List.take_zero, List.cons_append,
        expressionLength_inside (ne_backslash hsingle hescape), if_pos rfl]
      rfl
  | case5 c cs hsingle hescape hc ih =>
      obtain ⟨m, hm, rfl⟩ := Option.map_eq_some_iff.1 h
      rw [List.take_succ_cons, List.cons_append,
        expressionLength_inside (ne_backslash hsingle hescape), if_neg hc, ih hm, Option.map_map]
      rfl

/-- **A string literal passes**, whatever braces, quotes and escapes stand in it. -/
theorem passes_string {n : Nat} (hq : q = '"' ∨ q = '\'') (h : quoteLength q cs = some n) :
    Passes closing (q :: cs.take n) := by
  intro rest
  rw [List.cons_append, expressionLength_quote hq, expressionLength_of_quoteLength h,
    Option.map_map]
  rfl

/-- A character of names is plain. -/
theorem isPlain_of_isIdentContinue (h : isIdentContinue c = true) : IsPlain c := by
  refine ⟨?_, ?_⟩
  · rintro (rfl | rfl) <;> exact absurd h (by decide)
  · rintro rfl
    exact absurd h (by decide)

/-- Of a given piece it can be tested. -/
theorem isPlain_of_all {piece : List Char} (h : piece.all (fun c => decide (IsPlain c)) = true) :
    ∀ c ∈ piece, IsPlain c :=
  fun c hc => of_decide_eq_true (List.all_eq_true.1 h c hc)

/-- The parts of a number are plain. -/
theorem isPlain_of_form {w f e s : List Char} {plain kind : TokenKind} (whole : IsDigits w)
    (fraction : IsFraction f) (exponent : IsExponent e) (suffix : IsSuffix plain s kind) :
    ∀ c ∈ w ++ (f ++ (e ++ s)), IsPlain c := by
  have digits : ∀ {v : List Char}, IsDigits v → ∀ c ∈ v, IsPlain c :=
    fun hv c hc => isPlain_of_isIdentContinue (isIdentContinue_of_isDigit (hv.digits c hc))
  have hf : ∀ c ∈ f, IsPlain c := by
    rcases fraction with rfl | ⟨v, rfl, hv⟩
    · exact nofun
    · exact List.forall_mem_cons.2 ⟨by decide, digits hv⟩
  have he : ∀ c ∈ e, IsPlain c := by
    rcases exponent with rfl | ⟨mark, sign, v, rfl, hmark, hsign, hv⟩
    · exact nofun
    · refine List.forall_mem_cons.2 ⟨?_, List.forall_mem_append.2 ⟨?_, digits hv⟩⟩
      · rcases hmark with rfl | rfl <;> decide
      · rcases hsign with rfl | rfl | rfl <;> exact isPlain_of_all (by decide)
  have hs : ∀ c ∈ s, IsPlain c := by
    cases suffix with
    | none => exact nofun
    | decimal letter | long letter whole | double letter =>
        rcases letter with rfl | rfl <;> exact isPlain_of_all (by decide)
  exact List.forall_mem_append.2 ⟨digits whole,
    List.forall_mem_append.2 ⟨hf, List.forall_mem_append.2 ⟨he, hs⟩⟩⟩

theorem isPlain_of_operatorLexeme {kind : TokenKind} {length : Nat}
    (h : operatorLexeme cs = some (kind, length)) : ∀ c ∈ cs.take length, IsPlain c := by
  unfold operatorLexeme at h
  split at h <;> cases h <;> exact isPlain_of_all rfl

/-- **Every token passes.** -/
theorem passes_front {kind : TokenKind} {length : Nat} (h : Front c cs kind length) :
    Passes braces.closing ((c :: cs).take length) := by
  cases h with
  | @word w isWord taken =>
      have htake : (c :: cs).take w.length = w := by
        rw [taken]
        exact (List.prefix_iff_eq_take.1 (List.takeWhile_prefix _)).symm
      rw [htake]
      exact .of_plain fun d hd => isPlain_of_isIdentContinue (isWord.continues d hd)
  | number digit found =>
      obtain ⟨w, f, e, s, taken, whole, fraction, exponent, suffix⟩ :=
        form_of_numberLexeme (digitRun_ne_zero digit) found
      rw [taken]
      exact .of_plain (isPlain_of_form whole fraction exponent suffix)
  | string quote found => exact passes_string quote found
  | mark found => exact .of_plain (isPlain_of_operatorLexeme found)

/-! ## §4. Texts. -/

/-- Blanks have no meaning to the scanner. -/
theorem isPlain_of_isBlank (h : Text.isBlank c = true) : IsPlain c := by
  refine ⟨?_, ?_⟩
  · rintro (rfl | rfl) <;> exact absurd h (by decide)
  · rintro rfl
    exact absurd h (by decide)

/-- What is skipped in front of a token passes. -/
theorem passes_of_skipBlank {at_ : Cursor} (h : Passes braces.closing at_.skipBlank.rest) :
    Passes braces.closing at_.rest := by
  have hblank : Passes braces.closing (at_.rest.takeWhile Text.isBlank) :=
    .of_plain fun c hc => isPlain_of_isBlank (List.all_eq_true.1 List.all_takeWhile c hc)
  have hsplit : at_.rest.takeWhile Text.isBlank ++ at_.skipBlank.rest = at_.rest :=
    List.prefix_iff_eq_append.1 (List.takeWhile_prefix _)
  rw [← hsplit]
  exact hblank.append h

/-- **What the lexer reads passes**, one token after the other. -/
theorem passes_of_lexFrom : ∀ {n : Nat} {at_ : Cursor} {ts : List Binding.Token},
    lexFrom n at_ = .ok ts → at_.rest.length < n → Passes braces.closing at_.rest
  | 0, _, _, _, enough => absurd enough (Nat.not_lt_zero _)
  | n + 1, at_, ts, h, enough => by
      refine passes_of_skipBlank ?_
      simp only [lexFrom] at h
      split at h
      · rename_i hrest
        rw [hrest]
        exact .nil _
      · rename_i c cs hrest
        split at h
        · cases h
        · rename_i kind length found
          obtain ⟨more, hmore, -⟩ := exists_ok_of_map h
          have front := front_of_lexeme? found
          -- A token takes at least one character, so the rest has a round less to go.
          have shorter : (at_.skipBlank.skip length).rest.length < n := by
            have hpos := front.nonempty.2
            have hle := length_skipBlank_le at_
            have hlength : (at_.skipBlank.skip length).rest.length
                = at_.skipBlank.rest.length - length := List.length_drop
            rw [hrest, List.length_cons] at hle hlength
            omega
          have hrest' := passes_of_lexFrom hmore shorter
          have hsplit : (c :: cs).take length ++ (at_.skipBlank.skip length).rest
              = at_.skipBlank.rest := by
            rw [← hrest]
            exact List.take_append_drop length at_.skipBlank.rest
          rw [← hsplit]
          exact (passes_front front).append hrest'

/-- **Every text that the lexer accepts passes.** -/
theorem passes_of_lex {source : String} {ts : List Binding.Token} (h : lex source = .ok ts) :
    Passes braces.closing source.toList :=
  passes_of_lexFrom h (Nat.lt_succ_self _)

end BoundMarkup.Markup
