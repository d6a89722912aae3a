/-
  BoundMarkup.Proofs.Binding.RoundTrip
  ────────────────────────────────────
  **READING BACK THE TEXT OF A TREE.**

  The text of an expression is meant as source text.  It is not always: a string
  with a character beyond printable ASCII is written with a numbered escape,
  which the reader of string literals does not know, a number too large for its
  format is written as a word, and two `?` behind a type run into one operator.
  `readsBack_iff_legible` says that nothing else goes wrong.
-/
import BoundMarkup.Proofs.Binding.Completeness
import BoundMarkup.Proofs.Binding.Rendering

namespace BoundMarkup.Binding

/-- The text of the tree is a binding with the same tree up to spans. -/
def Expr.ReadsBack (e : Expr) : Prop := ∃ e', parse e.text = .ok e' ∧ e'.bare = e.bare

/-- Symbols that tokens of the lexer spell are symbols that such tokens stand for. -/
theorem Spells.allWritten {ts rest : List Token} {ss : List Symbol}
    (h : Spells (ts ++ rest) ss rest) (lexed : ∀ t ∈ ts, t.Lexed) : AllWritten ss := by
  induction ss generalizing ts with
  | nil => exact nofun
  | cons s ss ih =>
      cases ts with
      | nil =>
          have := h.length_eq
          simp only [List.nil_append, List.length_cons] at this
          omega
      | cons t ts =>
          obtain ⟨first, lexed⟩ := List.forall_mem_cons.1 lexed
          exact List.forall_mem_cons.2 ⟨⟨t, first, h.1⟩, ih h.2.2 lexed⟩

/-- The tokens of the text of an accepted binding spell its tree just if the tree is legible. -/
theorem lex_text {source : String} {e : Expr} (h : parse source = .ok e) :
    ∃ ts stop, lex e.text = .ok (ts ++ [Token.eof stop]) ∧ SpellsIff ts e.yield e.Legible := by
  obtain ⟨ts, stop, -, lexed, reads, -⟩ := parse_reads h
  obtain ⟨ts', cuts, spells⟩ := e.emitsIff (reads.spells.allWritten lexed) apart_nil .start
  rw [List.append_nil] at cuts
  exact ⟨ts', _, lex_of_cuts cuts rfl, spells⟩

/-- **The text of an accepted binding reads back just if its tree is legible**: its strings
are printable ASCII, tabs and line ends, its numbers are finite and no type of it is
nullable twice in a row. -/
theorem readsBack_iff_legible {source : String} {e : Expr} (h : parse source = .ok e) :
    e.ReadsBack ↔ e.Legible := by
  obtain ⟨ts, stop, lexes, spells⟩ := lex_text h
  constructor
  · -- The tokens of the text spell the yield of whatever tree is read from it.
    rintro ⟨e', parsed, same⟩
    obtain ⟨ts', stop', lexes', -, reads', -⟩ := parse_reads parsed
    rw [lexes] at lexes'
    obtain ⟨rfl, last⟩ := List.append_inj' (Except.ok.inj lexes') rfl
    rw [← last, ← e'.yield_bare, same, e.yield_bare] at reads'
    exact spells.only _ reads'.spells
  · -- They spell the yield of `e`, and the parser reads a grouped and clear yield.
    intro legible
    obtain ⟨_, _, -, -, reads, grouped⟩ := parse_reads h
    have along : Reads (ts ++ [Token.eof stop]) e.yield [Token.eof stop] :=
      (spells.spells legible _).reads reads.clear nofun
    obtain ⟨e', parsed, same⟩ := parseTokens_of_reads grouped along rfl
    refine ⟨e', ?_, same⟩
    simp only [parse, lexes, parsed]

theorem readsBack_iff_legible_sample :
    parse sampleText = .ok sampleTree ∧ (sampleTree.ReadsBack ↔ sampleTree.Legible)
      ∧ sampleTree.Legible := by
  have legible : sampleTree.Legible := by
    simp [sampleTree, Expr.Legible, Argument.AllLegible, Argument.Legible, TypeExpr.AllLegible,
      TypeExpr.Legible, Constant.Legible]
    decide
  exact ⟨parse_sampleText, readsBack_iff_legible parse_sampleText, legible⟩

/-- What the lexer and the parser make of a text with the given tokens. -/
theorem parse_of_tokens {source : String} (ts : List Token) {e : Expr}
    (tokens : (lex source).toOption = some ts) (parsed : parseTokens ts = .ok e) :
    parse source = .ok e := by
  unfold parse
  cases lexes : lex source with
  | error fault => simp [lexes, Except.toOption] at tokens
  | ok ts' =>
      rw [lexes] at tokens
      cases tokens
      exact parsed

/-- A string of one accented letter. -/
def accentText : String := "'é'"

def accentTree : Expr := .literal (.string "é") ⟨1, 1, 3⟩

theorem parse_accentText : parse accentText = .ok accentTree :=
  parse_of_tokens [⟨.stringLiteral, "'é'", ⟨1, 1, 3⟩⟩, .eof ⟨1, 4, 0⟩]
    (by decide +kernel) rfl

/-- **Not every accepted binding reads back**: the numbered escape of the letter is read
as the letter `u` and what stands in its braces. -/
theorem not_readsBack_accentTree : parse accentText = .ok accentTree ∧ ¬ accentTree.ReadsBack := by
  refine ⟨parse_accentText, ?_⟩
  rintro ⟨e, parsed, same⟩
  have text : accentTree.text = "\"\\u\x7be9\x7d\"" := by decide +kernel
  have read : parse "\"\\u\x7be9\x7d\"" = .ok (.literal (.string "u\x7be9\x7d") ⟨1, 1, 8⟩) :=
    parse_of_tokens
      [⟨.stringLiteral, "\"\\u\x7be9\x7d\"", ⟨1, 1, 8⟩⟩, .eof ⟨1, 9, 0⟩]
      (by decide +kernel) rfl
  rw [text, read] at parsed
  cases parsed
  simp [accentTree, Expr.bare] at same

end BoundMarkup.Binding
