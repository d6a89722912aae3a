/-
  BoundMarkup.Proofs.Markup.Tiling
  ────────────────────────────────
  **A FILE IS CUT INTO PIECES, AND NOTHING IS LEFT OVER.**

  Behind the directives at its top a file is cut into comments, tags, bindings and
  texts, and each piece but a comment leaves one token.  Three tests say where
  pieces begin: the one for the next piece (`Begins`), the one for the end of a
  text, which also stops it at a `<!` that begins no comment (`Stops`), and the one
  for a further directive.  A text takes its first character without a test, so
  the scanner goes on at a lone `<` and at `<!`, and rounds for every character are
  enough (`scanContent_reads`).

  What comes out is a `Tiling`: it says what each piece is by what it covers, and
  from it alone it is known which token a character of the file is in
  (`Tiling.holds_iff`).
-/
import BoundMarkup.Proofs.Markup.Covering

namespace BoundMarkup

/-- A place of a file is reached in one way only. -/
theorem Position.eq_of_place {file outer outer' : List Char} (h : outer <+: file)
    (h' : outer' <+: file)
    (hplace : (start.after outer).span.place = (start.after outer').span.place) :
    outer = outer' := by
  have hextend {v w : List Char} (hfront : v <+: w)
      (hplace : (start.after v).span.place = (start.after w).span.place) : v = w := by
    obtain ⟨between, rfl⟩ := hfront
    cases between with
    | nil => exact (List.append_nil v).symm
    | cons c cs =>
        rw [after_append] at hplace
        exact absurd hplace ((start.after v).before_after (List.cons_ne_nil c cs)).place_ne
  rcases List.prefix_or_prefix_of_prefix h h' with hle | hle
  · exact hextend hle hplace
  · exact (hextend hle hplace.symm).symm

namespace Markup

/-! ## §1. Where pieces begin and end. -/

/-- **A comment, a tag or a binding begins here.** -/
inductive Begins : List Char → Prop
  | comment (cs : List Char) : Begins ('<' :: '!' :: '-' :: '-' :: cs)
  | endTag (cs : List Char) : Begins ('<' :: '/' :: cs)
  | startTag {c : Char} (cs : List Char) (starts : isIdentStart c = true) : Begins ('<' :: c :: cs)
  | binding (cs : List Char) : Begins (openBrace :: openBrace :: cs)

/-- **A text ends here**: something else begins, or the next text with `<!`. -/
def Stops (cs : List Char) : Prop := Begins cs ∨ ['<', '!'] <+: cs

/-- What ends a comment. -/
def commentEnd : List Char := ['-', '-', '>']

/-- **A comment**, up to the first end behind its beginning. -/
inductive IsComment : List Char → Prop
  | intro {body : List Char}
      (first : ∀ k < body.length, ¬ commentEnd <+: (body ++ commentEnd).drop k) :
      IsComment (['<', '!', '-', '-'] ++ (body ++ commentEnd))

/-- **The directive covers the characters** from `p` on: its sign and its name, blanks, and a
value, which are all on one line. -/
inductive Directive.Covers (p : Position) : Directive → List Char → Prop
  | intro {name gap value cs : List Char} (nonempty : name ≠ [])
      (continues : ∀ c ∈ name, isIdentContinue c = true) (blank : ∀ c ∈ gap, c = ' ' ∨ c = '\t')
      (line : ∀ c ∈ value, c ≠ '\n' ∧ c ≠ '\r') (text : cs = '@' :: name ++ gap ++ value) :
      Covers p ⟨String.ofList name, String.ofList (Text.trimChars value), p.spanTo (p.after cs)⟩ cs

/-- **The top of a file** from `p` on: the directives, each with blanks in front of it, or with
none, and up to the end of its line.  What comes after the blanks behind the last one is no
directive, and those blanks are not part of the top. -/
inductive Heads : Position → List Directive → List Char → List Char → Prop
  | nil {p : Position} {rest : List Char}
      (last : ∀ gap cs, (∀ c ∈ gap, Text.isBlank c = true) → rest ≠ gap ++ '@' :: cs) :
      Heads p [] [] rest
  | cons {p : Position} {d : Directive} {ds : List Directive} {gap w ws rest : List Char}
      (blank : ∀ c ∈ gap, Text.isBlank c = true) (first : d.Covers (p.after gap) w)
      (line : ∀ c, (ws ++ rest).head? = some c → c = '\n' ∨ c = '\r')
      (others : Heads (p.after (gap ++ w)) ds ws rest) : Heads p (d :: ds) (gap ++ w ++ ws) rest

/-! ## §2. Pieces. -/

/-- A piece of a file, and the token that it leaves, if it is not a comment. -/
structure Piece where
  chars : List Char
  token : Option Token

/-- The characters of the pieces, one after another. -/
def charsOf (pieces : List Piece) : List Char := pieces.flatMap Piece.chars

/-- The piece is a text. -/
def Piece.IsText (piece : Piece) : Prop := ∃ text span, piece.token = some (.text text span)

/-- **The piece is what its token says**, if it stands at `p` and has `rest` behind it.  A text
has at least one character, nothing else begins with it, and it goes on to where it must end. -/
inductive Piece.StandsAt (p : Position) (rest : List Char) : Piece → Prop
  | comment {w : List Char} (covers : IsComment w) : StandsAt p rest ⟨w, none⟩
  | endTag {tag : EndTag} {w : List Char} (covers : tag.Covers p w) :
      StandsAt p rest ⟨w, some (.endTag tag)⟩
  | startTag {tag : StartTag} {w : List Char} (covers : tag.Covers p w) :
      StandsAt p rest ⟨w, some (.startTag tag)⟩
  | binding {b : BindingSource} {w : List Char} (covers : b.Covers .two p w) :
      StandsAt p rest ⟨w, some (.binding b)⟩
  | text {w : List Char} (nonempty : w ≠ []) (begins : ¬ Begins (w ++ rest))
      (inside : ∀ k, 0 < k → k < w.length → ¬ Stops ((w ++ rest).drop k))
      (stops : rest = [] ∨ Stops rest) :
      StandsAt p rest ⟨w, some (.text (String.ofList w) (p.spanTo (p.after w)))⟩

/-- **The pieces stand one after another** from `p` on to the end of the file. -/
inductive Stand : Position → List Piece → Prop
  | nil {p : Position} : Stand p []
  | cons {p : Position} {piece : Piece} {pieces : List Piece}
      (first : piece.StandsAt p (charsOf pieces)) (others : Stand (p.after piece.chars) pieces) :
      Stand p (piece :: pieces)

/-- **A way to cut a file**: its top with the directives, and the pieces of all that comes
behind it. -/
structure Tiling (file : List Char) where
  top : List Char
  directives : List Directive
  pieces : List Piece
  cut : file = top ++ charsOf pieces
  heads : Heads .start directives top (charsOf pieces)
  stand : Stand (Position.start.after top) pieces

/-- The directives, and one token for each piece that leaves one. -/
def Tiling.tokens {file : List Char} (t : Tiling file) : List Token :=
  t.directives.map .directive ++ t.pieces.filterMap Piece.token

variable {file done cs w rest : List Char} {p : Position} {c : Cursor} {piece : Piece}
  {pieces before after : List Piece} {token : Token} {n : Nat}

theorem BindingSource.Covers.ne_nil {braces : Braces} {b : BindingSource}
    (h : b.Covers braces p w) : w ≠ [] := by
  cases h with
  | intro =>
      refine List.append_ne_nil_of_right_ne_nil _ ?_
      cases braces <;> exact List.cons_ne_nil _ _

theorem Piece.StandsAt.ne_nil (h : piece.StandsAt p rest) : piece.chars ≠ [] := by
  cases h with
  | comment covers =>
      cases covers
      exact List.cons_ne_nil _ _
  | endTag covers =>
      obtain ⟨-, -, rfl⟩ := covers
      exact List.cons_ne_nil _ _
  | startTag covers =>
      obtain ⟨-, -, -, -, rfl⟩ := covers
      exact List.cons_ne_nil _ _
  | binding covers => exact covers.ne_nil
  | text nonempty => exact nonempty

/-- The region of a token. -/
def Token.span : Token → Span
  | directive d => d.span
  | startTag tag => tag.span
  | endTag tag => tag.span
  | text _ span => span
  | binding source => source.span

/-- **The token of a piece** starts where the piece does, and a text is the piece verbatim. -/
theorem Piece.StandsAt.leaves (h : piece.StandsAt p rest) (htoken : piece.token = some token) :
    token.span.place = p.span.place
      ∧ ∀ text span, token = .text text span → text.toList = piece.chars := by
  cases h with
  | comment => cases htoken
  | endTag covers | startTag covers | binding covers =>
      cases htoken
      cases covers
      exact ⟨rfl, nofun⟩
  | text =>
      cases htoken
      refine ⟨rfl, fun text span heq => ?_⟩
      cases heq
      exact String.toList_ofList

theorem charsOf_append (pieces pieces' : List Piece) :
    charsOf (pieces ++ pieces') = charsOf pieces ++ charsOf pieces' := List.flatMap_append

/-- Each of the pieces stands behind those before it. -/
theorem Stand.at (h : Stand p (before ++ piece :: after)) :
    piece.StandsAt (p.after (charsOf before)) (charsOf after) := by
  induction before generalizing p with
  | nil =>
      cases h with
      | cons first => exact first
  | cons first before ih =>
      cases h with
      | cons _ others =>
          have hothers := ih others
          rw [← Position.after_append] at hothers
          exact hothers

/-- Each of the pieces is in the file where its position says, and is what it should be there. -/
theorem Tiling.stands (t : Tiling file) (hpieces : t.pieces = before ++ piece :: after) :
    t.top ++ charsOf before ++ piece.chars <+: file
      ∧ piece.StandsAt (Position.start.after (t.top ++ charsOf before)) (charsOf after) := by
  have hcut := t.cut
  have hstand := t.stand
  rw [hpieces, charsOf_append] at hcut
  rw [hpieces] at hstand
  refine ⟨⟨charsOf after, ?_⟩, ?_⟩
  · rw [List.append_assoc, List.append_assoc]
    exact hcut.symm
  · rw [Position.after_append]
    exact hstand.at

/-! ## §3. Comments and texts. -/

/-- The scanner of texts stops where a text must end. -/
theorem endsText_iff : endsText cs = true ↔ Stops cs := by
  constructor
  · intro h
    unfold endsText at h
    split at h
    · rename_i c cs
      rw [Bool.or_eq_true, Bool.or_eq_true, beq_iff_eq, beq_iff_eq] at h
      rcases h with (hstart | rfl) | rfl
      · exact Or.inl (.startTag cs hstart)
      · exact Or.inl (.endTag cs)
      · exact Or.inr ⟨cs, rfl⟩
    · rename_i c d cs _
      rw [Bool.and_eq_true, beq_iff_eq, beq_iff_eq] at h
      obtain ⟨rfl, rfl⟩ := h
      exact Or.inl (.binding cs)
    · cases h
  · rintro (h | ⟨cs, rfl⟩)
    · cases h with
      | comment cs | endTag cs | binding cs => rfl
      | startTag cs starts =>
          show (isIdentStart _ || _ || _) = true
          rw [starts]
          rfl
    · rfl

/-- A text that has begun goes on to the first place at which it must end. -/
theorem textLength_spec (cs : List Char) : (∀ k < textLength cs, ¬ Stops (cs.drop k))
    ∧ (cs.drop (textLength cs) = [] ∨ Stops (cs.drop (textLength cs))) := by
  induction cs with
  | nil => exact ⟨nofun, Or.inl rfl⟩
  | cons c cs ih =>
      unfold textLength
      split
      · rename_i hstops
        exact ⟨nofun, Or.inr (endsText_iff.1 hstops)⟩
      · rename_i hstops
        refine ⟨fun k hk => ?_, ih.2⟩
        cases k with
        | zero => exact fun h => hstops (endsText_iff.2 h)
        | succ k => exact ih.1 k (Nat.lt_of_succ_lt_succ hk)

/-- A comment goes on to its first end. -/
theorem commentLength_spec (h : commentLength cs = some n) : ∃ body,
    cs.take n = body ++ commentEnd
      ∧ ∀ k < body.length, ¬ commentEnd <+: (body ++ commentEnd).drop k := by
  induction cs generalizing n with
  | nil => cases h
  | cons c cs ih =>
      unfold commentLength at h
      split at h
      · rename_i hend
        cases h
        exact ⟨[], (List.prefix_iff_eq_take.1 (List.isPrefixOf_iff_prefix.1 hend)).symm, nofun⟩
      · rename_i hend
        obtain ⟨m, hm, rfl⟩ := Option.map_eq_some_iff.1 h
        obtain ⟨body, htake, hfirst⟩ := ih hm
        refine ⟨c :: body, by rw [List.take_succ_cons, htake]; rfl, fun k hk => ?_⟩
        cases k with
        | zero =>
            rw [List.drop_zero, List.cons_append, ← htake]
            exact fun hfront => hend (List.isPrefixOf_iff_prefix.2
              (hfront.trans (List.cons_prefix_cons.2 ⟨rfl, List.take_prefix m cs⟩)))
        | succ k => exact hfirst k (Nat.lt_of_succ_lt_succ hk)

theorem skipComment_reads (h : c.Behind file done) (hopen : ['<', '!', '-', '-'] <+: c.rest) :
    Meets (fun d => ∃ w, d.Behind file (done ++ w) ∧ IsComment w) (fun _ => True)
      (skipComment c) := by
  have hskip := h.skip 4
  rw [← show ['<', '!', '-', '-'] = c.rest.take 4 from List.prefix_iff_eq_take.1 hopen] at hskip
  unfold skipComment
  dsimp only
  split
  · rename_i length hlength
    obtain ⟨body, htake, hfirst⟩ := commentLength_spec hlength
    have hend := hskip.skip length
    rw [htake, List.append_assoc] at hend
    exact ⟨_, hend, .intro hfirst⟩
  · exact trivial

/-- Where none of the other scanners is tried nothing else begins. -/
theorem not_begins (hcomment : ¬ ['<', '!', '-', '-'].isPrefixOf cs = true)
    (hend : ¬ ['<', '/'].isPrefixOf cs = true)
    (hstart : ¬ (cs.head? = some '<' ∧ startsIdent cs.tail = true))
    (hbinding : ¬ [openBrace, openBrace].isPrefixOf cs = true) : ¬ Begins cs := by
  intro h
  cases h with
  | comment cs => exact hcomment rfl
  | endTag cs => exact hend rfl
  | startTag cs starts => exact hstart ⟨rfl, starts⟩
  | binding cs => exact hbinding rfl

theorem scanText_reads (h : c.Behind file done) (hrest : c.rest ≠ []) (hbegins : ¬ Begins c.rest) :
    ∃ w, (scanText c).2.Behind file (done ++ w)
      ∧ Piece.StandsAt (Position.start.after done) (scanText c).2.rest
          ⟨w, some (scanText c).1⟩ := by
  have hend : (scanText c).2.Behind file _ := h.skip (textLength c.rest.tail + 1)
  have hsplit := h.rest_eq hend
  have htoken : (scanText c).1 = .text (String.ofList (c.rest.take (textLength c.rest.tail + 1)))
      ((Position.start.after done).spanTo ((Position.start.after done).after
        (c.rest.take (textLength c.rest.tail + 1)))) := by
    rw [← h.pos]
    rfl
  obtain ⟨hinside, hstops⟩ := textLength_spec c.rest.tail
  rw [← List.drop_one] at hinside hstops
  refine ⟨_, hend, ?_⟩
  rw [htoken]
  refine .text ?_ ?_ (fun k hpos hk => ?_) ?_
  · exact fun hnil => (List.take_eq_nil_iff.1 hnil).elim (Nat.succ_ne_zero _) hrest
  · rw [← hsplit]
    exact hbegins
  · have hlast : k - 1 < textLength (c.rest.drop 1) := by
      rw [List.length_take, ← List.drop_one] at hk
      omega
    have hnot := hinside (k - 1) hlast
    rw [List.drop_drop, Nat.add_sub_cancel' hpos] at hnot
    rw [← hsplit]
    exact hnot
  · rw [List.drop_drop, Nat.add_comm 1, List.drop_one] at hstops
    exact hstops

/-! ## §4. Files. -/

/-- One piece of the content. -/
theorem scanPiece_reads (h : c.Behind file done) (hrest : c.rest ≠ []) :
    Meets (fun r => ∃ w, r.2.Behind file (done ++ w)
        ∧ Piece.StandsAt (Position.start.after done) r.2.rest ⟨w, r.1⟩)
      (fun _ => True) (scanPiece c) := by
  unfold scanPiece
  split
  · rename_i hcomment
    refine Meets.map (skipComment_reads h (List.isPrefixOf_iff_prefix.1 hcomment)) ?_
    rintro d ⟨w, hbehind, hcovers⟩
    exact ⟨w, hbehind, .comment hcovers⟩
  · rename_i hcomment
    split
    · rename_i hend
      refine Meets.map (scanEndTag_reads h (List.isPrefixOf_iff_prefix.1 hend)) ?_
      rintro _ ⟨w, hbehind, hcovers⟩
      exact ⟨w, hbehind, .endTag hcovers⟩
    · rename_i hend
      split
      · rename_i hstart
        refine Meets.map (scanStartTag_reads h hstart.1 hstart.2) ?_
        rintro _ ⟨w, hbehind, hcovers⟩
        exact ⟨w, hbehind, .startTag hcovers⟩
      · rename_i hstart
        split
        · rename_i hbinding
          refine Meets.map (scanBinding_reads h (List.isPrefixOf_iff_prefix.1 hbinding)) ?_
          rintro _ ⟨w, hbehind, hcovers⟩
          exact ⟨w, hbehind, .binding hcovers⟩
        · rename_i hbinding
          exact scanText_reads h hrest (not_begins hcomment hend hstart hbinding)

/-- **Rounds for every character are enough.**  By induction on the rounds: each piece takes at
least one character, so what is left has a round less to go. -/
theorem scanContent_reads (rounds : Nat) (h : c.Behind file done)
    (enough : c.rest.length ≤ rounds) :
    Meets (fun tokens => ∃ pieces, c.rest = charsOf pieces
        ∧ Stand (Position.start.after done) pieces ∧ tokens = pieces.filterMap Piece.token)
      (fun _ => True) (scanContent rounds c) := by
  induction rounds generalizing c done with
  | zero => exact ⟨[], List.length_eq_zero_iff.1 (Nat.le_zero.1 enough), .nil, rfl⟩
  | succ rounds ih =>
      unfold scanContent
      split
      · rename_i hempty
        exact ⟨[], List.isEmpty_iff.1 hempty, .nil, rfl⟩
      · rename_i hempty
        have hrest : c.rest ≠ [] := fun hnil => hempty (List.isEmpty_iff.2 hnil)
        refine Meets.bind (scanPiece_reads h hrest) fun found hpiece => ?_
        obtain ⟨w, hbehind, hstands⟩ := hpiece
        have hsplit := h.rest_eq hbehind
        have hlength : found.2.rest.length ≤ rounds := by
          have hpos := List.length_pos_iff.2 hstands.ne_nil
          have hsum := congrArg List.length hsplit
          rw [List.length_append] at hsum
          dsimp only at hpos hsum
          omega
        refine Meets.bind (ih hbehind hlength) fun more hmore => ?_
        obtain ⟨pieces, hchars, hstand, rfl⟩ := hmore
        refine ⟨⟨w, found.1⟩ :: pieces, ?_, .cons ?_ ?_, ?_⟩
        · rw [hsplit, hchars]
          rfl
        · rw [← hchars]
          exact hstands
        · rw [← Position.after_append]
          exact hstand
        · obtain ⟨token, d⟩ := found
          cases token <;> rfl

/-- **Rounds for every character are enough** for the directives, too. -/
theorem scanDirectives_reads (rounds : Nat) (h : c.Behind file done)
    (enough : c.rest.length < rounds) :
    Meets (fun r => ∃ w, r.2.Behind file (done ++ w)
        ∧ Heads (Position.start.after done) r.1 w r.2.rest)
      (fun _ => True) (scanDirectives rounds c) := by
  induction rounds generalizing c done with
  | zero => exact absurd enough (Nat.not_lt_zero _)
  | succ rounds ih =>
      obtain ⟨gap, hblank, hgap⟩ := h.skipBlank
      unfold scanDirectives
      dsimp only
      split
      · rename_i hnone
        refine ⟨[], by rw [List.append_nil]; exact h, .nil fun gap' cs hblank' heq => ?_⟩
        -- Behind blanks the sign would have been found.
        have hvisible : ∀ d, ('@' :: cs).head? = some d → Text.isBlank d = false := by
          intro d hd
          cases hd
          decide
        have hskip := Cursor.skipBlank_append hblank' hvisible c.pos
        rw [← heq] at hskip
        rw [show c.skipBlank = _ from hskip, Cursor.skipChar?_cons] at hnone
        cases hnone
      · rename_i after hafter
        -- One fact for each run of characters that is taken.
        obtain ⟨name, c₁, htake₁, hname, hbehind₁, -⟩ :=
          (hgap.skipChar? hafter).exists_run isIdentContinue
        obtain ⟨space, c₂, htake₂, hspace, hbehind₂, -⟩ :=
          hbehind₁.exists_run (fun ch => ch == ' ' || ch == '\t')
        obtain ⟨value, c₃, htake₃, hvalue, hbehind₃, hline⟩ :=
          hbehind₂.exists_run (fun ch => ch != '\n' && ch != '\r')
        unfold Cursor.skipWhile
        simp only [htake₁, htake₂, htake₃]
        split
        · exact trivial
        · rename_i hne
          rw [Bool.not_eq_true, List.isEmpty_eq_false_iff] at hne
          have hdone : done ++ gap ++ ['@'] ++ name ++ space ++ value
              = done ++ gap ++ ('@' :: name ++ space ++ value) := by
            simp only [List.append_assoc, List.cons_append, List.nil_append]
          rw [hdone] at hbehind₃
          have hlength : c₃.rest.length < rounds := by
            have hsum := congrArg List.length (h.text.symm.trans hbehind₃.text)
            simp only [List.length_append, List.length_cons] at hsum
            omega
          refine Meets.bind (ih hbehind₃ hlength) fun ⟨more, d⟩ hmore => ?_
          obtain ⟨ws, hbehind, hheads⟩ := hmore
          have hcovers : Directive.Covers (Position.start.after (done ++ gap))
              ⟨String.ofList name, String.ofList (Text.trimChars value),
                c.skipBlank.pos.spanTo c₃.pos⟩ ('@' :: name ++ space ++ value) := by
            rw [hgap.pos, hbehind₃.pos, Position.after_append _ (done ++ gap)]
            refine .intro hne hname (fun ch hch => ?_) (fun ch hch => ?_) rfl
            · simpa using hspace ch hch
            · simpa using hvalue ch hch
          rw [Position.after_append] at hcovers
          rw [List.append_assoc, Position.after_append] at hheads
          rw [hbehind₃.rest_eq hbehind] at hline
          refine ⟨gap ++ ('@' :: name ++ space ++ value) ++ ws, ?_, .cons hblank hcovers ?_ hheads⟩
          · simpa only [List.append_assoc] using hbehind
          · intro ch hch
            have hnot := hline ch hch
            rw [Bool.and_eq_false_iff, bne_eq_false_iff_eq, bne_eq_false_iff_eq] at hnot
            exact hnot

/-! ## §5. Which token a character is in. -/

/-- The token is a text, which stands in the file where its span says, and the character at `i`,
counted from zero, is one of its characters. -/
def Token.Holds (file : List Char) (i : Nat) (token : Token) : Prop :=
  ∃ outer text span, token = .text text span ∧ outer ++ text.toList <+: file
    ∧ span.place = (Position.start.after outer).span.place
    ∧ outer.length ≤ i ∧ i < outer.length + text.toList.length

/-- The character at `i` is in exactly one of the tokens. -/
def HeldOnce (file : List Char) (i : Nat) (tokens : List Token) : Prop :=
  ∃ front token back, tokens = front ++ token :: back ∧ token.Holds file i
    ∧ ∀ other ∈ front ++ back, ¬ other.Holds file i

/-- The character at `i` is one of the piece that stands between the others. -/
structure Tiling.Has (t : Tiling file) (i : Nat) (before : List Piece) (piece : Piece)
    (after : List Piece) : Prop where
  pieces : t.pieces = before ++ piece :: after
  first : (t.top ++ charsOf before).length ≤ i
  last : i < (t.top ++ charsOf before).length + piece.chars.length

section Tiling

variable {t : Tiling file} {i : Nat} {piece' : Piece} {before' after' : List Piece}

theorem exists_split (h : i < (charsOf pieces).length) : ∃ before piece after,
    pieces = before ++ piece :: after ∧ (charsOf before).length ≤ i
      ∧ i < (charsOf before).length + piece.chars.length := by
  induction pieces generalizing i with
  | nil => exact absurd h (Nat.not_lt_zero i)
  | cons first pieces ih =>
      by_cases hfirst : i < first.chars.length
      · refine ⟨[], first, pieces, rfl, Nat.zero_le i, ?_⟩
        rw [show charsOf [] = [] from rfl, List.length_nil, Nat.zero_add]
        exact hfirst
      · rw [show charsOf (first :: pieces) = first.chars ++ charsOf pieces from rfl,
          List.length_append] at h
        obtain ⟨before, piece, after, rfl, hlow, hhigh⟩ :=
          ih (i := i - first.chars.length) (by omega)
        refine ⟨first :: before, piece, after, rfl, ?_⟩
        rw [show charsOf (first :: before) = first.chars ++ charsOf before from rfl,
          List.length_append]
        omega

/-- **There are no gaps**: behind the top of the file every character is one of a piece. -/
theorem Tiling.exists_has (t : Tiling file) (htop : t.top.length ≤ i) (h : i < file.length) :
    ∃ before piece after, t.Has i before piece after := by
  have hlength := congrArg List.length t.cut
  rw [List.length_append] at hlength
  have hchars : i - t.top.length < (charsOf t.pieces).length := by omega
  obtain ⟨before, piece, after, hpieces, hfirst, hlast⟩ := exists_split hchars
  refine ⟨before, piece, after, hpieces, ?_, ?_⟩ <;> rw [List.length_append] <;> omega

theorem Tiling.Has.length_le (h : t.Has i before piece after)
    (h' : t.Has i before' piece' after') : before'.length ≤ before.length := by
  refine Nat.le_of_not_lt fun hlonger => ?_
  -- Otherwise the first piece would stand before the second one, and end before `i`.
  have hfront : before ++ [piece] <+: before' := by
    have hpieces : before ++ [piece] <+: t.pieces := by
      refine ⟨after, ?_⟩
      rw [h.pieces, List.append_assoc]
      rfl
    refine List.prefix_of_prefix_length_le hpieces ⟨piece' :: after', h'.pieces.symm⟩ ?_
    rw [List.length_append, List.length_singleton]
    omega
  obtain ⟨between, rfl⟩ := hfront
  have hfirst := h'.first
  have hlast := h.last
  rw [charsOf_append, charsOf_append, show charsOf [piece] = piece.chars ++ [] from rfl,
    List.append_nil] at hfirst
  simp only [List.length_append] at hfirst hlast
  omega

/-- **There are no overlaps**: a character is one of a single piece. -/
theorem Tiling.Has.unique (h : t.Has i before piece after) (h' : t.Has i before' piece' after') :
    before' = before ∧ piece' = piece ∧ after' = after := by
  have hlength := Nat.le_antisymm (h.length_le h') (h'.length_le h)
  obtain ⟨hbefore, hothers⟩ := List.append_inj (h'.pieces.symm.trans h.pieces) hlength
  exact ⟨hbefore, List.cons.inj hothers⟩

/-- **A token holds the characters of its piece**, if that is a text, and no others. -/
theorem Tiling.holds_iff (hpieces : t.pieces = before ++ piece :: after)
    (htoken : piece.token = some token) :
    token.Holds file i ↔ piece.IsText ∧ t.Has i before piece after := by
  obtain ⟨hfront, hstands⟩ := t.stands hpieces
  cases hstands with
  | comment => cases htoken
  | endTag | startTag | binding =>
      cases htoken
      constructor
      · rintro ⟨_, _, _, htext, -⟩
        cases htext
      · rintro ⟨⟨_, _, htext⟩, -⟩
        cases htext
  | @text w =>
      cases htoken
      constructor
      · rintro ⟨outer, _, _, ⟨⟩, houter, hplace, hfirst, hlast⟩
        obtain rfl : t.top ++ charsOf before = outer :=
          Position.eq_of_place ((List.prefix_append _ _).trans hfront)
            ((List.prefix_append _ _).trans houter) hplace
        rw [String.toList_ofList] at hlast
        exact ⟨⟨_, _, rfl⟩, hpieces, hfirst, hlast⟩
      · rintro ⟨-, hhas⟩
        refine ⟨t.top ++ charsOf before, _, _, rfl, ?_, rfl, hhas.first, ?_⟩ <;>
          rw [String.toList_ofList]
        · exact hfront
        · exact hhas.last

/-- A character that is in a token is one of a text among the pieces. -/
theorem Tiling.exists_of_holds (htoken : token ∈ t.tokens) (h : token.Holds file i) :
    ∃ before piece after, t.Has i before piece after ∧ piece.IsText := by
  rcases List.mem_append.1 htoken with hdirective | hpiece
  · obtain ⟨d, _, rfl⟩ := List.mem_map.1 hdirective
    obtain ⟨_, _, _, htext, -⟩ := h
    cases htext
  · obtain ⟨piece, hmem, hleaves⟩ := List.mem_filterMap.1 hpiece
    obtain ⟨before, after, hpieces⟩ := List.append_of_mem hmem
    obtain ⟨htext, hhas⟩ := (t.holds_iff hpieces hleaves).1 h
    exact ⟨before, piece, after, hhas, htext⟩

/-- **A character of a text is in exactly one token.** -/
theorem Tiling.Has.heldOnce (h : t.Has i before piece after) (htext : piece.IsText) :
    HeldOnce file i t.tokens := by
  obtain ⟨text, span, htoken⟩ := htext
  have hother {before' after' : List Piece} {piece' : Piece} {other : Token}
      (hpieces : t.pieces = before' ++ piece' :: after') (hleaves : piece'.token = some other)
      (hlength : before'.length ≠ before.length) : ¬ other.Holds file i := by
    intro hholds
    have hhas := ((t.holds_iff hpieces hleaves).1 hholds).2
    exact hlength (congrArg List.length (h.unique hhas).1)
  refine ⟨t.directives.map .directive ++ before.filterMap Piece.token, .text text span,
    after.filterMap Piece.token, ?_, ?_, fun other hmem => ?_⟩
  · unfold Tiling.tokens
    rw [h.pieces, List.filterMap_append, List.filterMap_cons_some htoken, List.append_assoc]
  · exact (t.holds_iff h.pieces htoken).2 ⟨⟨text, span, htoken⟩, h⟩
  · rcases List.mem_append.1 hmem with hfront | hback
    · rcases List.mem_append.1 hfront with hdirective | hbefore
      · obtain ⟨d, _, rfl⟩ := List.mem_map.1 hdirective
        rintro ⟨_, _, _, htext, -⟩
        cases htext
      · obtain ⟨piece', hmem', hleaves⟩ := List.mem_filterMap.1 hbefore
        obtain ⟨ps, qs, rfl⟩ := List.append_of_mem hmem'
        have hpieces := h.pieces
        rw [List.append_assoc, List.cons_append] at hpieces
        refine hother hpieces hleaves ?_
        rw [List.length_append, List.length_cons]
        omega
    · obtain ⟨piece', hmem', hleaves⟩ := List.mem_filterMap.1 hback
      obtain ⟨ps, qs, rfl⟩ := List.append_of_mem hmem'
      have hpieces := h.pieces
      rw [← List.cons_append, ← List.append_assoc] at hpieces
      refine hother hpieces hleaves ?_
      rw [List.length_append, List.length_cons]
      omega

end Tiling

/-- Whatever file the scanner can cut into tokens, it cuts into pieces. -/
theorem exists_tiling {source : String} {tokens : List Token} (h : tokenize source = .ok tokens) :
    ∃ t : Tiling source.toList, tokens = t.tokens := by
  unfold tokenize at h
  obtain ⟨⟨directives, content⟩, htop, h⟩ := exists_ok_of_bind h
  obtain ⟨found, hcontent, h⟩ := exists_ok_of_bind h
  cases h
  obtain ⟨top, hbehind, hheads⟩ := (scanDirectives_reads _
    (Cursor.behind_ofChars source.toList) (Nat.lt_succ_self _)).of_ok htop
  obtain ⟨pieces, hchars, hstand, rfl⟩ :=
    (scanContent_reads _ hbehind (Nat.le_refl _)).of_ok hcontent
  rw [List.nil_append] at hbehind hstand
  rw [hchars] at hheads
  have hcut := hbehind.text
  rw [hchars] at hcut
  exact ⟨⟨top, directives, pieces, hcut, hheads, hstand⟩, rfl⟩

/-- **The tokens of a file tile it.**  Behind its top, which has the directives and the blanks in
front of each of them, the file is cut into pieces, and each token starts where its piece does; a
text is its piece verbatim.  Every character there is one of exactly one piece, and if that is a
text, in exactly one token.  No other character is in a text. -/
theorem tokenize_tiles {source : String} {tokens : List Token}
    (h : tokenize source = .ok tokens) :
    ∃ t : Tiling source.toList, tokens = t.tokens
      ∧ (∀ before piece after token, t.pieces = before ++ piece :: after →
          piece.token = some token →
          token.span.place = (Position.start.after (t.top ++ charsOf before)).span.place
            ∧ ∀ text span, token = .text text span → text.toList = piece.chars)
      ∧ (∀ i, t.top.length ≤ i → i < source.toList.length →
          ∃ before piece after, t.Has i before piece after
            ∧ (∀ before' piece' after', t.Has i before' piece' after' →
                before' = before ∧ piece' = piece ∧ after' = after)
            ∧ (piece.IsText → HeldOnce source.toList i tokens)
            ∧ (¬ piece.IsText → ∀ token ∈ tokens, ¬ token.Holds source.toList i))
      ∧ ∀ i < t.top.length, ∀ token ∈ tokens, ¬ token.Holds source.toList i := by
  obtain ⟨t, rfl⟩ := exists_tiling h
  refine ⟨t, rfl, fun before piece after token hpieces htoken => (t.stands hpieces).2.leaves htoken,
    fun i hlow hhigh => ?_, fun i hi token htoken hholds => ?_⟩
  · obtain ⟨before, piece, after, hhas⟩ := t.exists_has hlow hhigh
    refine ⟨before, piece, after, hhas, fun _ _ _ h' => hhas.unique h', hhas.heldOnce,
      fun hother token htoken hholds => ?_⟩
    obtain ⟨before', piece', after', hhas', htext⟩ := t.exists_of_holds htoken hholds
    rw [(hhas.unique hhas').2.1] at htext
    exact hother htext
  · obtain ⟨before, piece, after, hhas, -⟩ := t.exists_of_holds htoken hholds
    have hfirst := hhas.first
    rw [List.length_append] at hfirst
    omega

/-- A directive, a comment, a lone bracket, a `<!` that begins no comment, a tag with a bracket in
a value, and a binding. -/
def crowdedFile : String :=
  "@title Home\n<!-- a -->1 < 2<!x<b c=\">\">\x7b\x7bvalue: d\x7d\x7d</b>"

def crowdedTokens : List Token :=
  [.directive ⟨"title", "Home", ⟨1, 1, 11⟩⟩, .text "\n" ⟨1, 12, 1⟩, .text "1 < 2" ⟨2, 11, 5⟩,
    .text "<!x" ⟨2, 16, 3⟩,
    .startTag ⟨⟨none, "b"⟩, [⟨⟨none, "c"⟩, .text ">", ⟨2, 22, 5⟩⟩], false, ⟨2, 19, 9⟩⟩,
    .binding ⟨.value, "d", ⟨2, 28, 0⟩, ⟨2, 37, 0⟩⟩, .endTag ⟨⟨none, "b"⟩, ⟨2, 40, 4⟩⟩]

theorem tokenize_crowded : tokenize crowdedFile = .ok crowdedTokens := by
  have htokens : (tokenize crowdedFile).toOption.map id = some crowdedTokens := by decide +kernel
  obtain ⟨tokens, hok, rfl⟩ := exists_ok_of_toOption htokens
  exact hok

/-- The lone bracket is in exactly one of the tokens. -/
theorem tokenize_tiles_crowded : ∃ t : Tiling crowdedFile.toList, crowdedTokens = t.tokens
    ∧ HeldOnce crowdedFile.toList 24 crowdedTokens := by
  obtain ⟨t, htokens, -, hchars, htop⟩ := tokenize_tiles tokenize_crowded
  refine ⟨t, htokens, ?_⟩
  have hholds : (Token.text "1 < 2" ⟨2, 11, 5⟩).Holds crowdedFile.toList 24 :=
    ⟨crowdedFile.toList.take 22, _, _, rfl, by decide +kernel, by decide +kernel,
      by decide +kernel, by decide +kernel⟩
  have hmem : Token.text "1 < 2" ⟨2, 11, 5⟩ ∈ crowdedTokens := by decide
  have hlow : t.top.length ≤ 24 := Nat.le_of_not_lt fun hlt => htop 24 hlt _ hmem hholds
  obtain ⟨before, piece, after, -, -, honce, hnone⟩ := hchars 24 hlow (by decide +kernel)
  by_cases htext : piece.IsText
  · exact honce htext
  · exact absurd hholds (hnone htext _ hmem)

end Markup

end BoundMarkup
