/-
  BoundMarkup.Proofs.Markup.Covering
  ──────────────────────────────────
  **WHICH CHARACTERS A TAG OR A BINDING COVERS.**

  `Covers` says without the scanner how names, bindings, attributes and tags are
  written, and which spans they have there.  Where a tag ends is settled by this:
  a `>` can only stand before its end in a quoted value or in a binding, and a
  binding has no closing braces of its own outside of string literals.  Every
  scanner answers what covers just the characters that it has passed over
  (`Reads`).
-/
import BoundMarkup.Proofs.Markup.Bindings
import BoundMarkup.Proofs.Source.Positions

namespace BoundMarkup

/-- What stands between two cursors is what the first one has to read before the second one. -/
theorem Cursor.Behind.rest_eq {file done w : List Char} {c d : Cursor} (h : c.Behind file done)
    (h' : d.Behind file (done ++ w)) : c.rest = w ++ d.rest := by
  have htext := h.text.symm.trans h'.text
  rw [List.append_assoc] at htext
  exact List.append_cancel_left htext

/-- What trimming drops at the end is blank. -/
theorem Text.exists_trimmed (cs : List Char) :
    ∃ gap, (∀ c ∈ gap, isBlank c = true) ∧ cs = trimEndChars cs ++ gap := by
  refine ⟨(cs.reverse.takeWhile isBlank).reverse, fun c hc => ?_, ?_⟩
  · exact List.all_eq_true.1 List.all_takeWhile c (List.mem_reverse.1 hc)
  · unfold trimEndChars
    rw [← List.reverse_append, List.takeWhile_append_dropWhile, List.reverse_reverse]

namespace Markup

/-! ## §1. How names and bindings are written. -/

/-- **The name covers the characters**: a run of name characters, or two with a colon between
them, of which the second one begins as an identifier does. -/
inductive QName.Covers : QName → List Char → Prop
  | plain {w : List Char} (nonempty : w ≠ []) (continues : ∀ c ∈ w, isNameChar c = true) :
      Covers ⟨none, String.ofList w⟩ w
  | spaced {v w : List Char} (nonempty : v ≠ []) (continues : ∀ c ∈ v, isNameChar c = true)
      (part : IsNamePart w) : Covers ⟨some (String.ofList v), String.ofList w⟩ (v ++ ':' :: w)

/-- **What comes before an expression**: braces, the word of the kind and a colon, with
any blanks between them. -/
inductive Opens (braces : Braces) (kind : BindingKind) : List Char → Prop
  | intro {gap₁ gap₂ gap₃ : List Char} (blank₁ : ∀ c ∈ gap₁, Text.isBlank c = true)
      (blank₂ : ∀ c ∈ gap₂, Text.isBlank c = true) (blank₃ : ∀ c ∈ gap₃, Text.isBlank c = true) :
      Opens braces kind
        (braces.opening ++ gap₁ ++ kind.word.toList ++ gap₂ ++ [':'] ++ gap₃)

/-- **The binding covers the characters** from `p` on: what opens it, its expression, blanks, and
the closing braces.  The characters between the braces pass, so none of them ends the binding. -/
inductive BindingSource.Covers (braces : Braces) (p : Position) : BindingSource → List Char → Prop
  | intro {kind : BindingKind} {opening expression gap : List Char}
      (opens : Opens braces kind opening) (blank : ∀ c ∈ gap, Text.isBlank c = true)
      (passes : Passes braces.closing (expression ++ gap)) :
      Covers braces p ⟨kind, String.ofList expression, p.span, (p.after opening).span⟩
        (opening ++ expression ++ gap ++ braces.closing)

theorem QName.Covers.ne_nil {name : QName} {w : List Char} (h : name.Covers w) : w ≠ [] := by
  cases h with
  | plain nonempty => exact nonempty
  | spaced => exact List.append_ne_nil_of_right_ne_nil _ (List.cons_ne_nil _ _)

/-! ## §2. How attributes and tags are written. -/

/-- **The value covers the characters** from `p` on: in quotes, which it does not have itself; a
binding, in quotes or not; or a run of other characters. -/
inductive AttributeValue.Covers (p : Position) : AttributeValue → List Char → Prop
  | quoted {q : Char} {w : List Char} (quote : q = '"' ∨ q = '\'')
      (begins : w.head? ≠ some openBrace) (inside : ∀ c ∈ w, c ≠ q) :
      Covers p (.text (String.ofList w)) (q :: (w ++ [q]))
  | quotedBinding {q : Char} {b : BindingSource} {w : List Char} (quote : q = '"' ∨ q = '\'')
      (covers : b.Covers .one (p.step q) w) : Covers p (.binding b) (q :: (w ++ [q]))
  | binding {b : BindingSource} {w : List Char} (covers : b.Covers .one p w) :
      Covers p (.binding b) w
  | run {w : List Char}
      (begins : ∀ c, w.head? = some c → ¬ (c = '"' ∨ c = '\'') ∧ c ≠ openBrace)
      (inside : ∀ c ∈ w, isBareValueChar c = true) : Covers p (.text (String.ofList w)) w

/-- **The attribute covers the characters** from `p` on: its name and blanks, and if it is set to
a value, an equals sign, blanks and the value. -/
inductive Attribute.Covers (p : Position) : Attribute → List Char → Prop
  | mentioned {raw gap : List Char} (name : IsAttributeName raw)
      (blank : ∀ c ∈ gap, Text.isBlank c = true) :
      Covers p ⟨attributeName raw, .bare, p.spanTo (p.after (raw ++ gap))⟩ (raw ++ gap)
  | set {raw gap gap' w cs : List Char} {value : AttributeValue} (name : IsAttributeName raw)
      (blank : ∀ c ∈ gap, Text.isBlank c = true) (blank' : ∀ c ∈ gap', Text.isBlank c = true)
      (covers : value.Covers (p.after (raw ++ gap ++ '=' :: gap')) w)
      (text : cs = raw ++ gap ++ '=' :: gap' ++ w) :
      Covers p ⟨attributeName raw, value, p.spanTo (p.after cs)⟩ cs

/-- **The attributes cover the characters** from `p` on, one after another, each with blanks in
front of it, or with none. -/
inductive AllCover : Position → List Attribute → List Char → Prop
  | nil {p : Position} : AllCover p [] []
  | cons {p : Position} {a : Attribute} {as : List Attribute} {gap w ws : List Char}
      (blank : ∀ c ∈ gap, Text.isBlank c = true) (first : a.Covers (p.after gap) w)
      (others : AllCover (p.after (gap ++ w)) as ws) : AllCover p (a :: as) (gap ++ w ++ ws)

/-- **The start tag covers the characters** from `p` on: an angle bracket, its name, which begins
as an identifier does, its attributes, blanks, and its end. -/
inductive StartTag.Covers (p : Position) : StartTag → List Char → Prop
  | intro {name : QName} {attributes : List Attribute} {selfClosing : Bool}
      {n w gap cs : List Char} (named : name.Covers n) (starts : startsIdent n = true)
      (set : AllCover (p.after ('<' :: n)) attributes w)
      (blank : ∀ c ∈ gap, Text.isBlank c = true)
      (text : cs = '<' :: n ++ w ++ gap ++ tagEnd selfClosing) :
      Covers p ⟨name, attributes, selfClosing, p.spanTo (p.after cs)⟩ cs

/-- **The end tag covers the characters** from `p` on: an angle bracket and a slash, its name,
blanks, and an angle bracket. -/
inductive EndTag.Covers (p : Position) : EndTag → List Char → Prop
  | intro {name : QName} {n gap cs : List Char} (named : name.Covers n)
      (blank : ∀ c ∈ gap, Text.isBlank c = true)
      (text : cs = '<' :: '/' :: n ++ gap ++ ['>']) :
      Covers p ⟨name, p.spanTo (p.after cs)⟩ cs

/-! ## §3. Scanners of names and bindings. -/

/-- The scanner answers what is written in the file from the cursor on, up to the cursor that it
stops at. -/
def Reads {α : Type} (file done : List Char) (covers : α → List Char → Prop)
    (x : Except SyntaxError (α × Cursor)) : Prop :=
  Meets (fun r => ∃ w, r.2.Behind file (done ++ w) ∧ covers r.1 w) (fun _ => True) x

variable {file done : List Char} {start c : Cursor}

theorem isNameChar_of_isIdentStart {c : Char} (h : isIdentStart c = true) :
    isNameChar c = true := by
  unfold isNameChar
  rw [isIdentContinue_of_start h, Bool.true_or, Bool.true_or]

/-- What is read of a name that begins as an identifier does is part of a name. -/
theorem isNamePart_takeWhile {cs : List Char} (h : startsIdent cs = true) :
    IsNamePart (cs.takeWhile isNameChar) := by
  obtain ⟨c, hc, hstart⟩ := (Option.any_eq_true _ _).1 h
  obtain ⟨ds, rfl⟩ := List.head?_eq_some_iff.1 hc
  refine ⟨?_, List.all_eq_true.1 List.all_takeWhile⟩
  rw [List.takeWhile_cons_of_pos (isNameChar_of_isIdentStart hstart)]
  exact h

theorem scanName_reads (h : start.Behind file done) :
    Reads file done QName.Covers (scanName start) := by
  have hfirst := h.takeWhile isNameChar
  have hcontinues : ∀ c ∈ (start.takeWhile isNameChar).1, isNameChar c = true :=
    List.all_eq_true.1 List.all_takeWhile
  unfold scanName
  dsimp only
  split
  · exact trivial
  · rename_i hne
    rw [Bool.not_eq_true, List.isEmpty_eq_false_iff] at hne
    split
    · rename_i after hcolon
      split
      · rename_i hstarts
        have hsecond := (hfirst.skipChar? hcolon).takeWhile isNameChar
        rw [List.append_assoc, List.append_assoc] at hsecond
        exact ⟨_, hsecond, .spaced hne hcontinues (isNamePart_takeWhile hstarts)⟩
      · exact ⟨_, hfirst, .plain hne hcontinues⟩
    · exact ⟨_, hfirst, .plain hne hcontinues⟩

theorem word_of_ofWord? {name : List Char} {kind : BindingKind}
    (h : BindingKind.ofWord? (String.ofList name) = some kind) : kind.word.toList = name := by
  unfold BindingKind.ofWord? at h
  have hword := List.find?_some (p := fun k : BindingKind => k.word == String.ofList name) h
  rw [beq_iff_eq.1 hword, String.toList_ofList]

/-- The closing braces stand behind the characters of the expression. -/
theorem closing_of_expressionLength {closing : List Char} {quote : Option Char} {cs : List Char}
    {n : Nat} (h : expressionLength closing quote cs = some n) : closing <+: cs.drop n := by
  fun_induction expressionLength closing quote cs generalizing n with
  | case1 | case2 => cases h
  | case3 q c cs ih | case4 q c cs _ _ ih | case5 c cs _ ih | case7 c cs _ _ ih =>
      obtain ⟨m, hm, rfl⟩ := Option.map_eq_some_iff.1 h
      exact ih hm
  | case6 c cs _ closed =>
      cases h
      exact List.isPrefixOf_iff_prefix.1 closed

/-- Before the place at which the closing braces are found there are none, whatever is put in
their place. -/
theorem not_isPrefixOf_closing_take {braces : Braces} {c : Char} {cs : List Char} {n : Nat}
    (hopen : ¬ braces.closing.isPrefixOf (c :: cs) = true)
    (h : expressionLength braces.closing none cs = some n) (rest : List Char) :
    ¬ braces.closing.isPrefixOf (c :: (cs.take n ++ rest)) = true := by
  by_cases hc : c = closeBrace
  · subst hc
    cases braces with
    | one => exact absurd rfl hopen
    | two =>
        -- Of two braces the second one would be the next character, which stays in its place.
        cases cs with
        | nil => cases h
        | cons d ds =>
            have hd : ¬ closeBrace = d := by
              rintro rfl
              exact hopen rfl
            have hne : n ≠ 0 := by
              rintro rfl
              exact hd (List.cons_prefix_cons.1 (closing_of_expressionLength h)).1
            obtain ⟨m, rfl⟩ := Nat.exists_eq_succ_of_ne_zero hne
            intro hfront
            have hbraces := List.isPrefixOf_iff_prefix.1 hfront
            exact hd (List.cons_prefix_cons.1 (List.cons_prefix_cons.1 hbraces).2).1
  · exact not_isPrefixOf_closing hc

/-- Where the closing braces are found does not depend on what follows them. -/
theorem expressionLength_take {braces : Braces} {quote : Option Char} {cs : List Char} {n : Nat}
    (h : expressionLength braces.closing quote cs = some n) (rest : List Char) :
    expressionLength braces.closing quote (cs.take n ++ rest)
      = (expressionLength braces.closing none rest).map (· + (cs.take n).length) := by
  fun_induction expressionLength braces.closing quote cs generalizing n with
  | case1 | case2 => cases h
  | case3 q c cs ih =>
      obtain ⟨m, hm, rfl⟩ := Option.map_eq_some_iff.1 h
      rw [List.take_succ_cons, List.take_succ_cons, List.cons_append, List.cons_append,
        expressionLength, ih hm, Option.map_map]
      rfl
  | case4 q c cs hsingle hescape ih =>
      obtain ⟨m, hm, rfl⟩ := Option.map_eq_some_iff.1 h
      rw [List.take_succ_cons, List.cons_append,
        expressionLength_inside (Binding.ne_backslash hsingle hescape), ih hm, Option.map_map]
      rfl
  | case5 c cs hquote ih =>
      obtain ⟨m, hm, rfl⟩ := Option.map_eq_some_iff.1 h
      rw [List.take_succ_cons, List.cons_append, expressionLength_quote hquote, ih hm,
        Option.map_map]
      rfl
  | case6 c cs _ closed =>
      cases h
      exact Option.map_id'.symm
  | case7 c cs hquote hopen ih =>
      obtain ⟨m, hm, rfl⟩ := Option.map_eq_some_iff.1 h
      have hnone := not_isPrefixOf_closing_take hopen hm rest
      rw [List.take_succ_cons, List.cons_append, expressionLength, if_neg hquote, if_neg hnone,
        ih hm, Option.map_map]
      rfl

/-- **What stands before the closing braces passes.** -/
theorem passes_of_expressionLength {braces : Braces} {cs : List Char} {n : Nat}
    (h : expressionLength braces.closing none cs = some n) :
    Passes braces.closing (cs.take n) :=
  expressionLength_take h

/-- What a cursor is moved over with an expression is the expression and its braces. -/
theorem take_closing {braces : Braces} {cs : List Char} {n : Nat}
    (h : expressionLength braces.closing none cs = some n) :
    cs.take (n + braces.count) = cs.take n ++ braces.closing := by
  have hclosing := List.prefix_iff_eq_take.1 (closing_of_expressionLength h)
  rw [Braces.closing, List.length_replicate] at hclosing
  rw [List.take_add, ← hclosing]
  rfl

/-- A binding whose parts have been read from the file one after another covers them. -/
theorem exists_covers {braces : Braces} {kind : BindingKind} {opening : List Char} {body : Cursor}
    {length : Nat} (hopens : Opens braces kind opening)
    (hbody : body.Behind file (done ++ opening))
    (hcloses : expressionLength braces.closing none body.rest = some length) :
    ∃ w, (body.skip (length + braces.count)).Behind file (done ++ w)
      ∧ BindingSource.Covers braces (Position.start.after done)
        ⟨kind, String.ofList (Text.trimEndChars (body.rest.take length)),
          (Position.start.after done).span, body.pos.span⟩ w := by
  obtain ⟨gap, hblank, htrimmed⟩ := Text.exists_trimmed (body.rest.take length)
  have hpasses := passes_of_expressionLength hcloses
  have hend := hbody.skip (length + braces.count)
  rw [take_closing hcloses, htrimmed] at hend
  rw [htrimmed] at hpasses
  refine ⟨opening ++ Text.trimEndChars (body.rest.take length) ++ gap ++ braces.closing, ?_, ?_⟩
  · simp only [List.append_assoc] at hend ⊢
    exact hend
  · rw [hbody.pos, Position.after_append]
    exact .intro hopens hblank hpasses

theorem scanBinding_reads {braces : Braces} (h : start.Behind file done)
    (opened : braces.opening <+: start.rest) :
    Reads file done (BindingSource.Covers braces (Position.start.after done))
      (scanBinding braces start) := by
  -- One fact for each step of the scanner, in its order: what stands before the cursor.
  have hcount : braces.opening.length = braces.count := List.length_replicate
  have hskip := h.skip braces.count
  rw [← hcount, ← List.prefix_iff_eq_take.1 opened, hcount] at hskip
  obtain ⟨gap₁, blank₁, hword⟩ := hskip.skipBlank
  have hname := hword.takeWhile isIdentContinue
  obtain ⟨gap₂, blank₂, hcolon⟩ := hname.skipBlank
  unfold scanBinding
  dsimp only
  split
  · exact trivial
  · rename_i kind hkind
    split
    · exact trivial
    · rename_i body hbody
      obtain ⟨gap₃, blank₃, hexpression⟩ := (hcolon.skipChar? hbody).skipBlank
      split
      · exact trivial
      · rename_i length hlength
        -- What has been taken for a word is the word of the kind.
        have hopens : Opens braces kind _ := .intro blank₁ blank₂ blank₃
        rw [← word_of_ofWord? hkind] at hexpression
        simp only [List.append_assoc] at hexpression hopens
        rw [h.pos]
        exact exists_covers hopens hexpression hlength

/-! ## §4. Scanners of attributes. -/

theorem scanQuoted_reads {q : Char} (hq : q = '"' ∨ q = '\'') (h : c.Behind file (done ++ [q])) :
    Reads file done (AttributeValue.Covers (Position.start.after done)) (scanQuoted start c q) := by
  unfold scanQuoted
  by_cases hhead : c.rest.head? = some openBrace
  · rw [if_pos hhead]
    obtain ⟨rest, hrest⟩ := List.head?_eq_some_iff.1 hhead
    refine Meets.bind (scanBinding_reads h ⟨rest, hrest.symm⟩) fun ⟨source, after⟩ hsource => ?_
    obtain ⟨w, hbehind, hcovers⟩ := hsource
    dsimp only
    split
    · rename_i hquote
      have hend := hbehind.skipChar? hquote
      rw [List.append_assoc, List.append_assoc] at hend
      rw [Position.after_append] at hcovers
      exact ⟨_, hend, .quotedBinding hq hcovers⟩
    · exact trivial
  · rw [if_neg hhead]
    dsimp only
    split
    · rename_i hquote
      have hend := (h.takeWhile (· != q)).skipChar? hquote
      rw [List.append_assoc, List.append_assoc] at hend
      refine ⟨_, hend, .quoted hq (fun hbrace => hhead ?_) fun d hd => ?_⟩
      · obtain ⟨w, hw⟩ := List.head?_eq_some_iff.1 hbrace
        rw [h.rest_eq (h.takeWhile (· != q)), hw]
        rfl
      · exact bne_iff_ne.1 (List.all_eq_true.1 List.all_takeWhile d hd)
    · exact trivial

theorem scanValue_reads (h : start.Behind file done) :
    Reads file done (AttributeValue.Covers (Position.start.after done)) (scanValue start) := by
  have hquoted {q : Char} (hq : q = '"' ∨ q = '\'') (hhead : start.rest.head? = some q) :
      Reads file done (AttributeValue.Covers (Position.start.after done))
        (scanQuoted start (start.skip 1) q) := by
    have hskip := h.skip 1
    obtain ⟨rest, hrest⟩ := List.head?_eq_some_iff.1 hhead
    rw [hrest] at hskip
    exact scanQuoted_reads hq hskip
  have hbare (hbegins : ∀ c, start.rest.head? = some c →
        ¬ (c = '"' ∨ c = '\'') ∧ c ≠ openBrace) :
      Reads file done (AttributeValue.Covers (Position.start.after done))
        (scanValue.bareValue start) := by
    have hend := h.takeWhile isBareValueChar
    refine ⟨_, hend, .run (fun c hc => hbegins c ?_) (List.all_eq_true.1 List.all_takeWhile)⟩
    obtain ⟨w, hw⟩ := List.head?_eq_some_iff.1 hc
    rw [h.rest_eq hend, show (start.takeWhile isBareValueChar).1 = c :: w from hw]
    rfl
  unfold scanValue
  split
  · rename_i hhead
    exact hquoted (Or.inl rfl) hhead
  · rename_i hhead
    exact hquoted (Or.inr rfl) hhead
  · rename_i c hdouble hsingle hhead
    split
    · rename_i hbrace
      obtain ⟨rest, hrest⟩ := List.head?_eq_some_iff.1 hhead
      rw [hbrace] at hrest
      refine Meets.map (scanBinding_reads h ⟨rest, hrest.symm⟩) ?_
      rintro _ ⟨w, hbehind, hcovers⟩
      exact ⟨w, hbehind, .binding hcovers⟩
    · rename_i hbrace
      refine hbare fun d hd => ?_
      obtain rfl : c = d := Option.some.inj (hhead.symm.trans hd)
      exact ⟨fun hquote => hquote.elim hdouble hsingle, hbrace⟩
  · rename_i hhead
    exact hbare fun d hd => absurd (hhead.symm.trans hd) nofun

theorem scanAttribute_reads (h : start.Behind file done) :
    Reads file done (Attribute.Covers (Position.start.after done)) (scanAttribute start) := by
  have hname := h.takeWhile isAttributeChar
  obtain ⟨gap, hblank, hgap⟩ := hname.skipBlank
  unfold scanAttribute
  dsimp only
  split
  · exact trivial
  · rename_i hraw
    rw [Bool.not_eq_true, List.isEmpty_eq_false_iff] at hraw
    have hattribute : IsAttributeName (start.takeWhile isAttributeChar).1 :=
      ⟨hraw, List.all_eq_true.1 List.all_takeWhile⟩
    split
    · rename_i hequals
      obtain ⟨gap', hblank', hgap'⟩ := (hgap.skipChar? hequals).skipBlank
      refine Meets.bind (scanValue_reads hgap') fun ⟨value, after⟩ hvalue => ?_
      obtain ⟨w, hbehind, hcovers⟩ := hvalue
      have hdone : done ++ (start.takeWhile isAttributeChar).1 ++ gap ++ ['='] ++ gap'
          = done ++ ((start.takeWhile isAttributeChar).1 ++ gap ++ '=' :: gap') := by
        simp only [List.append_assoc, List.singleton_append]
      rw [hdone, List.append_assoc] at hbehind
      rw [hdone, Position.after_append] at hcovers
      refine ⟨_, hbehind, ?_⟩
      rw [h.pos, hbehind.pos, Position.after_append]
      exact .set hattribute hblank hblank' hcovers rfl
    · rw [List.append_assoc] at hgap
      refine ⟨_, hgap, ?_⟩
      have hmentioned := Attribute.Covers.mentioned (p := Position.start.after done) hattribute
        hblank
      rw [← Position.after_append, ← hgap.pos, ← h.pos] at hmentioned
      rw [← h.pos]
      exact hmentioned

/-! ## §5. Scanners of tags. -/

/-- By induction on the rounds: each one goes on from where the one before has stopped. -/
theorem scanAttributes_reads (p : Position) (rounds : Nat) (h : c.Behind file done) :
    Meets (fun r => ∃ w gap, (∀ b ∈ gap, Text.isBlank b = true)
        ∧ r.2.2.Behind file (done ++ (w ++ gap ++ tagEnd r.2.1))
        ∧ AllCover (Position.start.after done) r.1 w)
      (fun _ => True) (scanAttributes p rounds c) := by
  induction rounds generalizing c done with
  | zero => exact trivial
  | succ rounds ih =>
      obtain ⟨gap, hblank, hc⟩ := h.skipBlank
      unfold scanAttributes
      dsimp only
      split
      · rename_i hclose
        have hend := hc.skip 2
        have htake := List.prefix_iff_eq_take.1 (List.isPrefixOf_iff_prefix.1 hclose)
        refine ⟨[], gap, hblank, ?_, .nil⟩
        rw [List.append_assoc, ← show ['/', '>'] = c.skipBlank.rest.take 2 from htake] at hend
        exact hend
      · split
        · rename_i hclose
          have hend := hc.skip 1
          obtain ⟨rest, hrest⟩ := List.head?_eq_some_iff.1 hclose
          rw [List.append_assoc, hrest] at hend
          exact ⟨[], gap, hblank, hend, .nil⟩
        · split
          · exact trivial
          · refine Meets.bind (scanAttribute_reads hc) fun found hfound => ?_
            obtain ⟨w, hbehind, hcovers⟩ := hfound
            refine Meets.bind (ih hbehind) fun more hmore => ?_
            obtain ⟨ws, gap', hblank', hend, hcover⟩ := hmore
            rw [Position.after_append] at hcovers
            rw [List.append_assoc, Position.after_append] at hcover
            refine ⟨gap ++ w ++ ws, gap', hblank', ?_, .cons hblank hcovers hcover⟩
            simpa only [List.append_assoc] using hend

theorem scanStartTag_reads (h : start.Behind file done) (hopen : start.rest.head? = some '<')
    (hstarts : startsIdent start.rest.tail = true) :
    Reads file done (StartTag.Covers (Position.start.after done)) (scanStartTag start) := by
  obtain ⟨rest, hrest⟩ := List.head?_eq_some_iff.1 hopen
  have hskip := h.skip 1
  rw [hrest] at hskip
  unfold scanStartTag
  refine Meets.bind (scanName_reads hskip) fun ⟨name, c⟩ hname => ?_
  obtain ⟨n, hbehind, hnamed⟩ := hname
  refine Meets.bind (scanAttributes_reads _ _ hbehind) fun ⟨attributes, selfClosing, _⟩ hset => ?_
  obtain ⟨w, gap, hblank, hend, hcover⟩ := hset
  rw [List.append_assoc, Position.after_append] at hcover
  simp only [List.append_assoc] at hend
  -- The name begins with the character behind the bracket.
  have hn : startsIdent n = true := by
    obtain ⟨ch, cs, rfl⟩ := List.exists_cons_of_ne_nil hnamed.ne_nil
    rw [← List.drop_one, show start.rest.drop 1 = _ from hskip.rest_eq hbehind] at hstarts
    exact hstarts
  refine ⟨_, hend, ?_⟩
  rw [h.pos, hend.pos, Position.after_append]
  exact .intro hnamed hn hcover hblank (by simp)

theorem scanEndTag_reads (h : start.Behind file done) (hopen : ['<', '/'] <+: start.rest) :
    Reads file done (EndTag.Covers (Position.start.after done)) (scanEndTag start) := by
  have hskip := h.skip 2
  rw [← show ['<', '/'] = start.rest.take 2 from List.prefix_iff_eq_take.1 hopen] at hskip
  unfold scanEndTag
  refine Meets.bind (scanName_reads hskip) fun ⟨name, c⟩ hname => ?_
  obtain ⟨n, hbehind, hnamed⟩ := hname
  obtain ⟨gap, hblank, hgap⟩ := hbehind.skipBlank
  dsimp only
  split
  · rename_i stop hclose
    have hend := hgap.skipChar? hclose
    simp only [List.append_assoc] at hend
    refine ⟨_, hend, ?_⟩
    rw [h.pos, hend.pos, Position.after_append]
    exact .intro hnamed hblank (by simp)
  · exact trivial

end Markup

end BoundMarkup
