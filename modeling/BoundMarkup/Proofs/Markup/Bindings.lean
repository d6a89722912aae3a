/-
  BoundMarkup.Proofs.Markup.Bindings
  ──────────────────────────────────
  **MARKUP AND BINDINGS AGREE ON WHERE AN EXPRESSION ENDS.**

  A binding whose expression the lexer accepts is scanned up to its own braces,
  whatever follows them (`scanBinding_written`).  So it is found whole as text
  between double braces, and as the value of an attribute, bare or in quotes of
  either kind (`tokenize_written`).
-/
import BoundMarkup.Proofs.Markup.Passing

namespace BoundMarkup

/-! ## §1. Cursors over texts of known parts. -/

namespace Cursor

variable {w rest : List Char} {f : Char → Bool}

theorem skip_append (w rest : List Char) (p : Position) :
    (⟨w ++ rest, p⟩ : Cursor).skip w.length = ⟨rest, p.after w⟩ := by
  unfold skip
  rw [List.drop_left, List.take_left]

/-- A run of characters of a class ends before the first one that is not of it. -/
theorem takeWhile_append (hw : ∀ c ∈ w, f c = true)
    (hrest : ∀ c, rest.head? = some c → f c = false) (p : Position) :
    (⟨w ++ rest, p⟩ : Cursor).takeWhile f = (w, ⟨rest, p.after w⟩) := by
  have hrun : (w ++ rest).takeWhile f = w := by
    rw [List.takeWhile_append_of_pos hw]
    cases rest with
    | nil => exact List.append_nil w
    | cons c rest =>
        rw [List.takeWhile_cons_of_neg (by rw [hrest c rfl]; exact Bool.false_ne_true)]
        exact List.append_nil w
  unfold Cursor.takeWhile
  simp only [hrun, skip_append]

theorem takeWhile_until {d : Char} (hw : ∀ c ∈ w, f c = true) (hd : f d = false)
    (rest : List Char) (p : Position) :
    (⟨w ++ (d :: rest), p⟩ : Cursor).takeWhile f = (w, ⟨d :: rest, p.after w⟩) := by
  refine takeWhile_append hw (fun c hc => ?_) p
  cases Option.some.inj hc
  exact hd

/-- Blanks are passed over up to the first visible character. -/
theorem skipBlank_append (hw : ∀ c ∈ w, Text.isBlank c = true)
    (hrest : ∀ c, rest.head? = some c → Text.isBlank c = false) (p : Position) :
    (⟨w ++ rest, p⟩ : Cursor).skipBlank = ⟨rest, p.after w⟩ := by
  unfold skipBlank skipWhile
  rw [takeWhile_append hw hrest]

theorem skipBlank_visible (hrest : ∀ c, rest.head? = some c → Text.isBlank c = false)
    (p : Position) : (⟨rest, p⟩ : Cursor).skipBlank = ⟨rest, p⟩ :=
  skipBlank_append (w := []) nofun hrest p

theorem skipBlank_cons {c : Char} (hc : Text.isBlank c = false) (rest : List Char)
    (p : Position) : (⟨c :: rest, p⟩ : Cursor).skipBlank = ⟨c :: rest, p⟩ := by
  refine skipBlank_visible (fun d hd => ?_) p
  cases Option.some.inj hd
  exact hc

theorem skipChar?_cons (c : Char) (rest : List Char) (p : Position) :
    (⟨c :: rest, p⟩ : Cursor).skipChar? c = some ⟨rest, p.step c⟩ := by
  unfold skipChar?
  rw [List.head?_cons, if_pos rfl]
  rfl

theorem skipChar?_other {c d : Char} (h : c ≠ d) (rest : List Char) (p : Position) :
    (⟨c :: rest, p⟩ : Cursor).skipChar? d = none := by
  unfold skipChar?
  rw [List.head?_cons, if_neg (fun heq => h (Option.some.inj heq))]

end Cursor

namespace Text

/-- A text that trimming leaves as it is has no blank at either end. -/
theorem trimEndChars_of_trimChars {cs : List Char} (h : trimChars cs = cs) :
    trimEndChars cs = cs ∧ ∀ c, cs.head? = some c → isBlank c = false := by
  have hle : ∀ ds : List Char, (trimEndChars ds).length ≤ ds.length := by
    intro ds
    unfold trimEndChars
    rw [List.length_reverse]
    exact Nat.le_trans (List.dropWhile_suffix _).length_le (Nat.le_of_eq List.length_reverse)
  -- Nothing is dropped in front, since trimming the end cannot make up for it.
  have hdrop : cs.dropWhile isBlank = cs := by
    refine (List.dropWhile_suffix isBlank).eq_of_length_le ?_
    have hlength := hle (cs.dropWhile isBlank)
    rwa [show trimEndChars (cs.dropWhile isBlank) = cs from h] at hlength
  refine ⟨?_, fun c hc => Bool.eq_false_iff.2 fun hblank => ?_⟩
  · have htrim : trimEndChars (cs.dropWhile isBlank) = cs := h
    rwa [hdrop] at htrim
  · obtain ⟨ds, rfl⟩ := List.head?_eq_some_iff.1 hc
    rw [List.dropWhile_cons_of_pos hblank] at hdrop
    have hlength := (List.dropWhile_suffix (l := ds) isBlank).length_le
    rw [hdrop, List.length_cons] at hlength
    omega

end Text

namespace Markup

/-! ## §2. Bindings. -/

/-- The braces before a binding. -/
def Braces.opening (b : Braces) : List Char := List.replicate b.count openBrace

/-- A binding as it is written. -/
def bindingChars (braces : Braces) (kind : BindingKind) (expression : List Char) : List Char :=
  braces.opening ++ (kind.word.toList ++ (':' :: ' ' :: (expression ++ braces.closing)))

/-- The binding is of the kind and has the expression. -/
def BindingSource.Says (source : BindingSource) (kind : BindingKind) (expression : String) :
    Prop := source.kind = kind ∧ source.expression = expression

/-- The word of a kind is a word, and stands for that kind. -/
theorem kind_word (kind : BindingKind) : BindingKind.ofWord? kind.word = some kind
    ∧ (∀ c ∈ kind.word.toList, isIdentContinue c = true)
    ∧ ∀ c, kind.word.toList.head? = some c → Text.isBlank c = false := by
  cases kind <;>
    exact ⟨rfl, List.all_eq_true.1 (by decide), fun c hc => by cases Option.some.inj hc; decide⟩

variable {braces : Braces} (kind : BindingKind) {expression : List Char} (rest : List Char)

/-- What follows an expression is visible, be it the expression or its closing braces. -/
theorem head_visible (hhead : ∀ c, expression.head? = some c → Text.isBlank c = false) :
    ∀ c, (expression ++ (braces.closing ++ rest)).head? = some c → Text.isBlank c = false := by
  cases expression with
  | cons c cs => exact fun d hd => hhead d hd
  | nil =>
      intro c hc
      have hbrace : closeBrace = c := by
        cases braces <;> exact Option.some.inj hc
      rw [← hbrace]
      decide

/-- **A binding is scanned up to its own braces.** -/
theorem scanBinding_written (hpass : Passes braces.closing expression)
    (htrim : Text.trimChars expression = expression) (p : Position) :
    ∃ source q, scanBinding braces ⟨bindingChars braces kind expression ++ rest, p⟩
        = .ok (source, ⟨rest, q⟩)
      ∧ source.Says kind (String.ofList expression) := by
  obtain ⟨hkind, hcontinue, hvisible⟩ := kind_word kind
  obtain ⟨htrimEnd, hhead⟩ := Text.trimEndChars_of_trimChars htrim
  -- One fact for each step of the scanner, in its order.
  have hopen (r : List Char) (p : Position) :
      (⟨braces.opening ++ r, p⟩ : Cursor).skip braces.count = ⟨r, p.after braces.opening⟩ := by
    have hcount : braces.opening.length = braces.count := List.length_replicate
    rw [← hcount, Cursor.skip_append]
  have hword (r : List Char) (p : Position) :
      (⟨kind.word.toList ++ (':' :: r), p⟩ : Cursor).skipBlank
        = ⟨kind.word.toList ++ (':' :: r), p⟩ := by
    refine Cursor.skipBlank_visible ?_ p
    cases kind <;> exact fun c hc => hvisible c hc
  have htake (r : List Char) (p : Position) :
      (⟨kind.word.toList ++ (':' :: r), p⟩ : Cursor).takeWhile isIdentContinue
        = (kind.word.toList, ⟨':' :: r, p.after kind.word.toList⟩) :=
    Cursor.takeWhile_until hcontinue (by decide) r p
  have hcolon (r : List Char) (p : Position) :
      (⟨':' :: r, p⟩ : Cursor).skipBlank = ⟨':' :: r, p⟩ :=
    Cursor.skipBlank_cons (by decide) r p
  have hbody (p : Position) :
      (⟨' ' :: (expression ++ (braces.closing ++ rest)), p⟩ : Cursor).skipBlank
        = ⟨expression ++ (braces.closing ++ rest), p.after [' ']⟩ :=
    Cursor.skipBlank_append (w := [' ']) (List.forall_mem_singleton.2 (by decide))
      (head_visible rest hhead) p
  have hclose (p : Position) :
      (⟨expression ++ (braces.closing ++ rest), p⟩ : Cursor).skip
          (expression.length + braces.count)
        = ⟨rest, p.after (expression ++ braces.closing)⟩ := by
    have hcount : expression.length + braces.count = (expression ++ braces.closing).length := by
      rw [List.length_append, Braces.closing, List.length_replicate]
    rw [hcount, ← List.append_assoc, Cursor.skip_append]
  have htext : bindingChars braces kind expression ++ rest
      = braces.opening ++ (kind.word.toList
          ++ (':' :: ' ' :: (expression ++ (braces.closing ++ rest)))) := by
    unfold bindingChars
    simp only [List.append_assoc, List.cons_append]
  unfold scanBinding
  rw [htext]
  simp only [hopen, hword, htake, String.ofList_toList, hkind, hcolon, Cursor.skipChar?_cons,
    hbody, hpass.expressionLength, hclose, List.take_left, htrimEnd]
  exact ⟨_, _, rfl, rfl, rfl⟩

/-! ## §3. Attribute values. -/

/-- How an attribute value is written. -/
inductive Quoting where
  | bare | double | single
  deriving DecidableEq, Repr

/-- The quote on both sides of the value. -/
def Quoting.mark : Quoting → List Char
  | bare => []
  | double => ['"']
  | single => ['\'']

/-- A value in its quotes. -/
def Quoting.around (quoting : Quoting) (value : List Char) : List Char :=
  quoting.mark ++ (value ++ quoting.mark)

/-- After a quote comes a binding up to the same quote. -/
theorem scanQuoted_written (start : Cursor) (quote : Char)
    (hpass : Passes Braces.one.closing expression)
    (htrim : Text.trimChars expression = expression) (p : Position) :
    ∃ source q, scanQuoted start
          ⟨bindingChars .one kind expression ++ (quote :: rest), p⟩ quote
        = .ok (.binding source, ⟨rest, q⟩)
      ∧ source.Says kind (String.ofList expression) := by
  obtain ⟨source, q, hscan, h⟩ :=
    scanBinding_written kind (quote :: rest) hpass htrim p
  refine ⟨source, q.step quote, ?_, h⟩
  have hhead : (bindingChars .one kind expression ++ (quote :: rest)).head? = some openBrace := rfl
  unfold scanQuoted
  rw [if_pos hhead, hscan]
  simp only [bind, Except.bind, Cursor.skipChar?_cons]

theorem scanValue_quote {quote : Char} (h : quote = '"' ∨ quote = '\'') (cs : List Char)
    (p : Position) : scanValue ⟨quote :: cs, p⟩
      = scanQuoted ⟨quote :: cs, p⟩ ⟨cs, p.step quote⟩ quote := by
  rcases h with rfl | rfl <;> rfl

theorem scanValue_brace (cs : List Char) (p : Position) : scanValue ⟨openBrace :: cs, p⟩
    = (scanBinding .one ⟨openBrace :: cs, p⟩).map
        (fun found => (.binding found.1, found.2)) := by
  unfold scanValue
  rfl

/-- **A binding as the value of an attribute**, however it is written. -/
theorem scanValue_written (quoting : Quoting) (hpass : Passes Braces.one.closing expression)
    (htrim : Text.trimChars expression = expression) (p : Position) :
    ∃ source q, scanValue ⟨quoting.around (bindingChars .one kind expression) ++ rest, p⟩
        = .ok (.binding source, ⟨rest, q⟩)
      ∧ source.Says kind (String.ofList expression) := by
  have hquoted (quote : Char) (h : quote = '"' ∨ quote = '\'') :
      ∃ source q, scanValue
            ⟨[quote] ++ (bindingChars .one kind expression ++ [quote]) ++ rest, p⟩
          = .ok (.binding source, ⟨rest, q⟩)
        ∧ source.Says kind (String.ofList expression) := by
    have htext : [quote] ++ (bindingChars .one kind expression ++ [quote]) ++ rest
        = quote :: (bindingChars .one kind expression ++ (quote :: rest)) := by
      simp only [List.append_assoc, List.cons_append, List.nil_append]
    rw [htext, scanValue_quote h]
    exact scanQuoted_written kind rest _ quote hpass htrim _
  cases quoting with
  | double => exact hquoted '"' (Or.inl rfl)
  | single => exact hquoted '\'' (Or.inr rfl)
  | bare =>
      obtain ⟨source, q, hscan, h⟩ :=
        scanBinding_written kind rest hpass htrim p
      have htext : Quoting.bare.around (bindingChars .one kind expression) ++ rest
          = bindingChars .one kind expression ++ rest := by
        unfold Quoting.around Quoting.mark
        rw [List.append_nil, List.nil_append]
      have hbrace : bindingChars .one kind expression ++ rest
          = openBrace :: (kind.word.toList
              ++ (':' :: ' ' :: (expression ++ Braces.one.closing)) ++ rest) := rfl
      refine ⟨source, q, ?_, h⟩
      rw [hbrace] at hscan
      rw [htext, hbrace, scanValue_brace, hscan]
      rfl

/-! ## §4. Start tags. -/

/-- A part of an element name. -/
structure IsNamePart (w : List Char) : Prop where
  starts : startsIdent w = true
  continues : ∀ c ∈ w, isNameChar c = true

/-- A name that an element may have, with or without a name space. -/
structure QName.Written (q : QName) : Prop where
  name : IsNamePart q.name.toList
  space : ∀ space, q.space = some space → IsNamePart space.toList

/-- The name of an attribute, as it is written. -/
structure IsAttributeName (w : List Char) : Prop where
  nonempty : w ≠ []
  continues : ∀ c ∈ w, isAttributeChar c = true

theorem IsNamePart.exists_cons {w : List Char} (h : IsNamePart w) :
    ∃ c cs, w = c :: cs ∧ isIdentStart c = true := by
  obtain ⟨c, hc, hstart⟩ := (Option.any_eq_true _ _).1 h.starts
  obtain ⟨cs, rfl⟩ := List.head?_eq_some_iff.1 hc
  exact ⟨c, cs, rfl, hstart⟩

theorem IsNamePart.isEmpty {w : List Char} (h : IsNamePart w) : w.isEmpty = false := by
  obtain ⟨c, cs, rfl, -⟩ := h.exists_cons
  rfl

/-- A name with a name space, as it is written. -/
theorem QName.toList_text (space word : String) :
    (QName.text ⟨some space, word⟩).toList = space.toList ++ (':' :: word.toList) := by
  show (space ++ ":" ++ word).toList = _
  rw [String.toList_append, String.toList_append, List.append_assoc]
  rfl

/-- **An element name is scanned up to the blank after it.** -/
theorem scanName_written {name : QName} (h : name.Written) (p : Position) :
    scanName ⟨name.text.toList ++ (' ' :: rest), p⟩
      = .ok (name, ⟨' ' :: rest, p.after name.text.toList⟩) := by
  obtain ⟨space, word⟩ := name
  have hword : IsNamePart word.toList := h.name
  have hend (p : Position) :
      (⟨word.toList ++ (' ' :: rest), p⟩ : Cursor).takeWhile isNameChar
        = (word.toList, ⟨' ' :: rest, p.after word.toList⟩) :=
    Cursor.takeWhile_until hword.continues (by decide) rest p
  unfold scanName
  cases space with
  | none =>
      have htext : (QName.text ⟨none, word⟩).toList = word.toList := rfl
      rw [htext, hend]
      simp only [hword.isEmpty, Bool.false_eq_true, if_false,
        Cursor.skipChar?_other (show ' ' ≠ ':' by decide), String.ofList_toList]
  | some space =>
      have hspace : IsNamePart space.toList := h.space space rfl
      have hcolon (r : List Char) :
          (⟨space.toList ++ (':' :: r), p⟩ : Cursor).takeWhile isNameChar
            = (space.toList, ⟨':' :: r, p.after space.toList⟩) :=
        Cursor.takeWhile_until hspace.continues (by decide) r p
      have hstarts : startsIdent (word.toList ++ (' ' :: rest)) = true := by
        obtain ⟨c, cs, hc, hstart⟩ := hword.exists_cons
        rw [hc]
        exact hstart
      rw [QName.toList_text, List.append_assoc, List.cons_append, hcolon]
      simp only [hspace.isEmpty, Bool.false_eq_true, if_false, Cursor.skipChar?_cons, hstarts,
        if_true, hend, String.ofList_toList]
      rw [Position.after_append]
      rfl

theorem isAttributeChar_visible {c : Char} (h : isAttributeChar c = true) :
    Text.isBlank c = false ∧ c ≠ '>' ∧ c ≠ '/' ∧ c ≠ '<' := by
  unfold isAttributeChar at h
  simp only [Bool.not_eq_true', Bool.or_eq_false_iff, beq_eq_false_iff_ne] at h
  exact ⟨h.1.1.1.1.1.1, h.1.1.1.1.2, h.1.1.1.2, h.1.1.2⟩

/-- **An attribute with a binding for its value** is scanned up to the end of the value. -/
theorem scanAttribute_written {attr : List Char} (quoting : Quoting)
    (hattr : IsAttributeName attr) (hpass : Passes Braces.one.closing expression)
    (htrim : Text.trimChars expression = expression) (p : Position) :
    ∃ source span q, scanAttribute ⟨attr
          ++ ('=' :: (quoting.around (bindingChars .one kind expression) ++ rest)), p⟩
        = .ok (⟨attributeName attr, .binding source, span⟩, ⟨rest, q⟩)
      ∧ source.Says kind (String.ofList expression) := by
  have hname (r : List Char) : (⟨attr ++ ('=' :: r), p⟩ : Cursor).takeWhile isAttributeChar
      = (attr, ⟨'=' :: r, p.after attr⟩) :=
    Cursor.takeWhile_until hattr.continues (by decide) r p
  have hequals (r : List Char) (p : Position) :
      (⟨'=' :: r, p⟩ : Cursor).skipBlank = ⟨'=' :: r, p⟩ :=
    Cursor.skipBlank_cons (by decide) r p
  have hvalue (p : Position) :
      (⟨quoting.around (bindingChars .one kind expression) ++ rest, p⟩ : Cursor).skipBlank
        = ⟨quoting.around (bindingChars .one kind expression) ++ rest, p⟩ := by
    refine Cursor.skipBlank_visible (fun c hc => ?_) p
    cases quoting <;> (cases Option.some.inj hc; decide)
  obtain ⟨source, q, hscan, h⟩ :=
    scanValue_written kind rest quoting hpass htrim
      ((p.after attr).step '=')
  have hempty : attr.isEmpty = false := List.isEmpty_eq_false_iff.2 hattr.nonempty
  refine ⟨source, p.spanTo q, q, ?_, h⟩
  unfold scanAttribute
  simp only [hname, hempty, Bool.false_eq_true, if_false, hequals, Cursor.skipChar?_cons, hvalue,
    hscan]
  rfl

/-- What ends a start tag. -/
def tagEnd (selfClosing : Bool) : List Char := if selfClosing then ['/', '>'] else ['>']

theorem scanAttributes_end (start : Position) (rounds : Nat) (selfClosing : Bool)
    (p : Position) : scanAttributes start (rounds + 1) ⟨tagEnd selfClosing ++ rest, p⟩
      = .ok ([], selfClosing, ⟨rest, p.after (tagEnd selfClosing)⟩) := by
  have hvisible : (⟨tagEnd selfClosing ++ rest, p⟩ : Cursor).skipBlank
      = ⟨tagEnd selfClosing ++ rest, p⟩ := by
    refine Cursor.skipBlank_visible (fun c hc => ?_) p
    cases selfClosing <;> (cases Option.some.inj hc; decide)
  unfold scanAttributes
  rw [hvisible]
  cases selfClosing <;> rfl

/-- The blank and the attribute between the name and the end of a tag. -/
theorem scanAttributes_written {attr : List Char} (quoting : Quoting) (selfClosing : Bool)
    (hattr : IsAttributeName attr) (hpass : Passes Braces.one.closing expression)
    (htrim : Text.trimChars expression = expression) (start : Position) (rounds : Nat)
    (p : Position) :
    ∃ source span q, scanAttributes start (rounds + 2) ⟨' ' :: (attr
          ++ ('=' :: (quoting.around (bindingChars .one kind expression)
            ++ (tagEnd selfClosing ++ rest)))), p⟩
        = .ok ([⟨attributeName attr, .binding source, span⟩], selfClosing, ⟨rest, q⟩)
      ∧ source.Says kind (String.ofList expression) := by
  obtain ⟨source, span, q, hscan, h⟩ :=
    scanAttribute_written kind (tagEnd selfClosing ++ rest) quoting hattr hpass htrim
      (p.step ' ')
  refine ⟨source, span, q.after (tagEnd selfClosing), ?_, h⟩
  obtain ⟨c, cs, rfl⟩ : ∃ c cs, attr = c :: cs := List.exists_cons_of_ne_nil hattr.nonempty
  obtain ⟨hblank, hclose, hslash, hopen⟩ :=
    isAttributeChar_visible (hattr.continues c List.mem_cons_self)
  rw [List.cons_append] at hscan ⊢
  have hskip (r : List Char) :
      (⟨' ' :: c :: r, p⟩ : Cursor).skipBlank = ⟨c :: r, p.step ' '⟩ := by
    refine Cursor.skipBlank_append (w := [' ']) (List.forall_mem_singleton.2 (by decide))
      (fun d hd => ?_) p
    cases Option.some.inj hd
    exact hblank
  have hnot (r : List Char) : (⟨c :: r, p.step ' '⟩ : Cursor).startsWith ['/', '>'] = false := by
    unfold Cursor.startsWith
    rw [List.isPrefixOf_cons_cons, beq_eq_false_iff_ne.2 hslash.symm, Bool.false_and]
  have hother : ¬ some c = some '>' := fun heq => hclose (Option.some.inj heq)
  have hmore : (some c == some '<') = false :=
    beq_eq_false_iff_ne.2 fun heq => hopen (Option.some.inj heq)
  unfold scanAttributes
  simp only [hskip, hnot, Bool.false_eq_true, if_false, List.head?_cons, hother, hmore,
    List.isEmpty_cons, Bool.or_self, hscan]
  show (scanAttributes start (rounds + 1) ⟨tagEnd selfClosing ++ rest, q⟩ >>= _) = _
  rw [scanAttributes_end]
  rfl

/-- A start tag with one attribute, as it is written. -/
def startTagChars (element : QName) (attr value : List Char) (selfClosing : Bool) : List Char :=
  '<' :: (element.text.toList
    ++ (' ' :: (attr ++ ('=' :: (value ++ tagEnd selfClosing)))))

/-- An element name starts as an identifier does. -/
theorem QName.Written.head {element : QName} (h : element.Written) :
    ∃ c cs, element.text.toList = c :: cs ∧ isIdentStart c = true := by
  obtain ⟨space, word⟩ := element
  cases space with
  | none => exact h.name.exists_cons
  | some space =>
      obtain ⟨c, cs, hspace, hstart⟩ := (h.space space rfl).exists_cons
      refine ⟨c, cs ++ (':' :: word.toList), ?_, hstart⟩
      rw [QName.toList_text, hspace, List.cons_append]

/-- **A start tag with a binding in its attribute** is scanned up to its own end. -/
theorem scanStartTag_written {element : QName} {attr : List Char} (quoting : Quoting)
    (selfClosing : Bool) (helement : element.Written) (hattr : IsAttributeName attr)
    (hpass : Passes Braces.one.closing expression)
    (htrim : Text.trimChars expression = expression) (p : Position) :
    ∃ source span tagSpan q, scanStartTag ⟨startTagChars element attr
          (quoting.around (bindingChars .one kind expression)) selfClosing ++ rest, p⟩
        = .ok (⟨element, [⟨attributeName attr, .binding source, span⟩], selfClosing, tagSpan⟩,
            ⟨rest, q⟩)
      ∧ source.Says kind (String.ofList expression) := by
  have hname (r : List Char) := scanName_written r helement (p.step '<')
  -- What follows the name is longer than one character, so it is scanned in two rounds or more.
  have hrounds (r : List Char) : (' ' :: (attr ++ r)).length + 1
      = (attr ++ r).length + 2 := by
    rw [List.length_cons]
  obtain ⟨source, span, q, hscan, h⟩ := scanAttributes_written kind rest
    quoting selfClosing hattr hpass htrim p
    (attr ++ ('=' :: (quoting.around (bindingChars .one kind expression)
      ++ (tagEnd selfClosing ++ rest)))).length ((p.step '<').after element.text.toList)
  have htext : startTagChars element attr (quoting.around (bindingChars .one kind expression))
        selfClosing ++ rest
      = '<' :: (element.text.toList ++ (' ' :: (attr
          ++ ('=' :: (quoting.around (bindingChars .one kind expression)
            ++ (tagEnd selfClosing ++ rest)))))) := by
    unfold startTagChars
    simp only [List.append_assoc, List.cons_append]
  refine ⟨source, span, p.spanTo q, q, ?_, h⟩
  rw [htext]
  show (scanName ⟨element.text.toList ++ _, p.step '<'⟩ >>= _) = _
  rw [hname]
  show (scanAttributes p _ _ >>= _) = _
  rw [hrounds, hscan]
  rfl

/-! ## §5. Files. -/

/-- **A binding in double braces** is one piece of the content. -/
theorem scanPiece_binding (hpass : Passes Braces.two.closing expression)
    (htrim : Text.trimChars expression = expression) (p : Position) :
    ∃ source q, scanPiece ⟨bindingChars .two kind expression ++ rest, p⟩
        = .ok (some (.binding source), ⟨rest, q⟩)
      ∧ source.Says kind (String.ofList expression) := by
  obtain ⟨source, q, hscan, h⟩ :=
    scanBinding_written kind rest hpass htrim p
  refine ⟨source, q, ?_, h⟩
  have hpiece (r : List Char) : scanPiece ⟨openBrace :: openBrace :: r, p⟩
      = (scanBinding .two ⟨openBrace :: openBrace :: r, p⟩).map
          (fun found => (some (.binding found.1), found.2)) := by
    unfold scanPiece
    rfl
  have htext : bindingChars .two kind expression ++ rest
      = openBrace :: openBrace :: (kind.word.toList
          ++ (':' :: ' ' :: (expression ++ Braces.two.closing)) ++ rest) := rfl
  rw [htext] at hscan ⊢
  rw [hpiece, hscan]
  rfl

/-- **A start tag with a binding in its attribute** is one piece of the content. -/
theorem scanPiece_startTag {element : QName} {attr : List Char} (quoting : Quoting)
    (selfClosing : Bool) (helement : element.Written) (hattr : IsAttributeName attr)
    (hpass : Passes Braces.one.closing expression)
    (htrim : Text.trimChars expression = expression) (p : Position) :
    ∃ source span tagSpan q, scanPiece ⟨startTagChars element attr
          (quoting.around (bindingChars .one kind expression)) selfClosing ++ rest, p⟩
        = .ok (some (.startTag ⟨element, [⟨attributeName attr, .binding source, span⟩],
            selfClosing, tagSpan⟩), ⟨rest, q⟩)
      ∧ source.Says kind (String.ofList expression) := by
  obtain ⟨c, cs, hname, hstart⟩ := helement.head
  have hc : c ≠ '!' ∧ c ≠ '/' := by
    refine ⟨?_, ?_⟩ <;> (rintro rfl; exact absurd hstart (by decide))
  have hpiece (r : List Char) : scanPiece ⟨'<' :: c :: r, p⟩
      = (scanStartTag ⟨'<' :: c :: r, p⟩).map
          (fun found => (some (.startTag found.1), found.2)) := by
    have hstarts : startsIdent (c :: r) = true := hstart
    unfold scanPiece Cursor.startsWith
    simp only [List.isPrefixOf_cons_cons, beq_eq_false_iff_ne.2 hc.1.symm,
      beq_eq_false_iff_ne.2 hc.2.symm, Bool.false_and, Bool.and_false, Bool.false_eq_true,
      if_false, List.head?_cons, List.tail_cons, hstarts, and_self, if_true]
  obtain ⟨source, span, tagSpan, q, hscan, h⟩ := scanStartTag_written kind
    rest quoting selfClosing helement hattr hpass htrim p
  refine ⟨source, span, tagSpan, q, ?_, h⟩
  have htext (value : List Char) : startTagChars element attr value selfClosing ++ rest
      = '<' :: c :: (cs ++ (' ' :: (attr ++ ('=' :: (value ++ tagEnd selfClosing)))) ++ rest) := by
    unfold startTagChars
    rw [hname]
    rfl
  rw [htext] at hscan ⊢
  rw [hpiece, hscan]
  rfl

/-- A file of one piece is one token. -/
theorem tokenize_of_piece {c : Char} {cs : List Char} {token : Token} {q : Position}
    (hblank : Text.isBlank c = false) (hdirective : c ≠ '@')
    (h : scanPiece ⟨c :: cs, .start⟩ = .ok (some token, ⟨[], q⟩)) :
    tokenize (String.ofList (c :: cs)) = .ok [token] := by
  have hdirectives (rounds : Nat) :
      scanDirectives (rounds + 1) ⟨c :: cs, .start⟩ = .ok ([], ⟨c :: cs, .start⟩) := by
    unfold scanDirectives
    simp only [Cursor.skipBlank_cons hblank, Cursor.skipChar?_other hdirective]
  have hend (rounds : Nat) : scanContent rounds ⟨[], q⟩ = .ok [] := by
    cases rounds <;> rfl
  unfold tokenize
  simp only [String.toList_ofList, Cursor.ofChars, hdirectives]
  show (scanContent (cs.length + 1) ⟨c :: cs, .start⟩ >>= _) = _
  unfold scanContent
  simp only [List.isEmpty_cons, Bool.false_eq_true, if_false, h]
  show ((scanContent cs.length ⟨[], q⟩ >>= _) >>= _) = _
  rw [hend]
  rfl

/-- **Markup and bindings agree on where an expression ends.**  An expression
that the lexer accepts, without blanks at its ends, is the expression of the one
binding that is found: as text, in the attribute of a tag, and in an attribute
whatever follows it. -/
theorem tokenize_written (kind : BindingKind) (expression : String)
    (lexed : ∃ ts, Binding.lex expression = .ok ts)
    (trimmed : Text.trim expression = expression) :
    (∃ source, tokenize (String.ofList (bindingChars .two kind expression.toList))
          = .ok [.binding source] ∧ source.Says kind expression)
      ∧ ∀ quoting : Quoting,
        (∀ (element : QName) (attr : String) (selfClosing : Bool),
          element.Written → IsAttributeName attr.toList →
          ∃ source span tagSpan,
            tokenize (String.ofList (startTagChars element attr.toList
                (quoting.around (bindingChars .one kind expression.toList)) selfClosing))
              = .ok [.startTag ⟨element, [⟨attributeName attr.toList, .binding source, span⟩],
                  selfClosing, tagSpan⟩] ∧ source.Says kind expression)
        ∧ ∀ (rest : List Char) (p : Position), ∃ source q,
            scanValue ⟨quoting.around (bindingChars .one kind expression.toList) ++ rest, p⟩
              = .ok (.binding source, ⟨rest, q⟩) ∧ source.Says kind expression := by
  obtain ⟨ts, hlex⟩ := lexed
  have hpass (braces : Braces) : Passes braces.closing expression.toList := passes_of_lex hlex
  have htrim : Text.trimChars expression.toList = expression.toList := by
    have h := congrArg String.toList trimmed
    rwa [Text.trim, String.toList_ofList] at h
  have hsays {source : BindingSource}
      (h : source.Says kind (String.ofList expression.toList)) : source.Says kind expression := by
    rwa [String.ofList_toList] at h
  refine ⟨?text, fun quoting => ⟨?tag, ?value⟩⟩
  case text =>
    obtain ⟨source, q, hscan, h⟩ := scanPiece_binding kind [] (hpass .two) htrim .start
    rw [List.append_nil] at hscan
    exact ⟨source, tokenize_of_piece (c := openBrace) (by decide) (by decide) hscan, hsays h⟩
  case tag =>
    intro element attr selfClosing helement hattr
    obtain ⟨source, span, tagSpan, q, hscan, h⟩ := scanPiece_startTag kind [] quoting
      selfClosing helement hattr (hpass .one) htrim .start
    rw [List.append_nil] at hscan
    exact ⟨source, span, tagSpan,
      tokenize_of_piece (c := '<') (by decide) (by decide) hscan, hsays h⟩
  case value =>
    intro rest p
    obtain ⟨source, q, hscan, h⟩ := scanValue_written kind rest quoting (hpass .one) htrim p
    exact ⟨source, q, hscan, hsays h⟩

/-- A call with quotes, braces, escapes, the end of a tag and a line end in its strings. -/
def crowdedCall : String := "f(\"\x7d\x7d\\\"'>\n\x7b\", '/>')"

/-- The call is found whole in double braces and between the quotes it contains. -/
theorem tokenize_written_crowded :
    (∃ ts, Binding.lex crowdedCall = .ok ts) ∧ Text.trim crowdedCall = crowdedCall
      ∧ (∃ source, tokenize "\x7b\x7bvalue: f(\"\x7d\x7d\\\"'>\n\x7b\", '/>')\x7d\x7d"
          = .ok [.binding source] ∧ source.Says .value crowdedCall)
      ∧ ∃ source span tagSpan,
        tokenize "<dot:Button Click='\x7bcommand: f(\"\x7d\x7d\\\"'>\n\x7b\", '/>')\x7d'/>"
          = .ok [.startTag ⟨⟨some "dot", "Button"⟩,
              [⟨⟨none, "Click"⟩, .binding source, span⟩], true, tagSpan⟩]
          ∧ source.Says .command crowdedCall := by
  have lexed : ∃ ts, Binding.lex crowdedCall = .ok ts :=
    exists_ok_of_isSome (by decide +kernel)
  have trimmed : Text.trim crowdedCall = crowdedCall := by decide +kernel
  refine ⟨lexed, trimmed, ?text, ?tag⟩
  case text => exact (tokenize_written .value crowdedCall lexed trimmed).1
  case tag =>
    have element : QName.Written ⟨some "dot", "Button"⟩ :=
      ⟨⟨by decide, List.all_eq_true.1 (by decide)⟩,
        fun space h => Option.some.inj h ▸ ⟨by decide, List.all_eq_true.1 (by decide)⟩⟩
    exact ((tokenize_written .command crowdedCall lexed trimmed).2 .single).1
      ⟨some "dot", "Button"⟩ "Click" true element
      ⟨by decide, List.all_eq_true.1 (by decide)⟩

end Markup

end BoundMarkup
