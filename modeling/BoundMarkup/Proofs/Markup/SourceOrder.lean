/-
  BoundMarkup.Proofs.Markup.SourceOrder
  ─────────────────────────────────────
  **TAGS, ATTRIBUTES AND INLINE BINDINGS STAND IN THE FILE ONE AFTER ANOTHER.**

  A mark is what something starts with, and the span that is given for it.  The
  pieces that a file is cut into stand one behind the other, and so do the
  attributes of a tag, so their marks stand in the file where their spans say, each
  behind the one before (`Marked`).  A document keeps the order of its tokens: its
  marks, parents first, come in the order of the file, and no two of them at one
  place (`document_marks`).
-/
import BoundMarkup.Proofs.Markup.Conservation
import BoundMarkup.Proofs.Markup.Tiling
import BoundMarkup.View.Compiler

namespace BoundMarkup

namespace Markup

/-! ## §1. Marks. -/

/-- The characters that something starts with, and the span that is given for it. -/
structure Mark where
  lead : List Char
  span : Span

def Attribute.mark (a : Attribute) : Mark := ⟨a.name.text.toList, a.span⟩

/-- The marks of a tag: its own, and those of its attributes. -/
def tagMarks (name : QName) (attributes : List Attribute) (span : Span) : List Mark :=
  ⟨'<' :: name.text.toList, span⟩ :: attributes.map Attribute.mark

def EndTag.mark (tag : EndTag) : Mark := ⟨'<' :: '/' :: tag.name.text.toList, tag.span⟩

def BindingSource.mark (source : BindingSource) : Mark := ⟨Braces.two.opening, source.span⟩

/-- The marks of a token in their order. -/
def Token.marks : Token → List Mark
  | startTag tag => tagMarks tag.name tag.attributes tag.span
  | endTag tag => [tag.mark]
  | binding source => [source.mark]
  | directive _ | text _ _ => []

/-- The marks of a node in their order, without those of its content. -/
def Node.marks : Node → List Mark
  | element head _ => tagMarks head.name head.attributes head.span
  | stray tag => [tag.mark]
  | binding source => [source.mark]
  | text _ _ => []

/-- The mark stands in the file behind `outer`, and its span says so. -/
structure Mark.StandsIn (file outer : List Char) (m : Mark) : Prop where
  text : outer ++ m.lead <+: file
  place : m.span.place = (Position.start.after outer).span.place

/-- No line or column of a file is beyond the number of its characters. -/
theorem Mark.StandsIn.within {file outer : List Char} {m : Mark} (h : m.StandsIn file outer) :
    m.span.line ≤ file.length + 1 ∧ m.span.col ≤ file.length + 1 := by
  have hle := Position.start.after_le outer (Nat.le_refl 1)
  have houter : outer.length + m.lead.length ≤ file.length := by
    rw [← List.length_append]
    exact h.text.length_le
  obtain ⟨hline, hcol⟩ := Span.place_eq_iff.1 h.place
  rw [hline, hcol]
  show (Position.start.after outer).line ≤ _ ∧ (Position.start.after outer).col ≤ _
  have hstart : Position.start.line = 1 ∧ Position.start.col = 1 := ⟨rfl, rfl⟩
  omega

/-- **The marks stand in the file one after another**, none before the place `lo`, and all of
them before `hi`. -/
def Marked (file : List Char) (hi : Nat) : Nat → List Mark → Prop
  | lo, [] => lo ≤ hi
  | lo, m :: ms => ∃ outer, lo ≤ outer.length ∧ m.StandsIn file outer
      ∧ Marked file hi (outer.length + 1) ms

section Marked

variable {file : List Char} {lo mid hi : Nat} {ms ms' : List Mark} {m m' : Mark}

theorem Marked.append (h : Marked file mid lo ms) (h' : Marked file hi mid ms') :
    Marked file hi lo (ms ++ ms') := by
  induction ms generalizing lo with
  | nil =>
      have hle : lo ≤ mid := h
      cases ms' with
      | nil => exact Nat.le_trans hle h'
      | cons m' ms' =>
          obtain ⟨outer, hlow, hrest⟩ := h'
          exact ⟨outer, Nat.le_trans hle hlow, hrest⟩
  | cons m ms ih =>
      obtain ⟨outer, hlow, hstands, hrest⟩ := h
      exact ⟨outer, hlow, hstands, ih hrest⟩

/-- The bounds may lie farther out. -/
theorem Marked.widen {lo' hi' : Nat} (h : Marked file hi lo ms) (hlo : lo' ≤ lo)
    (hhi : hi ≤ hi') : Marked file hi' lo' ms := by
  have hbefore : Marked file lo lo' [] := hlo
  have hafter : Marked file hi' hi [] := hhi
  have hall := hbefore.append (h.append hafter)
  rw [List.append_nil] at hall
  exact hall

/-- What covers its characters and starts with the mark has it where it stands. -/
theorem marked_singleton {outer w : List Char} (hfile : outer ++ w <+: file) (hw : w ≠ [])
    (hlead : m.lead <+: w) (hplace : m.span.place = (Position.start.after outer).span.place) :
    Marked file (outer ++ w).length outer.length [m] := by
  have hstands : m.StandsIn file outer :=
    ⟨((List.prefix_append_right_inj outer).2 hlead).trans hfile, hplace⟩
  refine ⟨outer, Nat.le_refl _, hstands, ?_⟩
  show outer.length + 1 ≤ (outer ++ w).length
  rw [List.length_append]
  exact Nat.add_le_add_left (List.length_pos_iff.2 hw) _

/-- Each of the marks stands in the file. -/
theorem Marked.stands (h : Marked file hi lo ms) (hm : m ∈ ms) :
    ∃ outer, lo ≤ outer.length ∧ m.StandsIn file outer := by
  induction ms generalizing lo with
  | nil => cases hm
  | cons first ms ih =>
      obtain ⟨outer, hlow, hstands, hrest⟩ := h
      rcases List.mem_cons.1 hm with rfl | hm
      · exact ⟨outer, hlow, hstands⟩
      · obtain ⟨outer', hlow', hstands'⟩ := ih hrest hm
        exact ⟨outer', by omega, hstands'⟩

/-- What stands farther behind in the file has a later place. -/
theorem Mark.StandsIn.before {outer outer' : List Char} (h : m.StandsIn file outer)
    (h' : m'.StandsIn file outer') (hlength : outer.length < outer'.length) :
    m.span.Before m'.span := by
  have hprefix : outer <+: outer' := List.prefix_of_prefix_length_le
    ((List.prefix_append outer m.lead).trans h.text)
    ((List.prefix_append outer' m'.lead).trans h'.text) (Nat.le_of_lt hlength)
  obtain ⟨between, rfl⟩ := hprefix
  have hne : between ≠ [] := by
    rintro rfl
    rw [List.append_nil] at hlength
    exact Nat.lt_irrefl _ hlength
  have hbefore := (Position.start.after outer).before_after hne
  rw [← Position.after_append] at hbefore
  exact hbefore.congr h.place h'.place

/-- **Marks that stand one after another** have later and later places. -/
theorem Marked.ordered (h : Marked file hi lo ms) :
    ms.Pairwise (fun m m' => m.span.Before m'.span) := by
  induction ms generalizing lo with
  | nil => exact .nil
  | cons m ms ih =>
      obtain ⟨outer, _, hstands, hrest⟩ := h
      refine List.pairwise_cons.2 ⟨fun m' hm' => ?_, ih hrest⟩
      obtain ⟨outer', hlow', hstands'⟩ := hrest.stands hm'
      exact hstands.before hstands' hlow'

end Marked

/-! ## §2. The marks of what covers its characters. -/

section Covers

variable {file outer w : List Char}

theorem QName.Covers.toList_text {name : QName} (h : name.Covers w) : name.text.toList = w := by
  cases h with
  | plain => exact String.toList_ofList
  | spaced => rw [QName.toList_text, String.toList_ofList, String.toList_ofList]

theorem toList_text_attributeName (cs : List Char) : (attributeName cs).text.toList = cs := by
  unfold attributeName
  dsimp only
  split
  · exact String.toList_ofList
  · rename_i hparts
    rw [Bool.or_eq_true, List.isEmpty_iff, List.isEmpty_iff, not_or] at hparts
    -- The name is cut at a colon, since there is something behind the cut.
    obtain ⟨c, name, hname⟩ := List.exists_cons_of_ne_nil
      (fun h => hparts.2 (by rw [h, List.drop_nil]) : cs.dropWhile (· != ':') ≠ [])
    have hcolon : c = ':' := by
      have hhead := List.head?_dropWhile_not (· != ':') cs
      rw [hname] at hhead
      simpa using hhead
    subst hcolon
    rw [QName.toList_text, String.toList_ofList, String.toList_ofList, hname, List.drop_one,
      List.tail_cons, ← hname, List.takeWhile_append_dropWhile]

theorem Attribute.Covers.marked {a : Attribute} (h : a.Covers (Position.start.after outer) w)
    (hfile : outer ++ w <+: file) :
    Marked file (outer ++ w).length outer.length [a.mark] := by
  have hmarked {raw tail : List Char} (hname : a.name = attributeName raw)
      (hraw : IsAttributeName raw) (htext : w = raw ++ tail)
      (hplace : a.span.place = (Position.start.after outer).span.place) :
      Marked file (outer ++ w).length outer.length [a.mark] := by
    subst htext
    refine marked_singleton hfile (List.append_ne_nil_of_left_ne_nil hraw.nonempty _) ?_ hplace
    show a.name.text.toList <+: raw ++ tail
    rw [hname, toList_text_attributeName]
    exact List.prefix_append _ _
  cases h with
  | mentioned name => exact hmarked rfl name rfl rfl
  | set name _ _ _ text =>
      rw [List.append_assoc, List.append_assoc] at text
      exact hmarked rfl name text rfl

/-- By induction on the attributes: each one stands behind those before it. -/
theorem AllCover.marked {p : Position} {as : List Attribute} (h : AllCover p as w)
    (hp : p = Position.start.after outer) (hfile : outer ++ w <+: file) :
    Marked file (outer ++ w).length outer.length (as.map Attribute.mark) := by
  induction h generalizing outer with
  | nil =>
      rw [List.append_nil]
      exact Nat.le_refl outer.length
  | @cons p a as gap w ws blank first others ih =>
      subst hp
      rw [← Position.after_append] at first ih
      rw [← List.append_assoc] at hfile ⊢
      have hothers := ih rfl hfile
      rw [← List.append_assoc] at hfile hothers ⊢
      have hfirst := first.marked ((List.prefix_append _ _).trans hfile)
      exact (hfirst.append hothers).widen (List.prefix_append _ _).length_le (Nat.le_refl _)

/-- A start tag has its own mark, and then those of its attributes. -/
theorem StartTag.Covers.marked {tag : StartTag} (h : tag.Covers (Position.start.after outer) w)
    (hfile : outer ++ w <+: file) : Marked file (outer ++ w).length outer.length
      (tagMarks tag.name tag.attributes tag.span) := by
  cases h with
  | @intro name attributes selfClosing n ws gap _ named starts set blank text =>
      have hsplit : outer ++ w = outer ++ ('<' :: n) ++ ws ++ (gap ++ tagEnd selfClosing) := by
        rw [text]
        simp only [List.append_assoc]
      have hset : outer ++ ('<' :: n) ++ ws <+: file := by
        rw [hsplit] at hfile
        exact (List.prefix_append _ _).trans hfile
      rw [← Position.after_append] at set
      have hmark : Marked file (outer ++ ('<' :: n)).length outer.length
          [⟨'<' :: name.text.toList,
            (Position.start.after outer).spanTo ((Position.start.after outer).after w)⟩] := by
        rw [named.toList_text]
        exact marked_singleton ((List.prefix_append _ _).trans hset) (List.cons_ne_nil _ _)
          (List.prefix_refl _) rfl
      refine (hmark.append (set.marked rfl hset)).widen (Nat.le_refl _) ?_
      rw [hsplit]
      exact (List.prefix_append _ _).length_le

theorem EndTag.Covers.marked {tag : EndTag} (h : tag.Covers (Position.start.after outer) w)
    (hfile : outer ++ w <+: file) :
    Marked file (outer ++ w).length outer.length [tag.mark] := by
  cases h with
  | @intro name n gap _ named blank text =>
      subst text
      refine marked_singleton hfile (List.cons_ne_nil _ _) ?_ rfl
      show '<' :: '/' :: name.text.toList <+: _
      rw [named.toList_text, List.append_assoc]
      exact List.prefix_append _ _

theorem BindingSource.Covers.marked {b : BindingSource}
    (h : b.Covers .two (Position.start.after outer) w) (hfile : outer ++ w <+: file) :
    Marked file (outer ++ w).length outer.length [b.mark] := by
  have hne := h.ne_nil
  cases h with
  | intro opens =>
      obtain ⟨_, _, _⟩ := opens
      refine marked_singleton hfile hne ?_ rfl
      simp only [List.append_assoc]
      exact List.prefix_append _ _

/-! ## §3. Files. -/

variable {piece : Piece} {pieces : List Piece} {rest : List Char}

/-- One piece of the content. -/
theorem Piece.StandsAt.marked (h : piece.StandsAt (Position.start.after outer) rest)
    (hfile : outer ++ piece.chars <+: file) : Marked file (outer ++ piece.chars).length outer.length
      (piece.token.toList.flatMap Token.marks) := by
  have hnone : Marked file (outer ++ piece.chars).length outer.length [] :=
    (List.prefix_append _ _).length_le
  cases h with
  | comment | text => exact hnone
  | endTag covers => exact covers.marked hfile
  | startTag covers =>
      rw [Option.toList_some, List.flatMap_singleton]
      exact covers.marked hfile
  | binding covers => exact covers.marked hfile

/-- By induction on the pieces: each one stands behind those before it. -/
theorem Stand.marked {p : Position} (h : Stand p pieces) (hp : p = Position.start.after outer)
    (hfile : outer ++ charsOf pieces <+: file) :
    Marked file (outer ++ charsOf pieces).length outer.length
      ((pieces.filterMap Piece.token).flatMap Token.marks) := by
  induction h generalizing outer with
  | nil =>
      rw [show charsOf [] = [] from rfl, List.append_nil]
      exact Nat.le_refl outer.length
  | @cons p piece pieces first others ih =>
      subst hp
      rw [← Position.after_append] at ih
      rw [show charsOf (piece :: pieces) = piece.chars ++ charsOf pieces from rfl,
        ← List.append_assoc] at hfile ⊢
      have hfirst := first.marked ((List.prefix_append _ _).trans hfile)
      have htokens : (piece :: pieces).filterMap Piece.token
          = piece.token.toList ++ pieces.filterMap Piece.token := by
        rw [List.filterMap_cons]
        cases piece.token <;> rfl
      rw [htokens, List.flatMap_append]
      exact hfirst.append (ih rfl hfile)

/-- **The marks of a file** stand in it one after another. -/
theorem Tiling.marked (t : Tiling file) :
    Marked file file.length 0 (t.tokens.flatMap Token.marks) := by
  have hnone : (t.directives.map Token.directive).flatMap Token.marks = [] := by
    rw [List.flatMap_map]
    exact List.flatMap_eq_nil_iff.2 fun _ _ => rfl
  have hcut := t.cut
  have hmarked := t.stand.marked rfl (hcut ▸ List.prefix_refl file)
  rw [← hcut] at hmarked
  unfold Tiling.tokens
  rw [List.flatMap_append, hnone, List.nil_append]
  exact hmarked.widen (Nat.zero_le _) (Nat.le_refl _)

end Covers

/-! ## §4. Documents. -/

/-- The marks of a document, parents first. -/
def Document.marks (d : Document) : List Mark := (Node.preorderOf d.nodes).flatMap Node.marks

/-- A node has the marks of the token that adds it. -/
theorem Moment.marks_node? {ended : Nat → Bool} {m : Moment} {n : Node}
    (h : m.node? ended = some n) : n.marks = m.token.marks := by
  unfold node? at h
  split at h <;> rename_i htoken <;> rw [htoken]
  · cases h
  · cases h
    rfl
  · cases h
    rfl
  · cases h
    rfl
  · split at h
    · cases h
    · cases h
      rfl

/-- The nodes have their marks in the order of the tokens. -/
theorem flatMap_marks_sublist (ended : Nat → Bool) : ∀ (tokens : List Token)
    (opened : List Opening) (place : Nat),
    (((moments opened place tokens).filterMap (Moment.node? ended)).flatMap Node.marks).Sublist
      (tokens.flatMap Token.marks)
  | [], _, _ => List.Sublist.refl _
  | token :: tokens, opened, place => by
      have ih := flatMap_marks_sublist ended tokens (Moment.after ⟨opened, place, token⟩)
        (place + 1)
      rw [moments, List.filterMap_cons, List.flatMap_cons]
      cases hnode : Moment.node? ended ⟨opened, place, token⟩ with
      | none => exact ih.trans (List.sublist_append_right _ _)
      | some n =>
          show (List.flatMap Node.marks (n :: _)).Sublist _
          rw [List.flatMap_cons, Moment.marks_node? hnode]
          exact (List.Sublist.refl _).append ih

theorem marks_ofTokens_sublist (tokens : List Token) :
    (Document.ofTokens tokens).marks.Sublist (tokens.flatMap Token.marks) := by
  have hnodes := Builder.preorderOf_finish_foldl_push (endsAt (history tokens)) tokens
    (b := .empty) .nil ⟨.nil, nofun⟩ fun _ _ => rfl
  unfold Document.marks Document.ofTokens
  rw [hnodes]
  exact flatMap_marks_sublist _ tokens [] 0

end Markup

/-- **The marks of a document** stand in its file where their spans say, and come in the order
of their places. -/
theorem Compiler.document_marks {content : String} {d : Markup.Document}
    (h : Compiler.document content = .ok d) :
    d.marks.Pairwise (fun m m' => m.span.Before m'.span)
      ∧ ∀ m ∈ d.marks, ∃ outer, m.StandsIn content.toList outer := by
  unfold document at h
  split at h
  · rename_i tokens htokens
    cases h
    obtain ⟨t, rfl⟩ := Markup.exists_tiling htokens
    have hmarked := t.marked
    have hsublist := Markup.marks_ofTokens_sublist t.tokens
    refine ⟨hmarked.ordered.sublist hsublist, fun m hm => ?_⟩
    obtain ⟨outer, _, hstands⟩ := hmarked.stands (hsublist.subset hm)
    exact ⟨outer, hstands⟩
  · cases h

end BoundMarkup
