/-
  BoundMarkup.Proofs.Markup.Nesting
  ─────────────────────────────────
  **A FLATTENED TREE IS BUILT AGAIN.**

  A forest is flattened by writing each element as its start tag, its content and
  an end tag.  `Flattens` lists the tokens this may give.  Whatever is open when
  they come in, they add the nodes of the forest to it and leave it open
  (`Flattens.foldl_push`), so a whole file is built back (`ofTokens_flattened`).
-/
import BoundMarkup.Markup.Document

namespace BoundMarkup

namespace Text

theorem sameIgnoringCase_iff {a b : String} : sameIgnoringCase a b = true
    ↔ a.toList.map Char.toLower = b.toList.map Char.toLower := beq_iff_eq

theorem sameIgnoringCase_refl (a : String) : sameIgnoringCase a a = true :=
  sameIgnoringCase_iff.2 rfl

/-- Names that are the same up to case are the same as the same names. -/
theorem sameIgnoringCase_congr {a b : String} (h : sameIgnoringCase a b = true) (c : String) :
    sameIgnoringCase a c = sameIgnoringCase b c := by
  unfold sameIgnoringCase
  rw [sameIgnoringCase_iff.1 h]

end Text

namespace Markup

/-! ## §1. Names of tags. -/

namespace QName

variable {q close : QName}

/-- An element is ended by an end tag of its own name. -/
theorem closedBy_self (q : QName) : q.closedBy q = true := by
  obtain ⟨space, name⟩ := q
  cases space with
  | none => exact Text.sameIgnoringCase_refl name
  | some space => simp [closedBy]

/-- What ends an element is void just if the element is. -/
theorem isVoid_of_closedBy (h : q.closedBy close = true) : close.isVoid = q.isVoid := by
  obtain ⟨space, name⟩ := q
  obtain ⟨space', name'⟩ := close
  cases space with
  | none =>
      cases space' with
      | none =>
          have hname : Text.sameIgnoringCase name name' = true := h
          unfold isVoid
          simp only [Text.sameIgnoringCase_congr hname]
      | some space' => cases h
  | some space =>
      cases space' with
      | none => cases h
      | some space' => rfl

end QName

/-! ## §2. Flattened forests. -/

/-- The element has no end tag: it closes itself, or is a void element. -/
def Element.isSingle (e : Element) : Bool := e.selfClosing || e.name.isVoid

/-- The start tag of the element. -/
def Element.tag (e : Element) : StartTag := ⟨e.name, e.attributes, e.selfClosing, e.span⟩

mutual

/-- A node without errors, in which nothing stands inside an element that has no end tag. -/
def Node.WellNested : Node → Prop
  | .element head children =>
      head.unclosed = false ∧ (head.isSingle = true → children = [])
        ∧ Node.AllWellNested children
  | .text _ _ => True
  | .binding _ => True
  | .stray _ => False

/-- All nodes of the forest are well nested. -/
def Node.AllWellNested : List Node → Prop
  | [] => True
  | n :: ns => n.WellNested ∧ Node.AllWellNested ns

end

/-- **The tokens of a forest in order**: an element is its start tag, its content and
an end tag, which may stand anywhere and need not agree in case. -/
inductive Flattens : List Node → List Token → Prop where
  | nil : Flattens [] []
  | text {s : String} {span : Span} {ns : List Node} {ts : List Token} (more : Flattens ns ts) :
      Flattens (.text s span :: ns) (.text s span :: ts)
  | binding {source : BindingSource} {ns : List Node} {ts : List Token} (more : Flattens ns ts) :
      Flattens (.binding source :: ns) (.binding source :: ts)
  | single {head : Element} {ns : List Node} {ts : List Token} (alone : head.isSingle = true)
      (more : Flattens ns ts) : Flattens (.element head [] :: ns) (.startTag head.tag :: ts)
  | nested {head : Element} {children ns : List Node} {inner ts : List Token} {close : EndTag}
      (paired : head.isSingle = false) (inside : Flattens children inner)
      (ends : head.name.closedBy close.name = true) (more : Flattens ns ts) :
      Flattens (.element head children :: ns)
        (.startTag head.tag :: (inner ++ .endTag close :: ts))

mutual

/-- A node can be flattened in front of what follows it. -/
theorem Node.WellNested.flattens : (n : Node) → n.WellNested → ∀ {ns : List Node}
    {ts : List Token}, Flattens ns ts → ∃ ts', Flattens (n :: ns) ts'
  | .element head children, h, _, _, more => by
      obtain ⟨-, halone, hchildren⟩ := h
      cases hsingle : head.isSingle with
      | true =>
          rw [halone hsingle]
          exact ⟨_, .single hsingle more⟩
      | false =>
          obtain ⟨inner, inside⟩ := Node.AllWellNested.flattens children hchildren
          have ends : head.name.closedBy (EndTag.mk head.name head.span).name = true :=
            QName.closedBy_self head.name
          exact ⟨_, .nested hsingle inside ends more⟩
  | .text _ _, _, _, _, more => ⟨_, .text more⟩
  | .binding _, _, _, _, more => ⟨_, .binding more⟩

/-- **A well-nested forest can be flattened.** -/
theorem Node.AllWellNested.flattens : (ns : List Node) → Node.AllWellNested ns →
    ∃ ts, Flattens ns ts
  | [], _ => ⟨[], .nil⟩
  | n :: ns, h => by
      obtain ⟨ts, more⟩ := Node.AllWellNested.flattens ns h.2
      exact Node.WellNested.flattens n h.1 more

end

/-! ## §3. Building. -/

namespace Builder

/-- Nodes are added to the innermost open element. -/
theorem foldl_append_opened (ns : List Node) (ds : List Directive) (top : OpenElement)
    (rest : List OpenElement) (outer : List Node) :
    ns.foldl append ⟨ds, top :: rest, outer⟩
      = ⟨ds, { top with content := ns.reverse ++ top.content } :: rest, outer⟩ := by
  induction ns generalizing top with
  | nil => rfl
  | cons n ns ih =>
      show ns.foldl append ⟨ds, { top with content := n :: top.content } :: rest, outer⟩ = _
      rw [ih, List.reverse_cons, List.append_assoc]
      rfl

/-- Where nothing is open, they are added outside. -/
theorem foldl_append_outer (ns : List Node) (ds : List Directive) (outer : List Node) :
    ns.foldl append ⟨ds, [], outer⟩ = ⟨ds, [], ns.reverse ++ outer⟩ := by
  induction ns generalizing outer with
  | nil => rfl
  | cons n ns ih =>
      show ns.foldl append ⟨ds, [], n :: outer⟩ = _
      rw [ih, List.reverse_cons, List.append_assoc]
      rfl

theorem foldl_push_directives (ds ds' : List Directive) :
    (ds.map Token.directive).foldl push ⟨ds', [], []⟩ = ⟨ds.reverse ++ ds', [], []⟩ := by
  induction ds generalizing ds' with
  | nil => rfl
  | cons d ds ih =>
      show (ds.map Token.directive).foldl push ⟨d :: ds', [], []⟩ = _
      rw [ih, List.reverse_cons, List.append_assoc]
      rfl

variable {head : Element} (b : Builder)

theorem ofTag_tag (sound : head.unclosed = false) : Element.ofTag head.tag = head := by
  show (⟨head.name, head.attributes, head.selfClosing, false, head.span⟩ : Element) = head
  rw [← sound]

theorem push_single (alone : head.isSingle = true) (sound : head.unclosed = false) :
    b.push (.startTag head.tag) = b.append (.element head []) := by
  rw [push, if_pos (show (head.tag.selfClosing || head.tag.name.isVoid) = true from alone),
    ofTag_tag sound]

theorem push_paired (paired : head.isSingle = false) (sound : head.unclosed = false) :
    b.push (.startTag head.tag) = ⟨b.directives, ⟨head, []⟩ :: b.opened, b.outer⟩ := by
  have hpaired : ¬ (head.tag.selfClosing || head.tag.name.isVoid) = true :=
    Bool.eq_false_iff.1 paired
  rw [push, if_neg hpaired, ofTag_tag sound]

/-- An end tag ends the innermost element if that is one of its name. -/
theorem push_end {close : EndTag} (content : List Node) (paired : head.isSingle = false)
    (sound : head.unclosed = false) (ends : head.name.closedBy close.name = true) :
    push ⟨b.directives, ⟨head, content⟩ :: b.opened, b.outer⟩ (.endTag close)
      = b.append (.element head content.reverse) := by
  have hvoid : ¬ close.name.isVoid = true := by
    rw [QName.isVoid_of_closedBy ends]
    exact Bool.eq_false_iff.1 (Bool.or_eq_false_iff.1 paired).2
  have hhead : ({ head with unclosed := false } : Element) = head := by rw [← sound]
  rw [push, if_neg hvoid]
  simp only [List.findIdx?_cons, ends, if_true]
  show (⟨b.directives, b.opened, b.outer⟩ : Builder).append
      (.element { head with unclosed := false } content.reverse) = _
  rw [hhead]

end Builder

/-- **The tokens of a forest add its nodes** to whatever is open. -/
theorem Flattens.foldl_push {nodes : List Node} {tokens : List Token} (h : Flattens nodes tokens)
    (sound : Node.AllWellNested nodes) (b : Builder) :
    tokens.foldl Builder.push b = nodes.foldl Builder.append b := by
  induction h generalizing b with
  | nil => rfl
  | text more ih => exact ih sound.2 _
  | binding more ih => exact ih sound.2 _
  | single alone more ih =>
      rw [List.foldl_cons, List.foldl_cons, Builder.push_single b alone sound.1.1]
      exact ih sound.2 _
  | @nested head children ns inner ts close paired inside ends more ihInside ih =>
      obtain ⟨⟨hclosed, -, hchildren⟩, hmore⟩ := sound
      -- The content is added to the element while it is open, and the end tag finds it on top.
      rw [List.foldl_cons, Builder.push_paired b paired hclosed, List.foldl_append,
        ihInside hchildren, Builder.foldl_append_opened, List.append_nil, List.foldl_cons,
        Builder.push_end b children.reverse paired hclosed ends, List.reverse_reverse]
      exact ih hmore _

/-! ## §4. Whole files. -/

/-- **Building inverts flattening**: a well-nested forest can be flattened, and from its tokens
behind those of any directives the very same directives and forest are built. -/
theorem ofTokens_flattened (directives : List Directive) {nodes : List Node}
    (nested : Node.AllWellNested nodes) :
    (∃ tokens, Flattens nodes tokens)
      ∧ ∀ tokens, Flattens nodes tokens →
        Document.ofTokens (directives.map Token.directive ++ tokens) = ⟨directives, nodes⟩ := by
  refine ⟨nested.flattens, fun tokens h => ?_⟩
  have hbuilt : (directives.map Token.directive ++ tokens).foldl Builder.push Builder.empty
      = ⟨directives.reverse, [], nodes.reverse⟩ := by
    show (directives.map Token.directive ++ tokens).foldl Builder.push ⟨[], [], []⟩ = _
    rw [List.foldl_append, Builder.foldl_push_directives, h.foldl_push nested,
      Builder.foldl_append_outer, List.append_nil, List.append_nil]
  unfold Document.ofTokens
  rw [hbuilt]
  show (⟨directives.reverse.reverse, nodes.reverse.reverse⟩ : Document) = _
  rw [List.reverse_reverse, List.reverse_reverse]

/-- A paired element called `div` at a column. -/
def division (col : Nat) : Element := ⟨⟨none, "div"⟩, [], false, false, ⟨1, col, 5⟩⟩

/-- Two elements of one name inside each other, a void element, and one that closes itself. -/
def nestedForest : List Node :=
  [.element (division 1)
    [.element (division 6) [.text "a" ⟨1, 11, 1⟩],
      .element ⟨⟨none, "BR"⟩, [], false, false, ⟨1, 18, 4⟩⟩ []],
    .element ⟨⟨some "dot", "TextBox"⟩, [], true, false, ⟨1, 28, 15⟩⟩ []]

/-- Its tokens, with the inner element ended in another case than it was begun in. -/
def nestedTokens : List Token :=
  [.startTag (division 1).tag, .startTag (division 6).tag, .text "a" ⟨1, 11, 1⟩,
    .endTag ⟨⟨none, "DIV"⟩, ⟨1, 12, 6⟩⟩,
    .startTag ⟨⟨none, "BR"⟩, [], false, ⟨1, 18, 4⟩⟩, .endTag ⟨⟨none, "div"⟩, ⟨1, 22, 6⟩⟩,
    .startTag ⟨⟨some "dot", "TextBox"⟩, [], true, ⟨1, 28, 15⟩⟩]

theorem ofTokens_flattened_nestedForest : Node.AllWellNested nestedForest
    ∧ Flattens nestedForest nestedTokens
    ∧ Document.ofTokens (.directive ⟨"viewModel", "App.Order", ⟨1, 1, 20⟩⟩ :: nestedTokens)
      = ⟨[⟨"viewModel", "App.Order", ⟨1, 1, 20⟩⟩], nestedForest⟩ := by
  have nested : Node.AllWellNested nestedForest := by
    refine ⟨⟨rfl, nofun, ⟨rfl, nofun, trivial, trivial⟩, ?_, trivial⟩, ?_, trivial⟩
    · exact ⟨rfl, fun _ => rfl, trivial⟩
    · exact ⟨rfl, fun _ => rfl, trivial⟩
  have flattens : Flattens nestedForest nestedTokens := by
    have text : Flattens [.text "a" ⟨1, 11, 1⟩] [.text "a" ⟨1, 11, 1⟩] := .text .nil
    have single : (Element.mk ⟨none, "BR"⟩ [] false false ⟨1, 18, 4⟩).isSingle = true := by decide
    have upper : (division 6).name.closedBy (EndTag.mk ⟨none, "DIV"⟩ ⟨1, 12, 6⟩).name = true := by
      decide
    have lower : (division 1).name.closedBy (EndTag.mk ⟨none, "div"⟩ ⟨1, 22, 6⟩).name = true := by
      decide
    have content := Flattens.nested (by decide) text upper (.single single .nil)
    exact .nested (by decide) content lower (.single (by decide) .nil)
  exact ⟨nested, flattens, (ofTokens_flattened [_] nested).2 nestedTokens flattens⟩

end Markup

end BoundMarkup
