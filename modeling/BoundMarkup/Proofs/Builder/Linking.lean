/-
  BoundMarkup.Proofs.Builder.Linking
  ──────────────────────────────────
  **THE MODULES THAT A BUILDER NEEDS.**

  A builder links against the modules of the types it names: those in its
  statements, and those in the expressions that are rendered for its bindings.
  Which types a tree refers to and which types the text of a term names are
  decided by two separate definitions.  Side by side:

    • the names in the text of a term are those of its subterms, in their order
      (`filterMap_pieces`),
    • each of them is referred to, unless it is the element type of an array
      made for the tail of a variadic call (`referred_or_element`).

  So the modules are complete exactly if those of the element types are listed,
  and that is not always so.
-/
import BoundMarkup.Proofs.Steps
import BoundMarkup.View.Compiler

namespace BoundMarkup

/-! ## §1. The names in the text of a term. -/

/-- A piece of a text that names types. -/
inductive Piece where
  | type (type : TypeRef)
  /-- Anything but the name of a type. -/
  | word (text : String)
  deriving DecidableEq, Repr

namespace Piece

def text : Piece → String
  | type t => t.text
  | word s => s

def type? : Piece → Option TypeRef
  | type t => some t
  | word _ => none

end Piece

namespace Term

mutual

/-- The text of a term in pieces. -/
def pieces : Term → List Piece
  | constant value _ => [.word value.text]
  | parameter name _ => [.word name]
  | access target member => target.pieces ++ [.word ("." ++ member.name)]
  | staticAccess member => [.type member.declaring, .word ("." ++ member.name)]
  | capabilityGet target property =>
      target.pieces ++ [.word (".GetValue(" ++ property.name ++ "Property)")]
  | capabilitySet target property value =>
      target.pieces ++ .word (".SetValue(" ++ property.name ++ "Property, ") :: value.pieces
        ++ [.word ")"]
  | group name target _ => target.pieces ++ [.word ("." ++ name)]
  | typeReference type => [.type type]
  | unknown => [.word "?"]
  | call target method args =>
      target.pieces ++ .word ("." ++ method.name ++ "(") :: piecesOf args ++ [.word ")"]
  | staticCall method args =>
      .type method.declaring :: .word ("." ++ method.name ++ "(") :: piecesOf args ++ [.word ")"]
  | index target i _ _ => target.pieces ++ .word "[" :: i.pieces ++ [.word "]"]
  | newArray element items =>
      .word "new " :: .type element :: .word "[] \x7b " :: piecesOf items ++ [.word " \x7d"]
  | convert inner type _ => .word "((" :: .type type :: .word ")" :: inner.pieces ++ [.word ")"]
  | binary left op right _ _ =>
      .word "(" :: left.pieces ++ .word (" " ++ op.text ++ " ") :: right.pieces ++ [.word ")"]
  | unary op operand _ _ => .word op.text :: operand.pieces
  | assign target value => target.pieces ++ .word " = " :: value.pieces

/-- The texts of the terms with commas between them, in pieces. -/
def piecesOf : List Term → List Piece
  | [] => []
  | [t] => t.pieces
  | t :: u :: us => t.pieces ++ .word ", " :: piecesOf (u :: us)

end

mutual

/-- **The pieces make up the text.** -/
theorem text_eq_pieces : ∀ t : Term, t.text = String.join (t.pieces.map Piece.text)
  | constant _ _ | parameter _ _ | typeReference _ | unknown | staticAccess _ => by
      simp [text, pieces, Piece.text, String.append_assoc]
  | access target _ | capabilityGet target _ | group _ target _ => by
      simp [text, pieces, Piece.text, text_eq_pieces target, String.append_assoc]
  | capabilitySet target _ value | index target value _ _ | assign target value
  | binary target _ value _ _ => by
      simp [text, pieces, Piece.text, text_eq_pieces target, text_eq_pieces value,
        String.append_assoc]
  | call target _ args => by
      simp [text, pieces, Piece.text, text_eq_pieces target, join_eq_pieces args,
        String.append_assoc]
  | staticCall _ args | newArray _ args => by
      simp [text, pieces, Piece.text, join_eq_pieces args, String.append_assoc]
  | convert inner _ _ | unary _ inner _ _ => by
      simp [text, pieces, Piece.text, text_eq_pieces inner, String.append_assoc]

theorem join_eq_pieces : ∀ ts : List Term,
    Text.join ", " (texts ts) = String.join ((piecesOf ts).map Piece.text)
  | [] => rfl
  | [t] => by
      simp [texts, piecesOf, Text.join, text_eq_pieces t]
  | t :: u :: us => by
      have hrest := join_eq_pieces (u :: us)
      simp only [texts, Text.join] at hrest
      simp [texts, piecesOf, Text.join, String.intercalate_cons_cons, hrest, text_eq_pieces t,
        Piece.text, String.append_assoc]

end

/-- The type that the term itself names in its text. -/
def shown? : Term → Option TypeRef
  | staticAccess member => some member.declaring
  | typeReference type => some type
  | staticCall method _ => some method.declaring
  | newArray element _ => some element
  | convert _ type _ => some type
  | _ => none

/-- The element type, for an array made for the tail of a call. -/
def element? : Term → Option TypeRef
  | newArray element _ => some element
  | _ => none

mutual

/-- **The names in a text are those of the subterms**, in their order. -/
theorem filterMap_pieces : ∀ t : Term,
    t.pieces.filterMap Piece.type? = t.subterms.filterMap shown?
  | constant _ _ | parameter _ _ | typeReference _ | unknown | staticAccess _ => rfl
  | access target _ | capabilityGet target _ | group _ target _ => by
      simp [pieces, subterms, List.filterMap_cons, Piece.type?, shown?, filterMap_pieces target]
  | capabilitySet target _ value | index target value _ _ | assign target value
  | binary target _ value _ _ => by
      simp [pieces, subterms, List.filterMap_cons, Piece.type?, shown?, filterMap_pieces target,
        filterMap_pieces value]
  | call target _ args => by
      simp [pieces, subterms, List.filterMap_cons, Piece.type?, shown?, filterMap_pieces target,
        filterMap_piecesOf args]
  | staticCall _ args | newArray _ args => by
      simp [pieces, subterms, List.filterMap_cons, Piece.type?, shown?, filterMap_piecesOf args]
  | convert inner _ _ | unary _ inner _ _ => by
      simp [pieces, subterms, List.filterMap_cons, Piece.type?, shown?, filterMap_pieces inner]

theorem filterMap_piecesOf : ∀ ts : List Term,
    (piecesOf ts).filterMap Piece.type? = (subtermsOf ts).filterMap shown?
  | [] => rfl
  | [t] => by
      simp [piecesOf, subtermsOf, filterMap_pieces t]
  | t :: u :: us => by
      have hrest := filterMap_piecesOf (u :: us)
      simp only [subtermsOf] at hrest
      simp [piecesOf, subtermsOf, List.filterMap_cons, Piece.type?, filterMap_pieces t, hrest]

end

/-- **A type that a term names is one that it refers to**, or the element type of an array. -/
theorem referred_or_element {u : Term} {type : TypeRef} (h : u.shown? = some type) :
    u.reference? = some type ∨ u.element? = some type := by
  cases u <;> cases h
  all_goals first | exact Or.inl rfl | exact Or.inr rfl

theorem shown_of_element {u : Term} {type : TypeRef} (h : u.element? = some type) :
    u.shown? = some type := by
  cases u <;> cases h
  rfl

/-- The types that the text of a term names. -/
def names (t : Term) : List TypeRef := t.pieces.filterMap Piece.type?

/-- The element types of the arrays that are made for the tails of calls. -/
def elements (t : Term) : List TypeRef := t.subterms.filterMap element?

theorem mem_names_iff {t : Term} {type : TypeRef} :
    type ∈ t.names ↔ ∃ u ∈ t.subterms, u.shown? = some type := by
  rw [names, filterMap_pieces, List.mem_filterMap]

end Term

/-! ## §2. The types that statements name. -/

/-- The types that a statement names beside its expression. -/
def Statement.types : Statement → List TypeRef
  | create _ type | setInternal _ _ type | setBinding _ _ _ _ type => [type]
  | setValue _ _ _ | setAttribute _ _ _ | addChild _ _ | addText _ _ => []

theorem ControlProperty.references_of_binding? {p : ControlProperty} {b : Binding.Bound}
    (h : p.binding? = some b) :
    p.references = b.term.subterms.filterMap Term.reference? ++ [b.term.type] := by
  obtain ⟨name, value, span, capability⟩ := p
  cases value <;> cases h
  rfl

theorem ControlProperty.statement?_of_binding? {p : ControlProperty} {b : Binding.Bound}
    (h : p.binding? = some b) (v : Nat) :
    p.statement? v
      = some (.setBinding v p.name b.source.kind b.term.text b.term.type) := by
  obtain ⟨name, value, span, capability⟩ := p
  cases value <;> cases h
  rfl

/-- A property whose statement names a type is bound to an expression of that type. -/
theorem ControlProperty.binding?_of_types {p : ControlProperty} {v : Nat} {a : Statement}
    {type : TypeRef} (h : p.statement? v = some a) (htype : type ∈ a.types) :
    ∃ b, p.binding? = some b ∧ type = b.term.type := by
  obtain ⟨name, value, span, capability⟩ := p
  cases value with
  | hardCoded text => cases capability <;> cases h <;> cases htype
  | bound b =>
      cases h
      exact ⟨b, rfl, List.mem_singleton.1 htype⟩
  | failed error => cases h

/-- What the statements of a control name, the control refers to. -/
theorem Control.types_subset {c : Control} {v : Nat} {a : Statement} (ha : a ∈ c.statements v) :
    ∀ type ∈ a.types, type ∈ c.references := by
  intro type htype
  unfold references
  rcases List.mem_append.1 ha with ha | ha
  · refine List.mem_append_left _ ?_
    rcases List.mem_cons.1 ha with rfl | ha
    · rw [List.mem_singleton.1 htype]
      exact List.mem_cons_self
    · obtain ⟨mark, hmark, rfl⟩ := Option.map_eq_some_iff.1 (Option.mem_toList.1 ha)
      rw [List.mem_singleton.1 htype]
      exact List.mem_cons_of_mem _ (Option.mem_toList.2 hmark)
  · obtain ⟨p, hp, ha⟩ := List.mem_filterMap.1 ha
    obtain ⟨b, hb, rfl⟩ := ControlProperty.binding?_of_types ha htype
    refine List.mem_append_right _ (List.mem_flatMap.2 ⟨p, hp, ?_⟩)
    rw [ControlProperty.references_of_binding? hb]
    exact List.mem_append_right _ List.mem_cons_self

namespace ControlNode

mutual

/-- A statement of a node that names a type is one of a control of it. -/
theorem mem_statements : ∀ (n : ControlNode) {parent next : Nat} {a : Statement} {type : TypeRef},
    a ∈ n.statements parent next → type ∈ a.types → ∃ c ∈ n.controls, ∃ v, a ∈ c.statements v
  | .text s _, parent, next, a, type, ha, htype => by
      rw [statements] at ha
      split at ha
      · cases ha
      · rw [List.mem_singleton.1 ha] at htype
        cases htype
  | .control head inner, parent, next, a, type, ha, htype => by
      rw [statements] at ha
      rcases List.mem_append.1 ha with ha | ha
      · rcases List.mem_append.1 ha with ha | ha
        · exact ⟨head, List.mem_cons_self, next, ha⟩
        · obtain ⟨c, hc, v, ha⟩ := mem_statementsAll inner ha htype
          exact ⟨c, List.mem_cons_of_mem head hc, v, ha⟩
      · rw [List.mem_singleton.1 ha] at htype
        cases htype

theorem mem_statementsAll :
    ∀ (nodes : List ControlNode) {parent next : Nat} {a : Statement} {type : TypeRef},
      a ∈ statementsAll parent next nodes → type ∈ a.types →
        ∃ c ∈ controlsOf nodes, ∃ v, a ∈ c.statements v
  | [], parent, next, a, type, ha, _ => by cases ha
  | n :: nodes, parent, next, a, type, ha, htype => by
      rcases List.mem_append.1 ha with ha | ha
      · obtain ⟨c, hc, hv⟩ := mem_statements n ha htype
        exact ⟨c, List.mem_append_left _ hc, hv⟩
      · obtain ⟨c, hc, hv⟩ := mem_statementsAll nodes ha htype
        exact ⟨c, List.mem_append_right _ hc, hv⟩

end

mutual

/-- The statements of each control are among those of the node. -/
theorem statements_subset : ∀ (n : ControlNode) (parent next : Nat) {c : Control},
    c ∈ n.controls → ∃ v, c.statements v ⊆ n.statements parent next
  | .text s _, parent, next, c, hc => by cases hc
  | .control head inner, parent, next, c, hc => by
      rw [statements]
      rcases List.mem_cons.1 hc with rfl | hc
      · exact ⟨next, fun a ha => List.mem_append_left _ (List.mem_append_left _ ha)⟩
      · obtain ⟨v, hv⟩ := statementsAll_subset inner next (next + 1) hc
        exact ⟨v, fun a ha => List.mem_append_left _ (List.mem_append_right _ (hv ha))⟩

theorem statementsAll_subset : ∀ (nodes : List ControlNode) (parent next : Nat) {c : Control},
    c ∈ controlsOf nodes → ∃ v, c.statements v ⊆ statementsAll parent next nodes
  | [], parent, next, c, hc => by cases hc
  | n :: nodes, parent, next, c, hc => by
      rcases List.mem_append.1 hc with hc | hc
      · obtain ⟨v, hv⟩ := statements_subset n parent next hc
        exact ⟨v, fun a ha => List.mem_append_left _ (hv ha)⟩
      · obtain ⟨v, hv⟩ := statementsAll_subset nodes parent (next + n.size) hc
        exact ⟨v, fun a ha => List.mem_append_right _ (hv ha)⟩

end

end ControlNode

/-! ## §3. The modules of a tree. -/

theorem TypeRef.mem_declaredPartsAll {types : List TypeRef} {part : TypeRef} (htype : type ∈ types)
    (hpart : part ∈ type.declaredParts) : part ∈ declaredPartsAll types := by
  induction types with
  | nil => cases htype
  | cons head types ih =>
      rcases List.mem_cons.1 htype with rfl | htype
      · exact List.mem_append_left _ hpart
      · exact List.mem_append_right _ (ih htype)

namespace ControlTree

/-- The bindings of a tree. -/
def bindings (t : ControlTree) : List Binding.Bound :=
  t.controls.flatMap (fun c => c.properties.filterMap ControlProperty.binding?)

/-- The types that the statements of a tree name, in the expressions of bindings too. -/
inductive Names (t : ControlTree) : TypeRef → Prop
  | statement {a : Statement} {type : TypeRef} (ha : a ∈ t.statements)
      (htype : type ∈ a.types) : t.Names type
  | expression {v : Nat} {property : String} {b : Binding.Bound} {type : TypeRef}
      (hb : b ∈ t.bindings)
      (ha : .setBinding v property b.source.kind b.term.text b.term.type ∈ t.statements)
      (htype : type ∈ b.term.names) : t.Names type

/-- The element types of the arrays that are made in the bindings of a tree. -/
def elements (t : ControlTree) : List TypeRef := t.bindings.flatMap (fun b => b.term.elements)

/-- The modules of a tree are those of all declared parts of a type, and maybe more. -/
def Covers (t : ControlTree) (r : Registry) (type : TypeRef) : Prop :=
  ∀ part ∈ type.declaredParts, ∀ m, r.moduleOf? part = some m → m ∈ t.modules r

variable {t : ControlTree} {r : Registry} {type : TypeRef}

theorem mem_statements {a : Statement} (ha : a ∈ t.statements) (htype : type ∈ a.types) :
    ∃ c ∈ t.controls, ∃ v, a ∈ c.statements v := by
  rcases List.mem_append.1 ha with ha | ha
  · exact ⟨t.root, List.mem_cons_self, 0, ha⟩
  · obtain ⟨c, hc, hv⟩ := ControlNode.mem_statementsAll t.children ha htype
    exact ⟨c, List.mem_cons_of_mem _ hc, hv⟩

theorem statements_subset {c : Control} (hc : c ∈ t.controls) :
    ∃ v, c.statements v ⊆ t.statements := by
  rcases List.mem_cons.1 hc with rfl | hc
  · exact ⟨0, fun a ha => List.mem_append_left _ ha⟩
  · obtain ⟨v, hv⟩ := ControlNode.statementsAll_subset t.children 0 1 hc
    exact ⟨v, fun a ha => List.mem_append_right _ (hv ha)⟩

theorem mem_bindings {b : Binding.Bound} :
    b ∈ t.bindings ↔ ∃ c ∈ t.controls, ∃ p ∈ c.properties, p.binding? = some b := by
  simp only [bindings, List.mem_flatMap, List.mem_filterMap]

theorem mem_references_of_control {c : Control} (hc : c ∈ t.controls)
    (htype : type ∈ c.references) : type ∈ t.references :=
  List.mem_cons_of_mem _ (List.mem_flatMap.2 ⟨c, hc, htype⟩)

theorem mem_references_of_binding {b : Binding.Bound} (hb : b ∈ t.bindings) {u : Term}
    (hu : u ∈ b.term.subterms) (htype : u.reference? = some type) : type ∈ t.references := by
  obtain ⟨c, hc, p, hp, hb⟩ := mem_bindings.1 hb
  refine mem_references_of_control hc (List.mem_append_right _ (List.mem_flatMap.2 ⟨p, hp, ?_⟩))
  rw [ControlProperty.references_of_binding? hb]
  exact List.mem_append_left _ (List.mem_filterMap.2 ⟨u, hu, htype⟩)

/-- Each binding is set by a statement. -/
theorem exists_statement_of_binding {b : Binding.Bound} (hb : b ∈ t.bindings) :
    ∃ v property,
      .setBinding v property b.source.kind b.term.text b.term.type ∈ t.statements := by
  obtain ⟨c, hc, p, hp, hb⟩ := mem_bindings.1 hb
  obtain ⟨v, hv⟩ := statements_subset hc
  exact ⟨v, p.name, hv (List.mem_append_right _
    (List.mem_filterMap.2 ⟨p, hp, ControlProperty.statement?_of_binding? hb v⟩))⟩

/-- Each expression among the statements is the text of a binding, so `Names` misses none. -/
theorem exists_binding_of_statement {v : Nat} {property text : String}
    {kind : Markup.BindingKind} (ha : .setBinding v property kind text type ∈ t.statements) :
    ∃ b ∈ t.bindings, kind = b.source.kind ∧ text = b.term.text ∧ type = b.term.type := by
  obtain ⟨c, hc, w, ha⟩ := mem_statements ha (List.mem_singleton.2 rfl)
  rcases List.mem_append.1 ha with ha | ha
  · rcases List.mem_cons.1 ha with ha | ha
    · cases ha
    · obtain ⟨mark, -, hmark⟩ := Option.map_eq_some_iff.1 (Option.mem_toList.1 ha)
      cases hmark
  · obtain ⟨p, hp, ha⟩ := List.mem_filterMap.1 ha
    obtain ⟨b, hb, -⟩ := ControlProperty.binding?_of_types ha (List.mem_singleton.2 rfl)
    rw [ControlProperty.statement?_of_binding? hb] at ha
    cases ha
    exact ⟨b, mem_bindings.2 ⟨c, hc, p, hp, hb⟩, rfl, rfl, rfl⟩

theorem mem_modules {m : String} : m ∈ t.modules r ↔
    ∃ part ∈ TypeRef.declaredPartsAll t.references, r.moduleOf? part = some m := by
  unfold modules sortedDistinct
  rw [List.mem_mergeSort, List.mem_eraseDups, List.mem_filterMap]

/-- What a tree refers to, its modules cover. -/
theorem covers_of_mem_references (h : type ∈ t.references) : t.Covers r type :=
  fun part hpart _ hm => mem_modules.2 ⟨part, TypeRef.mem_declaredPartsAll h hpart, hm⟩

/-- **What the statements name, the tree refers to**, but for the element types. -/
theorem mem_references_or_elements (h : t.Names type) :
    type ∈ t.references ∨ type ∈ t.elements := by
  cases h with
  | statement ha htype =>
      obtain ⟨c, hc, v, ha⟩ := mem_statements ha htype
      exact Or.inl (mem_references_of_control hc (Control.types_subset ha type htype))
  | expression hb _ htype =>
      obtain ⟨u, hu, hshown⟩ := Term.mem_names_iff.1 htype
      rcases Term.referred_or_element hshown with hreference | helement
      · exact Or.inl (mem_references_of_binding hb hu hreference)
      · exact Or.inr (List.mem_flatMap.2 ⟨_, hb, List.mem_filterMap.2 ⟨u, hu, helement⟩⟩)

theorem names_of_mem_elements (h : type ∈ t.elements) : t.Names type := by
  obtain ⟨b, hb, h⟩ := List.mem_flatMap.1 h
  obtain ⟨u, hu, helement⟩ := List.mem_filterMap.1 h
  obtain ⟨v, property, ha⟩ := exists_statement_of_binding hb
  exact .expression hb ha (Term.mem_names_iff.2 ⟨u, hu, Term.shown_of_element helement⟩)

/-- **WHEN THE MODULES ARE COMPLETE.**  The modules of a tree cover every type that its
statements name exactly if they cover the element types of the arrays that are made
for the tails of variadic calls. -/
theorem covers_names_iff (t : ControlTree) (r : Registry) :
    (∀ type, t.Names type → t.Covers r type) ↔ ∀ type ∈ t.elements, t.Covers r type := by
  constructor
  · intro h type htype
    exact h type (names_of_mem_elements htype)
  · intro h type hnames
    rcases mem_references_or_elements hnames with hreference | helement
    · exact covers_of_mem_references hreference
    · exact h type helement

/-- The items of a cart are declared in another module than the cart, which shows any
number of them. -/
def depot : Compiler :=
  { types :=
      [Controls.container Controls.view, Controls.container Controls.htmlGeneric,
        TypeEntry.declare "Ext.Item" "Ext",
        (TypeEntry.declare "App.Cart" "App").addMethod
          (.instance_ "Show" .string [.tail "items" (.simple "Ext.Item")])].foldl
        Registry.insert Builtins.registry
    options := .default
    source := .ofMemory [] }

/-- A cart that shows no items. -/
def depotTree : Except Failure ControlTree := do
  let d ← Failure.lift
    (Compiler.document "@viewModel App.Cart\n<p title=\x7bvalue: Show()\x7d></p>")
  depot.tree "page.dothtml" d []

/-- **The modules of a checked tree need not be complete**: the text of its binding is
`_this.Show(new Ext.Item[] \{  })`, and the module of the items is not listed. -/
theorem not_covers_names_depot : ∃ t, depotTree = .ok t
    ∧ ¬ ∀ type, t.Names type → t.Covers depot.types type := by
  have htree : depotTree.toOption.map (fun t => (t.elements,
      (TypeRef.declaredPartsAll t.references).all fun part =>
        depot.types.moduleOf? part ≠ some "Ext")) = some ([.simple "Ext.Item"], true) := by
    decide +kernel
  have hmodule : depot.types.moduleOf? (.simple "Ext.Item") = some "Ext" := by decide +kernel
  obtain ⟨t, ht, hshown⟩ := exists_ok_of_toOption htree
  obtain ⟨helements, hnone⟩ := Prod.mk.inj hshown
  refine ⟨t, ht, fun hcovers => ?_⟩
  have hnames : t.Names (.simple "Ext.Item") := names_of_mem_elements (by
    rw [helements]
    exact List.mem_cons_self)
  obtain ⟨part, hpart, hlisted⟩ :=
    mem_modules.1 (hcovers _ hnames (.simple "Ext.Item") List.mem_cons_self "Ext" hmodule)
  exact of_decide_eq_true (List.all_eq_true.1 hnone part hpart) hlisted

end ControlTree

end BoundMarkup
