/-
  BoundMarkup.Proofs.View.DataContexts
  ────────────────────────────────────
  **WHICH DATA CONTEXT A CONTROL HAS.**

  Along a path of elements from the top of a document inwards, each element may add
  a level to the data context: the type that the first of its attributes named
  `DataContext` has in the levels so far (`switchedTypes`).  The levels of a control
  are those of the elements around it and of its own, below the view model, and the
  keywords name them by their distance (`DataContext.Stacks`).

  Places of a document are listed with the elements around them
  (`Document.places`), in the order of the controls.  One induction over the
  document goes along both lists (`Listing.forall₂_resolveNodes`), for the controls
  as they are built and as they are marked.  Main statement:
  `ControlTree.contexts_at_places`.
-/
import BoundMarkup.Proofs.Number.Digits
import BoundMarkup.Proofs.View.Attributes

namespace BoundMarkup

open Markup (Attribute BindingSource Document Element)

/-! ## §1. The keywords of a stack. -/

namespace DataContext

variable {c : DataContext} {types : List TypeRef}

/-- Digits are read from the left. -/
theorem digitsValue?_of_isDigit : ∀ {cs : List Char} (acc : Nat), (∀ c ∈ cs, c.isDigit = true) →
    digitsValue? acc cs = some (cs.foldl (fun n c => 10 * n + (c.toNat - '0'.toNat)) acc)
  | [], _, _ => rfl
  | c :: cs, acc, h => by
      have hdigit : digit? c = some (c.toNat - '0'.toNat) := by
        have hc := h c List.mem_cons_self
        unfold Char.isDigit at hc
        rw [Bool.and_eq_true, decide_eq_true_iff, decide_eq_true_iff] at hc
        exact if_pos hc
      rw [digitsValue?, hdigit, Option.bind_some,
        digitsValue?_of_isDigit _ fun d hd => h d (List.mem_cons_of_mem _ hd), List.foldl_cons]

/-- **The digits of a number** stand for it. -/
theorem count?_toDigits (n : Nat) : count? (Nat.toDigits 10 n) = some n := by
  have hvalue : digitsValue? 0 (Nat.toDigits 10 n) = some n :=
    (digitsValue?_of_isDigit 0 Decimal.isDigit_toDigits).trans
      (congrArg some (Decimal.digitsValue_toDigits n))
  unfold count?
  split
  · rename_i hnil
    exact absurd hnil Nat.toDigits_ne_nil
  · rename_i cs hplus
    -- A plus sign is no digit.
    have hdigit := Decimal.isDigit_toDigits '+' (hplus ▸ List.mem_cons_self)
    exact absurd hdigit (by decide)
  · exact hvalue

/-- The level that a numbered parent names. -/
theorem keyword?_parent (c : DataContext) (n : Nat) :
    c.keyword? ("_parent" ++ toString n) = c.levels[n]? := by
  have hlist : ("_parent" ++ toString n).toList = "_parent".toList ++ Nat.toDigits 10 n := by
    rw [String.toList_append]
    exact congrArg _ Nat.toList_repr
  -- The name is longer than those of the other keywords.
  have hne : ∀ word : String, word.toList.length ≤ 7 → "_parent" ++ toString n ≠ word := by
    rintro word hword rfl
    rw [hlist, List.length_append] at hword
    have hpos := Nat.length_toDigits_pos (b := 10) (n := n)
    have hseven : "_parent".toList.length = 7 := rfl
    omega
  have hnumbered : c.numberedParent? ("_parent" ++ toString n) = c.ancestor? n := by
    unfold numberedParent?
    rw [hlist]
    dsimp only
    rw [if_pos (List.isPrefixOf_iff_prefix.2 (List.prefix_append _ _)), List.drop_left,
      count?_toDigits, Option.bind_some]
  unfold keyword?
  rw [if_neg (hne _ (by decide)), if_neg (hne _ (by decide)), if_neg (hne _ (by decide)), hnumbered]
  rfl

/-- **The context consists of the given levels**, the outermost first, and its keywords name them
by their distance from the inside. -/
structure Stacks (c : DataContext) (types : List TypeRef) : Prop where
  levels : c.levels.reverse = types
  this : c.keyword? "_this" = types.getLast?
  root : c.keyword? "_root" = types.head?
  parent : c.keyword? "_parent" = types.reverse[1]?
  /-- There is none beyond the outermost. -/
  numbered : ∀ n : Nat, c.keyword? ("_parent" ++ toString n) = types.reverse[n]?
  /-- Bindings take keywords for what they name. -/
  bound : ∀ (r : Registry) (name : String) (type : TypeRef), c.keyword? name = some type →
    Binding.Scope.identifier? ⟨r, c⟩ name [] = .ok (some (.parameter name type))

/-- Every context does. -/
theorem Stacks.of_levels (h : c.levels.reverse = types) : c.Stacks types := by
  subst h
  refine ⟨rfl, ?_, ?_, ?_, fun n => ?_, fun r name type hname => ?_⟩
  · rw [List.getLast?_reverse]
    rfl
  · rw [List.head?_reverse]
    show some (c.outer.getLastD c.this) = (c.this :: c.outer).getLast?
    rw [List.getLastD_eq_getLast?, List.getLast?_cons]
  · rw [List.reverse_reverse]
    rfl
  · rw [List.reverse_reverse]
    exact c.keyword?_parent n
  · have hterm : Binding.Scope.keywordTerm? ⟨r, c⟩ name [] = some (.parameter name type) := by
      show (c.keyword? name).map (Term.parameter name) = _
      rw [hname, Option.map_some]
    unfold Binding.Scope.identifier?
    rw [hterm]

/-- The context with more levels inside, the outermost of them first. -/
def pushAll (c : DataContext) (types : List TypeRef) : DataContext := types.foldl push c

theorem levels_pushAll (types : List TypeRef) :
    ∀ c : DataContext, (c.pushAll types).levels = types.reverse ++ c.levels := by
  induction types with
  | nil => exact fun _ => rfl
  | cons type types ih =>
      intro c
      rw [List.reverse_cons, List.append_assoc]
      exact ih (c.push type)

theorem spaces_pushAll (types : List TypeRef) :
    ∀ c : DataContext, (c.pushAll types).spaces = c.spaces := by
  induction types with
  | nil => exact fun _ => rfl
  | cons type types ih => exact fun c => ih (c.push type)

/-- A context with one more level is another one, whatever its type. -/
theorem push_ne (c : DataContext) (type : TypeRef) : c.push type ≠ c := by
  intro h
  have hlength := congrArg (fun d => d.outer.length) h
  exact absurd hlength (Nat.succ_ne_self _)

end DataContext

/-! ## §2. What elements add. -/

/-- The binding that an element sets its data context to. -/
def contextSource? (e : Element) : Option BindingSource :=
  (e.attributes.find? isContextAttribute).bind (fun a =>
    match a.value with
    | .binding source => some source
    | _ => none)

/-- The level that an element adds: the type of that binding, bound outside of the element. -/
def switchedType? (s : ControlScope) (outer : DataContext) (e : Element) : Option TypeRef :=
  (contextSource? e).bind (fun source =>
    match Binding.bindSource ⟨s.types, outer⟩ source with
    | .ok b => some b.term.type
    | .error _ => none)

/-- **The levels that elements add**, each inside of those before it. -/
def switchedTypes (s : ControlScope) : DataContext → List Element → List TypeRef
  | _, [] => []
  | c, e :: es =>
      match switchedType? s c e with
      | some type => type :: switchedTypes s (c.push type) es
      | none => switchedTypes s c es

/-- The data context inside elements. -/
def contextWithin (s : ControlScope) (root : DataContext) (es : List Element) : DataContext :=
  root.pushAll (switchedTypes s root es)

/-- **The context of the control of an element.** -/
theorem context_elementControl (s : ControlScope) (outer : DataContext) (e : Element) :
    (elementControl s outer e).context
      = match switchedType? s outer e with
        | some type => outer.push type
        | none => outer := by
  -- What the control stands for makes no difference to the value of the attribute.
  have hcontext : ∀ metadata, innerContext outer (contextProperty? s outer metadata e)
      = match switchedType? s outer e with
        | some type => outer.push type
        | none => outer := by
    intro metadata
    unfold innerContext contextProperty? switchedType? contextSource?
    rw [show e.attribute? Controls.dataContextProperty = e.attributes.find? isContextAttribute from
      rfl]
    cases e.attributes.find? isContextAttribute with
    | none => rfl
    | some a =>
        rw [Option.map_some, Option.bind_some, Option.bind_some]
        unfold attributeProperty attributeValue ControlProperty.binding?
        cases a.value with
        | bare | text _ => rfl
        | binding source =>
            rw [Option.bind_some]
            dsimp only
            cases Binding.bindSource ⟨s.types, outer⟩ source <;> rfl
  unfold elementControl
  cases s.controlType e.name <;> exact hcontext _

/-- One more element inside adds its level to those of the others. -/
theorem contextWithin_concat (s : ControlScope) (e : Element) :
    ∀ (es : List Element) (root : DataContext),
      contextWithin s root (es ++ [e]) = (elementControl s (contextWithin s root es) e).context
  | [], root => by
      rw [context_elementControl]
      unfold contextWithin
      rw [List.nil_append, switchedTypes, switchedTypes]
      show root.pushAll _ = match switchedType? s root e with
        | some type => root.push type
        | none => root
      cases switchedType? s root e <;> rfl
  | first :: es, root => by
      -- The outermost element only moves the context that the others start from.
      have ih := fun context => contextWithin_concat s e es context
      unfold contextWithin at ih ⊢
      rw [List.cons_append, switchedTypes, switchedTypes]
      cases switchedType? s root first with
      | none => exact ih root
      | some type => exact ih (root.push type)

/-! ## §3. Places. -/

/-- Where a control comes from. -/
inductive ControlPlace where
  | root
  /-- An element, and the elements around it, the outermost first. -/
  | element (around : List Element) (e : Element)
  /-- A binding in text, and the elements around it. -/
  | text (around : List Element) (source : BindingSource)

/-- A binding in text sets the text of its control. -/
def textAttribute (source : BindingSource) : Attribute :=
  ⟨⟨none, "Text"⟩, .binding source, source.span⟩

namespace ControlPlace

/-- The elements around. -/
def around : ControlPlace → List Element
  | root => []
  | element around _ | text around _ => around

/-- The elements around, and the one of the place itself. -/
def path : ControlPlace → List Element
  | root => []
  | element around e => around ++ [e]
  | text around _ => around

/-- The data context changes here. -/
def switches (s : ControlScope) (view : DataContext) : ControlPlace → Bool
  | root => true
  | element around e => (switchedType? s (contextWithin s view around) e).isSome
  | text _ _ => false

end ControlPlace

namespace Markup

mutual

/-- The places of a node, inside of the elements around it. -/
def Node.places (around : List Element) : Node → List ControlPlace
  | .element e children => .element around e :: Node.placesOf (around ++ [e]) children
  | .binding source => [.text around source]
  | .text _ _ => []
  | .stray _ => []

/-- The places of the nodes, inside of the elements around them. -/
def Node.placesOf (around : List Element) : List Node → List ControlPlace
  | [] => []
  | n :: ns => n.places around ++ Node.placesOf around ns

end

/-- **The places of a document that have controls**, parents first. -/
def Document.places (d : Document) : List ControlPlace := .root :: Node.placesOf [] d.nodes

end Markup

/-- **The control is made of what is at the place.**  An element has its attributes accounted for:
the first one that switches the data context is bound outside, and all others that are kept are
bound inside.  A binding in text is bound in the context around it. -/
def Control.ComesFrom (s : ControlScope) (outer : DataContext) (x : Control) :
    ControlPlace → Prop
  | .root => x.kind = .root ∧ x.properties = []
  | .element _ e => x.tag = e.name.text ∧ x.span = e.span
      ∧ (∀ a, e.attributes.find? isContextAttribute = some a →
        ∃ p ∈ x.properties, p.Shows s outer a)
      ∧ x.Accounts s outer e (respelled [] e.attributes)
  | .text _ source => x.tag = "" ∧ x.span = source.span
      ∧ ∃ p, x.properties = [p] ∧ p.Shows s outer (textAttribute source)

/-- **The control is the one of the place**, in the data context that the elements lead to. -/
structure Control.At (s : ControlScope) (view : DataContext) (place : ControlPlace) (x : Control) :
    Prop where
  origin : x.ComesFrom s (contextWithin s view place.around) place
  context : x.context = contextWithin s view place.path

/-- The control is marked with the type of its data context just if it switches it. -/
def Control.MarkedAt (s : ControlScope) (view : DataContext) (place : ControlPlace)
    (x : Control) : Prop :=
  x.contextMark = if place.switches s view then some x.context.this else none

/-! ## §4. From documents to controls. -/

section Controls

variable {s : ControlScope} {view : DataContext}

/-- The control of an element is at the place of the element. -/
theorem at_element (s : ControlScope) (view : DataContext) (around : List Element) (e : Element)
    (nodes : List Markup.Node) (children : List ControlNode) :
    (withContent (elementControl s (contextWithin s view around) e) nodes children).At s view
      (.element around e) := by
  obtain ⟨_, metadata, _, -, -, hproperties, -⟩ :=
    elementControl_parts s (contextWithin s view around) e
  refine ⟨⟨rfl, rfl, fun a ha => ?_, accounts_element s _ e nodes children⟩,
    (contextWithin_concat s e around view).symm⟩
  -- The first attribute that switches the context is bound before all others.
  have hcontext : contextProperty? s (contextWithin s view around) metadata e
      = some (attributeProperty s (contextWithin s view around)
        (metadata.property? Controls.dataContextProperty) a) := by
    unfold contextProperty?
    rw [show e.attribute? Controls.dataContextProperty = some a from ha, Option.map_some]
  have hmem : attributeProperty s (contextWithin s view around)
      (metadata.property? Controls.dataContextProperty) a
      ∈ (elementControl s (contextWithin s view around) e).properties := by
    rw [hproperties, hcontext]
    exact List.mem_append_left _ List.mem_cons_self
  exact ⟨_, hmem, ⟨rfl, rfl, rfl⟩⟩

/-- The control of a binding in text is at its place. -/
theorem at_text (s : ControlScope) (view : DataContext) (around : List Element)
    (source : BindingSource) :
    (literalControl s (contextWithin s view around) source).At s view (.text around source) :=
  ⟨⟨rfl, rfl, _, rfl, ⟨rfl, rfl, rfl⟩⟩, rfl⟩

/-- **A listing of controls**, parents first, each as it is seen from the context around it. -/
structure Listing (list : DataContext → List ControlNode → List Control)
    (see : DataContext → Control → Control) : Prop where
  append : ∀ outer ms ns, list outer (ms ++ ns) = list outer ms ++ list outer ns
  nil : ∀ outer, list outer [] = []
  text : ∀ outer text span, list outer [.text text span] = []
  control : ∀ outer c children,
    list outer [.control c children] = see outer c :: list c.context children

theorem listing_controlsOf : Listing (fun _ => ControlNode.controlsOf) (fun _ c => c) where
  append _ := ControlNode.controlsOf_append
  nil _ := rfl
  text _ _ _ := rfl
  control _ c children := List.append_nil (c :: ControlNode.controlsOf children)

section Listings

variable {list : DataContext → List ControlNode → List Control}
  {see : DataContext → Control → Control} {P : ControlPlace → Control → Prop}

mutual

/-- What holds of the controls of elements and of bound texts, as they are seen from the contexts
around them, holds of the places of a node and its controls, one by one. -/
theorem Listing.forall₂_resolveNode (h : Listing list see)
    (helement : ∀ around e nodes children, P (.element around e) (see (contextWithin s view around)
      (withContent (elementControl s (contextWithin s view around) e) nodes children)))
    (htext : ∀ around source, P (.text around source) (see (contextWithin s view around)
      (literalControl s (contextWithin s view around) source))) :
    ∀ (n : Markup.Node) (around : List Element),
      List.Forall₂ P (n.places around) (list (contextWithin s view around)
        (resolveNode s (contextWithin s view around) n).toList)
  | .element e nodes, around => by
      -- Inside of the element its own context is the one around.
      have hinner := h.forall₂_resolveNodes helement htext nodes (around ++ [e])
      rw [contextWithin_concat] at hinner
      rw [Markup.Node.places, resolveNode, Option.toList_some, h.control]
      exact .cons (helement around e nodes _) hinner
  | .binding source, around => by
      rw [Markup.Node.places, resolveNode, Option.toList_some, h.control, h.nil]
      exact .cons (htext around source) .nil
  | .text _ _, _ => by
      rw [Markup.Node.places, resolveNode, Option.toList_some, h.text]
      exact .nil
  | .stray _, _ => by
      rw [Markup.Node.places, resolveNode, Option.toList_none, h.nil]
      exact .nil

/-- The same for the places of nodes. -/
theorem Listing.forall₂_resolveNodes (h : Listing list see)
    (helement : ∀ around e nodes children, P (.element around e) (see (contextWithin s view around)
      (withContent (elementControl s (contextWithin s view around) e) nodes children)))
    (htext : ∀ around source, P (.text around source) (see (contextWithin s view around)
      (literalControl s (contextWithin s view around) source))) :
    ∀ (ns : List Markup.Node) (around : List Element),
      List.Forall₂ P (Markup.Node.placesOf around ns) (list (contextWithin s view around)
        (resolveNodes s (contextWithin s view around) ns))
  | [], _ => by
      rw [resolveNodes, h.nil]
      exact .nil
  | n :: ns, around => by
      rw [resolveNodes, Markup.Node.placesOf, h.append]
      exact List.rel_append (h.forall₂_resolveNode helement htext n around)
        (h.forall₂_resolveNodes helement htext ns around)

end

end Listings

/-! ## §5. Marks. -/

/-- A mark changes nothing else. -/
theorem Control.At.markContext {place : ControlPlace} {x : Control} (h : x.At s view place) :
    x.markContext.At s view place := by
  refine ⟨?_, h.context⟩
  have horigin := h.origin
  cases place <;> exact horigin

/-- A mark is that of the data context, and stays. -/
theorem Control.markContext_markContext (x : Control) :
    x.markContext.markContext = x.markContext := by
  unfold Control.markContext
  rw [Option.getD_some]

theorem ControlNode.markContextsAll_append (outer : DataContext) (ms ns : List ControlNode) :
    markContextsAll outer (ms ++ ns) = markContextsAll outer ms ++ markContextsAll outer ns := by
  induction ms with
  | nil => rfl
  | cons m ms ih => rw [List.cons_append, markContextsAll, markContextsAll, ih, List.cons_append]

/-- The control as it is marked, seen from the context around it. -/
def Control.markWithin (outer : DataContext) (c : Control) : Control :=
  if c.context = outer then c else c.markContext

theorem listing_markContextsAll :
    Listing (fun outer ns => ControlNode.controlsOf (ControlNode.markContextsAll outer ns))
      Control.markWithin where
  append outer ms ns := by
    rw [ControlNode.markContextsAll_append, ControlNode.controlsOf_append]
  nil _ := rfl
  text _ _ _ := rfl
  control outer c children := List.append_nil (c.markWithin outer :: ControlNode.controlsOf _)

/-- **A control is marked where the context changes**, if it is in another context than what is
around it just there. -/
theorem Control.At.markWithin {place : ControlPlace} {outer : DataContext} {x : Control}
    (h : x.At s view place) (hnone : x.contextMark = none)
    (hcontext : x.context = outer ↔ place.switches s view = false) :
    (x.markWithin outer).At s view place ∧ (x.markWithin outer).MarkedAt s view place := by
  unfold Control.markWithin Control.MarkedAt
  cases hswitches : place.switches s view with
  | false =>
      rw [if_pos (hcontext.2 hswitches)]
      exact ⟨h, hnone⟩
  | true =>
      rw [if_neg fun heq => Bool.false_ne_true ((hcontext.1 heq).symm.trans hswitches)]
      refine ⟨h.markContext, ?_⟩
      show some (x.contextMark.getD x.context.this) = some x.context.this
      rw [hnone, Option.getD_none]

/-- The context changes just at the elements that add a level. -/
theorem context_elementControl_eq_iff (s : ControlScope) (view : DataContext)
    (around : List Element) (e : Element) :
    (elementControl s (contextWithin s view around) e).context = contextWithin s view around
      ↔ (ControlPlace.element around e).switches s view = false := by
  show _ ↔ (switchedType? s (contextWithin s view around) e).isSome = false
  rw [context_elementControl]
  cases switchedType? s (contextWithin s view around) e with
  | none => exact iff_of_true rfl rfl
  | some type => exact iff_of_false (DataContext.push_ne _ type) nofun

end Controls

mutual

/-- Marking once more changes nothing. -/
theorem ControlNode.markContexts_markContexts :
    ∀ (n : ControlNode) (outer : DataContext),
      (n.markContexts outer).markContexts outer = n.markContexts outer
  | .control head children, outer => by
      have hinner := ControlNode.markContextsAll_markContextsAll children head.context
      rw [markContexts]
      by_cases hcontext : head.context = outer
      · rw [if_pos hcontext, markContexts, if_pos hcontext, hinner]
      · have hmarked : head.markContext.context ≠ outer := hcontext
        rw [if_neg hcontext, markContexts, if_neg hmarked, Control.markContext_markContext]
        exact congrArg _ hinner
  | .text _ _, _ => rfl

theorem ControlNode.markContextsAll_markContextsAll :
    ∀ (ns : List ControlNode) (outer : DataContext),
      markContextsAll outer (markContextsAll outer ns) = markContextsAll outer ns
  | [], _ => rfl
  | n :: ns, outer => by
      rw [markContextsAll, markContextsAll, ControlNode.markContexts_markContexts n outer,
        ControlNode.markContextsAll_markContextsAll ns outer]

end

/-! ## §6. Trees. -/

namespace ControlTree

variable {s : ControlScope} {path : String} {kind : ViewKind} {d : Document} {t : ControlTree}

/-- The controls of a document are in the context of its view model. -/
theorem ofDocument_context (h : ofDocument s path kind d = .ok t) :
    let view := DataContext.ofRoot t.directives.viewModel t.directives.imports
    t.children = resolveNodes s view d.nodes ∧ t.root.context = view ∧ t.root.kind = .root
      ∧ t.root.properties = [] ∧ t.root.contextMark = none := by
  unfold ofDocument at h
  obtain ⟨directives, -, h⟩ := exists_ok_of_bind h
  dsimp only at h
  split at h
  · cases h
  · cases h
    exact ⟨rfl, rfl, rfl, rfl, rfl⟩

/-- **Marking a tree once more** changes nothing. -/
theorem markContexts_markContexts (t : ControlTree) :
    t.markContexts.markContexts = t.markContexts := by
  unfold markContexts
  dsimp only
  rw [Control.markContext_markContext]
  exact congrArg _ (ControlNode.markContextsAll_markContextsAll t.children t.root.context)

/-- **WHERE DATA CONTEXTS COME FROM.**  In the tree of a document each control is the one of a place
of the document.  The levels of its data context are the view model and what the elements on the
way to the place add, each bound in those outside of it, and its keywords name these levels by
their distance; what switches the context of an element is bound outside of it, and all else
inside.  Once the tree is marked, the root has the type of its context as mark, and so have the
controls of elements that add a level, and no others; marking once more changes nothing. -/
theorem contexts_at_places (ht : ofDocument s path kind d = .ok t) :
    let view := DataContext.ofRoot t.directives.viewModel t.directives.imports
    List.Forall₂ (fun place x => x.At s view place
        ∧ x.context.Stacks (t.directives.viewModel :: switchedTypes s view place.path)
        ∧ x.context.spaces = t.directives.imports)
      d.places t.controls
    ∧ List.Forall₂ (fun place y => y.At s view place ∧ y.MarkedAt s view place)
      d.places t.markContexts.controls
    ∧ t.markContexts.markContexts = t.markContexts := by
  intro view
  obtain ⟨hchildren, hcontext, hkind, hproperties, hmark⟩ := ofDocument_context ht
  have hroot : t.root.At s view .root := ⟨⟨hkind, hproperties⟩, hcontext⟩
  have hat : List.Forall₂ (Control.At s view) d.places t.controls := by
    unfold controls
    rw [hchildren]
    exact .cons hroot (listing_controlsOf.forall₂_resolveNodes (at_element s view)
      (at_text s view) d.nodes [])
  have hstack : ∀ (place : ControlPlace) (x : Control), x.At s view place → x.context.levels.reverse
      = t.directives.viewModel :: switchedTypes s view place.path := by
    intro place x hx
    rw [hx.context, contextWithin, DataContext.levels_pushAll, List.reverse_append,
      List.reverse_reverse]
    rfl
  have hspaces : ∀ (place : ControlPlace) (x : Control), x.At s view place →
      x.context.spaces = t.directives.imports := by
    intro place x hx
    rw [hx.context, contextWithin, DataContext.spaces_pushAll]
    rfl
  refine ⟨hat.imp fun place x hx => ⟨hx, .of_levels (hstack place x hx), hspaces place x hx⟩, ?_,
    t.markContexts_markContexts⟩
  · show List.Forall₂ _ _ (t.root.markContext
      :: ControlNode.controlsOf (ControlNode.markContextsAll t.root.context t.children))
    rw [hchildren, hcontext]
    refine .cons ⟨hroot.markContext, ?_⟩ (listing_markContextsAll.forall₂_resolveNodes
      (P := fun place y => y.At s view place ∧ y.MarkedAt s view place)
      (fun around e nodes children => (at_element s view around e nodes children).markWithin rfl
        (context_elementControl_eq_iff s view around e))
      (fun around source => (at_text s view around source).markWithin rfl (iff_of_true rfl rfl))
      d.nodes [])
    show some (t.root.contextMark.getD t.root.context.this) = some t.root.context.this
    rw [hmark, Option.getD_none]

/-- Two levels are added, one inside of the other, and left again. -/
theorem contexts_at_places_nested :
    ∃ (d : Document) (t : ControlTree), Compiler.document
        ("<p DataContext={value: true}><b DataContext={value: 1}>"
          ++ "\x7b\x7bvalue: _parent\x7d\x7d</b><i></i></p>") = .ok d
      ∧ ofDocument plainScope "page.dotmaster" .masterPage d = .ok t
      ∧ d.places.map (fun place => switchedTypes plainScope (.ofRoot .object []) place.path)
        = [[], [.bool], [.bool, .int32], [.bool, .int32], [.bool]]
      ∧ List.Forall₂ (fun place x => x.context.Stacks
          (.object :: switchedTypes plainScope (.ofRoot .object []) place.path)) d.places t.controls
      ∧ t.markContexts.controls.map Control.contextMark
        = [some .object, some .bool, some .int32, none, none] := by
  have hresult : (Compiler.document
      ("<p DataContext={value: true}><b DataContext={value: 1}>"
        ++ "\x7b\x7bvalue: _parent\x7d\x7d</b><i></i></p>")).toOption.map (fun d =>
        (d.places.map (fun place => switchedTypes plainScope (.ofRoot .object []) place.path),
          (ofDocument plainScope "page.dotmaster" .masterPage d).toOption.map (fun t =>
            (t.directives, t.markContexts.controls.map Control.contextMark))))
      = some ([[], [.bool], [.bool, .int32], [.bool, .int32], [.bool]],
          some (⟨.object, none, [], none⟩,
            [some .object, some .bool, some .int32, none, none])) := by
    decide +kernel
  obtain ⟨d, hdoc, hd⟩ := exists_ok_of_toOption hresult
  obtain ⟨hplaces, hd⟩ := Prod.mk.inj hd
  obtain ⟨t, ht, hshown⟩ := exists_ok_of_toOption hd
  obtain ⟨hdirectives, hmarks⟩ := Prod.mk.inj hshown
  obtain ⟨hstacks, -⟩ := contexts_at_places ht
  rw [hdirectives] at hstacks
  exact ⟨d, t, hdoc, ht, hplaces, hstacks.imp fun _ _ h => h.2.1, hmarks⟩

end ControlTree

end BoundMarkup
