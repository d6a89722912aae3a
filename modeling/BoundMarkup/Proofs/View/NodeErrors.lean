/-
  BoundMarkup.Proofs.View.NodeErrors
  ──────────────────────────────────
  **WHAT IS WRONG WITH THE NESTING OF A DOCUMENT IS NOTED ONCE.**

  The problems of a document are its elements without an end tag and its end tags
  without an element.  Those of an element are noted on its own control, those of
  an end tag on the control around it; what else is noted is about something
  else (`NodeFault.subject`).  So the control tree has each problem of its document
  just once (`perm_problems`), and in a file no two problems have one place
  (`Compiler.document_problems`).
-/
import BoundMarkup.Proofs.Markup.SourceOrder
import BoundMarkup.Proofs.View.Tree

namespace BoundMarkup

open Markup (Attribute Document Element EndTag Mark QName)

/-! ## §1. What faults are about. -/

namespace NodeFault

/-- What a fault can be about. -/
inductive Subject where
  /-- Tags without a counterpart. -/
  | nesting
  /-- A tag that stands for no control. -/
  | tag
  | property
  /-- Content where none of its kind belongs. -/
  | content
  | placeholder
  deriving DecidableEq, Repr

def subject : NodeFault → Subject
  | malformed _ => .nesting
  | unknownControl _ | controlFailed _ | controlBaseNotControl _ _ => .tag
  | duplicateProperty _ _ | unknownProperty _ _ => .property
  | contentNotAllowed _ | strayControl _ | strayText => .content
  | unknownPlaceholder _ _ => .placeholder

/-- **Messages about the nesting are told apart** from all others by their first two letters. -/
theorem eq_malformed_of_letters {f : NodeFault} {c : Char} (hc : c ≠ '\'')
    (h : f.message.toList.take 2 = [c, 'l']) : f = .malformed f.message := by
  have hsecond {ds : List Char} {d : Char} (hd : d ≠ 'l') (hds : ds = [c, 'l'])
      (hat : ds[1]? = some d) : False := by
    rw [hds] at hat
    exact hd (Option.some.inj hat).symm
  cases f with
  | malformed _ => rfl
  | strayText => exact (hsecond (by decide) h rfl).elim
  | strayControl tag =>
      -- The second letter is from the tag, but the first one is a quote.
      unfold message at h
      simp only [String.toList_append, List.append_assoc] at h
      exact absurd (Option.some.inj (congrArg List.head? h)).symm hc
  | _ =>
      unfold message at h
      simp only [String.toList_append, List.append_assoc] at h
      exact (hsecond (by decide) h rfl).elim

end NodeFault

/-- The errors about a subject. -/
def NodeError.about (subject : NodeFault.Subject) (errors : List NodeError) : List NodeError :=
  errors.filter (fun x => decide (x.fault.subject = subject))

namespace NodeError

variable {subject : NodeFault.Subject} {xs ys : List NodeError}

theorem about_append : about subject (xs ++ ys) = about subject xs ++ about subject ys :=
  List.filter_append ..

/-- Errors about one subject are kept or left out together. -/
theorem about_of_all {k : NodeFault.Subject} (h : ∀ x ∈ xs, x.fault.subject = k) :
    about subject xs = if k = subject then xs else [] := by
  unfold about
  split
  · rename_i hk
    exact List.filter_eq_self.2 fun x hx => decide_eq_true ((h x hx).trans hk)
  · rename_i hk
    exact List.filter_eq_nil_iff.2 fun x hx => by
      rw [decide_eq_true_iff, h x hx]
      exact hk

/-- No error about the subject is left out. -/
theorem count_about {x : NodeError} (h : x.fault.subject = subject) :
    (about subject xs).count x = xs.count x := by
  unfold about
  rw [List.count_filter]
  exact decide_eq_true h

theorem mem_about {x : NodeError} (h : x ∈ xs) : x ∈ about x.fault.subject xs :=
  List.mem_filter.2 ⟨h, decide_eq_true rfl⟩

end NodeError

theorem ControlScope.subject_of_controlType {s : ControlScope} {tag : QName} {fault : NodeFault}
    (h : s.controlType tag = .error fault) : fault.subject = .tag := by
  unfold controlType at h
  split at h
  · cases h
  · split at h
    · unfold markupControl at h
      split at h
      · cases h
        rfl
      · split at h <;> cases h
        rfl
    · split at h <;> cases h
      rfl

theorem subject_of_mem_error? {tag : String} {roles : List (Attribute × AttributeRole)}
    {x : NodeError} (h : x ∈ roles.filterMap (AttributeRole.error? tag)) :
    x.fault.subject = .property := by
  obtain ⟨⟨a, role⟩, _, hx⟩ := List.mem_filterMap.1 h
  cases role <;> cases hx <;> rfl

theorem subject_of_mem_strayErrors {nodes : List Markup.Node} {x : NodeError}
    (h : x ∈ strayErrors nodes) : x.fault.subject = .nesting := by
  obtain ⟨n, _, hx⟩ := List.mem_filterMap.1 h
  cases n <;> cases hx
  rfl

theorem subject_of_mem_contentErrors {c : Control} {children : List ControlNode} {x : NodeError}
    (h : x ∈ contentErrors c children) : x.fault.subject = .content ∧ x.span = c.span := by
  unfold contentErrors at h
  split at h
  · rw [List.mem_singleton.1 h]
    exact ⟨rfl, rfl⟩
  · cases h

theorem subject_of_mem_topLevelErrors {children : List ControlNode} {x : NodeError}
    (h : x ∈ topLevelErrors children) : x.fault.subject = .content := by
  obtain ⟨n, _, hx⟩ := List.mem_filterMap.1 h
  cases n <;> dsimp only at hx <;> split at hx <;> cases hx <;> rfl

/-- What is structurally wrong with an element. -/
def ownErrors (e : Element) : List NodeError :=
  e.errors.map (fun message => ⟨.malformed message, e.span⟩)

theorem subject_of_mem_ownErrors {e : Element} {x : NodeError} (h : x ∈ ownErrors e) :
    x.fault.subject = .nesting ∧ x.span = e.span := by
  obtain ⟨message, -, rfl⟩ := List.mem_map.1 h
  exact ⟨rfl, rfl⟩

/-- The control of an element has at most one error about its tag. -/
theorem elementControl_parts (s : ControlScope) (outer : DataContext) (e : Element) :
    ∃ kind metadata unknown,
      (elementControl s outer e).metadata = metadata
      ∧ (elementControl s outer e).errors = ownErrors e ++ unknown
        ++ (AttributeRole.assign kind metadata [] e.attributes).filterMap
            (AttributeRole.error? e.name.text)
      ∧ (elementControl s outer e).properties = (contextProperty? s outer metadata e).toList
        ++ (AttributeRole.assign kind metadata [] e.attributes).filterMap
            (AttributeRole.property? s (elementControl s outer e).context)
      ∧ ∀ x ∈ unknown, x.fault.subject = .tag ∧ x.span = e.span := by
  cases hfound : s.controlType e.name with
  | ok found =>
      refine ⟨found.1, found.2, [], ?_⟩
      unfold elementControl
      simp only [hfound]
      exact ⟨trivial, rfl, trivial, fun x hx => absurd hx List.not_mem_nil⟩
  | error fault =>
      refine ⟨s.html.1, s.html.2, [⟨fault, e.span⟩], ?_⟩
      unfold elementControl
      simp only [hfound]
      refine ⟨trivial, rfl, trivial, fun x hx => ?_⟩
      rw [List.mem_singleton.1 hx]
      exact ⟨ControlScope.subject_of_controlType hfound, rfl⟩

/-- **What the control of an element is made of**, its content included: its properties, and
subject by subject its errors. -/
theorem element_parts (s : ControlScope) (outer : DataContext) (e : Element)
    (nodes : List Markup.Node) (children : List ControlNode) :
    ∃ kind metadata unknown,
      (elementControl s outer e).properties = (contextProperty? s outer metadata e).toList
        ++ (AttributeRole.assign kind metadata [] e.attributes).filterMap
            (AttributeRole.property? s (elementControl s outer e).context)
      ∧ (∀ x ∈ unknown, x.span = e.span)
      ∧ ∀ subject, NodeError.about subject
          (withContent (elementControl s outer e) nodes children).errors = match subject with
        | .nesting => ownErrors e ++ strayErrors nodes
        | .tag => unknown
        | .property => (AttributeRole.assign kind metadata [] e.attributes).filterMap
            (AttributeRole.error? e.name.text)
        | .content => contentErrors (elementControl s outer e) children
        | .placeholder => [] := by
  obtain ⟨kind, metadata, unknown, -, herrors, hproperties, hunknown⟩ :=
    elementControl_parts s outer e
  refine ⟨kind, metadata, unknown, hproperties, fun x hx => (hunknown x hx).2, fun subject => ?_⟩
  show NodeError.about subject ((elementControl s outer e).errors ++ _ ++ _) = _
  rw [herrors]
  simp only [NodeError.about_append,
    NodeError.about_of_all fun x (hx : x ∈ ownErrors e) => (subject_of_mem_ownErrors hx).1,
    NodeError.about_of_all fun x hx => (hunknown x hx).1,
    NodeError.about_of_all fun x hx => subject_of_mem_error? hx,
    NodeError.about_of_all fun x (hx : x ∈ strayErrors nodes) => subject_of_mem_strayErrors hx,
    NodeError.about_of_all fun x (hx : x ∈ contentErrors _ children) =>
      (subject_of_mem_contentErrors hx).1]
  cases subject <;> simp

/-! ## §2. Problems of documents. -/

namespace Markup

/-- What is wrong with a node, without what is wrong in it. -/
def Node.problems : Node → List NodeError
  | element head _ => ownErrors head
  | stray tag => [⟨.malformed tag.strayMessage, tag.span⟩]
  | text _ _ | binding _ => []

/-- **What is wrong with the nesting of a document**, at any depth. -/
def Document.problems (d : Document) : List NodeError :=
  (Node.preorderOf d.nodes).flatMap Node.problems

/-- A node has at most one problem, at its own place. -/
theorem Node.problems_sublist (n : Node) :
    (n.problems.map NodeError.span).Sublist (n.marks.map Mark.span) := by
  cases n with
  | element head children =>
      show ((ownErrors head).map NodeError.span).Sublist
        (head.span :: (head.attributes.map Attribute.mark).map Mark.span)
      unfold ownErrors Element.errors
      split
      · exact (List.nil_sublist _).cons_cons _
      · exact List.nil_sublist _
  | stray tag => exact List.Sublist.refl _
  | text _ _ => exact List.nil_sublist _
  | binding _ => exact List.nil_sublist _

theorem flatMap_problems_sublist (ns : List Node) :
    ((ns.flatMap Node.problems).map NodeError.span).Sublist
      ((ns.flatMap Node.marks).map Mark.span) := by
  rw [List.map_flatMap, List.map_flatMap]
  induction ns with
  | nil => exact List.Sublist.refl _
  | cons n ns ih => exact n.problems_sublist.append ih

end Markup

/-- **The problems of a file** are at later and later places. -/
theorem Compiler.document_problems {content : String} {d : Document}
    (h : Compiler.document content = .ok d) :
    d.problems.Pairwise (fun x y => x.span.Before y.span) := by
  have hmarks := (Compiler.document_marks h).1
  have hspans := (List.pairwise_map.2 hmarks).sublist
    (Markup.flatMap_problems_sublist (Markup.Node.preorderOf d.nodes))
  exact List.pairwise_map.1 hspans

/-- No two problems of a file are at one place. -/
theorem Compiler.problem_places_nodup {content : String} {d : Document}
    (h : Compiler.document content = .ok d) : (d.problems.map (fun x => x.span.place)).Nodup :=
  List.pairwise_map.2 ((Compiler.document_problems h).imp Span.Before.place_ne)

/-- The lines and columns of problems are no larger than the file makes them. -/
theorem Compiler.problem_within {content : String} {d : Document}
    (h : Compiler.document content = .ok d) {x : NodeError} (hx : x ∈ d.problems) :
    x.span.line ≤ content.length + 1 ∧ x.span.col ≤ content.length + 1 := by
  have hspan : x.span ∈ d.marks.map Mark.span :=
    (Markup.flatMap_problems_sublist _).subset (List.mem_map_of_mem hx)
  obtain ⟨m, hm, heq⟩ := List.mem_map.1 hspan
  obtain ⟨outer, hstands⟩ := (Compiler.document_marks h).2 m hm
  rw [← heq, ← String.length_toList]
  exact hstands.within

/-! ## §3. From documents to controls. -/

/-- The errors of controls about the nesting. -/
def nestingErrors (nodes : List ControlNode) : List NodeError :=
  NodeError.about .nesting ((ControlNode.controlsOf nodes).flatMap Control.errors)

theorem nestingErrors_append (ms ns : List ControlNode) :
    nestingErrors (ms ++ ns) = nestingErrors ms ++ nestingErrors ns := by
  unfold nestingErrors
  rw [ControlNode.controlsOf_append, List.flatMap_append, NodeError.about_append]

theorem strayErrors_cons (n : Markup.Node) (ns : List Markup.Node) :
    strayErrors (n :: ns) = strayErrors [n] ++ strayErrors ns :=
  List.filterMap_append (l := [n])

private theorem perm_swap_inner {α : Type} (a b c d : List α) :
    ((a ++ b) ++ (c ++ d)).Perm ((a ++ c) ++ (b ++ d)) := by
  rw [List.append_assoc, List.append_assoc, ← List.append_assoc b, ← List.append_assoc c]
  exact (List.perm_append_comm.append_right d).append_left a

mutual

/-- What is wrong with a node and in it is noted on its controls, or left to the control around
it if the node is an end tag. -/
theorem perm_problems_resolveNode (s : ControlScope) :
    ∀ (n : Markup.Node) (context : DataContext),
      (nestingErrors (resolveNode s context n).toList ++ strayErrors [n]).Perm
        (n.preorder.flatMap Markup.Node.problems)
  | .element e children, context => by
      have ih := perm_problems_resolveNodes s children (elementControl s context e).context
      obtain ⟨_, _, _, -, -, herrors⟩ := element_parts s context e children
        (resolveNodes s (elementControl s context e).context children)
      have hcontrols : nestingErrors (resolveNode s context (.element e children)).toList
          = ownErrors e ++ strayErrors children
            ++ nestingErrors (resolveNodes s (elementControl s context e).context children) := by
        show NodeError.about .nesting (((withContent (elementControl s context e) children
          (resolveNodes s (elementControl s context e).context children)) ::
            ControlNode.controlsOf _ ++ []).flatMap Control.errors) = _
        rw [List.append_nil, List.flatMap_cons, NodeError.about_append, herrors .nesting]
        rfl
      -- What is left over by the content is noted on the control of the element.
      rw [hcontrols]
      show (_ ++ []).Perm (ownErrors e
        ++ (Markup.Node.preorderOf children).flatMap Markup.Node.problems)
      rw [List.append_nil, List.append_assoc]
      exact (List.perm_append_comm.trans ih).append_left _
  | .text _ _, _ => .refl _
  | .binding _, _ => .refl _
  | .stray _, _ => .refl _

/-- What is wrong in a forest is noted on its controls, or left to the control around it. -/
theorem perm_problems_resolveNodes (s : ControlScope) :
    ∀ (ns : List Markup.Node) (context : DataContext),
      (nestingErrors (resolveNodes s context ns) ++ strayErrors ns).Perm
        ((Markup.Node.preorderOf ns).flatMap Markup.Node.problems)
  | [], _ => .refl _
  | n :: ns, context => by
      rw [resolveNodes, nestingErrors_append, strayErrors_cons, Markup.Node.preorderOf,
        List.flatMap_append]
      exact (perm_swap_inner ..).trans ((perm_problems_resolveNode s n context).append
        (perm_problems_resolveNodes s ns context))

end

/-! ## §4. Trees. -/

namespace ControlTree

variable {s : ControlScope} {path : String} {kind : ViewKind} {d : Document} {t : ControlTree}

/-- **The errors noted in the tree**, parents first. -/
def nodeErrors (t : ControlTree) : List NodeError := t.controls.flatMap Control.errors

/-- Each of them is reported. -/
theorem nodeReports_eq (t : ControlTree) :
    t.nodeReports = t.nodeErrors.map (NodeError.report t.path) :=
  List.map_flatMap.symm

/-- **What the tree of a document is made of**: the controls of its nodes, below a root whose errors
are end tags that close nothing, and what does not belong beside the content for a master page. -/
theorem ofDocument_parts (h : ofDocument s path kind d = .ok t) :
    ∃ type metadata context, s.types.controlMetadata? type = some metadata
      ∧ t.children = resolveNodes s context d.nodes
      ∧ t.root = rootControl metadata context (strayErrors d.nodes
          ++ if t.directives.master.isSome then topLevelErrors t.children else []) := by
  unfold ofDocument at h
  obtain ⟨directives, -, h⟩ := exists_ok_of_bind h
  dsimp only at h
  split at h
  · cases h
  · rename_i metadata hmetadata
    cases h
    exact ⟨_, metadata, _, hmetadata, rfl, rfl⟩

/-- **What is wrong with the nesting of the document** is noted in the tree, each problem once,
and no other. -/
theorem perm_problems (h : ofDocument s path kind d = .ok t) :
    (NodeError.about .nesting t.nodeErrors).Perm d.problems := by
  obtain ⟨type, metadata, context, -, hchildren, hroot⟩ := ofDocument_parts h
  have herrors : t.root.errors = strayErrors d.nodes
      ++ if t.directives.master.isSome then topLevelErrors t.children else [] := by
    rw [hroot]
    rfl
  have hmisplaced : ∀ x ∈ (if t.directives.master.isSome then topLevelErrors t.children else []),
      x.fault.subject = .content := by
    intro x hx
    split at hx
    · exact subject_of_mem_topLevelErrors hx
    · cases hx
  have hnesting : NodeError.about .nesting t.nodeErrors
      = strayErrors d.nodes ++ nestingErrors (resolveNodes s context d.nodes) := by
    unfold nodeErrors controls nestingErrors
    rw [List.flatMap_cons, NodeError.about_append, herrors, NodeError.about_append,
      NodeError.about_of_all hmisplaced, hchildren,
      NodeError.about_of_all fun x hx => subject_of_mem_strayErrors hx]
    simp
  rw [hnesting]
  exact List.perm_append_comm.trans (perm_problems_resolveNodes s d.nodes context)

end ControlTree

end BoundMarkup
