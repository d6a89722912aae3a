/-
  BoundMarkup.Proofs.View.FirstFailure
  ────────────────────────────────────
  **WHICH OF THE FAILED BINDINGS IS REPORTED.**

  Controls are looked through parents first, which is the order of the file.  The
  properties of one control are in that order as well, but for the one that
  switches the data context: it was bound first and comes first, wherever it is
  written (`ControlProperty.Ahead`).  So the binding that is reported is the first
  one in the file, unless it switches the context of an element and an attribute
  before it has failed too.  Main statement: `first_failure_reported`.
-/
import BoundMarkup.Proofs.View.Attributes
import Mathlib.Data.List.Pairwise

namespace BoundMarkup

open Markup (Attribute Document Element Mark)

/-! ## §1. The order of properties. -/

/-- **The property is looked at before the other one**: it is before it in the file, or it
switches the data context. -/
def ControlProperty.Ahead (p q : ControlProperty) : Prop :=
  p.span.Before q.span ∨ p.switchesContext = true ∧ q.span.Before p.span

/-- All properties of the one control are before all of the other in the file. -/
def Control.Ahead (x y : Control) : Prop :=
  ∀ p ∈ x.properties, ∀ q ∈ y.properties, p.span.Before q.span

/-- The properties of the control come from marks of its node, and are in the order in which they
are looked at. -/
structure Control.Arranged (marks : List Mark) (x : Control) : Prop where
  marked : ∀ p ∈ x.properties, ∃ m ∈ marks, m.span = p.span
  ahead : x.properties.Pairwise ControlProperty.Ahead

theorem Control.Arranged.mono {marks marks' : List Mark} {x : Control} (h : x.Arranged marks)
    (hsubset : marks ⊆ marks') : x.Arranged marks' := by
  refine ⟨fun p hp => ?_, h.ahead⟩
  obtain ⟨m, hm, hspan⟩ := h.marked p hp
  exact ⟨m, hsubset hm, hspan⟩

/-- Things that show others have their places. -/
theorem map_span_of_forall₂ {s : ControlScope} {context : Attribute → DataContext}
    {as : List Attribute} {ps : List ControlProperty}
    (h : List.Forall₂ (fun a p => p.Shows s (context a) a) as ps) :
    ps.map (fun p => p.span) = as.map (fun a => a.span) := by
  induction h with
  | nil => rfl
  | cons hshows _ ih => rw [List.map_cons, List.map_cons, hshows.span, ih]

/-- What is kept by its role is some of the attributes, in their order. -/
theorem AttributeRole.attributesIn_sublist (f : AttributeRole → Bool) (kind : ControlKind)
    (metadata : ControlMetadata) (seen : List String) (as : List Attribute) :
    (attributesIn f (assign kind metadata seen as)).Sublist as := by
  have hsublist := (List.filter_sublist (p := fun r : Attribute × AttributeRole => f r.2)
    (l := assign kind metadata seen as)).map Prod.fst
  rwa [map_fst_assign] at hsublist

/-- **The properties of an element** are in the order in which they are looked at. -/
theorem elementControl_arranged (s : ControlScope) (outer : DataContext) (e : Element)
    (hattributes : (e.attributes.map Attribute.mark).Pairwise (fun m m' => m.span.Before m'.span)) :
    (elementControl s outer e).Arranged (e.attributes.map Attribute.mark) := by
  obtain ⟨kind, metadata, _, -, -, hproperties, -⟩ := elementControl_parts s outer e
  have hordered : e.attributes.Pairwise (fun a b => a.span.Before b.span) :=
    (List.pairwise_map (R := fun m m' : Mark => m.span.Before m'.span)).1 hattributes
  have hmark {a : Attribute} (ha : a ∈ e.attributes) :
      a.mark ∈ e.attributes.map Attribute.mark := List.mem_map_of_mem ha
  constructor
  · intro p hp
    rw [hproperties] at hp
    rcases List.mem_append.1 hp with hp | hp
    · obtain ⟨a, ha, -, hspan, -⟩ := exists_of_mem_contextProperty? hp
      exact ⟨_, hmark ha, hspan.symm⟩
    · obtain ⟨a, ha, -, rfl⟩ := AttributeRole.exists_of_mem_property? hp
      exact ⟨_, hmark ha, rfl⟩
  · rw [hproperties]
    refine List.pairwise_append.2 ⟨?_, ?_, fun p hp q hq => ?_⟩
    · cases contextProperty? s outer metadata e with
      | none => exact .nil
      | some p => exact List.pairwise_singleton _ _
    · -- All the others are in the order of the attributes.
      have hspans := map_span_of_forall₂ (AttributeRole.forall₂_property? s outer
        (elementControl s outer e).context kind metadata [] e.attributes)
      have hsublist := AttributeRole.attributesIn_sublist AttributeRole.isKept kind metadata []
        e.attributes
      have hkept : ((AttributeRole.attributesIn AttributeRole.isKept (AttributeRole.assign kind
          metadata [] e.attributes)).map (fun a => a.span)).Pairwise Span.Before :=
        List.pairwise_map.2 (hordered.sublist hsublist)
      rw [← hspans] at hkept
      exact (List.pairwise_map.1 hkept).imp fun hbefore => .inl hbefore
    · obtain ⟨a, ha, hacontext, hpa, hswitches⟩ := exists_of_mem_contextProperty? hp
      obtain ⟨b, hb, hbcontext, rfl⟩ := AttributeRole.exists_of_mem_property? hq
      -- The one attribute switches the data context and the other does not, so they differ, and
      -- one of them is before the other.
      have hne : a ≠ b := by
        rintro rfl
        rw [hacontext] at hbcontext
        cases hbcontext
      have : Std.Symm (fun a b : Attribute => a.span.Before b.span ∨ b.span.Before a.span) :=
        ⟨fun _ _ h => h.symm⟩
      have heither : a.span.Before b.span ∨ b.span.Before a.span :=
        List.Pairwise.forall (R := fun a b : Attribute =>
          a.span.Before b.span ∨ b.span.Before a.span) (hordered.imp Or.inl) ha hb hne
      unfold ControlProperty.Ahead
      rw [hpa]
      exact heither.imp_right fun h => ⟨hswitches, h⟩

/-! ## §2. The order of controls. -/

/-- Controls in the order of the file, each with its properties in order. -/
structure InFileOrder (marks : List Mark) (xs : List Control) : Prop where
  controls : xs.Pairwise Control.Ahead
  arranged : ∀ x ∈ xs, x.Arranged marks

theorem InFileOrder.nil (marks : List Mark) : InFileOrder marks [] :=
  ⟨.nil, fun _ hx => absurd hx List.not_mem_nil⟩

theorem InFileOrder.append {marks marks' : List Mark} {xs ys : List Control}
    (h : InFileOrder marks xs) (h' : InFileOrder marks' ys)
    (hbefore : ∀ m ∈ marks, ∀ m' ∈ marks', m.span.Before m'.span) :
    InFileOrder (marks ++ marks') (xs ++ ys) := by
  constructor
  · refine List.pairwise_append.2 ⟨h.controls, h'.controls, fun x hx y hy p hp q hq => ?_⟩
    obtain ⟨m, hm, hmp⟩ := (h.arranged x hx).marked p hp
    obtain ⟨m', hm', hmq⟩ := (h'.arranged y hy).marked q hq
    rw [← hmp, ← hmq]
    exact hbefore m hm m' hm'
  · intro x hx
    rcases List.mem_append.1 hx with hx | hx
    · exact (h.arranged x hx).mono (List.subset_append_left _ _)
    · exact (h'.arranged x hx).mono (List.subset_append_right _ _)

theorem InFileOrder.singleton {marks : List Mark} {x : Control} (h : x.Arranged marks) :
    InFileOrder marks [x] := by
  refine ⟨List.pairwise_singleton _ _, fun y hy => ?_⟩
  rw [List.mem_singleton.1 hy]
  exact h

mutual

/-- The controls of a node are in the order of its marks. -/
theorem inFileOrder_resolveNode (s : ControlScope) : ∀ (n : Markup.Node) (context : DataContext),
    (n.preorder.flatMap Markup.Node.marks).Pairwise (fun m m' => m.span.Before m'.span) →
    InFileOrder (n.preorder.flatMap Markup.Node.marks)
      (ControlNode.controlsOf (resolveNode s context n).toList)
  | .element e children, context, h => by
      obtain ⟨htag, hinner, hbefore⟩ := List.pairwise_append.1 h
      have hhead : (elementControl s context e).Arranged
          (Markup.tagMarks e.name e.attributes e.span) :=
        (elementControl_arranged s context e (List.pairwise_cons.1 htag).2).mono
          (List.subset_cons_self _ _)
      have hwhole : (withContent (elementControl s context e) children
          (resolveNodes s (elementControl s context e).context children)).Arranged
            (Markup.tagMarks e.name e.attributes e.span) := ⟨hhead.marked, hhead.ahead⟩
      have hchildren := inFileOrder_resolveNodes s children (elementControl s context e).context
        hinner
      have hall := (InFileOrder.singleton hwhole).append hchildren hbefore
      rw [resolveNode]
      show InFileOrder _ (_ :: ControlNode.controlsOf _ ++ [])
      rw [List.append_nil]
      exact hall
  | .text _ _, _, _ => .nil _
  | .binding source, context, _ => by
      refine .singleton ⟨fun p hp => ?_, List.pairwise_singleton _ _⟩
      rw [List.mem_singleton.1 hp]
      exact ⟨source.mark, List.mem_cons_self, rfl⟩
  | .stray _, _, _ => .nil _

/-- The controls of a forest are in the order of its marks. -/
theorem inFileOrder_resolveNodes (s : ControlScope) :
    ∀ (ns : List Markup.Node) (context : DataContext),
      ((Markup.Node.preorderOf ns).flatMap Markup.Node.marks).Pairwise
        (fun m m' => m.span.Before m'.span) →
      InFileOrder ((Markup.Node.preorderOf ns).flatMap Markup.Node.marks)
        (ControlNode.controlsOf (resolveNodes s context ns))
  | [], _, _ => .nil _
  | n :: ns, context, h => by
      rw [Markup.Node.preorderOf, List.flatMap_append] at h ⊢
      obtain ⟨hfirst, hrest, hbefore⟩ := List.pairwise_append.1 h
      rw [resolveNodes, ControlNode.controlsOf_append]
      exact (inFileOrder_resolveNode s n context hfirst).append
        (inFileOrder_resolveNodes s ns context hrest) hbefore

end

/-! ## §3. The first failure. -/

/-- The binding of the property cannot be bound. -/
def ControlProperty.Failed (p : ControlProperty) : Prop := p.failure?.isSome = true

theorem ControlProperty.failure?_eq_some {p : ControlProperty} {error : Binding.BindingError}
    (h : p.failure? = some error) : p.value = .failed error := by
  unfold failure? at h
  split at h
  · rename_i hvalue
    rw [hvalue, Option.some.inj h]
  · cases h

namespace ControlTree

variable {s : ControlScope} {path content : String} {kind : ViewKind} {d : Document}
  {t : ControlTree}

/-- **The controls of a view** are in the order of the file. -/
theorem inFileOrder (hdoc : Compiler.document content = .ok d)
    (ht : ofDocument s path kind d = .ok t) : InFileOrder d.marks t.controls := by
  obtain ⟨type, metadata, context, -, hchildren, hroot⟩ := ofDocument_parts ht
  have hnone : t.root.properties = [] := by
    rw [hroot]
    rfl
  have hinner := inFileOrder_resolveNodes s d.nodes context (Compiler.document_marks hdoc).1
  rw [← hchildren] at hinner
  -- The root has no properties, so it is before everything.
  constructor
  · refine List.pairwise_cons.2 ⟨fun y _ p hp => ?_, hinner.controls⟩
    rw [hnone] at hp
    cases hp
  · intro x hx
    rcases List.mem_cons.1 hx with rfl | hx
    · constructor
      · intro p hp
        rw [hnone] at hp
        cases hp
      · rw [hnone]
        exact .nil
    · exact hinner.arranged x hx

/-- **What the search finds first** is ahead of all other failures. -/
theorem firstFailure?_eq_some {marks : List Mark} (horder : InFileOrder marks t.controls)
    {error : Binding.BindingError} (h : t.firstFailure? = some error) :
    ∃ x ∈ t.controls, ∃ p ∈ x.properties, p.failure? = some error
      ∧ ∀ y ∈ t.controls, ∀ q ∈ y.properties, q.Failed →
        q = p ∨ p.span.Before q.span ∨ q ∈ x.properties ∧ p.Ahead q := by
  obtain ⟨before, x, after, hcontrols, hx, hbefore⟩ := List.findSome?_eq_some_iff.1 h
  obtain ⟨first, p, rest, hproperties, hp, hfirst⟩ := List.findSome?_eq_some_iff.1 hx
  have hmemx : x ∈ t.controls := by
    rw [hcontrols]
    exact List.mem_append_right _ List.mem_cons_self
  have hmemp : p ∈ x.properties := by
    rw [hproperties]
    exact List.mem_append_right _ List.mem_cons_self
  refine ⟨x, hmemx, p, hmemp, hp, fun y hy q hq hfailed => ?_⟩
  have hnot {ps : List ControlProperty} (hnone : ∀ q ∈ ps, q.failure? = none) : q ∉ ps := by
    intro hmem
    unfold ControlProperty.Failed at hfailed
    rw [hnone q hmem] at hfailed
    cases hfailed
  rw [hcontrols] at hy
  rcases List.mem_append.1 hy with hy | hy
  · -- Before the control that is found nothing has failed.
    exact absurd hq (hnot (List.findSome?_eq_none_iff.1 (hbefore y hy)))
  rcases List.mem_cons.1 hy with rfl | hy
  · -- In the same control the order of its properties decides.
    have hmemq := hq
    rw [hproperties] at hq
    rcases List.mem_append.1 hq with hq | hq
    · exact absurd hq (hnot hfirst)
    rcases List.mem_cons.1 hq with rfl | hq
    · exact .inl rfl
    · have hahead := (horder.arranged y hmemx).ahead
      rw [hproperties] at hahead
      have hpq := (List.pairwise_cons.1 (List.pairwise_append.1 hahead).2.1).1 q hq
      exact .inr (.inr ⟨hmemq, hpq⟩)
  · -- All of a later control is behind.
    have hordered := horder.controls
    rw [hcontrols] at hordered
    have hxy := (List.pairwise_cons.1 (List.pairwise_append.1 hordered).2.1).1 y hy
    exact .inr (.inl (hxy p hmemp q hq))

/-- **ONE FAILURE IS REPORTED, AND WHICH.**  In a view without errors of nodes, if some binding
cannot be bound, there is one report, and it is about a failed binding.  Any other one is behind
it in the file, unless the reported one switches the data context of an element and the other is
written before it in the same tag.  So it is the first one in the file just if there is no such
other one. -/
theorem first_failure_reported (hdoc : Compiler.document content = .ok d)
    (ht : ofDocument s path kind d = .ok t) (hnone : t.nodeReports = [])
    (hfailed : ∃ x ∈ t.controls, ∃ p ∈ x.properties, p.Failed) :
    ∃ x ∈ t.controls, ∃ p ∈ x.properties, ∃ error, p.value = .failed error
      ∧ t.errorReports = [Report.ofBinding path error]
      ∧ (∀ y ∈ t.controls, ∀ q ∈ y.properties, q.Failed → q = p ∨ p.span.Before q.span
          ∨ q ∈ x.properties ∧ p.switchesContext = true ∧ q.span.Before p.span)
      ∧ ((∀ y ∈ t.controls, ∀ q ∈ y.properties, q.Failed → q = p ∨ p.span.Before q.span)
        ↔ ¬ (p.switchesContext = true
          ∧ ∃ q ∈ x.properties, q.Failed ∧ q.span.Before p.span)) := by
  have hsome : ∃ error, t.firstFailure? = some error := by
    obtain ⟨x, hx, p, hp, hfailed⟩ := hfailed
    rw [← Option.isSome_iff_exists]
    exact List.findSome?_isSome_iff.2 ⟨x, hx, List.findSome?_isSome_iff.2 ⟨p, hp, hfailed⟩⟩
  obtain ⟨error, herror⟩ := hsome
  obtain ⟨x, hx, p, hp, hfailure, hfirst⟩ := firstFailure?_eq_some (inFileOrder hdoc ht) herror
  have hahead : ∀ y ∈ t.controls, ∀ q ∈ y.properties, q.Failed → q = p ∨ p.span.Before q.span
      ∨ q ∈ x.properties ∧ p.switchesContext = true ∧ q.span.Before p.span := by
    intro y hy q hq hqfailed
    rcases hfirst y hy q hq hqfailed with heq | hbefore | ⟨hmem, hbefore | hswitches⟩
    · exact .inl heq
    · exact .inr (.inl hbefore)
    · exact .inr (.inl hbefore)
    · exact .inr (.inr ⟨hmem, hswitches⟩)
  refine ⟨x, hx, p, hp, error, ControlProperty.failure?_eq_some hfailure, ?_, hahead, ?_⟩
  · unfold errorReports
    rw [hnone, herror, (ofDocument_eq_ok ht).1]
    rfl
  · constructor
    · rintro hall ⟨-, q, hq, hqfailed, hbefore⟩
      rcases hall x hx q hq hqfailed with rfl | hbefore'
      · exact hbefore.ne rfl
      · exact hbefore.asymm hbefore'
    · intro hno y hy q hq hqfailed
      rcases hahead y hy q hq hqfailed with heq | hbefore | ⟨hmem, hswitches, hbefore⟩
      · exact .inl heq
      · exact .inr hbefore
      · exact absurd ⟨hswitches, q, hmem, hqfailed, hbefore⟩ hno

/-- The failed bindings in the order of the search: where their properties are, and what there is
to report. -/
def failures (t : ControlTree) : List (Span × Report) :=
  t.controls.flatMap (fun x => x.properties.filterMap (fun p =>
    p.failure?.map (fun error => (p.span, Report.ofBinding t.path error))))

/-- The report about a name on the first line that stands for nothing. -/
def unknownName (column : Int) (name : String) : Report :=
  ⟨"page.dotmaster", 1, column, "UnknownIdentifier",
    "identifier '" ++ name ++ "' could not be resolved"⟩

theorem exists_failed_of_mem_failures {t : ControlTree} {f : Span × Report}
    (h : f ∈ t.failures) : ∃ x ∈ t.controls, ∃ p ∈ x.properties, p.Failed := by
  obtain ⟨x, hx, hf⟩ := List.mem_flatMap.1 h
  obtain ⟨p, hp, hf⟩ := List.mem_filterMap.1 hf
  obtain ⟨error, herror, -⟩ := Option.map_eq_some_iff.1 hf
  refine ⟨x, hx, p, hp, ?_⟩
  unfold ControlProperty.Failed
  rw [herror]
  rfl

/-- A title and a text have failed, and the title is reported. -/
theorem first_failure_reported_title :
    ∃ (d : Document) (t : ControlTree), Compiler.document
        "<p title={value: Missing}>\x7b\x7bvalue: AlsoMissing\x7d\x7d</p>" = .ok d
      ∧ ofDocument plainScope "page.dotmaster" .masterPage d = .ok t
      ∧ ∃ x ∈ t.controls, ∃ p ∈ x.properties, ∃ error, p.value = .failed error
        ∧ Report.ofBinding "page.dotmaster" error = unknownName 18 "Missing"
        ∧ ∀ y ∈ t.controls, ∀ q ∈ y.properties, q.Failed → q = p ∨ p.span.Before q.span
          ∨ q ∈ x.properties ∧ p.switchesContext = true ∧ q.span.Before p.span := by
  have hresult : (Compiler.document
      "<p title={value: Missing}>\x7b\x7bvalue: AlsoMissing\x7d\x7d</p>").toOption.map (fun d =>
        (ofDocument plainScope "page.dotmaster" .masterPage d).toOption.map (fun t =>
          (t.nodeReports, t.failures, t.errorReports)))
      = some (some ([], [(⟨1, 4, 22⟩, unknownName 18 "Missing"),
          (⟨1, 27, 0⟩, unknownName 36 "AlsoMissing")], [unknownName 18 "Missing"])) := by
    decide +kernel
  obtain ⟨d, hdoc, hd⟩ := exists_ok_of_toOption hresult
  obtain ⟨t, ht, hshown⟩ := exists_ok_of_toOption hd
  rw [Prod.mk.injEq, Prod.mk.injEq] at hshown
  obtain ⟨hnone, hfailures, hreports⟩ := hshown
  have hfailed := exists_failed_of_mem_failures
    (f := (⟨1, 4, 22⟩, unknownName 18 "Missing")) (by rw [hfailures]; exact List.mem_cons_self)
  obtain ⟨x, hx, p, hp, error, hvalue, hreport, hahead, -⟩ :=
    first_failure_reported hdoc ht hnone hfailed
  rw [hreports] at hreport
  exact ⟨d, t, hdoc, ht, x, hx, p, hp, error, hvalue, (List.singleton_inj.1 hreport).symm, hahead⟩

/-- **A failed data context is reported instead of the title before it**, which has failed too. -/
theorem reported_failure_not_first :
    ∃ (d : Document) (t : ControlTree), Compiler.document
        "<p title={value: Missing} DataContext={value: AlsoMissing}></p>" = .ok d
      ∧ ofDocument plainScope "page.dotmaster" .masterPage d = .ok t ∧ t.nodeReports = []
      ∧ t.failures = [(⟨1, 27, 32⟩, unknownName 47 "AlsoMissing"),
          (⟨1, 4, 22⟩, unknownName 18 "Missing")]
      ∧ t.errorReports = [unknownName 47 "AlsoMissing"] := by
  have hresult : (Compiler.document
      "<p title={value: Missing} DataContext={value: AlsoMissing}></p>").toOption.map (fun d =>
        (ofDocument plainScope "page.dotmaster" .masterPage d).toOption.map (fun t =>
          (t.nodeReports, t.failures, t.errorReports)))
      = some (some ([], [(⟨1, 27, 32⟩, unknownName 47 "AlsoMissing"),
          (⟨1, 4, 22⟩, unknownName 18 "Missing")], [unknownName 47 "AlsoMissing"])) := by
    decide +kernel
  obtain ⟨d, hdoc, hd⟩ := exists_ok_of_toOption hresult
  obtain ⟨t, ht, hshown⟩ := exists_ok_of_toOption hd
  rw [Prod.mk.injEq, Prod.mk.injEq] at hshown
  exact ⟨d, t, hdoc, ht, hshown⟩

end ControlTree

end BoundMarkup
