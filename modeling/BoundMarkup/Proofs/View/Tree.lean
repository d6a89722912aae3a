/-
  BoundMarkup.Proofs.View.Tree
  ────────────────────────────
  **WHAT A CONTROL TREE KEEPS OF ITS DOCUMENT.**

  A tree carries the path and the directives of its document, and every element
  of the document, at any depth, has a control with all faults of the element.
  So a markup control that did not compile leaves a fault wherever it is used.
-/
import BoundMarkup.Proofs.Steps
import BoundMarkup.View.ContextMark
import BoundMarkup.View.ErrorCheck
import BoundMarkup.View.Style
import BoundMarkup.View.Tree

namespace BoundMarkup

open Markup (Document Element)

/-! ## §1. Path and directives. -/

/-- The master page of the directives is the one the document declares. -/
theorem Directives.ofDocument_master {r : Registry} {kind : ViewKind} {d : Document}
    {directives : Directives} (h : Directives.ofDocument r kind d = .ok directives) :
    Directives.masterOf kind d = .ok directives.master := by
  unfold Directives.ofDocument at h
  obtain ⟨viewModel, _, h⟩ := exists_ok_of_bind h
  obtain ⟨master, hm, h⟩ := exists_ok_of_bind h
  obtain ⟨baseType, _, h⟩ := exists_ok_of_bind h
  cases h
  exact hm

namespace ControlTree

/-- What is known of a resolved tree. -/
theorem ofDocument_eq_ok {s : ControlScope} {path : String} {kind : ViewKind} {d : Document}
    {t : ControlTree} (h : ofDocument s path kind d = .ok t) :
    t.path = path ∧ Directives.masterOf kind d = .ok t.directives.master
      ∧ ∃ context, t.children = resolveNodes s context d.nodes := by
  unfold ofDocument at h
  obtain ⟨directives, hd, h⟩ := exists_ok_of_bind h
  cases hm : s.types.controlMetadata? (rootType kind directives) with
  | none =>
      simp only [hm] at h
      cases h
  | some metadata =>
      simp only [hm] at h
      cases h
      exact ⟨rfl, Directives.ofDocument_master hd, _, rfl⟩

end ControlTree

/-! ## §2. Every element has its control. -/

namespace ControlNode

theorem controlsOf_append (ms ns : List ControlNode) :
    controlsOf (ms ++ ns) = controlsOf ms ++ controlsOf ns := by
  induction ms with
  | nil => rfl
  | cons m ms ih =>
      show m.controls ++ controlsOf (ms ++ ns) = m.controls ++ controlsOf ms ++ controlsOf ns
      rw [ih, List.append_assoc]

end ControlNode

/-- Some control has all faults of the element. -/
def Represented (s : ControlScope) (e : Element) (nodes : List ControlNode) : Prop :=
  ∃ x ∈ ControlNode.controlsOf nodes, ∃ context, (elementControl s context e).errors ⊆ x.errors

theorem Represented.append_left {s : ControlScope} {e : Element} {ms : List ControlNode}
    (h : Represented s e ms) (ns : List ControlNode) : Represented s e (ms ++ ns) := by
  obtain ⟨x, hx, he⟩ := h
  refine ⟨x, ?_, he⟩
  rw [ControlNode.controlsOf_append]
  exact List.mem_append_left _ hx

theorem Represented.append_right {s : ControlScope} {e : Element} {ns : List ControlNode}
    (h : Represented s e ns) (ms : List ControlNode) : Represented s e (ms ++ ns) := by
  obtain ⟨x, hx, he⟩ := h
  refine ⟨x, ?_, he⟩
  rw [ControlNode.controlsOf_append]
  exact List.mem_append_right _ hx

mutual

/-- **Every element of a tree is represented** by a control. -/
theorem represented_of_mem_elements (s : ControlScope) (e : Element) :
    ∀ (n : Markup.Node) (context : DataContext), e ∈ n.elements →
      Represented s e (resolveNode s context n).toList
  | .element head children, context, he => by
      rcases List.mem_cons.1 he with rfl | he
      · -- The control keeps the faults of the element and adds those of stray tags.
        refine ⟨_, List.mem_cons_self, context, ?_⟩
        show (elementControl s context e).errors
            ⊆ (elementControl s context e).errors ++ strayErrors children ++ _
        rw [List.append_assoc]
        exact List.subset_append_left _ _
      · obtain ⟨x, hx, hsub⟩ := represented_of_mem_elementsOf s e children
          (elementControl s context head).context he
        refine ⟨x, List.mem_append_left _ (List.mem_cons_of_mem _ hx), hsub⟩
  | .text _ _, _, he => absurd he List.not_mem_nil
  | .binding _, _, he => absurd he List.not_mem_nil
  | .stray _, _, he => absurd he List.not_mem_nil

/-- Every element of a forest is represented by a control. -/
theorem represented_of_mem_elementsOf (s : ControlScope) (e : Element) :
    ∀ (ns : List Markup.Node) (context : DataContext), e ∈ Markup.Node.elementsOf ns →
      Represented s e (resolveNodes s context ns)
  | [], _, he => absurd he List.not_mem_nil
  | n :: ns, context, he => by
      rcases List.mem_append.1 he with he | he
      · exact (represented_of_mem_elements s e n context he).append_left _
      · exact (represented_of_mem_elementsOf s e ns context he).append_right _

end

/-! ## §3. References to markup controls. -/

/-- The path of the markup control that an element stands for. -/
def Options.controlPath? (o : Options) (e : Element) : Option String :=
  (e.name.space.bind (fun tagSpace => o.markupControl? tagSpace e.name.name)).map
    (fun control => ViewPath.normalize control.source)

theorem Options.controlPath?_eq_some (o : Options) {e : Element} {tagSpace : String}
    {control : MarkupControl} (hs : e.name.space = some tagSpace)
    (hc : o.markupControl? tagSpace e.name.name = some control) :
    o.controlPath? e = some (ViewPath.normalize control.source) := by
  unfold controlPath?
  rw [hs, Option.bind_some, hc]
  rfl

theorem Options.exists_of_controlPath? {o : Options} {e : Element} {q : String}
    (h : o.controlPath? e = some q) :
    ∃ tagSpace control, e.name.space = some tagSpace
      ∧ o.markupControl? tagSpace e.name.name = some control
      ∧ q = ViewPath.normalize control.source := by
  obtain ⟨control, hc, rfl⟩ := Option.map_eq_some_iff.1 h
  obtain ⟨tagSpace, hs, hc⟩ := Option.bind_eq_some_iff.1 hc
  exact ⟨tagSpace, control, hs, hc, rfl⟩

/-- Keeping the first use of each path keeps the paths. -/
theorem mem_firstUses (uses : List (String × Span)) (q : String) :
    ∀ seen : List (String × Span),
      q ∈ (uses.foldl (fun seen use =>
          if seen.any (fun s => s.1 == use.1) then seen else seen ++ [use]) seen).map Prod.fst
        ↔ q ∈ seen.map Prod.fst ∨ q ∈ uses.map Prod.fst := by
  induction uses with
  | nil =>
      intro seen
      simp
  | cons use uses ih =>
      intro seen
      rw [List.foldl_cons, ih]
      by_cases hseen : seen.any (fun s => s.1 == use.1)
      · -- A use that is left out has left its path behind already.
        obtain ⟨s, hs, hsu⟩ := List.any_eq_true.1 hseen
        have hmem : use.1 ∈ seen.map Prod.fst := by
          rw [← eq_of_beq hsu]
          exact List.mem_map_of_mem hs
        rw [if_pos hseen, List.map_cons, List.mem_cons]
        constructor
        · rintro (h | h)
          · exact Or.inl h
          · exact Or.inr (Or.inr h)
        · rintro (h | rfl | h)
          · exact Or.inl h
          · exact Or.inl hmem
          · exact Or.inr h
      · rw [if_neg hseen]
        simp [or_assoc]

/-- The references of a document are the markup controls of its elements. -/
theorem mem_markupReferences (o : Options) (d : Document) (q : String) :
    q ∈ (markupReferences o d).map Prod.fst ↔ ∃ e ∈ d.elements, o.controlPath? e = some q := by
  unfold markupReferences
  rw [mem_firstUses]
  simp only [List.map_nil, List.not_mem_nil, false_or, List.mem_map, List.mem_filterMap]
  constructor
  · rintro ⟨⟨p, span⟩, ⟨e, he, hp⟩, rfl⟩
    obtain ⟨control, hc, hp⟩ := Option.map_eq_some_iff.1 hp
    obtain ⟨rfl, -⟩ := Prod.mk.inj hp
    exact ⟨e, he, Option.map_eq_some_iff.2 ⟨control, hc, rfl⟩⟩
  · rintro ⟨e, he, hp⟩
    obtain ⟨control, hc, rfl⟩ := Option.map_eq_some_iff.1 hp
    exact ⟨_, ⟨e, he, Option.map_eq_some_iff.2 ⟨control, hc, rfl⟩⟩, rfl⟩

/-! ## §4. Markup controls that failed. -/

/-- An element without a control type has a fault. -/
theorem elementControl_errors_of_fault {s : ControlScope} {e : Element} {fault : NodeFault}
    (h : s.controlType e.name = .error fault) (context : DataContext) :
    (⟨fault, e.span⟩ : NodeError) ∈ (elementControl s context e).errors := by
  unfold elementControl
  simp [h]

/-- In a tree without faults of nodes, every element has a control type. -/
theorem ControlTree.controlType_isOk {s : ControlScope} {path : String} {kind : ViewKind}
    {d : Document} {t : ControlTree} (h : ControlTree.ofDocument s path kind d = .ok t)
    (hn : t.nodeReports = []) {e : Element} (he : e ∈ d.elements) :
    ∃ found, s.controlType e.name = .ok found := by
  cases hfound : s.controlType e.name with
  | ok found => exact ⟨found, rfl⟩
  | error fault =>
      obtain ⟨_, _, context, hchildren⟩ := ControlTree.ofDocument_eq_ok h
      obtain ⟨x, hx, inner, hsub⟩ := represented_of_mem_elementsOf s e d.nodes context he
      rw [← hchildren] at hx
      -- The fault of the element is among those of its control, so it is reported.
      have hfault := hsub (elementControl_errors_of_fault hfound inner)
      have hreport : NodeError.report t.path ⟨fault, e.span⟩ ∈ t.nodeReports :=
        List.mem_flatMap.2 ⟨x, List.mem_cons_of_mem _ hx, List.mem_map_of_mem hfault⟩
      rw [hn] at hreport
      exact absurd hreport List.not_mem_nil

/-- A tag that stands for a markup control has a type only if that compiled. -/
theorem ControlScope.signature?_isSome {s : ControlScope} {e : Element} {q : String}
    {found : ControlKind × ControlMetadata}
    (hq : s.options.controlPath? e = some q) (h : s.controlType e.name = .ok found) :
    (s.signature? q).isSome := by
  obtain ⟨tagSpace, control, hs, hc, rfl⟩ := Options.exists_of_controlPath? hq
  unfold ControlScope.controlType at h
  simp only [hs, hc, ControlScope.markupControl] at h
  cases hsig : s.signature? (ViewPath.normalize control.source) with
  | none =>
      simp only [hsig] at h
      cases h
  | some signature => rfl

/-- A tree without reports has no faults of nodes. -/
theorem ControlTree.nodeReports_eq_nil {t : ControlTree} (h : t.errorReports = []) :
    t.nodeReports = [] := by
  unfold ControlTree.errorReports at h
  cases hn : t.nodeReports with
  | nil => rfl
  | cons r rs =>
      rw [hn] at h
      cases h

end BoundMarkup
