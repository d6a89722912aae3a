/-
  BoundMarkup.Proofs.Compile.Dependency
  ─────────────────────────────────────
  **WHICH VIEWS A VIEW DEPENDS ON.**

  Two relations between paths, both read off the file alone:

      DependsOn  — a directive names the master page, or a tag the markup control
      Requires   — the same, less the directives that are refused as such

  `Requires` is what compilation may ask for.  Whatever is required is one of the
  `targets` that the contents and the options name, so a trail of requirements
  without repetitions is at most `rounds` long.
-/
import BoundMarkup.Proofs.View.Tree
import BoundMarkup.View.Compiler
import Mathlib.Data.List.Chain
import Mathlib.Data.List.Nodup
import Mathlib.Data.List.Perm.Subperm
import Mathlib.Logic.Relation

namespace BoundMarkup

open Markup (Directive Document Element)

/-! ## §1. Cycles of a relation. -/

section Cycles

variable {α : Type} {R : α → α → Prop} {a : α}

/-- A cycle of the relation can be reached. -/
def ReachesCycle (R : α → α → Prop) (a : α) : Prop :=
  ∃ b, Relation.ReflTransGen R a b ∧ Relation.TransGen R b b

theorem ReachesCycle.head {b : α} (hab : R a b) (h : ReachesCycle R b) : ReachesCycle R a := by
  obtain ⟨x, hbx, hx⟩ := h
  exact ⟨x, hbx.head hab, hx⟩

/-- One step towards a cycle, or along it. -/
theorem ReachesCycle.step (h : ReachesCycle R a) : ∃ b, R a b ∧ ReachesCycle R b := by
  obtain ⟨x, hax, hx⟩ := h
  rcases Relation.ReflTransGen.cases_head hax with rfl | ⟨b, hab, hbx⟩
  · obtain ⟨b, hab, hba⟩ := Relation.TransGen.head'_iff.1 hx
    exact ⟨b, hab, a, hba, hx⟩
  · exact ⟨b, hab, x, hbx, hx⟩

/-- Where every way down ends, there is no cycle. -/
theorem not_reachesCycle_of_acc (h : Acc (fun b a => R a b) a) : ¬ ReachesCycle R a := by
  induction h with
  | intro a _ ih =>
      intro hc
      obtain ⟨b, hab, hb⟩ := hc.step
      exact ih b hab hb

theorem ReachesCycle.mono {S : α → α → Prop} (hRS : ∀ a b, R a b → S a b)
    (h : ReachesCycle R a) : ReachesCycle S a := by
  obtain ⟨b, hab, hb⟩ := h
  exact ⟨b, Relation.ReflTransGen.mono hRS a b hab, Relation.TransGen.mono hRS b b hb⟩

end Cycles

namespace Compiler

/-! ## §2. The relations. -/

/-- The file at a path and its document. -/
def read (c : Compiler) (path : String) : Except ViewError (MarkupFile × Document) :=
  match c.source.load? path with
  | none => .error (.notFound path)
  | some file => (document file.content).map (fun d => (file, d))

/-- The document at a path, if a file is there that can be read. -/
def documentAt? (c : Compiler) (path : String) : Option Document :=
  (c.read path).toOption.map Prod.snd

theorem documentAt?_of_read {c : Compiler} {path : String} {file : MarkupFile} {d : Document}
    (h : c.read path = .ok (file, d)) : c.documentAt? path = some d := by
  unfold documentAt?
  rw [h]
  rfl

theorem read_eq_ok {c : Compiler} {path : String} {file : MarkupFile} {d : Document}
    (h : c.read path = .ok (file, d)) :
    c.source.load? path = some file ∧ document file.content = .ok d := by
  unfold read at h
  cases hf : c.source.load? path with
  | none =>
      rw [hf] at h
      cases h
  | some found =>
      rw [hf] at h
      cases hd : document found.content with
      | error e =>
          simp only [hd] at h
          cases h
      | ok d' =>
          simp only [hd] at h
          cases h
          exact ⟨rfl, hd⟩

theorem documentAt?_eq_some {c : Compiler} {path : String} {d : Document}
    (h : c.documentAt? path = some d) : ∃ file, c.read path = .ok (file, d) := by
  unfold documentAt? at h
  cases hr : c.read path with
  | error e =>
      rw [hr] at h
      cases h
  | ok found =>
      rw [hr] at h
      cases h
      exact ⟨found.1, rfl⟩

/-- **One view depends on another**: as a master page, or as a markup control
that some element stands for. -/
inductive DependsOn (c : Compiler) (path : String) : String → Prop
  | master {d : Document} {x : Directive} (hd : c.documentAt? path = some d)
      (hx : x ∈ d.directivesNamed "masterPage") : DependsOn c path (ViewPath.normalize x.value)
  | control {d : Document} {e : Element} {tagSpace : String} {control : MarkupControl}
      (hd : c.documentAt? path = some d) (he : e ∈ d.elements)
      (hs : e.name.space = some tagSpace)
      (hc : c.options.markupControl? tagSpace e.name.name = some control) :
      DependsOn c path (ViewPath.normalize control.source)

/-- A view is needed to compile another one. -/
inductive Requires (c : Compiler) (path : String) : String → Prop
  | master {d : Document} {reference : MasterReference} (hd : c.documentAt? path = some d)
      (hm : Directives.masterOf (.ofPath path) d = .ok (some reference)) :
      Requires c path reference.path
  | control {d : Document} {q : String} (hd : c.documentAt? path = some d)
      (hq : q ∈ (markupReferences c.options d).map Prod.fst) : Requires c path q

end Compiler

/-- The only directive of a name is the first one. -/
theorem Directives.single?_eq_ok {d : Document} {name : String} {found : Option Directive}
    (h : Directives.single? d name = .ok found) :
    found = d.directive? name ∧ ∀ x ∈ d.directivesNamed name, found = some x := by
  unfold Directives.single? at h
  unfold Document.directive?
  match hxs : d.directivesNamed name with
  | [] =>
      rw [hxs] at h
      cases h
      simp
  | [x] =>
      rw [hxs] at h
      cases h
      simp
  | _ :: second :: _ =>
      rw [hxs] at h
      cases h

/-- A master page is the one that the only such directive names. -/
theorem Directives.masterOf_eq_ok {kind : ViewKind} {d : Document}
    {master : Option MasterReference} (h : Directives.masterOf kind d = .ok master) :
    master.map MasterReference.path
        = (d.directive? "masterPage").map (fun x => ViewPath.normalize x.value)
      ∧ ∀ x ∈ d.directivesNamed "masterPage",
          master.map MasterReference.path = some (ViewPath.normalize x.value) := by
  unfold Directives.masterOf at h
  cases hs : Directives.single? d "masterPage" with
  | error e =>
      rw [hs] at h
      cases h
  | ok found =>
      obtain ⟨hfirst, honly⟩ := Directives.single?_eq_ok hs
      rw [hs] at h
      cases found with
      | none =>
          cases h
          refine ⟨by rw [← hfirst]; rfl, fun x hx => ?_⟩
          exact absurd (honly x hx) (by simp)
      | some y =>
          by_cases hk : kind = .markupControl
          · simp [hk, bind, Except.bind] at h
          · have hm : master = some ⟨ViewPath.normalize y.value, y.span⟩ := by
              simpa [hk, bind, Except.bind, eq_comm] using h
            subst hm
            refine ⟨by rw [← hfirst]; rfl, fun x hx => ?_⟩
            have hxy : y = x := by simpa using honly x hx
            rw [hxy]
            rfl

namespace Compiler

theorem Requires.dependsOn {c : Compiler} {path q : String} (h : c.Requires path q) :
    c.DependsOn path q := by
  cases h with
  | @master d reference hd hm =>
      obtain ⟨hfirst, _⟩ := Directives.masterOf_eq_ok hm
      obtain ⟨x, hx, hq⟩ := Option.map_eq_some_iff.1 hfirst.symm
      rw [← hq]
      exact .master hd (List.mem_of_head? hx)
  | @control d _ hd hq =>
      obtain ⟨e, he, hp⟩ := (mem_markupReferences c.options d q).1 hq
      obtain ⟨tagSpace, control, hs, hc, rfl⟩ := Options.exists_of_controlPath? hp
      exact .control hd he hs hc

/-! ## §3. Trails are short. -/

/-- The master page that a content names first. -/
def masterTarget? (content : String) : Option String :=
  ((document content).toOption.bind (fun d => d.directive? "masterPage")).map
    (fun x => ViewPath.normalize x.value)

/-- All paths that can be required. -/
def targets (c : Compiler) : List String :=
  c.source.contents.filterMap masterTarget?
    ++ c.options.markupControls.map (fun control => ViewPath.normalize control.source)

theorem targets_length_lt_rounds (c : Compiler) : c.targets.length < c.rounds := by
  have h := List.length_filterMap_le masterTarget? c.source.contents
  unfold targets rounds
  rw [List.length_append, List.length_map]
  omega

theorem Requires.mem_targets {c : Compiler} {path q : String} (h : c.Requires path q) :
    q ∈ c.targets := by
  unfold targets
  rw [List.mem_append]
  cases h with
  | @master d reference hd hm =>
      obtain ⟨file, hread⟩ := documentAt?_eq_some hd
      obtain ⟨hf, hd⟩ := read_eq_ok hread
      refine Or.inl (List.mem_filterMap.2 ⟨file.content, c.source.content_mem _ _ hf, ?_⟩)
      unfold masterTarget?
      rw [hd]
      exact (Directives.masterOf_eq_ok hm).1.symm
  | @control d _ hd hq =>
      obtain ⟨e, _, hp⟩ := (mem_markupReferences c.options d q).1 hq
      obtain ⟨tagSpace, control, _, hc, rfl⟩ := Options.exists_of_controlPath? hp
      exact Or.inr (List.mem_map.2 ⟨control, List.mem_of_find?_eq_some hc, rfl⟩)

/-- Each path requires the next one, and none comes twice. -/
structure Trail (c : Compiler) (chain : List String) : Prop where
  linked : chain.IsChain c.Requires
  nodup : chain.Nodup

theorem Trail.singleton (c : Compiler) (path : String) : c.Trail [path] :=
  ⟨List.isChain_singleton path, List.nodup_singleton path⟩

/-- A trail goes on to a path that its last one requires. -/
theorem Trail.snoc {c : Compiler} {chain : List String} {path q : String}
    (h : c.Trail (chain ++ [path])) (hq : c.Requires path q) (hn : q ∉ chain ++ [path]) :
    c.Trail (chain ++ [path] ++ [q]) := by
  refine ⟨?_, ?_⟩
  · rw [List.append_assoc]
    exact List.isChain_append_cons_cons.2 ⟨h.linked, hq, List.isChain_singleton q⟩
  · rw [List.nodup_append]
    refine ⟨h.nodup, List.nodup_singleton q, fun a ha b hb => ?_⟩
    rw [List.mem_singleton.1 hb]
    rintro rfl
    exact hn ha

/-- Behind the first path of a chain, every path is required by some other. -/
theorem mem_targets_of_isChain {c : Compiler} {path q : String} {chain : List String}
    (h : (path :: chain).IsChain c.Requires) (hq : q ∈ chain) : q ∈ c.targets := by
  induction chain generalizing path with
  | nil => cases hq
  | cons next chain ih =>
      obtain ⟨hnext, hrest⟩ := List.isChain_cons_cons.1 h
      rcases List.mem_cons.1 hq with rfl | hq
      · exact hnext.mem_targets
      · exact ih hrest hq

/-- **A trail is no longer than the rounds of compilation.** -/
theorem Trail.length_le_rounds {c : Compiler} {chain : List String} (h : c.Trail chain) :
    chain.length ≤ c.rounds := by
  cases chain with
  | nil => exact Nat.zero_le _
  | cons path chain =>
      -- All but the first path are targets, and none of them comes twice.
      have hsub : chain ⊆ c.targets := fun q hq => mem_targets_of_isChain h.linked hq
      have hlen := (List.subperm_of_subset (List.nodup_cons.1 h.nodup).2 hsub).length_le
      have hrounds := c.targets_length_lt_rounds
      rw [List.length_cons]
      omega

/-- Along a trail, each path leads to the last one. -/
theorem Trail.reaches_last {c : Compiler} {chain : List String} {path q : String}
    (h : c.Trail (chain ++ [path])) (hq : q ∈ chain ++ [path]) :
    Relation.ReflTransGen c.Requires q path := by
  -- From `q` on, the trail is linked and ends where the whole of it ends.
  obtain ⟨before, after, hsplit⟩ := List.append_of_mem hq
  have hlinked := h.linked
  rw [hsplit, List.isChain_append] at hlinked
  have hlast : (q :: after).getLast (List.cons_ne_nil q after) = path := by
    rw [← List.getLast_append_right (List.cons_ne_nil q after) (l := before)]
    simp [← hsplit]
  exact List.relationReflTransGen_of_exists_isChain_cons after hlinked.2.1 hlast

/-- A requirement back into the trail closes a cycle. -/
theorem Trail.cycle {c : Compiler} {chain : List String} {path q : String}
    (h : c.Trail (chain ++ [path])) (hr : c.Requires path q) (hq : q ∈ chain ++ [path]) :
    ReachesCycle c.Requires path :=
  ⟨path, .refl, Relation.TransGen.head' hr (h.reaches_last hq)⟩

/-! ## §4. Requirements as a list. -/

/-- The master page that a view of a path declares. -/
def masterPath? (path : String) (d : Document) : Option String :=
  match Directives.masterOf (.ofPath path) d with
  | .ok (some reference) => some reference.path
  | _ => none

/-- What a path requires, one after the other. -/
def requirements (c : Compiler) (path : String) : List String :=
  match c.documentAt? path with
  | some d => (markupReferences c.options d).map Prod.fst ++ (masterPath? path d).toList
  | none => []

theorem requires_iff_mem {c : Compiler} {path q : String} :
    c.Requires path q ↔ q ∈ c.requirements path := by
  unfold requirements
  constructor
  · intro h
    cases h with
    | master hd hm => simp [hd, masterPath?, hm]
    | control hd hq => simp only [hd, List.mem_append, hq, true_or]
  · intro h
    cases hd : c.documentAt? path with
    | none => simp [hd] at h
    | some d =>
        simp only [hd, List.mem_append, Option.mem_toList] at h
        rcases h with h | h
        · exact .control hd h
        · unfold masterPath? at h
          split at h
          · cases h
            exact .master hd ‹_›
          · cases h

instance (c : Compiler) (path q : String) : Decidable (c.Requires path q) :=
  decidable_of_iff _ requires_iff_mem.symm

/-- A site of master pages: two that name each other, one on top of another, and
one whose own master page is missing. -/
def sample : Compiler :=
  { types := Registry.empty.insert (Controls.container Controls.view)
    options := .default
    source := .ofMemory
      [("a.dotmaster", "@masterPage b.dotmaster\n"), ("b.dotmaster", "@masterPage a.dotmaster\n"),
       ("main.dotmaster", "<html></html>\n"), ("sub.dotmaster", "@masterPage main.dotmaster\n"),
       ("lost.dotmaster", "@masterPage gone.dotmaster\n")] }

example : sample.requirements "a.dotmaster" = ["b.dotmaster"]
    ∧ sample.requirements "b.dotmaster" = ["a.dotmaster"]
    ∧ sample.requirements "main.dotmaster" = [] := by decide +kernel

end Compiler

end BoundMarkup
