/-
  BoundMarkup.Proofs.Compile.Validity
  ───────────────────────────────────
  **SUCCESS MEANS VALID.**

  A view that compiled was emitted from a tree that passed the error check, was
  styled, and then passed the usage check; and whatever it depends on compiled
  before it and is still in the cache.  Main statement: `valid_of_built`.
-/
import BoundMarkup.Proofs.Compile.Ledger
import BoundMarkup.Proofs.View.Checked

namespace BoundMarkup

open Markup (Document)

/-! ## §1. Markup controls in order of first use. -/

/-- The uses that are kept are the first ones of their paths, in order. -/
theorem map_fst_firstUses (uses : List (String × Span)) :
    ∀ seen : List (String × Span),
      (uses.foldl (fun seen use =>
          if seen.any (fun s => s.1 == use.1) then seen else seen ++ [use]) seen).map Prod.fst
        = seen.map Prod.fst
          ++ ((uses.map Prod.fst).filter (fun q => !seen.any (fun s => s.1 == q))).eraseDups := by
  induction uses with
  | nil =>
      intro seen
      simp
  | cons use uses ih =>
      intro seen
      rw [List.foldl_cons, ih, List.map_cons]
      by_cases hseen : seen.any (fun s => s.1 == use.1) = true
      · rw [if_pos hseen, List.filter_cons_of_neg (by simp [hseen])]
      · -- What comes later under this path is a repetition from now on.
        have hlater : ∀ q, (!(seen ++ [use]).any (fun s => s.1 == q))
            = (!(q == use.1) && !seen.any (fun s => s.1 == q)) := by
          intro q
          rw [List.any_append, Bool.not_or, Bool.and_comm]
          simp [Bool.beq_comm]
        rw [if_neg hseen, List.filter_cons_of_pos (by simp [hseen]), List.eraseDups_cons,
            List.filter_filter, List.map_append, List.append_assoc]
        simp only [hlater, List.map_cons, List.map_nil, List.singleton_append]

/-- **The references of a document** are the markup controls of its elements, each
at its first use. -/
theorem markupReferences_paths (o : Options) (d : Document) :
    (markupReferences o d).map Prod.fst = (d.elements.filterMap o.controlPath?).eraseDups := by
  unfold markupReferences
  rw [map_fst_firstUses]
  simp only [List.map_nil, List.any_nil, Bool.not_false, List.filter_true, List.nil_append,
    List.map_filterMap, Option.map_map]
  rfl

namespace Compiler

/-! ## §2. The tree of a successful view. -/

/-- A tree that is ready has passed both checks, one on each side of the styles. -/
theorem checked_of_tree {c : Compiler} {path : String} {d : Document}
    {controls : List (String × CompiledView)} {t : ControlTree}
    (h : c.tree path d controls = .ok t) :
    ∃ resolved, ControlTree.ofDocument (c.scope controls) path (.ofPath path) d = .ok resolved
      ∧ t = resolved.markContexts.styled c.options.styles
      ∧ resolved.errorReports = [] ∧ t.usageReports c.types = [] := by
  unfold tree at h
  obtain ⟨resolved, hresolved, h⟩ := exists_ok_of_bind h
  obtain ⟨_, herrors, h⟩ := exists_ok_of_bind h
  obtain ⟨_, husage, h⟩ := exists_ok_of_bind h
  cases h
  exact ⟨resolved, Failure.lift_eq_ok hresolved, rfl, Failure.unlessNone_eq_ok herrors,
    Failure.unlessNone_eq_ok husage⟩

/-- A view fits its master page only if its view model does. -/
theorem assignable_of_checkMaster {c : Compiler} {t : ControlTree} {reference : MasterReference}
    {master : CompiledView} {u : Unit} (h : c.checkMaster t reference master = .ok u) :
    ∃ m, master.artifact? = some m
      ∧ c.types.isAssignable t.directives.viewModel m.viewModel = true := by
  unfold checkMaster at h
  cases hm : master.artifact? with
  | none =>
      rw [hm] at h
      cases h
  | some m =>
      rw [hm] at h
      cases hassignable : c.types.isAssignable t.directives.viewModel m.viewModel with
      | true => exact ⟨m, rfl, hassignable⟩
      | false =>
          simp only [hassignable] at h
          cases h

/-- **A valid view**: its artifact, the file and document it was read from, and the
styled tree it was emitted from, in the cache that holds it. -/
structure Valid (c : Compiler) (s : ViewCache) (path : String) (a : Artifact) (file : MarkupFile)
    (d : Document) (t : ControlTree) : Prop where
  read : c.read path = .ok (file, d)
  /-- The tree is the resolved one, marked and styled.  Its markup controls are
  those in the cache. -/
  styled : ∃ controls resolved, (∀ entry ∈ controls, s.find? entry.1 = some entry.2)
    ∧ ControlTree.ofDocument (c.scope controls) path (.ofPath path) d = .ok resolved
    ∧ t = resolved.markContexts.styled c.options.styles
  emitted : a.unit = .ofTree (.ofFile file.fileName file.modified) t
  /-- No control of the tree is faulty or misused. -/
  proper : ∀ x ∈ t.controls, x.Proper c.types
  /-- The master page comes first, then the markup controls by first use. -/
  dependencies : a.dependencies = (t.directives.master.map MasterReference.path).toList
    ++ (d.elements.filterMap c.options.controlPath?).eraseDups
  compiled : ∀ q ∈ a.dependencies, ∃ w, s.find? q = some w ∧ w.succeeded = true
  master : ∀ reference, t.directives.master = some reference →
    ∃ w m, s.find? reference.path = some w ∧ w.artifact? = some m
      ∧ c.types.isAssignable a.viewModel m.viewModel = true

/-- The answers for references are found in the table. -/
theorem Answered.mem {table : String → Option CompiledView} {chain : List String}
    {refs : List (String × Span)} {controls : List (String × CompiledView)}
    (h : Answered table chain refs controls) :
    controls.map Prod.fst = refs.map Prod.fst
      ∧ ∀ entry ∈ controls, table entry.1 = some entry.2 := by
  induction h with
  | nil => exact ⟨rfl, fun entry hentry => absurd hentry List.not_mem_nil⟩
  | @cons use control refs controls hu _ ih =>
      obtain ⟨hpath, _, hv⟩ := hu
      obtain ⟨hpaths, hfound⟩ := ih
      refine ⟨by rw [List.map_cons, List.map_cons, hpath, hpaths], fun entry hentry => ?_⟩
      rcases List.mem_cons.1 hentry with rfl | hentry
      · rw [hpath]
        exact hv
      · exact hfound entry hentry

/-- **Outcomes that succeed are valid**, on the table they were made from. -/
theorem valid_of_outcome {c : Compiler} {s : ViewCache} {chain : List String} {path : String}
    {a : Artifact} (h : c.Outcome s.find? chain path (.ok a)) :
    ∃ file d t, c.Valid s path a file d t := by
  obtain ⟨file, d, controls, t, hread, hanswered, htree, rfl, hmaster⟩ := h.ok_cases
  obtain ⟨resolved, hresolved, rfl, herrors, husage⟩ := checked_of_tree htree
  obtain ⟨hpaths, hfound⟩ := hanswered.mem
  have hdoc := documentAt?_of_read hread
  refine ⟨file, d, _, ⟨hread, ⟨controls, resolved, hfound, hresolved, rfl⟩, rfl,
    ControlTree.proper_of_checked herrors husage, ?_, fun q hq => ?_, fun reference hr => ?_⟩⟩
  · show _ ++ controls.map Prod.fst = _
    rw [hpaths, markupReferences_paths]
  · rcases List.mem_append.1 hq with hq | hq
    · -- The master page was checked, which only a success passes.
      rw [Option.mem_toList] at hq
      obtain ⟨reference, hreference, rfl⟩ := Option.map_eq_some_iff.1 hq
      obtain ⟨master, hv, hcheck⟩ := hmaster reference hreference
      exact ⟨master, hv, checkMaster_eq_ok hcheck⟩
    · rw [hpaths] at hq
      exact h.dependencies_succeeded (Requires.control hdoc hq).dependsOn
  · obtain ⟨master, hv, hcheck⟩ := hmaster reference hr
    obtain ⟨m, hm, hassignable⟩ := assignable_of_checkMaster hcheck
    exact ⟨master, m, hv, hm, hassignable⟩

/-! ## §3. All views of a cache. -/

/-- What the ledger justifies as a success is valid in the whole cache. -/
theorem valid_of_lookup {c : Compiler} {s : ViewCache} (h : c.Settled s.views) {path : String}
    {v : CompiledView} {a : Artifact} (hv : s.find? path = some v) (ha : v.artifact? = some a) :
    ∃ file d t, c.Valid s path a file d t := by
  have hpath : v.path = path := lookup_path hv
  obtain ⟨earlier, hearlier, chain, out, _, hout, hview⟩ := h.justified hv
  rw [hpath] at hout hview
  have hsucceeded : (viewOf path out).succeeded = true := by
    rw [← hview]
    unfold CompiledView.succeeded
    rw [ha]
    rfl
  obtain ⟨a', rfl⟩ := exists_of_viewOf_succeeded hsucceeded
  rw [hview] at ha
  cases ha
  -- The results it was built on are still there.
  exact valid_of_outcome (hout.mono fun _ _ hq => lookup_mono hearlier hq)

/-- **SUCCESS MEANS VALID.**  After any requests, every view in the cache that has
an artifact is valid. -/
theorem valid_of_built (c : Compiler) (paths : List String) {path : String} {v : CompiledView}
    {a : Artifact} (hv : (c.compileAll paths .empty).2.find? path = some v)
    (ha : v.artifact? = some a) :
    ∃ file d t, c.Valid (c.compileAll paths .empty).2 path a file d t :=
  valid_of_lookup (c.compileAll_settled paths) hv ha

/-- A site with a control that has to be set, a style rule that sets it, a markup
control and a master page. -/
def shop : Compiler :=
  { types :=
      [Controls.container Controls.view, Controls.container Controls.markupControl,
        Controls.container Controls.htmlGeneric, Controls.container Controls.content,
        (Controls.control (Controls.named "CheckBox")).addCapability "Checked" .bool
          MarkupOptions.standard.mandatory].foldl Registry.insert Builtins.registry
    options :=
      { Options.default with
        markupControls := [⟨"cc", "Card", "./card.dotcontrol"⟩]
        styles := [⟨"dot:CheckBox", "Checked", "TRUE", false⟩] }
    source := .ofMemory
      [("site.dotmaster", "<html></html>\n"),
       ("card.dotcontrol", "@viewModel string\n<p title={value: _this}></p>"),
       ("page.dotmaster", "@viewModel string\n@masterPage site.dotmaster\n<dot:Content>"
          ++ "<dot:CheckBox Checked={value: false} /><cc:Card /><dot:CheckBox /></dot:Content>")] }

/-- The page compiles, so its tree is proper: both boxes are set, one by a binding
and one by the style rule. -/
theorem valid_of_built_shop :
    ∃ v a file d t, (shop.compileAll ["page.dotmaster"] .empty).2.find? "page.dotmaster" = some v
      ∧ v.artifact? = some a ∧ a.dependencies = ["site.dotmaster", "card.dotcontrol"]
      ∧ shop.Valid (shop.compileAll ["page.dotmaster"] .empty).2 "page.dotmaster" a file d t := by
  have hdependencies : ((shop.compileAll ["page.dotmaster"] .empty).2.find? "page.dotmaster").map
      (fun v => v.artifact?.map Artifact.dependencies)
        = some (some ["site.dotmaster", "card.dotcontrol"]) := by decide +kernel
  obtain ⟨v, hv, hmap⟩ := Option.map_eq_some_iff.1 hdependencies
  obtain ⟨a, ha, hdeps⟩ := Option.map_eq_some_iff.1 hmap
  obtain ⟨file, d, t, hvalid⟩ := valid_of_built shop ["page.dotmaster"] hv ha
  exact ⟨v, a, file, d, t, hv, ha, hdeps, hvalid⟩

end Compiler

end BoundMarkup
