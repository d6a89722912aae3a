/-
  BoundMarkup.Proofs.Compile.Placeholders
  ───────────────────────────────────────
  **CONTENT FINDS ITS PLACEHOLDER, AT THE TOP LEVEL.**

  The tree of a view with a master page has nothing but content at its top level,
  and all of that names placeholders which the master page declares at whatever
  depth (`content_placed`).  Content inside of content is not looked at, so it may
  name anything.
-/
import BoundMarkup.Proofs.Compile.Ledger
import BoundMarkup.Proofs.Compile.Validity
import BoundMarkup.Proofs.Registry.Reordering
import BoundMarkup.Proofs.View.Metadata

namespace BoundMarkup

open Markup (Document)

/-! ## §1. Controls by their level. -/

/-- The property that says where content goes. -/
def Controls.placeholderId : String := "ContentPlaceHolderID"

/-- The control names one of the placeholders. -/
def Control.NamesOneOf (placeholders : List String) (x : Control) : Prop :=
  ∃ id ∈ placeholders, x.hardCoded? Controls.placeholderId = some id

namespace ControlTree

variable {t : ControlTree}

/-- **Beside the content for a master page there is nothing else** at the top level. -/
theorem hasType_content_of_mem_topLevel {s : ControlScope} {path : String} {kind : ViewKind}
    {d : Document} (ht : ofDocument s path kind d = .ok t) (hnone : t.errorReports = [])
    (hmaster : t.directives.master.isSome = true) {x : Control} (hx : x ∈ t.topLevel) :
    x.hasType Controls.content = true := by
  obtain ⟨type, metadata, context, -, -, hroot⟩ := ofDocument_parts ht
  have herrors : t.root.errors = [] :=
    (sound_of_errorReports hnone t.root List.mem_cons_self).errors
  rw [hroot, if_pos hmaster] at herrors
  have hmisplaced : topLevelErrors t.children = [] := (List.append_eq_nil_iff.1 herrors).2
  obtain ⟨n, hn, hhead⟩ := List.mem_filterMap.1 hx
  have hfault := List.filterMap_eq_nil_iff.1 hmisplaced n hn
  cases n with
  | text _ _ => cases hhead
  | control head children =>
      cases hhead
      dsimp only at hfault
      split at hfault
      · rename_i htype
        exact htype
      · cases hfault

end ControlTree

namespace Compiler

variable {c : Compiler} {s : ViewCache} {path : String} {v : CompiledView} {a : Artifact}

/-! ## §2. Emitted trees. -/

/-- The artifact was emitted from the tree, with the markup controls of the cache. -/
def Emitted (c : Compiler) (s : ViewCache) (path : String) (a : Artifact) (t : ControlTree) :
    Prop :=
  ∃ file d controls, c.read path = .ok (file, d)
    ∧ (∀ entry ∈ controls, s.find? entry.1 = some entry.2)
    ∧ c.tree path d controls = .ok t ∧ a = c.artifact file t (controls.map Prod.fst)

/-- **Every artifact was emitted from a tree**, which was checked against its master page. -/
theorem emitted_of_lookup (h : c.Settled s.views) (hv : s.find? path = some v)
    (ha : v.artifact? = some a) :
    ∃ t, c.Emitted s path a t ∧ ∀ reference, t.directives.master = some reference →
      ∃ w, s.find? reference.path = some w ∧ c.checkMaster t reference w = .ok () := by
  have hpath : v.path = path := lookup_path hv
  obtain ⟨earlier, hearlier, chain, out, _, hout, hview⟩ := h.justified hv
  rw [hpath] at hout hview
  -- A view with an artifact has succeeded, so its outcome went through all stages.
  have hsucceeded : (viewOf path out).succeeded = true := by
    rw [← hview]
    unfold CompiledView.succeeded
    rw [ha]
    rfl
  obtain ⟨a', rfl⟩ := exists_of_viewOf_succeeded hsucceeded
  rw [hview] at ha
  cases ha
  obtain ⟨file, d, controls, t, hread, hanswered, htree, ha, hmaster⟩ := hout.ok_cases
  -- What an earlier cache holds, the later one holds too.
  refine ⟨t, ⟨file, d, controls, hread, fun entry hentry => ?_, htree, ha⟩,
    fun reference hreference => ?_⟩
  · exact lookup_mono hearlier (hanswered.mem.2 entry hentry)
  · obtain ⟨w, hw, hcheck⟩ := hmaster reference hreference
    exact ⟨w, lookup_mono hearlier hw, hcheck⟩

/-- The placeholders of an artifact are those of the tree, at whatever depth. -/
theorem Emitted.mem_placeholders {t : ControlTree} (h : c.Emitted s path a t) (id : String) :
    id ∈ a.placeholders ↔ ∃ y ∈ t.controls, y.hasType Controls.contentPlaceholder = true
      ∧ y.hardCoded? "ID" = some id := by
  obtain ⟨file, d, controls, -, -, -, rfl⟩ := h
  show id ∈ t.controls.filterMap Control.placeholder? ↔ _
  rw [List.mem_filterMap]
  unfold Control.placeholder?
  constructor
  · rintro ⟨y, hy, hid⟩
    split at hid
    · rename_i htype
      exact ⟨y, hy, htype, hid⟩
    · cases hid
  · rintro ⟨y, hy, htype, hid⟩
    exact ⟨y, hy, by rw [if_pos htype]; exact hid⟩

/-- All controls at the top level of a tree with a master page are content. -/
theorem hasType_content_of_tree {d : Document} {controls : List (String × CompiledView)}
    {t : ControlTree} (h : c.tree path d controls = .ok t)
    (hmaster : t.directives.master.isSome = true) :
    ∀ x ∈ t.topLevel, x.hasType Controls.content = true := by
  obtain ⟨resolved, hresolved, rfl, herrors, -⟩ := checked_of_tree h
  intro x hx
  obtain ⟨y, hy, hmetadata⟩ := ControlTree.exists_of_mem_topLevel_styled hx
  have htype := ControlTree.hasType_content_of_mem_topLevel hresolved herrors hmaster hy
  unfold Control.hasType Control.type at htype ⊢
  rwa [hmetadata]

/-- All content of a tree that has passed the checks says where it goes, if it has to. -/
theorem exists_placeholderId_of_tree {d : Document} {controls : List (String × CompiledView)}
    {t : ControlTree} (h : c.tree path d controls = .ok t)
    (hrequires : c.types.RequiresText Controls.content Controls.placeholderId) {x : Control}
    (hx : x ∈ t.controls) (htype : x.hasType Controls.content = true) :
    ∃ id, x.hardCoded? Controls.placeholderId = some id := by
  obtain ⟨resolved, hresolved, rfl, herrors, husage⟩ := checked_of_tree h
  -- The checks ran on this very tree, after marks and styles.
  have hplain : IsPlainName Controls.placeholderId := ⟨by decide, by decide⟩
  exact Control.exists_hardCoded (ControlTree.proper_of_checked herrors husage x hx)
    (ControlTree.described_styled hplain hresolved c.options.styles x hx) hrequires htype
    (by decide)

/-- What the check against a master page has found: an artifact, and no content at the top level
for a placeholder that it lacks. -/
theorem placed_of_checkMaster {t : ControlTree} {reference : MasterReference}
    {w : CompiledView} (h : c.checkMaster t reference w = .ok ()) :
    ∃ m, w.artifact? = some m ∧ ∀ x ∈ t.topLevel, x.hasType Controls.content = true →
      ∀ id, x.hardCoded? Controls.placeholderId = some id → id ∈ m.placeholders := by
  unfold checkMaster at h
  cases hm : w.artifact? with
  | none =>
      rw [hm] at h
      cases h
  | some m =>
      refine ⟨m, rfl, fun x hx htype id hid => ?_⟩
      rw [hm] at h
      dsimp only at h
      split at h
      · -- Nothing was found wrong at the top level, so nothing with this content.
        have hnone := List.map_eq_nil_iff.1 (Failure.unlessNone_eq_ok h)
        have herror := List.filterMap_eq_nil_iff.1 hnone x hx
        unfold placeholderError? at herror
        rw [if_pos htype, show x.hardCoded? "ContentPlaceHolderID" = some id from hid] at herror
        dsimp only at herror
        split at herror
        · rename_i hmem
          exact hmem
        · cases herror
      · cases h

/-! ## §3. Content and placeholders. -/

/-- **CONTENT AT THE TOP LEVEL FINDS ITS PLACEHOLDER.**  After any requests, a view that compiled
was emitted from a tree.  If that has a master page, the master page has compiled; every control
at the top level is content; and if it names a placeholder, it is one of those in the tree of the
master page.  Over a registry that declares content as the standard controls do, it does name
one.  So all content does, just if the root, if it is content, and the content below the top level
do. -/
theorem content_placed (c : Compiler) (paths : List String) {path : String} {v : CompiledView}
    {a : Artifact} (hv : (c.compileAll paths .empty).2.find? path = some v)
    (ha : v.artifact? = some a) :
    ∃ t, c.Emitted (c.compileAll paths .empty).2 path a t
      ∧ ∀ reference, t.directives.master = some reference →
        ∃ w m tm, (c.compileAll paths .empty).2.find? reference.path = some w
          ∧ w.artifact? = some m ∧ c.Emitted (c.compileAll paths .empty).2 reference.path m tm
          ∧ (∀ id, id ∈ m.placeholders ↔ ∃ y ∈ tm.controls,
            y.hasType Controls.contentPlaceholder = true ∧ y.hardCoded? "ID" = some id)
          ∧ (∀ x ∈ t.topLevel, x.hasType Controls.content = true
            ∧ ∀ id, x.hardCoded? Controls.placeholderId = some id → id ∈ m.placeholders)
          ∧ (c.types.RequiresText Controls.content Controls.placeholderId →
            (∀ x ∈ t.topLevel, x.NamesOneOf m.placeholders)
              ∧ ((∀ x ∈ t.controls, x.hasType Controls.content = true →
                  x.NamesOneOf m.placeholders)
                ↔ ∀ x ∈ t.root :: t.nested, x.hasType Controls.content = true →
                  x.NamesOneOf m.placeholders)) := by
  have hsettled := c.compileAll_settled paths
  obtain ⟨t, hemitted, hmaster⟩ := emitted_of_lookup hsettled hv ha
  refine ⟨t, hemitted, fun reference hreference => ?_⟩
  obtain ⟨w, hw, hcheck⟩ := hmaster reference hreference
  obtain ⟨m, hm, hplaced⟩ := placed_of_checkMaster hcheck
  obtain ⟨tm, hemittedMaster, -⟩ := emitted_of_lookup hsettled hw hm
  obtain ⟨file, d, controls, -, -, htree, -⟩ := hemitted
  have htype := hasType_content_of_tree htree (by rw [hreference]; rfl)
  refine ⟨w, m, tm, hw, hm, hemittedMaster, hemittedMaster.mem_placeholders,
    fun x hx => ⟨htype x hx, hplaced x hx (htype x hx)⟩, fun hrequires => ?_⟩
  have htop : ∀ x ∈ t.topLevel, x.NamesOneOf m.placeholders := by
    intro x hx
    obtain ⟨id, hid⟩ := exists_placeholderId_of_tree htree hrequires
      (ControlTree.mem_controls_iff.2 (.inr (.inl hx))) (htype x hx)
    exact ⟨id, hplaced x hx (htype x hx) id hid, hid⟩
  refine ⟨htop, fun hall x hx => ?_, fun hothers x hx hcontent => ?_⟩
  · refine hall x (ControlTree.mem_controls_iff.2 ?_)
    exact (List.mem_cons.1 hx).imp_right .inr
  · rcases ControlTree.mem_controls_iff.1 hx with rfl | hx | hx
    · exact hothers _ List.mem_cons_self hcontent
    · exact htop x hx
    · exact hothers x (List.mem_cons_of_mem _ hx) hcontent

/-- **All registries that extend the standard controls** declare content, and placeholders, in
that way. -/
theorem requiresText_of_registerAll {es : List TypeEntry} {r : Registry}
    (h : Controls.registry.registerAll es = .ok r) :
    r.RequiresText Controls.content Controls.placeholderId
      ∧ r.RequiresText Controls.contentPlaceholder "ID" := by
  constructor
  · refine Registry.RequiresText.registerAll ?_ h
    refine ⟨(Controls.container Controls.content).addCapability Controls.placeholderId .string
      MarkupOptions.hardCodedOnly.mandatory, _, ?_, rfl, rfl⟩
    decide +kernel
  · refine Registry.RequiresText.registerAll ?_ h
    refine ⟨(Controls.container Controls.contentPlaceholder).addCapability "ID" .string
      MarkupOptions.hardCodedOnly.mandatory, _, ?_, rfl, rfl⟩
    decide +kernel

/-- A master page with one placeholder, and two pages with it.  The second has content inside of
its content, for a placeholder that is not there. -/
def brochure : Compiler :=
  { types :=
      [Controls.container Controls.view,
        (Controls.container Controls.content).addCapability Controls.placeholderId .string
          MarkupOptions.hardCodedOnly.mandatory,
        (Controls.container Controls.contentPlaceholder).addCapability "ID" .string
          MarkupOptions.hardCodedOnly.mandatory].foldl Registry.insert Registry.empty
    options := .default
    source := .ofMemory
      [("site.dotmaster", "<html><dot:ContentPlaceHolder ID=main /></html>"),
       ("page.dotmaster", "@masterPage site.dotmaster\n"
          ++ "<dot:Content ContentPlaceHolderID=main></dot:Content>"),
       ("odd.dotmaster", "@masterPage site.dotmaster\n<dot:Content ContentPlaceHolderID=main>"
          ++ "<dot:Content ContentPlaceHolderID=nope /></dot:Content>")] }

/-- The tree of an artifact has the master page that the builder names. -/
theorem Emitted.exists_master {t : ControlTree} (h : c.Emitted s path a t) {q : String}
    (hq : a.unit.master = some q) :
    ∃ reference, t.directives.master = some reference ∧ reference.path = q := by
  obtain ⟨file, d, controls, -, -, -, rfl⟩ := h
  exact Option.map_eq_some_iff.1 hq

/-- The first page compiles, with its master page. -/
theorem artifacts_page :
    ((brochure.compileAll ["page.dotmaster"] .empty).2.find? "page.dotmaster").map
        (fun v => v.artifact?.map (fun a => a.unit.master)) = some (some (some "site.dotmaster"))
      ∧ ((brochure.compileAll ["page.dotmaster"] .empty).2.find? "site.dotmaster").map
        (fun v => v.artifact?.map Artifact.placeholders) = some (some ["main"]) := by
  decide +kernel

/-- So does the second one. -/
theorem artifacts_odd :
    ((brochure.compileAll ["odd.dotmaster"] .empty).2.find? "odd.dotmaster").map
        (fun v => v.artifact?.map (fun a => (a.unit.master, a.dependencies)))
        = some (some (some "site.dotmaster", ["site.dotmaster"]))
      ∧ ((brochure.compileAll ["odd.dotmaster"] .empty).2.find? "site.dotmaster").map
        (fun v => v.artifact?.map Artifact.placeholders) = some (some ["main"]) := by
  decide +kernel

/-- The content of the second page. -/
theorem content_odd : (brochure.read "odd.dotmaster").toOption.map (fun found =>
    (brochure.tree "odd.dotmaster" found.2 []).toOption.map (fun t => t.controls.map (fun x =>
      (x.hasType Controls.content, x.hardCoded? Controls.placeholderId))))
    = some (some [(false, none), (true, some "main"), (true, some "nope")]) := by
  decide +kernel

/-- The content of the first page names the placeholder. -/
theorem content_placed_brochure :
    ∃ (v : CompiledView) (a : Artifact) (t : ControlTree) (m : Artifact),
      (brochure.compileAll ["page.dotmaster"] .empty).2.find? "page.dotmaster" = some v
      ∧ v.artifact? = some a
      ∧ brochure.Emitted (brochure.compileAll ["page.dotmaster"] .empty).2 "page.dotmaster" a t
      ∧ m.placeholders = ["main"]
      ∧ ∀ x ∈ t.topLevel, x.hasType Controls.content = true ∧ x.NamesOneOf m.placeholders := by
  have hrequires : brochure.types.RequiresText Controls.content Controls.placeholderId := by
    refine ⟨(Controls.container Controls.content).addCapability Controls.placeholderId .string
      MarkupOptions.hardCodedOnly.mandatory, _, ?_, rfl, rfl⟩
    decide +kernel
  obtain ⟨v, hv, hmap⟩ := Option.map_eq_some_iff.1 artifacts_page.1
  obtain ⟨a, ha, hmaster⟩ := Option.map_eq_some_iff.1 hmap
  obtain ⟨t, hemitted, hplaced⟩ := content_placed brochure ["page.dotmaster"] hv ha
  obtain ⟨reference, hreference, hpath⟩ := hemitted.exists_master hmaster
  obtain ⟨w, m, -, hw, hm, -, -, hcontent, hnames⟩ := hplaced reference hreference
  refine ⟨v, a, t, m, hv, ha, hemitted, ?_,
    fun x hx => ⟨(hcontent x hx).1, (hnames hrequires).1 x hx⟩⟩
  have hsite := artifacts_page.2
  rw [← hpath, hw, Option.map_some, hm, Option.map_some] at hsite
  exact Option.some.inj (Option.some.inj hsite)

/-- **Content inside of content goes unchecked**: the second page compiles, although its inner
content names a placeholder that its master page does not declare. -/
theorem nested_content_unplaced :
    ∃ (v : CompiledView) (a : Artifact) (t : ControlTree) (reference : MasterReference)
      (w : CompiledView) (m : Artifact),
      (brochure.compileAll ["odd.dotmaster"] .empty).2.find? "odd.dotmaster" = some v
      ∧ v.artifact? = some a
      ∧ brochure.Emitted (brochure.compileAll ["odd.dotmaster"] .empty).2 "odd.dotmaster" a t
      ∧ t.directives.master = some reference
      ∧ (brochure.compileAll ["odd.dotmaster"] .empty).2.find? reference.path = some w
      ∧ w.artifact? = some m
      ∧ ∃ x ∈ t.controls, x.hasType Controls.content = true ∧ ¬ x.NamesOneOf m.placeholders := by
  obtain ⟨v, hv, hmap⟩ := Option.map_eq_some_iff.1 artifacts_odd.1
  obtain ⟨a, ha, hmap⟩ := Option.map_eq_some_iff.1 hmap
  obtain ⟨hmaster, hdependencies⟩ := Prod.mk.inj hmap
  obtain ⟨w, hw, hmap⟩ := Option.map_eq_some_iff.1 artifacts_odd.2
  obtain ⟨m, hm, hplaceholders⟩ := Option.map_eq_some_iff.1 hmap
  obtain ⟨t, hemitted, -⟩ := emitted_of_lookup (brochure.compileAll_settled ["odd.dotmaster"])
    hv ha
  obtain ⟨reference, hreference, hpath⟩ := hemitted.exists_master hmaster
  rw [← hpath] at hw hdependencies
  refine ⟨v, a, t, reference, w, m, hv, ha, hemitted, hreference, hw, hm, ?_⟩
  obtain ⟨file, d, controls, hread, -, hbuilt, rfl⟩ := hemitted
  -- The page has no markup controls, so its tree is the one that was looked at.
  have hnone : controls = [] := by
    have hlist : (t.directives.master.map MasterReference.path).toList ++ controls.map Prod.fst
        = [reference.path] := hdependencies
    rw [hreference] at hlist
    exact List.map_eq_nil_iff.1 (List.cons.inj hlist).2
  subst hnone
  have hshown := content_odd
  rw [hread] at hshown
  replace hshown := Option.some.inj hshown
  dsimp only at hshown
  rw [hbuilt] at hshown
  have hcontent : t.controls.map (fun x =>
      (x.hasType Controls.content, x.hardCoded? Controls.placeholderId))
      = [(false, none), (true, some "main"), (true, some "nope")] := Option.some.inj hshown
  have hlast : (true, some "nope") ∈ t.controls.map (fun x =>
      (x.hasType Controls.content, x.hardCoded? Controls.placeholderId)) := by
    rw [hcontent]
    exact List.mem_cons_of_mem _ (List.mem_cons_of_mem _ List.mem_cons_self)
  obtain ⟨x, hx, hxshown⟩ := List.mem_map.1 hlast
  obtain ⟨htype, hid⟩ := Prod.mk.inj hxshown
  refine ⟨x, hx, htype, ?_⟩
  rintro ⟨id, hmem, hid'⟩
  rw [hid] at hid'
  rw [hplaceholders, ← Option.some.inj hid'] at hmem
  exact absurd hmem (by decide)

end Compiler

end BoundMarkup
