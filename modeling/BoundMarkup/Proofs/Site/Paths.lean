/-
  BoundMarkup.Proofs.Site.Paths
  ─────────────────────────────
  **ONE SPELLING FOR A VIEW.**

  Normalizing drops blanks first and roots afterwards, so a blank that stood behind
  a root is left at the front; normalizing once more drops it.  A spelling without
  such a blank is the last one (`normalize_normalize_iff`).

  A run normalizes each path of its configuration twice, and a search in its views
  normalizes once.  So views and paths belong together just if no path is left with
  a blank at its front.  Main statement: `run_paths`.
-/
import BoundMarkup.Proofs.Compile.Ledger
import BoundMarkup.Proofs.Registry.Reordering
import BoundMarkup.Site.Run

namespace BoundMarkup

/-! ## §1. Trimmed texts. -/

namespace Text

variable {cs : List Char}

/-- Only blanks at the ends are dropped. -/
theorem trimChars_eq_self (hfirst : cs.head?.any isBlank = false)
    (hlast : cs.getLast?.any isBlank = false) : trimChars cs = cs := by
  have hfront : ∀ {ds : List Char}, ds.head?.any isBlank = false → ds.dropWhile isBlank = ds := by
    intro ds hds
    cases ds with
    | nil => rfl
    | cons d ds =>
        rw [List.head?_cons, Option.any_some] at hds
        exact List.dropWhile_cons_of_neg (by rw [hds]; exact Bool.false_ne_true)
  unfold trimChars trimEndChars
  rw [hfront hfirst, hfront (by rwa [List.head?_reverse]), List.reverse_reverse]

/-- There is no blank at the end. -/
theorem getLast?_trimChars (cs : List Char) : (trimChars cs).getLast?.any isBlank = false := by
  unfold trimChars trimEndChars
  rw [List.getLast?_reverse]
  have hnot := List.head?_dropWhile_not isBlank (cs.dropWhile isBlank).reverse
  split at hnot
  · rename_i c hhead
    rw [hhead]
    exact hnot
  · rename_i hhead
    rw [hhead]
    rfl

/-- A blank at the front is dropped. -/
theorem length_trimChars_lt (h : cs.head?.any isBlank = true) :
    (trimChars cs).length < cs.length := by
  cases cs with
  | nil => cases h
  | cons c cs =>
      rw [List.head?_cons, Option.any_some] at h
      unfold trimChars trimEndChars
      rw [List.dropWhile_cons_of_pos h, List.length_reverse, List.length_cons]
      refine Nat.lt_succ_of_le ((List.dropWhile_sublist _).length_le.trans ?_)
      rw [List.length_reverse]
      exact (List.dropWhile_sublist _).length_le

end Text

/-! ## §2. Normalizing twice. -/

namespace ViewPath

variable {cs : List Char} {path : String}

/-- There is a blank at the front. -/
def blankFirst (path : String) : Bool := path.toList.head?.any Text.isBlank

theorem dropRoots_suffix (cs : List Char) : dropRoots cs <:+ cs := by
  fun_induction dropRoots cs with
  | case1 cs ih => exact ih.trans (List.suffix_append ['.', '/'] cs)
  | case2 cs ih => exact ih.trans (List.suffix_cons '/' cs)
  | case3 cs ih => exact ih.trans (List.suffix_append ['~', '/'] cs)
  | case4 cs => exact List.suffix_rfl

theorem dropRoots_dropRoots (cs : List Char) : dropRoots (dropRoots cs) = dropRoots cs := by
  fun_induction dropRoots cs with
  | case1 cs ih => exact ih
  | case2 cs ih => exact ih
  | case3 cs ih => exact ih
  | case4 cs noDot noSlash noTilde => exact dropRoots.eq_4 cs noDot noSlash noTilde

/-- Neither slash is a blank. -/
theorem isBlank_forwardSlash (c : Char) : Text.isBlank (forwardSlash c) = Text.isBlank c := by
  unfold forwardSlash
  split
  · rename_i hc
    rw [hc]
    decide
  · rfl

theorem toList_normalize (path : String) :
    (normalize path).toList = dropRoots ((Text.trimChars path.toList).map forwardSlash) := by
  unfold normalize Text.trim
  rw [String.toList_ofList, String.toList_ofList]

/-- **Nothing but a blank at the front** is left to be dropped. -/
structure Rootless (cs : List Char) : Prop where
  slashes : '\\' ∉ cs
  roots : dropRoots cs = cs
  last : cs.getLast?.any Text.isBlank = false

/-- A normalized path is like that. -/
theorem rootless_normalize (path : String) : Rootless (normalize path).toList := by
  rw [toList_normalize]
  have hsuffix := dropRoots_suffix ((Text.trimChars path.toList).map forwardSlash)
  refine ⟨fun h => ?_, dropRoots_dropRoots _, ?_⟩
  · obtain ⟨c, -, hc⟩ := List.mem_map.1 (hsuffix.subset h)
    unfold forwardSlash at hc
    split at hc
    · exact absurd hc (by decide)
    · rename_i hne
      exact hne hc
  · -- What is left is the end of the trimmed path, with its slashes turned.
    have htrimmed : ((Text.trimChars path.toList).map forwardSlash).getLast?.any Text.isBlank
        = false := by
      have hlast := Text.getLast?_trimChars path.toList
      rw [List.getLast?_map, Option.any_map]
      rw [← hlast]
      congr 1
      funext c
      exact isBlank_forwardSlash c
    cases hdropped : dropRoots ((Text.trimChars path.toList).map forwardSlash) with
    | nil => rfl
    | cons c cs =>
        obtain ⟨front, hfront⟩ := hsuffix
        rw [← hfront, hdropped, List.getLast?_append, List.getLast?_cons, Option.some_or]
          at htrimmed
        rwa [List.getLast?_cons]

/-- So without a blank at the front it stays as it is. -/
theorem Rootless.normalize_eq (h : Rootless path.toList) (hfirst : blankFirst path = false) :
    normalize path = path := by
  rw [← String.toList_inj, toList_normalize, Text.trimChars_eq_self hfirst h.last]
  have hslashes : path.toList.map forwardSlash = path.toList := by
    refine (List.map_congr_left fun c hc => ?_).trans (List.map_id _)
    refine if_neg ?_
    rintro rfl
    exact h.slashes hc
  rw [hslashes, h.roots]

/-- **Normalizing once more changes nothing** just if no blank is left at the front. -/
theorem normalize_normalize_iff :
    normalize (normalize path) = normalize path ↔ blankFirst (normalize path) = false := by
  refine ⟨fun h => ?_, (rootless_normalize path).normalize_eq⟩
  by_contra hfirst
  have hlt := Text.length_trimChars_lt (Bool.not_eq_false _ ▸ hfirst)
  have hle := (dropRoots_suffix
    ((Text.trimChars (normalize path).toList).map forwardSlash)).length_le
  rw [← toList_normalize, h, List.length_map] at hle
  omega

end ViewPath

/-! ## §3. Runs. -/

namespace Config

variable {config : Config} {path : String}

/-- The paths of the configuration as they are written, without blank ones. -/
def written (config : Config) : List String :=
  (config.options.markupControls.map MarkupControl.source
    ++ config.routes.map Route.viewPath).filter (fun path => !Text.allBlank path)

theorem mem_viewPaths : path ∈ config.viewPaths
    ↔ ∃ spelling ∈ config.written, ViewPath.normalize spelling = path :=
  Hierarchy.mem_distinct.trans List.mem_map

theorem viewPaths_nodup (config : Config) : config.viewPaths.Nodup :=
  Hierarchy.nodup_foldl_distinct _ [] List.nodup_nil

/-- Answers that are found under keys are in the order of the keys. -/
theorem map_path_of_found {views : List CompiledView} {find? : String → Option CompiledView}
    (hfind : ∀ key v, find? key = some v → v.path = key) {keys : List String}
    (h : views.map some = keys.map find?) : views.map CompiledView.path = keys := by
  induction keys generalizing views with
  | nil => rw [List.map_eq_nil_iff.1 h, List.map_nil]
  | cons key keys ih =>
      cases views with
      | nil => cases h
      | cons v views =>
          rw [List.map_cons, List.map_cons, List.cons.injEq] at h
          rw [List.map_cons, hfind key v h.1.symm, ih h.2]

/-- **A view for each path**, in their order, under the path normalized once more. -/
theorem map_path_run (config : Config) (types : Registry) (source : MarkupSource) :
    (config.run types source).1.views.map CompiledView.path
      = config.viewPaths.map ViewPath.normalize := by
  let compiler : Compiler := ⟨types, config.options, source⟩
  obtain ⟨-, -, hfound⟩ := compiler.compileAll_sound config.viewPaths .empty (.empty compiler)
  have hnamed : ∀ key v, (compiler.compileAll config.viewPaths .empty).2.find? key = some v →
      v.path = key := fun key v hv => lookup_path hv
  refine map_path_of_found hnamed (hfound.trans ?_)
  rw [List.map_map]
  rfl

/-- A search finds a view of the normalized path, if there is one. -/
theorem view?_isSome_iff {run : SiteRun} {path : String} :
    (run.view? path).isSome = true ↔ ViewPath.normalize path ∈ run.views.map CompiledView.path := by
  unfold SiteRun.view?
  rw [List.find?_isSome, List.mem_map]
  simp only [beq_iff_eq]

/-- What a search finds is a view of the run, under the normalized path. -/
theorem mem_of_view? {run : SiteRun} {v : CompiledView} (h : run.view? path = some v) :
    v ∈ run.views ∧ v.path = ViewPath.normalize path := by
  unfold SiteRun.view? at h
  have hpath := List.find?_some h
  exact ⟨List.mem_of_find?_eq_some h, beq_iff_eq.1 hpath⟩

/-- **HOW VIEWS AND PATHS BELONG TOGETHER.**  A normalized path is its own normal form just if no
blank is left at its front.  A run has a view for each path of its configuration, in their order,
under the path normalized once more; so views are named by the paths, and no two of them alike,
if no path has a blank at its front.  A path as it is written in the configuration is among the
paths after normalizing, and its view is found if no blank is left; in general a view is found
just if some path of the configuration leads to the same normal form. -/
theorem run_paths (config : Config) (types : Registry) (source : MarkupSource) :
    (∀ path, ViewPath.normalize (ViewPath.normalize path) = ViewPath.normalize path
        ↔ ViewPath.blankFirst (ViewPath.normalize path) = false)
      ∧ let run := (config.run types source).1
        run.views.map CompiledView.path = config.viewPaths.map ViewPath.normalize
          ∧ (run.views.map CompiledView.path = config.viewPaths
            ↔ ∀ path ∈ config.viewPaths, ViewPath.blankFirst path = false)
          ∧ ((∀ path ∈ config.viewPaths, ViewPath.blankFirst path = false) →
            (run.views.map CompiledView.path).Nodup)
          ∧ ∀ path ∈ config.written, ViewPath.normalize path ∈ config.viewPaths
            ∧ (ViewPath.blankFirst (ViewPath.normalize path) = false →
              ∃ v ∈ run.views, run.view? path = some v ∧ v.path = ViewPath.normalize path)
            ∧ ((run.view? path).isSome = true ↔ ∃ entry ∈ config.viewPaths,
              ViewPath.normalize entry = ViewPath.normalize path) := by
  refine ⟨fun path => ViewPath.normalize_normalize_iff, ?_⟩
  intro run
  have hviews := config.map_path_run types source
  -- Each path of the configuration is normalized, so it stays or has a blank at its front.
  have hstays : ∀ path ∈ config.viewPaths,
      ViewPath.normalize path = path ↔ ViewPath.blankFirst path = false := by
    intro path hpath
    obtain ⟨spelling, -, rfl⟩ := mem_viewPaths.1 hpath
    exact ViewPath.normalize_normalize_iff
  have hnames : run.views.map CompiledView.path = config.viewPaths
      ↔ ∀ path ∈ config.viewPaths, ViewPath.blankFirst path = false := by
    rw [hviews]
    constructor
    · intro h path hpath
      exact (hstays path hpath).1 (List.map_inj_left.1 (h.trans (List.map_id _).symm) path hpath)
    · intro h
      exact (List.map_congr_left fun path hpath => (hstays path hpath).2 (h path hpath)).trans
        (List.map_id _)
  refine ⟨hviews, hnames, fun h => ?_, fun path hpath => ?_⟩
  · rw [hnames.2 h]
    exact config.viewPaths_nodup
  · have hentry : ViewPath.normalize path ∈ config.viewPaths := mem_viewPaths.2 ⟨path, hpath, rfl⟩
    have hfound : (run.view? path).isSome = true ↔ ∃ entry ∈ config.viewPaths,
        ViewPath.normalize entry = ViewPath.normalize path := by
      rw [view?_isSome_iff, hviews, List.mem_map]
    refine ⟨hentry, fun hfirst => ?_, hfound⟩
    obtain ⟨v, hv⟩ := Option.isSome_iff_exists.1
      (hfound.2 ⟨_, hentry, (hstays _ hentry).2 hfirst⟩)
    exact ⟨v, (mem_of_view? hv).1, hv, (mem_of_view? hv).2⟩

/-- A page for each path. -/
def ofPaths (paths : List String) : Config := ⟨paths.map fun path => ⟨path, path⟩, .default, false⟩

/-- Without blanks in front, no two views have one name. -/
theorem run_paths_pages :
    (∀ path ∈ (ofPaths ["~/a.dothtml", ".\\b.dothtml"]).viewPaths,
        ViewPath.blankFirst path = false)
      ∧ (((ofPaths ["~/a.dothtml", ".\\b.dothtml"]).run .empty (.ofMemory [])).1.views.map
        CompiledView.path).Nodup := by
  have hfirst : ∀ path ∈ (ofPaths ["~/a.dothtml", ".\\b.dothtml"]).viewPaths,
      ViewPath.blankFirst path = false := by decide +kernel
  exact ⟨hfirst, (run_paths _ .empty (.ofMemory [])).2.2.2.1 hfirst⟩

/-- **A blank behind a root leads astray**: a path with one can be normalized twice.  So a run over
two spellings of one page has two views of one name, and the view of such a path is not found. -/
theorem blank_behind_root_misleads :
    ViewPath.normalize (ViewPath.normalize "~/ a.dothtml") ≠ ViewPath.normalize "~/ a.dothtml"
      ∧ (let run := ((ofPaths ["a.dothtml", "~/ a.dothtml"]).run .empty (.ofMemory [])).1
        run.views.map CompiledView.path ≠ (ofPaths ["a.dothtml", "~/ a.dothtml"]).viewPaths
          ∧ ¬ (run.views.map CompiledView.path).Nodup)
      ∧ "~/ a.dothtml" ∈ (ofPaths ["~/ a.dothtml"]).written
      ∧ ((ofPaths ["~/ a.dothtml"]).run .empty (.ofMemory [])).1.view? "~/ a.dothtml" = none := by
  refine ⟨by decide +kernel, ?_, by decide +kernel, ?_⟩
  · intro run
    have hviews : run.views.map CompiledView.path = ["a.dothtml", "a.dothtml"] :=
      (map_path_run _ _ _).trans (by decide +kernel)
    rw [hviews]
    exact ⟨by decide +kernel, by decide⟩
  · rw [← Option.not_isSome_iff_eq_none, view?_isSome_iff, map_path_run]
    decide +kernel

end Config

end BoundMarkup
