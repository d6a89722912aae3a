/-
  BoundMarkup.Proofs.Compile.Terminal
  ───────────────────────────────────
  **WHAT A FINISHED VIEW LOOKS LIKE.**

  Every way in which the stages of a view can end leaves a view that either is
  built or has something to say, and says it about itself.  Main statement:
  `finished_of_mem`.
-/
import BoundMarkup.Proofs.Compile.Ledger

namespace BoundMarkup.Compiler

/-- **A finished view of a path**, in the cache that holds it. -/
structure Finished (c : Compiler) (s : ViewCache) (path : String) (v : CompiledView) : Prop where
  path_eq : v.path = path
  /-- It is what the cache answers for its path. -/
  stored : s.find? path = some v
  /-- There is an artifact, or there are reports, and not both. -/
  exclusive : (v.artifact?.isSome = true ∧ v.reports = [])
    ∨ (v.artifact? = none ∧ v.reports ≠ [])
  addressed : ∀ r ∈ v.reports, r.path = path
  /-- A view behind this one is the cached view of the declared master page, did
  not compile, and is all that there is to report. -/
  blocked : ∀ master, v.blocker? = some master →
    ∃ d reference, c.documentAt? path = some d
      ∧ Directives.masterOf (.ofPath path) d = .ok (some reference)
      ∧ v.reports = [(ViewError.masterFailed reference.path reference.span).report path]
      ∧ (∀ r ∈ v.reports, r.className = "DependencyFailed")
      ∧ s.find? reference.path = some master ∧ master.succeeded = false

/-- The report about a failed master page is of a class of its own. -/
theorem masterFailed_className (path master : String) (span : Span) :
    ((ViewError.masterFailed master span).report path).className = "DependencyFailed" :=
  Report.about_className _ _ _ _

/-- What the ledger justifies is finished. -/
theorem finished_of_lookup {c : Compiler} {s : ViewCache} (h : c.Settled s.views) {path : String}
    {v : CompiledView} (hv : s.find? path = some v) : c.Finished s path v := by
  have hpath : v.path = path := lookup_path hv
  obtain ⟨earlier, hearlier, chain, out, _, hout, hview⟩ := h.justified hv
  rw [hpath] at hout hview
  cases out with
  | ok a =>
      subst hview
      exact ⟨rfl, hv, Or.inl ⟨rfl, rfl⟩, fun r hr => absurd hr List.not_mem_nil, nofun⟩
  | error failure =>
      rcases hout.error_cases with hown | ⟨q, span, walk, _, _, rfl⟩ | hmaster
      · obtain ⟨rs, hrs, hne, hall⟩ := hown
        have hview : v = .refused path rs := hview.trans hrs
        subst hview
        exact ⟨rfl, hv, Or.inr ⟨rfl, hne⟩, fun r hr => (hall r hr).1, nofun⟩
      · have hview : v = .refused path [(ViewError.cycle walk span).report path] := hview
        subst hview
        refine ⟨rfl, hv, Or.inr ⟨rfl, List.cons_ne_nil _ _⟩, fun r hr => ?_, nofun⟩
        rw [List.mem_singleton.1 hr]
        exact Report.about_path _ _ _ _
      · obtain ⟨d, reference, master, hd, hm, hmv, hnone, rfl⟩ := hmaster
        have hview : v = .blocked path
            ((ViewError.masterFailed reference.path reference.span).report path) master := hview
        subst hview
        refine ⟨rfl, hv, Or.inr ⟨rfl, List.cons_ne_nil _ _⟩, fun r hr => ?_, ?_⟩
        · rw [List.mem_singleton.1 hr]
          exact Report.about_path _ _ _ _
        · -- The master page was finished before this view, and stays in the cache.
          intro blocker hblocker
          cases hblocker
          refine ⟨d, reference, hd, hm, rfl, fun r hr => ?_, lookup_mono hearlier hmv, ?_⟩
          · rw [List.mem_singleton.1 hr]
            exact masterFailed_className path reference.path reference.span
          · unfold CompiledView.succeeded
            rw [hnone]
            rfl

/-- **TERMINAL STATES.**  After any requests, every view in the cache is finished,
and every request has been answered with the view that the cache holds for it. -/
theorem finished_of_mem (c : Compiler) (paths : List String) :
    let s := (c.compileAll paths .empty).2
    (∀ v ∈ s.views, c.Finished s v.path v)
      ∧ (c.compileAll paths .empty).1.map some
          = paths.map (fun path => s.find? (ViewPath.normalize path)) := by
  intro s
  have hsettled := c.compileAll_settled paths
  refine ⟨fun v hv => ?_, (c.compileAll_sound paths .empty (.empty c)).2.2⟩
  exact finished_of_lookup hsettled (hsettled.lookup_of_mem hv)

/-- A view is blocked by the master page that it names, which is missing. -/
theorem finished_of_mem_sample :
    ∃ v ∈ (sample.compileAll ["lost.dotmaster"] .empty).2.views,
      sample.Finished (sample.compileAll ["lost.dotmaster"] .empty).2 v.path v
        ∧ v.blocker?.isSome = true := by
  have hblocked : ((sample.compileAll ["lost.dotmaster"] .empty).2.find? "lost.dotmaster").map
      (fun v => v.blocker?.isSome) = some true := by decide +kernel
  obtain ⟨v, hv, hb⟩ := Option.map_eq_some_iff.1 hblocked
  have hmem := mem_of_lookup hv
  exact ⟨v, hmem, (finished_of_mem sample ["lost.dotmaster"]).1 v hmem, hb⟩

end BoundMarkup.Compiler
