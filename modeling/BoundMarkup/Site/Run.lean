/-
  BoundMarkup.Site.Run
  ────────────────────
  **COMPILING A WHOLE SITE.**

  All views of a configuration are compiled in their order, through one cache.
  Whether a view that fails fails the run is left to the caller.
-/
import BoundMarkup.Site.Config
import BoundMarkup.Site.FileTree
import BoundMarkup.View.Compiler

namespace BoundMarkup

structure SiteRun where
  /-- Markup controls first, then routes. -/
  views : List CompiledView
  debug : Bool
  deriving Repr

namespace SiteRun

def succeeded (r : SiteRun) : Bool := r.views.all CompiledView.succeeded

/-- The views that failed. -/
def failed (r : SiteRun) : List CompiledView := r.views.filter (fun v => !v.succeeded)

/-- The modules that the views refer to, sorted. -/
def modules (r : SiteRun) : List String :=
  sortedDistinct ((r.views.filterMap CompiledView.artifact?).flatMap Artifact.modules)

/-- The view of a path, in any of its spellings. -/
def view? (r : SiteRun) (path : String) : Option CompiledView :=
  r.views.find? (fun v => v.path == ViewPath.normalize path)

/-- The reports about all views. -/
def reports (r : SiteRun) : List Report := r.views.flatMap CompiledView.reports

end SiteRun

/-- **Compile all views of a configuration.** -/
def Config.run (config : Config) (types : Registry) (source : MarkupSource) :
    SiteRun × ViewCache :=
  let compiler : Compiler := ⟨types, config.options, source⟩
  let (views, cache) := compiler.compileAll config.viewPaths .empty
  (⟨views, config.debug⟩, cache)

end BoundMarkup
