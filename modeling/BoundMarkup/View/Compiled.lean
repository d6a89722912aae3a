/-
  BoundMarkup.View.Compiled
  ─────────────────────────
  **WHAT BECOMES OF A VIEW.**

  A view is built, or it is refused with reports, or it is blocked by a master
  page that did not compile.  The first result for a path is kept for good.
-/
import BoundMarkup.Builder.Unit
import BoundMarkup.View.Tree

namespace BoundMarkup

/-! ## §1. Compiled views. -/

/-- What a view compiles to. -/
structure Artifact where
  unit : BuilderUnit
  /-- The modules that the builder refers to, sorted. -/
  modules : List String
  viewModel : TypeRef
  /-- The type of the root control. -/
  baseType : TypeRef
  /-- The placeholders that a master page declares. -/
  placeholders : List String
  /-- The master page, then the markup controls in order of their first use. -/
  dependencies : List String
  deriving DecidableEq, Repr

inductive CompiledView where
  | built (path : String) (artifact : Artifact)
  | refused (path : String) (reports : List Report)
  /-- The master page did not compile; its own reports stay with it. -/
  | blocked (path : String) (report : Report) (master : CompiledView)
  deriving Repr

namespace CompiledView

def path : CompiledView → String
  | built path _ => path
  | refused path _ => path
  | blocked path _ _ => path

def kind (v : CompiledView) : ViewKind := .ofPath v.path

def artifact? : CompiledView → Option Artifact
  | built _ artifact => some artifact
  | _ => none

def succeeded (v : CompiledView) : Bool := v.artifact?.isSome

def reports : CompiledView → List Report
  | built _ _ => []
  | refused _ reports => reports
  | blocked _ report _ => [report]

/-- The view that blocks this one. -/
def blocker? : CompiledView → Option CompiledView
  | blocked _ _ master => some master
  | _ => none

/-- What other views see of a markup control. -/
def signature? (v : CompiledView) : Option ControlSignature :=
  v.artifact?.map (fun a => ⟨a.baseType, a.viewModel⟩)

end CompiledView

/-! ## §2. The cache. -/

/-- The results so far, one for a path, and the paths whose files were loaded. -/
structure ViewCache where
  views : List CompiledView
  loads : List String
  deriving Repr

namespace ViewCache

/-- Nothing has been compiled. -/
def empty : ViewCache := ⟨[], []⟩

/-- The result for a path. -/
def find? (s : ViewCache) (path : String) : Option CompiledView :=
  s.views.find? (fun v => v.path == path)

/-- **Keep a result**, unless there is one for its path.  The answer is the
result that is kept. -/
def store (s : ViewCache) (v : CompiledView) : CompiledView × ViewCache :=
  match s.find? v.path with
  | some kept => (kept, s)
  | none => (v, { s with views := s.views ++ [v] })

/-- Note that the file of a path is loaded. -/
def noteLoad (s : ViewCache) (path : String) : ViewCache := { s with loads := s.loads ++ [path] }

/-- How often the file of a path was loaded. -/
def loadCount (s : ViewCache) (path : String) : Nat := s.loads.count (ViewPath.normalize path)

def size (s : ViewCache) : Nat := s.views.length

/-- The results in the order of their paths. -/
def sorted (s : ViewCache) : List CompiledView :=
  s.views.mergeSort (fun a b => decide (a.path ≤ b.path))

end ViewCache

end BoundMarkup
