/-
  BoundMarkup.View.Compiler
  ─────────────────────────
  **COMPILING VIEWS.**

  A view is loaded, read, resolved, checked and emitted.  Its markup controls
  are compiled before it is resolved, its master page after it has been checked,
  all of them through one cache.  A view that is needed for its own compilation
  is refused: the chain of views under construction never holds a path twice.
-/
import BoundMarkup.Markup.Scanner
import BoundMarkup.View.Compiled
import BoundMarkup.View.ErrorCheck
import BoundMarkup.View.Source
import BoundMarkup.View.Style
import BoundMarkup.View.Tree
import BoundMarkup.View.Usage

namespace BoundMarkup

open Markup (Document)

/-! ## §1. Stages. -/

/-- Why there is no artifact. -/
inductive Failure where
  | error (error : ViewError)
  | reports (reports : List Report)
  | master (error : ViewError) (master : CompiledView)

namespace Failure

/-- The view that failed. -/
def view (path : String) : Failure → CompiledView
  | error e => .refused path [e.report path]
  | reports rs => .refused path rs
  | master e m => .blocked path (e.report path) m

/-- Any report is a failure. -/
def unlessNone (rs : List Report) : Except Failure Unit :=
  if rs.isEmpty then .ok () else .error (.reports rs)

/-- An error of the view is a failure. -/
def lift {α : Type} : Except ViewError α → Except Failure α
  | .ok a => .ok a
  | .error e => .error (.error e)

end Failure

/-- What views are compiled with. -/
structure Compiler where
  types : Registry
  options : Options
  source : MarkupSource

namespace Compiler

/-- The document of a file. -/
def document (content : String) : Except ViewError Document :=
  match Markup.tokenize content with
  | .ok tokens => .ok (.ofTokens tokens)
  | .error e => .error (.malformed e)

/-- What controls are looked up in, with the markup controls by path. -/
def scope (c : Compiler) (controls : List (String × CompiledView)) : ControlScope :=
  ⟨c.types, c.options, fun path =>
    (controls.find? (fun entry => entry.1 == path)).bind (fun entry => entry.2.signature?)⟩

/-- The tree of a document, checked and ready to be emitted. -/
def tree (c : Compiler) (path : String) (d : Document) (controls : List (String × CompiledView)) :
    Except Failure ControlTree := do
  let resolved ← Failure.lift
    (ControlTree.ofDocument (c.scope controls) path (ViewKind.ofPath path) d)
  Failure.unlessNone resolved.errorReports
  let styled := resolved.markContexts.styled c.options.styles
  Failure.unlessNone (styled.usageReports c.types)
  .ok styled

/-- The artifact of a checked tree. -/
def artifact (c : Compiler) (file : MarkupFile) (t : ControlTree) (controls : List String) :
    Artifact :=
  { unit := .ofTree (.ofFile file.fileName file.modified) t
    modules := t.modules c.types
    viewModel := t.directives.viewModel
    baseType := t.root.type
    placeholders := t.placeholders
    dependencies := (t.directives.master.map MasterReference.path).toList ++ controls }

/-- A content control for a placeholder that the master page does not declare. -/
def placeholderError? (master : String) (placeholders : List String) (c : Control) :
    Option NodeError :=
  if c.hasType Controls.content then
    match c.hardCoded? "ContentPlaceHolderID" with
    | some id => if id ∈ placeholders then none else some ⟨.unknownPlaceholder master id, c.span⟩
    | none => none
  else none

/-- Check a view against its master page. -/
def checkMaster (c : Compiler) (t : ControlTree) (reference : MasterReference)
    (master : CompiledView) : Except Failure Unit :=
  match master.artifact? with
  | none => .error (.master (.masterFailed reference.path reference.span) master)
  | some a =>
      if c.types.isAssignable t.directives.viewModel a.viewModel then
        Failure.unlessNone
          ((t.topLevel.filterMap (placeholderError? reference.path a.placeholders)).map
            (NodeError.report t.path))
      else
        .error (.error
          (.viewModelMismatch t.directives.viewModel a.viewModel reference.path reference.span))

/-! ## §2. Dependencies. -/

/-- A way to get the view of a path. -/
abbrev Request := String → ViewCache → CompiledView × ViewCache

/-- The walk from a path back to itself, if the path is under construction. -/
def cycle? (chain : List String) (path : String) : Option (List String) :=
  if path ∈ chain then some (chain.dropWhile (fun p => p != path) ++ [path]) else none

/-- Get a view that another one depends on. -/
def require (request : Request) (chain : List String) (path : String) (span : Span)
    (s : ViewCache) : Except ViewError CompiledView × ViewCache :=
  match cycle? chain path with
  | some walk => (.error (.cycle walk span), s)
  | none =>
      let (view, s) := request path s
      (.ok view, s)

/-- Get all of the views, up to the first that would be needed for itself. -/
def requireAll (request : Request) (chain : List String) :
    List (String × Span) → ViewCache → Except ViewError (List (String × CompiledView)) × ViewCache
  | [], s => (.ok [], s)
  | (path, span) :: rest, s =>
      match require request chain path span s with
      | (.error e, s) => (.error e, s)
      | (.ok view, s) =>
          match requireAll request chain rest s with
          | (.error e, s) => (.error e, s)
          | (.ok views, s) => (.ok ((path, view) :: views), s)

/-- Emit a checked tree, once its master page has compiled and fits. -/
def emit (c : Compiler) (request : Request) (chain : List String) (file : MarkupFile)
    (t : ControlTree) (controls : List String) (s : ViewCache) :
    Except Failure Artifact × ViewCache :=
  match t.directives.master with
  | none => (.ok (c.artifact file t controls), s)
  | some reference =>
      match require request chain reference.path reference.span s with
      | (.error e, s) => (.error (.error e), s)
      | (.ok master, s) =>
          ((c.checkMaster t reference master).map (fun _ => c.artifact file t controls), s)

/-- All stages for a path that is the last of the chain. -/
def stages (c : Compiler) (request : Request) (chain : List String) (path : String)
    (s : ViewCache) : Except Failure Artifact × ViewCache :=
  match c.source.load? path with
  | none => (.error (.error (.notFound path)), s)
  | some file =>
      match document file.content with
      | .error e => (.error (.error e), s)
      | .ok d =>
          match requireAll request chain (markupReferences c.options d) s with
          | (.error e, s) => (.error (.error e), s)
          | (.ok controls, s) =>
              match c.tree path d controls with
              | .error failure => (.error failure, s)
              | .ok t => c.emit request chain file t (controls.map Prod.fst) s

/-- The view of a path that is the last of the chain. -/
def build (c : Compiler) (request : Request) (chain : List String) (path : String)
    (s : ViewCache) : CompiledView × ViewCache :=
  match c.stages request chain path (s.noteLoad path) with
  | (.ok a, s) => (.built path a, s)
  | (.error failure, s) => (failure.view path, s)

/-! ## §3. Compilation. -/

/-- The view of a path, below a chain of views under construction.  Each round
makes the chain one path longer. -/
def compileBelow (c : Compiler) : Nat → List String → Request
  | 0, _, path, s => (.refused path [], s)
  | rounds + 1, chain, path, s =>
      match s.find? path with
      | some view => (view, s)
      | none =>
          let chain := chain ++ [path]
          let (view, s) := c.build (c.compileBelow rounds chain) chain path s
          s.store view

/-- No chain is longer: after the first path, each is the source of a markup
control or the master page named by some content. -/
def rounds (c : Compiler) : Nat :=
  c.source.contents.length + c.options.markupControls.length + 1

/-- **The compiled view of a path**, from the cache if it is there. -/
def compile (c : Compiler) (path : String) (s : ViewCache) : CompiledView × ViewCache :=
  c.compileBelow c.rounds [] (ViewPath.normalize path) s

/-- The compiled views of the paths, one after the other. -/
def compileAll (c : Compiler) : List String → ViewCache → List CompiledView × ViewCache
  | [], s => ([], s)
  | path :: paths, s =>
      let (view, s) := c.compile path s
      let (views, s) := c.compileAll paths s
      (view :: views, s)

end Compiler

end BoundMarkup
