/-
  BoundMarkup.View.Directives
  ───────────────────────────
  **WHAT A VIEW DECLARES ABOUT ITSELF.**

  Directives name the view model, the master page, the imported name spaces and
  the base type.  Only a master page can do without a view model, and a markup
  control has no master page.
-/
import BoundMarkup.Markup.Document
import BoundMarkup.View.Report

namespace BoundMarkup

/-- The master page of a view. -/
structure MasterReference where
  path : String
  /-- Position of the directive. -/
  span : Span
  deriving DecidableEq, Repr

/-- The directives of a view, with the types they name. -/
structure Directives where
  viewModel : TypeRef
  master : Option MasterReference
  /-- The name spaces searched for types in bindings. -/
  imports : List String
  baseType : Option TypeRef
  deriving DecidableEq, Repr

namespace Directives

open Markup (Directive Document)

/-- The imported name spaces of a document. -/
def importsOf (d : Document) : List String :=
  ((d.directivesNamed "import").map (fun x => Text.trim x.value)).filter (· ≠ "")

/-- The only directive of a name, if there is one. -/
def single? (d : Document) (name : String) : Except ViewError (Option Directive) :=
  match d.directivesNamed name with
  | _ :: second :: _ => .error (.duplicateDirective name second.span)
  | found => .ok found.head?

/-- The type that a directive names; a module may follow after a comma. -/
def typeOf (r : Registry) (spaces : List String) (x : Directive) : Except ViewError TypeRef :=
  let name := Text.trim (Text.beforeFirst ',' x.value)
  match r.resolve? name spaces with
  | some type => .ok type
  | none => .error (.unknownDirectiveType name x.name x.span)

/-- The view model. -/
def viewModelOf (r : Registry) (spaces : List String) (kind : ViewKind) (d : Document) :
    Except ViewError TypeRef := do
  match ← single? d "viewModel" with
  | some x => typeOf r spaces x
  | none => if kind = .masterPage then .ok .object else .error (.missingViewModel kind)

/-- The master page. -/
def masterOf (kind : ViewKind) (d : Document) : Except ViewError (Option MasterReference) := do
  match ← single? d "masterPage" with
  | some x =>
      if kind = .markupControl then .error (.masterOnControl x.span)
      else .ok (some ⟨ViewPath.normalize x.value, x.span⟩)
  | none => .ok none

/-- The base type. -/
def baseTypeOf (r : Registry) (spaces : List String) (d : Document) :
    Except ViewError (Option TypeRef) := do
  match ← single? d "baseType" with
  | some x => (typeOf r spaces x).map some
  | none => .ok none

/-- **The directives of a document.** -/
def ofDocument (r : Registry) (kind : ViewKind) (d : Document) : Except ViewError Directives := do
  let imports := importsOf d
  let spaces := imports ++ Builtins.defaultSpaces
  let viewModel ← viewModelOf r spaces kind d
  let master ← masterOf kind d
  let baseType ← baseTypeOf r spaces d
  .ok ⟨viewModel, master, imports, baseType⟩

end Directives

end BoundMarkup
