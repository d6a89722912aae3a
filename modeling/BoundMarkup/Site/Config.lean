/-
  BoundMarkup.Site.Config
  ───────────────────────
  **THE CONFIGURATION OF A SITE.**

  A configuration is a JSON object with routes and the options of the compiler.
  Fields that are left out have defaults, fields that are not known are left
  aside, and no field of one object may be given twice.  The parts of a list may
  be objects, or lists of their values in order.
-/
import BoundMarkup.Site.JsonValue
import BoundMarkup.View.Options
import BoundMarkup.View.Path

namespace BoundMarkup

/-- A page of the site. -/
structure Route where
  name : String
  viewPath : String
  deriving DecidableEq, Repr

structure Config where
  routes : List Route
  options : Options
  debug : Bool
  deriving DecidableEq, Repr

/-! ## §1. Fields. -/

namespace JsonValue

def asText? : JsonValue → Option String
  | string text => text
  | _ => none

def asBool? : JsonValue → Option Bool
  | bool b => some b
  | _ => none

/-- The parts of a list, each of them read. -/
def asList? {α : Type} (part? : JsonValue → Option α) : JsonValue → Option (List α)
  | array items => items.mapM part?
  | _ => none

/-- The value of a field that is given at most once. -/
def field? (fields : List (Option String × JsonValue)) (name : String) :
    Option (Option JsonValue) :=
  match fields.filter (fun f => f.1 == some name) with
  | [] => some none
  | [f] => some (some f.2)
  | _ => none

/-- The values of a record, in the order of its fields; none for what is left out. -/
def record? (names : List String) : JsonValue → Option (List (Option JsonValue))
  | array items =>
      if items.length ≤ names.length then
        some (items.map some ++ List.replicate (names.length - items.length) none)
      else none
  | object fields =>
      if fields.all (fun f => f.1.isSome) then names.mapM (field? fields) else none
  | _ => none

end JsonValue

/-- A value that may be left out. -/
def orDefault {α : Type} (default : α) (read? : JsonValue → Option α) :
    Option JsonValue → Option α
  | none => some default
  | some v => read? v

/-! ## §2. Records. -/

def Route.ofJson? (v : JsonValue) : Option Route := do
  match ← v.record? ["name", "view_path"] with
  | [some name, some viewPath] => some ⟨← name.asText?, ← viewPath.asText?⟩
  | _ => none

def ControlNamespace.ofJson? (v : JsonValue) : Option ControlNamespace := do
  match ← v.record? ["tag_prefix", "namespace"] with
  | [some tagSpace, some space] => some ⟨← tagSpace.asText?, ← space.asText?⟩
  | _ => none

def MarkupControl.ofJson? (v : JsonValue) : Option MarkupControl := do
  match ← v.record? ["tag_prefix", "tag_name", "src"] with
  | [some tagSpace, some tagName, some source] =>
      some ⟨← tagSpace.asText?, ← tagName.asText?, ← source.asText?⟩
  | _ => none

def StyleRule.ofJson? (v : JsonValue) : Option StyleRule := do
  match ← v.record? ["control", "property", "value", "overwrite"] with
  | [some control, some property, some value, overwrite] =>
      some ⟨← control.asText?, ← property.asText?, ← value.asText?,
        ← orDefault false JsonValue.asBool? overwrite⟩
  | _ => none

def Options.ofFields? (fields : List (Option String × JsonValue)) : Option Options := do
  let namespaces ← JsonValue.field? fields "control_namespaces"
  let markupControls ← JsonValue.field? fields "markup_controls"
  let styles ← JsonValue.field? fields "styles"
  some ⟨← orDefault Options.defaultNamespaces
      (JsonValue.asList? ControlNamespace.ofJson?) namespaces,
    ← orDefault [] (JsonValue.asList? MarkupControl.ofJson?) markupControls,
    ← orDefault [] (JsonValue.asList? StyleRule.ofJson?) styles⟩

/-! ## §3. Configurations. -/

namespace Config

/-- How many brackets may be open inside a field: one less than may be open at all. -/
def maxDepth : Nat := 126

/-- The names of fields are texts, and so is everything inside them, except that
parts of routes that are not known are left aside. -/
def fieldIsSound (f : Option String × JsonValue) : Bool :=
  match f.1 with
  | some name => name == "routes" || f.2.isSound maxDepth
  | none => false

def ofJson? : JsonValue → Option Config
  | .object fields =>
      if fields.all fieldIsSound then do
        let routes ← JsonValue.field? fields "routes"
        let debug ← JsonValue.field? fields "debug"
        some ⟨← orDefault [] (JsonValue.asList? Route.ofJson?) routes, ← Options.ofFields? fields,
          ← orDefault false JsonValue.asBool? debug⟩
      else none
  | _ => none

/-- **The configuration that a text holds.** -/
def read? (text : String) : Option Config := (JsonValue.read? text).bind ofJson?

/-- The configuration with one more route. -/
def addRoute (c : Config) (name viewPath : String) : Config :=
  { c with routes := c.routes ++ [⟨name, viewPath⟩] }

/-- The views to compile: markup controls, then routes, each path once and no blank ones. -/
def viewPaths (c : Config) : List String :=
  (((c.options.markupControls.map MarkupControl.source ++ c.routes.map Route.viewPath).filter
    (fun path => !Text.allBlank path)).map ViewPath.normalize).foldl
      (fun seen path => if path ∈ seen then seen else seen ++ [path]) []

end Config

end BoundMarkup
