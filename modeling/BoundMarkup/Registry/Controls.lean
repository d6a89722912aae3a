/-
  BoundMarkup.Registry.Controls
  ─────────────────────────────
  **THE STANDARD CONTROLS, AND WHAT MARKUP MAY DO WITH A CONTROL.**
-/
import BoundMarkup.Registry.Builtins
import BoundMarkup.Registry.Lookup

namespace BoundMarkup

namespace Controls

/-! ## §1. Names. -/

def space : String := "DotHtml.Controls"

def moduleName : String := "DotHtml.Framework"

/-- The qualified name of a standard control. -/
def named (name : String) : String := space ++ "." ++ name

def bindableObject : String := named "DotHtmlBindableObject"

def controlBase : String := named "DotHtmlControl"

/-- What an element without a name space becomes. -/
def htmlGeneric : String := named "HtmlGenericControl"

/-- The root of a markup control. -/
def markupControl : String := named "MarkupControl"

/-- The root of a page or master page. -/
def view : String := named "DotHtmlView"

def contentPlaceholder : String := named "ContentPlaceHolder"

def content : String := named "Content"

/-- What a binding in text becomes. -/
def literal : String := named "Literal"

/-- The property every control inherits to switch the data context. -/
def dataContextProperty : String := "DataContext"

/-! ## §2. Declarations. -/

/-- A control, derived from the common base. -/
def control (name : String) : TypeEntry :=
  ((TypeEntry.declare name moduleName).withFlags { TypeFlags.empty with control := true })
    |>.derives (.simple controlBase)

/-- A control that accepts content. -/
def container (name : String) : TypeEntry :=
  (control name).withFlags { TypeFlags.empty with allowsContent := true }

/-- The standard controls, in order of registration. -/
def entries : List TypeEntry :=
  [(TypeEntry.declare bindableObject moduleName)
     |>.addCapability dataContextProperty .object .bindingOnly,
   ((TypeEntry.declare controlBase moduleName).derives (.simple bindableObject))
     |>.addCapability "ID" .string .hardCodedOnly
     |>.addCapability "Visible" .bool .standard,
   container htmlGeneric,
   container markupControl,
   container view,
   (control literal).addCapability "Text" .object MarkupOptions.standard.mandatory,
   (control (named "TextBox"))
     |>.addCapability "Text" .string MarkupOptions.standard.mandatory
     |>.addCapability "Enabled" .bool .standard,
   (control (named "CheckBox"))
     |>.addCapability "Checked" .bool MarkupOptions.standard.mandatory
     |>.addCapability "Text" .string .standard,
   (container (named "Button"))
     |>.addCapability "Text" .string .standard
     |>.addCapability "Click" .object MarkupOptions.command.mandatory,
   (container contentPlaceholder).addCapability "ID" .string MarkupOptions.hardCodedOnly.mandatory,
   (container content).addCapability "ContentPlaceHolderID" .string
     MarkupOptions.hardCodedOnly.mandatory]

/-- **The registry of the built-in types and the standard controls.** -/
def registry : Registry := entries.foldl Registry.insert Builtins.registry

end Controls

/-! ## §3. What markup may do with a control. -/

/-- What markup may do with a control type. -/
structure ControlMetadata where
  type : TypeRef
  allowsContent : Bool
  properties : List Capability
  moduleName : Option String
  deriving DecidableEq, Repr

namespace ControlMetadata

/-- The capability property of the given name. -/
def property? (m : ControlMetadata) (name : String) : Option Capability :=
  m.properties.find? (fun p => p.name == name)

/-- The properties that have to be set. -/
def required (m : ControlMetadata) : List Capability :=
  m.properties.filter (fun p => p.markup.required)

/-- What is assumed of a control that the registry does not declare. -/
def untyped : ControlMetadata := ⟨.object, true, [], none⟩

end ControlMetadata

/-- The metadata of a control type. -/
def Registry.controlMetadata? (r : Registry) (t : TypeRef) : Option ControlMetadata :=
  let flags := r.flags t
  if flags.control then
    some ⟨t, flags.allowsContent, r.capabilities t, r.moduleOf? t⟩
  else none

end BoundMarkup
