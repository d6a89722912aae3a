/-
  BoundMarkup.View.Options
  ────────────────────────
  **WHAT ALL VIEWS OF A SITE SHARE.**

  Name spaces in markup stand for name spaces of code controls or for single
  markup controls; style rules set properties of controls.  Names in markup are
  matched without regard to the case of ASCII letters.
-/
import BoundMarkup.Registry.Controls
import BoundMarkup.Text.CaseFold

namespace BoundMarkup

/-- A name space in markup that stands for a name space of code controls. -/
structure ControlNamespace where
  tagSpace : String
  space : String
  deriving DecidableEq, Repr

/-- A tag that stands for a markup control. -/
structure MarkupControl where
  tagSpace : String
  tagName : String
  /-- The path of the view that defines the control. -/
  source : String
  deriving DecidableEq, Repr

/-- A property value for all controls of a tag or type. -/
structure StyleRule where
  /-- The tag as written in markup, or the name of the control type. -/
  control : String
  property : String
  value : String
  /-- Takes the place of a value set in markup. -/
  overwrite : Bool
  deriving DecidableEq, Repr

structure Options where
  namespaces : List ControlNamespace
  markupControls : List MarkupControl
  styles : List StyleRule
  deriving DecidableEq, Repr

namespace Options

/-- The name space of the standard controls is `dot`. -/
def defaultNamespaces : List ControlNamespace := [⟨"dot", Controls.space⟩]

def default : Options := ⟨defaultNamespaces, [], []⟩

/-- The name space of code controls that a name space in markup stands for. -/
def controlSpace? (o : Options) (tagSpace : String) : Option String :=
  (o.namespaces.find? (fun n => Text.sameIgnoringCase n.tagSpace tagSpace)).map
    ControlNamespace.space

/-- The markup control that a tag stands for. -/
def markupControl? (o : Options) (tagSpace tagName : String) : Option MarkupControl :=
  o.markupControls.find? (fun c =>
    Text.sameIgnoringCase c.tagSpace tagSpace && Text.sameIgnoringCase c.tagName tagName)

end Options

end BoundMarkup
