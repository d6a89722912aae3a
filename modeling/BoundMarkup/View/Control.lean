/-
  BoundMarkup.View.Control
  ────────────────────────
  **CONTROL TREES.**

  A control is an element whose type is known, whose attributes are properties
  and whose bindings are bound.  A tree lists its controls parents first.
-/
import BoundMarkup.Registry.Controls
import BoundMarkup.View.Directives

namespace BoundMarkup

/-! ## §1. Controls. -/

inductive ControlKind where
  /-- The view itself. -/
  | root
  | html
  | code
  /-- A control defined by another view. -/
  | markup (path : String) (viewModel : TypeRef)
  deriving DecidableEq, Repr

/-- What a property is set to. -/
inductive PropertyValue where
  | hardCoded (text : String)
  | bound (binding : Binding.Bound)
  /-- The binding cannot be bound. -/
  | failed (error : Binding.BindingError)
  deriving Repr

structure ControlProperty where
  name : String
  value : PropertyValue
  span : Span
  /-- There is none for a plain attribute. -/
  capability : Option Capability
  deriving Repr

/-- The binding the property is set to. -/
def ControlProperty.binding? (p : ControlProperty) : Option Binding.Bound :=
  match p.value with
  | .bound b => some b
  | _ => none

/-- The error of a binding that cannot be bound. -/
def ControlProperty.failure? (p : ControlProperty) : Option Binding.BindingError :=
  match p.value with
  | .failed error => some error
  | _ => none

/-- A control without its content. -/
structure Control where
  kind : ControlKind
  /-- The tag as written, empty for the root and for text that is bound. -/
  tag : String
  metadata : ControlMetadata
  properties : List ControlProperty
  context : DataContext
  /-- Position of the start tag. -/
  span : Span
  errors : List NodeError
  /-- The type of the data context, on controls where it changes. -/
  contextMark : Option TypeRef
  deriving Repr

namespace Control

def type (c : Control) : TypeRef := c.metadata.type

/-- The control is of the type with the given name. -/
def hasType (c : Control) (name : String) : Bool :=
  match c.type with
  | .named n _ => n == name
  | _ => false

/-- The property of the given name. -/
def property? (c : Control) (name : String) : Option ControlProperty :=
  c.properties.find? (fun p => p.name == name)

/-- The value of a property that is set without a binding. -/
def hardCoded? (c : Control) (name : String) : Option String :=
  match (c.property? name).map ControlProperty.value with
  | some (.hardCoded text) => some text
  | _ => none

/-- The first binding that cannot be bound. -/
def failure? (c : Control) : Option Binding.BindingError :=
  c.properties.findSome? ControlProperty.failure?

/-- The control with a property of the same name replaced, or one more. -/
def setProperty (c : Control) (p : ControlProperty) : Control :=
  { c with properties := replace c.properties }
where
  replace : List ControlProperty → List ControlProperty
    | [] => [p]
    | q :: qs => if q.name = p.name then p :: qs else q :: replace qs

/-- The control as named in reports. -/
def displayName (c : Control) : String := if c.tag = "" then c.type.simpleName else c.tag

end Control

/-! ## §2. Trees. -/

/-- A node of a control tree. -/
inductive ControlNode where
  | control (head : Control) (children : List ControlNode)
  | text (text : String) (span : Span)
  deriving Repr

namespace ControlNode

/-- The node is content: a control, or text that is not blank. -/
def isContent : ControlNode → Bool
  | control _ _ => true
  | text s _ => !Text.allBlank s

/-- The control of the node itself. -/
def head? : ControlNode → Option Control
  | control head _ => some head
  | text _ _ => none

mutual

/-- The controls of a node, parents first. -/
def controls : ControlNode → List Control
  | control head children => head :: controlsOf children
  | text _ _ => []

/-- The controls of a forest, parents first. -/
def controlsOf : List ControlNode → List Control
  | [] => []
  | n :: ns => n.controls ++ controlsOf ns

end

mutual

/-- The node with every control changed by itself. -/
def map (f : Control → Control) : ControlNode → ControlNode
  | control head children => control (f head) (mapAll f children)
  | text s span => text s span

/-- The forest with every control changed by itself. -/
def mapAll (f : Control → Control) : List ControlNode → List ControlNode
  | [] => []
  | n :: ns => n.map f :: mapAll f ns

end

end ControlNode

/-- The controls of a view. -/
structure ControlTree where
  path : String
  kind : ViewKind
  directives : Directives
  root : Control
  children : List ControlNode
  deriving Repr

namespace ControlTree

/-- The controls of the tree, parents first. -/
def controls (t : ControlTree) : List Control := t.root :: ControlNode.controlsOf t.children

/-- The controls at the top level. -/
def topLevel (t : ControlTree) : List Control := t.children.filterMap ControlNode.head?

/-- The tree with every control changed by itself. -/
def map (f : Control → Control) (t : ControlTree) : ControlTree :=
  { t with root := f t.root, children := ControlNode.mapAll f t.children }

end ControlTree

end BoundMarkup
