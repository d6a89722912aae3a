/-
  BoundMarkup.View.ContextMark
  ────────────────────────────
  **WHERE THE DATA CONTEXT CHANGES.**

  The root, and every control whose data context is not that of its parent, is
  marked with the type of its data context.
-/
import BoundMarkup.View.Control

namespace BoundMarkup

/-- The name under which a builder is given the mark. -/
def contextMarkName : String := "DataContextType"

/-- The control marked with the type of its data context, unless it is marked. -/
def Control.markContext (c : Control) : Control :=
  { c with contextMark := some (c.contextMark.getD c.context.this) }

namespace ControlNode

mutual

/-- Mark the changes inside a data context. -/
def markContexts (outer : DataContext) : ControlNode → ControlNode
  | control head children =>
      let marked := if head.context = outer then head else head.markContext
      control marked (markContextsAll head.context children)
  | text s span => text s span

/-- Mark the changes inside a data context, in each of the nodes. -/
def markContextsAll (outer : DataContext) : List ControlNode → List ControlNode
  | [] => []
  | n :: ns => n.markContexts outer :: markContextsAll outer ns

end

end ControlNode

namespace ControlTree

/-- **The tree with its changes of data context marked.** -/
def markContexts (t : ControlTree) : ControlTree :=
  { t with
    root := t.root.markContext
    children := ControlNode.markContextsAll t.root.context t.children }

/-- How many controls are marked. -/
def markCount (t : ControlTree) : Nat := t.controls.countP (fun c => c.contextMark.isSome)

end ControlTree

end BoundMarkup
