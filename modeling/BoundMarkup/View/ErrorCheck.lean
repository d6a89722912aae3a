/-
  BoundMarkup.View.ErrorCheck
  ───────────────────────────
  **WHAT IS REPORTED ABOUT A TREE BEFORE IT IS USED.**

  All faults of nodes are reported together.  Only if there are none, the first
  binding that cannot be bound is.
-/
import BoundMarkup.View.Control

namespace BoundMarkup.ControlTree

/-- The reports about the faults of nodes. -/
def nodeReports (t : ControlTree) : List Report :=
  t.controls.flatMap (fun c => c.errors.map (NodeError.report t.path))

/-- The first binding that cannot be bound. -/
def firstFailure? (t : ControlTree) : Option Binding.BindingError :=
  t.controls.findSome? Control.failure?

/-- **The reports about the tree**; none if it can be used. -/
def errorReports (t : ControlTree) : List Report :=
  match t.nodeReports with
  | [] => (t.firstFailure?.map (Report.ofBinding t.path)).toList
  | reports => reports

end BoundMarkup.ControlTree
