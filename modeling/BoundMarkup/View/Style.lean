/-
  BoundMarkup.View.Style
  ──────────────────────
  **STYLE RULES.**

  Rules are applied to each control in their order.  A rule sets a property that
  is missing; only an overwriting rule replaces a value.
-/
import BoundMarkup.View.Control
import BoundMarkup.View.Options

namespace BoundMarkup

namespace StyleRule

/-- The rule is for the control: by its tag, or by the name of its type. -/
def selects (rule : StyleRule) (c : Control) : Bool :=
  (c.tag != "" && Text.sameIgnoringCase rule.control c.tag) || c.hasType rule.control

/-- The property that the rule sets on a control of its kind. -/
def assignment (rule : StyleRule) (c : Control) (capability : Capability) : ControlProperty :=
  ⟨rule.property, .hardCoded rule.value, c.span, some capability⟩

/-- The property that the rule sets on a control; none if the control does not
have it, or if it is set already. -/
def setting? (rule : StyleRule) (c : Control) : Option ControlProperty :=
  if (c.property? rule.property).isSome && !rule.overwrite then none
  else (c.metadata.property? rule.property).map (rule.assignment c)

end StyleRule

/-- A control on the way through the rules, and how many of them took effect. -/
structure Styled where
  control : Control
  applied : Nat

/-- One rule is applied. -/
def Styled.apply (s : Styled) (rule : StyleRule) : Styled :=
  if rule.selects s.control then
    match rule.setting? s.control with
    | some p => ⟨s.control.setProperty p, s.applied + 1⟩
    | none => s
  else s

/-- The control after all rules. -/
def Control.styled (rules : List StyleRule) (c : Control) : Styled :=
  rules.foldl Styled.apply ⟨c, 0⟩

namespace ControlTree

/-- **The tree after all rules.** -/
def styled (rules : List StyleRule) (t : ControlTree) : ControlTree :=
  t.map (fun c => (c.styled rules).control)

/-- How many property values the rules set. -/
def styleCount (rules : List StyleRule) (t : ControlTree) : Nat :=
  t.controls.foldl (fun n c => n + (c.styled rules).applied) 0

end ControlTree

end BoundMarkup
