/-
  BoundMarkup.Builder.Statement
  ─────────────────────────────
  **THE STATEMENTS OF A BUILDER.**

  A builder creates one control after the other and puts it together with its
  properties and children.  Controls are numbered; the root is the first.
-/
import BoundMarkup.Markup.Token
import BoundMarkup.Text.Escape
import BoundMarkup.Types.TypeRef

namespace BoundMarkup

open Markup (BindingKind)

/-- A step of building a control tree. -/
inductive Statement where
  | create (var : Nat) (type : TypeRef)
  | setValue (var : Nat) (property value : String)
  /-- A plain attribute. -/
  | setAttribute (var : Nat) (name value : String)
  /-- The expression is rendered. -/
  | setBinding (var : Nat) (property : String) (kind : BindingKind) (expression : String)
      (type : TypeRef)
  | setInternal (var : Nat) (property : String) (type : TypeRef)
  | addChild (parent child : Nat)
  | addText (parent : Nat) (text : String)
  deriving DecidableEq, Repr

namespace Statement

/-- The variable that holds a control. -/
def varName (n : Nat) : String := "c" ++ toString n

/-- The kind of a binding as the builder names it. -/
def kindName : BindingKind → String
  | .value => "Value"
  | .command => "Command"
  | .resource => "Resource"

/-- The statement as text. -/
def text : Statement → String
  | create var type => "var " ++ varName var ++ " = new " ++ type.text ++ "();"
  | setValue var property value =>
      varName var ++ ".SetValue(" ++ Text.quoted property ++ ", " ++ Text.quoted value ++ ");"
  | setAttribute var name value =>
      varName var ++ ".Attributes[" ++ Text.quoted name ++ "] = " ++ Text.quoted value ++ ";"
  | setBinding var property kind expression type =>
      varName var ++ ".SetBinding(" ++ Text.quoted property ++ ", BindingKind." ++ kindName kind
        ++ ", typeof(" ++ type.text ++ "), " ++ Text.quoted expression ++ ");"
  | setInternal var property type =>
      varName var ++ ".SetInternal(" ++ Text.quoted property ++ ", typeof(" ++ type.text ++ "));"
  | addChild parent child => varName parent ++ ".Children.Add(" ++ varName child ++ ");"
  | addText parent s =>
      varName parent ++ ".Children.Add(new RawLiteral(" ++ Text.quoted s ++ "));"

end Statement

end BoundMarkup
