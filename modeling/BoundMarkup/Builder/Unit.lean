/-
  BoundMarkup.Builder.Unit
  ────────────────────────
  **THE BUILDER OF A VIEW.**

  The statements follow the tree: a control is created, its properties are set in
  their order, and its children are built and added.  Beside the statements the
  modules of all types they mention are listed.
-/
import BoundMarkup.Builder.Names
import BoundMarkup.Builder.Statement
import BoundMarkup.View.ContextMark

namespace BoundMarkup

/-! ## §1. Statements. -/

namespace ControlNode

mutual

/-- How many controls a node holds. -/
def size : ControlNode → Nat
  | control _ children => 1 + sizeAll children
  | text _ _ => 0

/-- How many controls a forest holds. -/
def sizeAll : List ControlNode → Nat
  | [] => 0
  | n :: ns => n.size + sizeAll ns

end

end ControlNode

/-- The statement that sets a property; a binding that cannot be bound sets nothing. -/
def ControlProperty.statement? (var : Nat) (p : ControlProperty) : Option Statement :=
  match p.value, p.capability with
  | .hardCoded value, some _ => some (.setValue var p.name value)
  | .hardCoded value, none => some (.setAttribute var p.name value)
  | .bound b, _ => some (.setBinding var p.name b.source.kind b.term.text b.term.type)
  | .failed _, _ => none

/-- The statements that create a control and set its properties. -/
def Control.statements (var : Nat) (c : Control) : List Statement :=
  .create var c.type :: (c.contextMark.map (Statement.setInternal var contextMarkName)).toList
    ++ c.properties.filterMap (ControlProperty.statement? var)

namespace ControlNode

mutual

/-- The statements that build a node and add it to its parent, with numbers
from `next` on. -/
def statements (parent next : Nat) : ControlNode → List Statement
  | control head children =>
      head.statements next ++ statementsAll next (next + 1) children ++ [.addChild parent next]
  | text s _ => if s = "" then [] else [.addText parent s]

/-- The statements that build the nodes one after the other. -/
def statementsAll (parent next : Nat) : List ControlNode → List Statement
  | [] => []
  | n :: ns => n.statements parent next ++ statementsAll parent (next + n.size) ns

end

end ControlNode

/-- **The statements that build a tree.** -/
def ControlTree.statements (t : ControlTree) : List Statement :=
  t.root.statements 0 ++ ControlNode.statementsAll 0 1 t.children

/-! ## §2. Modules. -/

namespace TypeRef

mutual

/-- The declared types that occur in a type. -/
def declaredParts : TypeRef → List TypeRef
  | named name args => named name args :: declaredPartsAll args
  | array element => declaredParts element
  | nullable inner => declaredParts inner
  | unknown | void | null | param _ _ _ => []

/-- The declared types that occur in one of the types. -/
def declaredPartsAll : List TypeRef → List TypeRef
  | [] => []
  | t :: ts => declaredParts t ++ declaredPartsAll ts

end

end TypeRef

/-- The type that the term itself refers to. -/
def Term.reference? : Term → Option TypeRef
  | .access _ member => some member.declaring
  | .staticAccess member => some member.declaring
  | .capabilityGet _ property => some property.declaring
  | .capabilitySet _ property _ => some property.declaring
  | .call _ method _ => some method.declaring
  | .staticCall method _ => some method.declaring
  | .index _ _ (some indexer) _ => some indexer.declaring
  | .typeReference type => some type
  | .convert _ type _ => some type
  | .binary _ _ _ _ (some method) => some method.declaring
  | .unary _ _ _ (some method) => some method.declaring
  | _ => none

/-- The types that a property refers to. -/
def ControlProperty.references (p : ControlProperty) : List TypeRef :=
  match p.value with
  | .bound b => b.term.subterms.filterMap Term.reference? ++ [b.term.type]
  | _ => []

/-- The types that a control refers to. -/
def Control.references (c : Control) : List TypeRef :=
  c.type :: c.contextMark.toList ++ c.properties.flatMap ControlProperty.references

/-- The texts in order, each once. -/
def sortedDistinct (xs : List String) : List String :=
  (xs.eraseDups).mergeSort (fun a b => decide (a ≤ b))

/-- The types that a tree refers to. -/
def ControlTree.references (t : ControlTree) : List TypeRef :=
  t.directives.viewModel :: t.controls.flatMap Control.references

/-- **The modules of all types that a tree refers to**, sorted. -/
def ControlTree.modules (r : Registry) (t : ControlTree) : List String :=
  sortedDistinct ((TypeRef.declaredPartsAll t.references).filterMap r.moduleOf?)

/-! ## §3. The emitted class. -/

/-- The placeholder that a control declares for the views of a master page. -/
def Control.placeholder? (c : Control) : Option String :=
  if c.hasType Controls.contentPlaceholder then c.hardCoded? "ID" else none

/-- The placeholders that a tree declares. -/
def ControlTree.placeholders (t : ControlTree) : List String :=
  t.controls.filterMap Control.placeholder?

/-- An emitted builder. -/
structure BuilderUnit where
  names : BuilderNames
  viewPath : String
  master : Option String
  statements : List Statement
  deriving DecidableEq, Repr

namespace BuilderUnit

/-- The builder of a tree. -/
def ofTree (names : BuilderNames) (t : ControlTree) : BuilderUnit :=
  ⟨names, t.path, t.directives.master.map MasterReference.path, t.statements⟩

/-- The lines of the builder class. -/
def lines (u : BuilderUnit) : List String :=
  ["namespace " ++ u.names.space, "\x7b", "    // " ++ u.viewPath]
    ++ (u.master.map (fun path => "    [MasterPage(" ++ Text.quoted path ++ ")]")).toList
    ++ ["    public sealed class " ++ u.names.className ++ " : IControlBuilder", "    \x7b",
        "        public DotHtmlControl BuildControl(IControlBuilderFactory factory)",
        "        \x7b"]
    ++ u.statements.map (fun s => "            " ++ s.text)
    ++ ["            return " ++ Statement.varName 0 ++ ";", "        \x7d", "    \x7d", "\x7d"]

/-- **The builder class as text.** -/
def text (u : BuilderUnit) : String := String.join (u.lines.map (fun line => line ++ "\n"))

end BuilderUnit

end BoundMarkup
