/-
  BoundMarkup.View.Report
  ───────────────────────
  **WHAT IS SAID ABOUT A VIEW THAT DOES NOT COMPILE.**

  A report names a view, a position in it, a class and a text.  Three kinds of
  problems lead to reports: an error of the view as a whole, of which there is
  one; faults of single nodes; and misuses of controls, of which all are found.
-/
import BoundMarkup.Binding.Binder
import BoundMarkup.View.Path

namespace BoundMarkup

/-! ## §1. Reports. -/

structure Report where
  path : String
  /-- Minus one if the position is unknown. -/
  line : Int
  /-- Minus one if the position is unknown. -/
  column : Int
  className : String
  message : String
  deriving DecidableEq, Repr

namespace Report

/-- A line or column as a report counts it: in 32 bits with a sign. -/
def counted (n : Nat) : Int := (Int32.ofNat n).toInt

/-- A report about a place in a view, if the place is known. -/
def about (path : String) (place : Option Span) (className message : String) : Report :=
  match place with
  | some span => ⟨path, counted span.line, counted span.col, className, message⟩
  | none => ⟨path, -1, -1, className, message⟩

def hasPosition (r : Report) : Bool := decide (0 ≤ r.line)

/-- The report as one line of text. -/
def text (r : Report) : String :=
  r.path ++ "(" ++ toString r.line ++ "," ++ toString r.column ++ "): " ++ r.message

/-- The report about a binding that cannot be bound. -/
def ofBinding (path : String) (error : Binding.BindingError) : Report :=
  about path (some error.span) error.className error.message

end Report

/-! ## §2. Errors of a view. -/

/-- Why a view as a whole does not compile. -/
inductive ViewError where
  | notFound (path : String)
  | malformed (error : SyntaxError)
  | missingViewModel (kind : ViewKind)
  | masterOnControl (span : Span)
  | duplicateDirective (name : String) (span : Span)
  | unknownDirectiveType (name directive : String) (span : Span)
  | baseNotControl (type : TypeRef) (span : Option Span)
  /-- The paths from a view back to itself. -/
  | cycle (chain : List String) (span : Span)
  | masterFailed (path : String) (span : Span)
  | viewModelMismatch (viewModel expected : TypeRef) (master : String) (span : Span)
  deriving DecidableEq, Repr

namespace ViewError

def span? : ViewError → Option Span
  | notFound _ => none
  | malformed error => some error.span
  | missingViewModel _ => none
  | masterOnControl span => some span
  | duplicateDirective _ span => some span
  | unknownDirectiveType _ _ span => some span
  | baseNotControl _ span => span
  | cycle _ span => some span
  | masterFailed _ span => some span
  | viewModelMismatch _ _ _ span => some span

/-- The class of problems with the structure of a view. -/
def structureClass : String := "ControlTree"

/-- The class under which the error is reported. -/
def className : ViewError → String
  | notFound _ => "SourceNotFound"
  | malformed _ => "Parse"
  | cycle _ _ => "DependencyCycle"
  | masterFailed _ _ => "DependencyFailed"
  | _ => structureClass

def message : ViewError → String
  | notFound path => "view '" ++ path ++ "' does not exist"
  | malformed error => error.message
  | missingViewModel kind => "the " ++ kind.text ++ " does not declare a @viewModel directive"
  | masterOnControl _ => "a markup control cannot declare a @masterPage directive"
  | duplicateDirective name _ => "the @" ++ name ++ " directive is declared more than once"
  | unknownDirectiveType name directive _ =>
      "type '" ++ name ++ "' in the @" ++ directive ++ " directive could not be found"
  | baseNotControl type _ => "base type '" ++ type.text ++ "' is not a control"
  | cycle chain _ => "dependency cycle detected: " ++ Text.join " -> " chain
  | masterFailed path _ => ViewKind.masterPage.text ++ " '" ++ path ++ "' failed to compile"
  | viewModelMismatch viewModel expected master _ =>
      "view model '" ++ viewModel.text ++ "' is not assignable to '" ++ expected.text
        ++ "' required by master page '" ++ master ++ "'"

/-- The report about the error. -/
def report (path : String) (error : ViewError) : Report :=
  .about path error.span? error.className error.message

end ViewError

/-! ## §3. Faults of nodes. -/

/-- What is wrong with a single node. -/
inductive NodeFault where
  /-- An element or an end tag without its counterpart. -/
  | malformed (message : String)
  | unknownControl (tag : String)
  | controlFailed (path : String)
  | controlBaseNotControl (type : TypeRef) (path : String)
  | duplicateProperty (name tag : String)
  | unknownProperty (tag name : String)
  | contentNotAllowed (tag : String)
  /-- A control other than content beside the content for a master page. -/
  | strayControl (tag : String)
  /-- Text beside the content for a master page. -/
  | strayText
  | unknownPlaceholder (master id : String)
  deriving DecidableEq, Repr

def NodeFault.message : NodeFault → String
  | malformed message => message
  | unknownControl tag => "unknown control '" ++ tag ++ "'"
  | controlFailed path => "markup control '" ++ path ++ "' failed to compile"
  | controlBaseNotControl type path =>
      "base type '" ++ type.text ++ "' of markup control '" ++ path ++ "' is not a control"
  | duplicateProperty name tag =>
      "property '" ++ name ++ "' is set more than once on '" ++ tag ++ "'"
  | unknownProperty tag name =>
      "control '" ++ tag ++ "' does not have a property '" ++ name ++ "'"
  | contentNotAllowed tag => "control '" ++ tag ++ "' does not allow content"
  | strayControl tag =>
      "'" ++ tag ++ "' cannot be used at the top level of a view with a master page, "
        ++ "only <dot:Content> is allowed"
  | strayText => "text cannot be used at the top level of a view with a master page"
  | unknownPlaceholder master id =>
      "master page '" ++ master ++ "' has no ContentPlaceHolder with ID '" ++ id ++ "'"

/-- A fault and where it is reported. -/
structure NodeError where
  fault : NodeFault
  span : Span
  deriving DecidableEq, Repr

/-- The report about the fault. -/
def NodeError.report (path : String) (error : NodeError) : Report :=
  .about path (some error.span) ViewError.structureClass error.fault.message

/-! ## §4. Misuses of controls. -/

/-- What markup may not do with a control. -/
inductive UsageFault where
  | missingProperty (owner name : String)
  | commandOnAttribute (name : String)
  | bindingRequired (name owner : String)
  | invalidValue (value name : String) (type : TypeRef)
  | bindingRefused (name owner : String)
  | commandRequired (name owner : String)
  | commandRefused (name owner : String)
  | inconvertible (source : TypeRef) (name : String) (target : TypeRef)
  | contextMismatch (context viewModel : TypeRef) (path : String)
  deriving DecidableEq, Repr

def UsageFault.message : UsageFault → String
  | missingProperty owner name =>
      "control '" ++ owner ++ "' requires the property '" ++ name ++ "'"
  | commandOnAttribute name => "HTML attribute '" ++ name ++ "' only accepts value bindings"
  | bindingRequired name owner =>
      "property '" ++ name ++ "' of '" ++ owner ++ "' must be set with a binding"
  | invalidValue value name type =>
      "value '" ++ value ++ "' is not valid for property '" ++ name ++ "' of type '"
        ++ type.text ++ "'"
  | bindingRefused name owner =>
      "property '" ++ name ++ "' of '" ++ owner ++ "' does not accept bindings"
  | commandRequired name owner =>
      "property '" ++ name ++ "' of '" ++ owner ++ "' requires a command binding"
  | commandRefused name owner =>
      "property '" ++ name ++ "' of '" ++ owner ++ "' does not accept command bindings"
  | inconvertible source name target =>
      "cannot convert binding of type '" ++ source.text ++ "' to property '" ++ name
        ++ "' of type '" ++ target.text ++ "'"
  | contextMismatch context viewModel path =>
      "data context '" ++ context.text ++ "' is not assignable to the view model '"
        ++ viewModel.text ++ "' of markup control '" ++ path ++ "'"

/-- A misuse and where it is reported. -/
structure UsageError where
  fault : UsageFault
  span : Span
  deriving DecidableEq, Repr

/-- The report about the misuse. -/
def UsageError.report (path : String) (error : UsageError) : Report :=
  .about path (some error.span) "ControlUsage" error.fault.message

end BoundMarkup
