/-
  BoundMarkup.View.Usage
  ──────────────────────
  **WHETHER CONTROLS ARE USED AS DECLARED.**

  Required properties have to be set; values and bindings have to be of the kind
  and type that a property takes; and a markup control has to stand in a data
  context that is its view model.
-/
import BoundMarkup.Number.Decimal
import BoundMarkup.View.Control

namespace BoundMarkup

/-! ## §1. Values. -/

/-- A plain value is a value of the type.  An attribute without a value stands
for truth. -/
def valueFits (type : TypeRef) (value : String) : Bool :=
  let value := Text.trim value
  match type.primitive? with
  | some .bool =>
      value == "" || Text.sameIgnoringCase value "true" || Text.sameIgnoringCase value "false"
  | some .int32 => (Decimal.fitting? 32 value).isSome
  | some .int64 => (Decimal.fitting? 64 value).isSome
  | some .single | some .double | some .decimal => (Decimal.real? value).isSome
  | _ => true

/-- The value of a binding can be stored in the property. -/
def bindingConverts (r : Registry) (b : Binding.Bound) (type : TypeRef) : Bool :=
  if type = .string then (b.term.convertOrText? r type).isSome
  else (b.term.convertTo? r type).isSome

/-! ## §2. Properties. -/

/-- What is wrong with a plain value of a capability property. -/
def hardCodedFault? (owner : String) (p : ControlProperty) (capability : Capability)
    (value : String) : Option UsageFault :=
  if !capability.markup.allowHardCoded then some (.bindingRequired p.name owner)
  else if !valueFits capability.type value then some (.invalidValue value p.name capability.type)
  else none

/-- What is wrong with a binding of a capability property. -/
def bindingFault? (r : Registry) (owner : String) (p : ControlProperty) (capability : Capability)
    (b : Binding.Bound) : Option UsageFault :=
  let isCommand := b.source.kind == .command
  if !capability.markup.allowBinding then some (.bindingRefused p.name owner)
  else if capability.markup.isCommand && !isCommand then some (.commandRequired p.name owner)
  else if !capability.markup.isCommand && isCommand then some (.commandRefused p.name owner)
  else if b.source.kind == .value && !bindingConverts r b capability.type then
    some (.inconvertible b.term.type p.name capability.type)
  else none

/-- What is wrong with a property. -/
def propertyFault? (r : Registry) (owner : String) (p : ControlProperty) : Option UsageFault :=
  match p.capability, p.value with
  | none, .bound b => if b.source.kind == .command then some (.commandOnAttribute p.name) else none
  | none, _ => none
  | some _, .failed _ => none
  | some capability, .hardCoded value => hardCodedFault? owner p capability value
  | some capability, .bound b => bindingFault? r owner p capability b

/-! ## §3. Controls. -/

namespace Control

/-- The required properties that are not set. -/
def missing (c : Control) : List Capability :=
  c.metadata.required.filter (fun p => (c.property? p.name).isNone)

/-- The data context is not the view model of a markup control. -/
def contextFault? (r : Registry) (c : Control) : Option UsageFault :=
  match c.kind with
  | .markup path viewModel =>
      if r.isAssignable c.context.this viewModel then none
      else some (.contextMismatch c.context.this viewModel path)
  | _ => none

/-- The misuses of a control. -/
def usageErrors (r : Registry) (c : Control) : List UsageError :=
  c.missing.map (fun p => ⟨.missingProperty c.displayName p.name, c.span⟩)
    ++ c.properties.filterMap (fun p =>
        (propertyFault? r c.displayName p).map (fun fault => ⟨fault, p.span⟩))
    ++ ((c.contextFault? r).map (fun fault => ⟨fault, c.span⟩)).toList

end Control

/-- **The reports about misused controls.** -/
def ControlTree.usageReports (r : Registry) (t : ControlTree) : List Report :=
  t.controls.flatMap (fun c => (c.usageErrors r).map (UsageError.report t.path))

end BoundMarkup
