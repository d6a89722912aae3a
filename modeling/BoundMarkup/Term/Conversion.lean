/-
  BoundMarkup.Term.Conversion
  ───────────────────────────
  **IMPLICIT CONVERSIONS BETWEEN TYPES.**

  `Conversion.find?` answers whether a value of one type may stand where another
  is expected, and at what cost.  In order of preference: no change; `null` for
  anything that can be absent; widening of numbers; whole numbers to floating
  point; wrapping into a nullable type; a reference to a base type; boxing.
-/
import BoundMarkup.Registry.Lookup

namespace BoundMarkup

/-- What a conversion does to a value. -/
inductive ConversionKind where
  | identity | nullLiteral | numericWidening | intToFloat | nullableWrap | reference | boxing
  | toText
  deriving DecidableEq, Repr

/-- A conversion and its cost; the lower the better. -/
structure Conversion where
  kind : ConversionKind
  cost : Nat
  deriving DecidableEq, Repr

namespace Conversion

def identity : Conversion := ⟨.identity, 0⟩

def nullLiteral : Conversion := ⟨.nullLiteral, 1⟩

def numericWidening : Conversion := ⟨.numericWidening, 4⟩

def intToFloat : Conversion := ⟨.intToFloat, 8⟩

/-- Wrapping costs something on top of the conversion of what is wrapped. -/
def nullableWrap (inner : Conversion) : Conversion := ⟨.nullableWrap, 9 + inner.cost⟩

def reference : Conversion := ⟨.reference, 10⟩

def boxing : Conversion := ⟨.boxing, 11⟩

/-- The value keeps its representation. -/
def isExact (c : Conversion) : Bool := c.kind == .identity

/-- The conversion may take place under a nullable wrapper. -/
def isWrappable (c : Conversion) : Bool :=
  match c.kind with
  | .identity | .numericWidening | .intToFloat => true
  | _ => false

/-- The conversion between two built-in types. -/
def primitive? (source target : Primitive) : Option Conversion :=
  if source = target then some identity
  else
    match source, target with
    | .char, .int32 | .char, .int64 | .char, .decimal
    | .int32, .int64 | .int32, .decimal
    | .int64, .decimal
    | .single, .double => some numericWidening
    | .char, .single | .char, .double
    | .int32, .single | .int32, .double
    | .int64, .single | .int64, .double => some intToFloat
    | _, _ => none

/-- `null` may stand where the type is expected. -/
def acceptsNull (r : Registry) : TypeRef → Bool
  | .nullable _ | .array _ => true
  | .named name args => !r.isValueType (.named name args)
  | _ => false

/-- The conversion between built-in types, if both are. -/
def builtin? (source target : TypeRef) : Option Conversion :=
  match source.primitive?, target.primitive? with
  | some s, some t => primitive? s t
  | _, _ => none

/-- The conversion to a base type, an interface or `object`. -/
def upcast? (r : Registry) (source target : TypeRef) : Option Conversion :=
  if target.isObject || r.isAssignable source target then
    some (if r.isValueType source then boxing else reference)
  else none

/-- **The implicit conversion from one type to another.** -/
def find? (r : Registry) (source : TypeRef) : TypeRef → Option Conversion
  | .nullable inner =>
      if source = .nullable inner then some identity
      else
        match source with
        | .unknown | .void => none
        | .null => some nullLiteral
        | .nullable _ => upcast? r source (.nullable inner)
        | _ => ((find? r source inner).filter isWrappable).map nullableWrap
  | target =>
      if source = target then some identity
      else
        match source with
        | .unknown | .void => none
        | .null => if acceptsNull r target then some nullLiteral else none
        | _ => (builtin? source target).orElse (fun _ => upcast? r source target)

end Conversion

end BoundMarkup
