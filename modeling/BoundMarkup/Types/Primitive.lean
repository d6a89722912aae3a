/-
  BoundMarkup.Types.Primitive
  ───────────────────────────
  **THE BUILT-IN TYPES.**

  Nine types have fixed conversions and operators.  They are named by their
  keywords, so that diagnostics read `int`.
-/
import BoundMarkup.Types.TypeRef

namespace BoundMarkup

/-- A built-in type. -/
inductive Primitive where
  | bool | char | int32 | int64 | single | double | decimal | string | object
  deriving DecidableEq, Repr

namespace Primitive

/-- All built-in types. -/
def all : List Primitive :=
  [bool, char, int32, int64, single, double, decimal, string, object]

/-- The keyword that names the type. -/
def name : Primitive → String
  | bool => "bool"
  | char => "char"
  | int32 => "int"
  | int64 => "long"
  | single => "float"
  | double => "double"
  | decimal => "decimal"
  | string => "string"
  | object => "object"

/-- The reference to the type. -/
def type (k : Primitive) : TypeRef := .simple k.name

/-- Takes part in arithmetic promotion. -/
def isNumeric : Primitive → Bool
  | char | int32 | int64 | single | double | decimal => true
  | bool | string | object => false

def isIntegral : Primitive → Bool
  | char | int32 | int64 => true
  | _ => false

/-- Copied by value. -/
def isValueType : Primitive → Bool
  | string | object => false
  | _ => true

/-- The built-in types by identity. -/
def byId : List (TypeId × Primitive) := all.map (fun k => (TypeId.ofName k.name, k))

/-- The built-in type with the given identity. -/
def ofId? (id : TypeId) : Option Primitive :=
  (byId.find? (fun entry => entry.1 == id)).map Prod.snd

end Primitive

namespace TypeRef

/-- The built-in type that a reference without arguments names. -/
def primitive? : TypeRef → Option Primitive
  | named name [] => Primitive.ofId? (TypeId.ofName name)
  | _ => none

def isObject (t : TypeRef) : Bool := t.primitive? == some .object

/-- One of the types that take part in arithmetic. -/
def isNumeric (t : TypeRef) : Bool := t.primitive?.any Primitive.isNumeric

abbrev bool : TypeRef := Primitive.bool.type
abbrev char : TypeRef := Primitive.char.type
abbrev int32 : TypeRef := Primitive.int32.type
abbrev int64 : TypeRef := Primitive.int64.type
abbrev single : TypeRef := Primitive.single.type
abbrev double : TypeRef := Primitive.double.type
abbrev decimal : TypeRef := Primitive.decimal.type
abbrev string : TypeRef := Primitive.string.type
abbrev object : TypeRef := Primitive.object.type

/-! ## Well-known interfaces. -/

/-- The interface of everything that can be enumerated; arrays implement it. -/
def enumerableName : String := withArity "System.Collections.Generic.IEnumerable" 1

/-- The interface of equality with another type. -/
def equatableName : String := withArity "System.IEquatable" 1

/-- The interface of ordering against any object. -/
def comparableName : String := "System.IComparable"

/-- The interface of ordering against another type. -/
def comparableToName : String := withArity "System.IComparable" 1

def enumerable (element : TypeRef) : TypeRef := named enumerableName [element]

def equatable (other : TypeRef) : TypeRef := named equatableName [other]

def comparable : TypeRef := simple comparableName

def comparableTo (other : TypeRef) : TypeRef := named comparableToName [other]

end TypeRef

end BoundMarkup
