/-
  BoundMarkup.Types.Name
  ──────────────────────
  **NAMES AND THEIR IDENTITIES.**

  A type or a member is identified by 64 bits computed from its qualified name,
  so a type can be mentioned before it is declared.  The identity of a member
  adds its name and the identities of its parameter types, position by position.
-/
import BoundMarkup.Digest.XxHash64
import BoundMarkup.Text.Hex
import BoundMarkup.Text.Segments

namespace BoundMarkup

open BoundMarkup.Digest

/-! ## §1. Identities. -/

/-- The identity of a type, a member or a constructed type. -/
structure TypeId where
  bits : UInt64
  deriving DecidableEq, Repr, Inhabited

namespace TypeId

/-- Separates the components of a path. -/
def separator : UInt64 := 0x4bc94d6bd06053ad

/-- Marks the domain of types. -/
def typeDomain : UInt64 := 0x2fac10b63a6cc57c

/-- Marks the domain of methods, properties and fields. -/
def memberDomain : UInt64 := 0x7d3c8b4a92e15f6d

/-- Marks the domain of extension methods. -/
def extensionDomain : UInt64 := 0x5ea77ffbcdf5f302

/-- What the first parameter position contributes. -/
def firstMarker : UInt64 := 0x9e3779b97f4a7c15

/-- What the other seven tabulated positions contribute. -/
def laterMarkers : List UInt64 :=
  [0xbf58476d1ce4e5b9, 0x94d049bb133111eb, 0xd6e8feb86659fd93, 0xe7037ed1a0b428db,
   0xc6a4a7935bd1e995, 0x8648dbbc94d49b8d, 0xa2b48b2c69e0d657]

/-- What position `i` contributes: tabulated up to the eighth, then counted on
from the first. -/
def marker (i : Nat) : UInt64 :=
  (firstMarker :: laterMarkers).getD i (firstMarker + UInt64.ofNat i)

/-- The identity of no type. -/
def empty : TypeId := ⟨0⟩

/-- The identity of a type, from its qualified name. -/
def ofName (name : String) : TypeId := ⟨typeDomain ^^^ hashText name⟩

/-- Extend `seed` by `parts`, each marked with its position. -/
def mix (seed : UInt64) (parts : List TypeId) : TypeId :=
  ⟨go 0 seed parts⟩
where
  go (i : Nat) (hash : UInt64) : List TypeId → UInt64
    | [] => hash
    | part :: rest => go (i + 1) (hash * separator + (marker i ^^^ part.bits)) rest

/-- The identity of a member, from its owner, name and parameter types. -/
def ofMember (owner : TypeId) (name : String) (params : List TypeId) : TypeId :=
  mix (memberDomain ^^^ owner.bits ^^^ hashText name) params

/-- The identity of an extension method, from the class that declares it. -/
def ofExtension (declaring : TypeId) (name : String) (params : List TypeId) : TypeId :=
  mix (extensionDomain ^^^ declaring.bits ^^^ hashText name) params

/-- The identity of a constructed generic type. -/
def ofGenericInstance (definition : TypeId) (args : List TypeId) : TypeId :=
  mix definition.bits args

/-- Sixteen hexadecimal digits. -/
def text (id : TypeId) : String := "0x" ++ Text.paddedHex 16 id.bits.toNat

end TypeId

/-! ## §2. Definition names. -/

/-- Separates a generic name from the number of its parameters. -/
def arityMark : Char := '\x60'

/-- The name without a trailing mark and parameter count. -/
def stripArity (name : String) : String :=
  match Text.splitLast? arityMark name with
  | some (base, count) => if count.toList.all Char.isDigit then base else name
  | none => name

/-- The name of the generic definition `name` with `count` parameters. -/
def withArity (name : String) (count : Nat) : String :=
  name ++ String.singleton arityMark ++ toString count

end BoundMarkup
