/-
  BoundMarkup.Registry.Builtins
  ─────────────────────────────
  **THE TYPES THAT EVERY VIEW KNOWS.**

  The built-in types with the interfaces they implement, the generic collections
  and their extension methods, and the static class of numeric functions.
-/
import BoundMarkup.Registry.Basic

namespace BoundMarkup.Builtins

open TypeEntry (MethodDecl)
open Parameter (required)

/-! ## §1. Names. -/

def coreModule : String := "System.Runtime"

def linqModule : String := "System.Linq"

def collectionsModule : String := "System.Collections"

def listName : String := withArity "System.Collections.Generic.List" 1

def dictionaryName : String := withArity "System.Collections.Generic.Dictionary" 2

/-- The name spaces searched for type names in every binding. -/
def defaultSpaces : List String := ["System", "System.Collections.Generic", "System.Linq"]

/-! ## §2. Interfaces and built-in types. -/

def objectEntry : TypeEntry :=
  (TypeEntry.declare "object" coreModule)
    |>.addMethod (.instance_ "Equals" .bool [required "obj" .object])
    |>.addMethod (.instance_ "ToString" .string [])
    |>.addMethod (.instance_ "GetHashCode" .int32 [])

/-- An interface with the given generic parameters. -/
def interface (name : String) (params : List String) : TypeEntry :=
  ((TypeEntry.declare name coreModule).withFlags { TypeFlags.empty with interface := true })
    |>.generic params

def interfaces : List TypeEntry :=
  [interface TypeRef.enumerableName ["T"],
   (interface TypeRef.equatableName ["T"])
     |>.addMethod (.instance_ "Equals" .bool [required "other" (.typeParam 0 "T")]),
   (interface TypeRef.comparableName [])
     |>.addMethod (.instance_ "CompareTo" .int32 [required "obj" .object]),
   (interface TypeRef.comparableToName ["T"])
     |>.addMethod (.instance_ "CompareTo" .int32 [required "other" (.typeParam 0 "T")])]

/-- A built-in value type; it can be compared with itself. -/
def valueEntry (kind : Primitive) : TypeEntry :=
  ((TypeEntry.declare kind.name coreModule).withFlags { TypeFlags.empty with valueType := true })
    |>.derives (.equatable kind.type)
    |>.derives (.comparableTo kind.type)
    |>.derives .comparable

/-- The built-in value types. -/
def valueKinds : List Primitive := [.bool, .char, .int32, .int64, .single, .double, .decimal]

def stringEntry : TypeEntry :=
  (TypeEntry.declare "string" coreModule)
    |>.derives (.equatable .string)
    |>.derives (.comparableTo .string)
    |>.derives .comparable
    |>.derives (.enumerable .char)
    |>.addProperty .readonly "Length" .int32
    |>.addMethod (.instance_ "ToUpper" .string [])
    |>.addMethod (.instance_ "ToLower" .string [])
    |>.addMethod (.instance_ "Trim" .string [])
    |>.addMethod (.instance_ "Contains" .bool [required "value" .string])
    |>.addMethod (.instance_ "StartsWith" .bool [required "value" .string])
    |>.addMethod (.instance_ "Substring" .string [required "startIndex" .int32])
    |>.addMethod (.instance_ "Substring" .string
      [required "startIndex" .int32, required "length" .int32])
    |>.addMethod (.static_ "Format" .string [required "format" .string, .tail "args" .object])
    |>.addMethod (.static_ "Join" .string
      [required "separator" .string, .tail "values" .string])
    |>.addMethod (.static_ "IsNullOrEmpty" .bool [required "value" .string])
    |>.addIndexer (required "index" .int32) .char false

/-! ## §3. Collections. -/

def listEntry : TypeEntry :=
  let t := TypeRef.typeParam 0 "T"
  ((TypeEntry.declare listName collectionsModule).generic ["T"])
    |>.derives (.enumerable t)
    |>.addProperty .readonly "Count" .int32
    |>.addMethod (.instance_ "Add" .void [required "item" t])
    |>.addMethod (.instance_ "Contains" .bool [required "item" t])
    |>.addMethod (.instance_ "IndexOf" .int32 [required "item" t])
    |>.addIndexer (required "index" .int32) t true

def dictionaryEntry : TypeEntry :=
  let key := TypeRef.typeParam 0 "TKey"
  ((TypeEntry.declare dictionaryName collectionsModule).generic ["TKey", "TValue"])
    |>.addProperty .readonly "Count" .int32
    |>.addMethod (.instance_ "ContainsKey" .bool [required "key" key])
    |>.addIndexer (required "key" key) (.typeParam 1 "TValue") true

/-- The extension methods of everything that can be enumerated. -/
def enumerableEntry : TypeEntry :=
  let element := TypeRef.methodParam 0 "TSource"
  let source := required "source" (.enumerable element)
  let extension (name : String) (returns : TypeRef) (params : List Parameter) : MethodDecl :=
    ⟨name, returns, ["TSource"], source :: params, true⟩
  (TypeEntry.declare "System.Linq.Enumerable" linqModule)
    |>.addExtension (extension "Count" .int32 [])
    |>.addExtension (extension "Any" .bool [])
    |>.addExtension (extension "Contains" .bool [required "value" element])
    |>.addExtension (extension "First" element [])

/-! ## §4. Numeric functions. -/

def mathEntry : TypeEntry :=
  let binary (name : String) (t : TypeRef) : MethodDecl :=
    .static_ name t [required "a" t, required "b" t]
  ((TypeEntry.declare "System.Math" coreModule).withFlags
      { TypeFlags.empty with staticClass := true })
    |>.addMethod (binary "Max" .int32)
    |>.addMethod (binary "Max" .int64)
    |>.addMethod (binary "Max" .double)
    |>.addMethod (binary "Min" .int32)
    |>.addMethod (binary "Min" .double)
    |>.addMethod (.static_ "Round" .double
      [required "value" .double, .optional "digits" .int32 (.int 0)])

/-! ## §5. The registry. -/

/-- All of these types, in order of registration. -/
def entries : List TypeEntry :=
  objectEntry :: interfaces ++ valueKinds.map valueEntry
    ++ [stringEntry, listEntry, dictionaryEntry, enumerableEntry, mathEntry]

/-- **The registry of the built-in types.** -/
def registry : Registry := entries.foldl Registry.insert .empty

end BoundMarkup.Builtins
