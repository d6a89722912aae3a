/-
  BoundMarkup.Types.Constant
  ──────────────────────────
  **LITERAL VALUES.**

  What a literal in a binding or the default of a parameter stands for, its
  natural type, and its source-like text.
-/
import BoundMarkup.Number.Binary64
import BoundMarkup.Text.Escape
import BoundMarkup.Types.Primitive

namespace BoundMarkup

/-- A compile-time constant. -/
inductive Constant where
  | null
  | bool (value : Bool)
  | char (value : Char)
  | int (value : Int32)
  | long (value : Int64)
  | double (value : Binary64)
  /-- A decimal number keeps its source text. -/
  | decimal (source : String)
  | string (value : String)
  deriving DecidableEq, Repr

namespace Constant

/-- The natural type of the literal. -/
def type : Constant → TypeRef
  | null => .null
  | bool _ => .bool
  | char _ => .char
  | int _ => .int32
  | long _ => .int64
  | double _ => .double
  | decimal _ => .decimal
  | string _ => .string

/-- The literal as source text. -/
def text : Constant → String
  | null => "null"
  | bool value => if value then "true" else "false"
  | char value => "'" ++ String.ofList (Text.escapeAscii value) ++ "'"
  | int value => toString value.toInt
  | long value => toString value.toInt ++ "L"
  | double value => value.text
  | decimal source => source ++ "M"
  | string value => "\"" ++ Text.asciiText value ++ "\""

end Constant

end BoundMarkup
