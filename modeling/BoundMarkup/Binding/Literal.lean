/-
  BoundMarkup.Binding.Literal
  ───────────────────────────
  **THE CONSTANT A LITERAL TOKEN STANDS FOR.**

  Whole numbers are `int` if they fit and have no suffix, `long` otherwise;
  decimals keep their digits as written; strings lose their quotes and escapes.
-/
import BoundMarkup.Binding.Token
import BoundMarkup.Number.Decimal
import BoundMarkup.Source.SyntaxError
import BoundMarkup.Types.Constant

namespace BoundMarkup.Binding

/-- The characters an escaped body stands for. -/
def unescape : List Char → List Char
  | [] => []
  | '\\' :: [] => ['\\']
  | '\\' :: c :: cs =>
      (match c with
        | 'n' => '\n'
        | 't' => '\t'
        | 'r' => '\r'
        | '0' => '\x00'
        | c => c) :: unescape cs
  | c :: cs => c :: unescape cs

/-- The characters without a run of `c` or `d` at the end. -/
def dropSuffix (c d : Char) (cs : List Char) : List Char :=
  (cs.reverse.dropWhile (fun x => x == c || x == d)).reverse

/-- A whole number: 64 bits at most, 32 if it fits and is not marked long. -/
def wholeConstant? (cs : List Char) : Option Constant :=
  let isLong := cs.getLast? = some 'l' ∨ cs.getLast? = some 'L'
  let digits := if isLong then cs.dropLast else cs
  (Decimal.natural? digits).bind (fun n =>
    if n < twoPow 31 ∧ ¬ isLong then some (.int (Int32.ofNat n))
    else if n < twoPow 63 then some (.long (Int64.ofNat n))
    else none)

/-- The constant of a literal token. -/
def constantOf (t : Token) : Except SyntaxCause Constant :=
  let cs := t.lexeme.toList
  match t.kind with
  | .true_ => .ok (.bool true)
  | .false_ => .ok (.bool false)
  | .null_ => .ok .null
  | .intLiteral =>
      match wholeConstant? cs with
      | some value => .ok value
      | none => .error (.literalOutOfRange t.lexeme)
  | .realLiteral =>
      match Decimal.real? (String.ofList (dropSuffix 'd' 'D' cs)) with
      | some value => .ok (.double value)
      | none => .error (.literalNotNumber t.lexeme)
  | .decimalLiteral => .ok (.decimal (String.ofList (dropSuffix 'm' 'M' cs)))
  | .stringLiteral => .ok (.string (String.ofList (unescape cs.tail.dropLast)))
  | _ => .error (.literalNotNumber t.lexeme)

end BoundMarkup.Binding
