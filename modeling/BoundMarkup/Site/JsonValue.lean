/-
  BoundMarkup.Site.JsonValue
  ──────────────────────────
  **READING JSON.**

  `JsonValue.read?` accepts exactly the grammar of JSON.  What the grammar
  allows but a text or a number cannot hold, such as half of a surrogate pair or
  a number beyond the range of double precision, is kept in the tree as such, so
  that it matters only where the value does.
-/
import BoundMarkup.Number.Decimal

namespace BoundMarkup

/-! ## §1. Values. -/

/-- A JSON value. -/
inductive JsonValue where
  | null
  | bool (value : Bool)
  /-- Of a number it is only known whether it is in range. -/
  | number (inRange : Bool)
  /-- There is no text for half of a surrogate pair. -/
  | string (text : Option String)
  | array (items : List JsonValue)
  | object (fields : List (Option String × JsonValue))
  deriving Repr, Inhabited

namespace JsonValue

mutual

/-- All texts and numbers are good, and no more than `depth` brackets are open
at any place. -/
def isSound (depth : Nat) : JsonValue → Bool
  | null => true
  | bool _ => true
  | number inRange => inRange
  | string text => text.isSome
  | array items =>
      match depth with
      | 0 => false
      | depth + 1 => allSound depth items
  | object fields =>
      match depth with
      | 0 => false
      | depth + 1 => fieldsSound depth fields

def allSound (depth : Nat) : List JsonValue → Bool
  | [] => true
  | v :: vs => v.isSound depth && allSound depth vs

def fieldsSound (depth : Nat) : List (Option String × JsonValue) → Bool
  | [] => true
  | (name, v) :: vs => name.isSome && v.isSound depth && fieldsSound depth vs

end

/-! ## §2. Texts. -/

/-- A blank between the parts of a value. -/
def isSpace (c : Char) : Bool := c == ' ' || c == '\n' || c == '\t' || c == '\r'

def skipSpace (cs : List Char) : List Char := cs.dropWhile isSpace

/-- The value of a hexadecimal digit. -/
def hexDigit? (c : Char) : Option Nat :=
  if '0' ≤ c ∧ c ≤ '9' then some (c.toNat - '0'.toNat)
  else if 'a' ≤ c ∧ c ≤ 'f' then some (c.toNat - 'a'.toNat + 10)
  else if 'A' ≤ c ∧ c ≤ 'F' then some (c.toNat - 'A'.toNat + 10)
  else none

/-- The number of four hexadecimal digits. -/
def hexUnit? (a b c d : Char) : Option Nat := do
  let a ← hexDigit? a
  let b ← hexDigit? b
  let c ← hexDigit? c
  let d ← hexDigit? d
  some (((a * 16 + b) * 16 + c) * 16 + d)

/-- The character that a letter after a backslash stands for. -/
def shortEscape? (c : Char) : Option Char :=
  match c with
  | '"' => some '"'
  | '\\' => some '\\'
  | '/' => some '/'
  | 'b' => some '\x08'
  | 'f' => some '\x0c'
  | 'n' => some '\n'
  | 'r' => some '\r'
  | 't' => some '\t'
  | _ => none

/-- What a text is written as: characters, and numbers of sixteen bits. -/
inductive TextUnit where
  | char (c : Char)
  | numbered (n : Nat)

/-- The units up to the closing quote, and what follows it. -/
def units? : List Char → Option (List TextUnit × List Char)
  | [] => none
  | '"' :: rest => some ([], rest)
  | '\\' :: 'u' :: a :: b :: c :: d :: rest => do
      let n ← hexUnit? a b c d
      let (units, rest) ← units? rest
      some (.numbered n :: units, rest)
  | '\\' :: c :: rest => do
      let c ← shortEscape? c
      let (units, rest) ← units? rest
      some (.char c :: units, rest)
  | c :: rest =>
      if c.val < 0x20 ∨ c = '\\' then none
      else do
        let (units, rest) ← units? rest
        some (.char c :: units, rest)

/-- The first half of a surrogate pair. -/
def isLead (n : Nat) : Bool := decide (0xd800 ≤ n) && decide (n < 0xdc00)

/-- The second half of a surrogate pair. -/
def isTrail (n : Nat) : Bool := decide (0xdc00 ≤ n) && decide (n < 0xe000)

/-- The characters of the units, if every half of a surrogate pair has its other half. -/
def chars? : List TextUnit → Option (List Char)
  | [] => some []
  | .char c :: units => (chars? units).map (c :: ·)
  | .numbered n :: .numbered m :: units =>
      if isLead n then
        if isTrail m then
          (chars? units).map (Char.ofNat (0x10000 + (n - 0xd800) * 0x400 + (m - 0xdc00)) :: ·)
        else none
      else if isTrail n then none
      else (chars? (.numbered m :: units)).map (Char.ofNat n :: ·)
  | .numbered n :: units =>
      if isLead n || isTrail n then none else (chars? units).map (Char.ofNat n :: ·)

/-- A text after its opening quote, and what follows it. -/
def text? (cs : List Char) : Option (Option String × List Char) :=
  (units? cs).map (fun (units, rest) => ((chars? units).map String.ofList, rest))

/-! ## §3. Numbers. -/

/-- One or more digits, and what follows them. -/
def digits? (cs : List Char) : Option (List Char × List Char) :=
  let digits := cs.takeWhile Char.isDigit
  if digits.isEmpty then none else some (digits, cs.dropWhile Char.isDigit)

/-- The digits before the point: no zero stands in front of others. -/
def whole? (cs : List Char) : Option (List Char × List Char) :=
  (digits? cs).filter (fun (digits, _) => digits.head? != some '0' || digits.length == 1)

/-- The digits after the point, if there is one. -/
def fraction? : List Char → Option (List Char × List Char)
  | '.' :: cs => digits? cs
  | cs => some ([], cs)

/-- An exponent without its mark. -/
def signedExponent? : List Char → Option (Int × List Char)
  | '-' :: cs => (digits? cs).map (fun (ds, rest) => (- Int.ofNat (Decimal.digitsValue ds), rest))
  | '+' :: cs => (digits? cs).map (fun (ds, rest) => (Int.ofNat (Decimal.digitsValue ds), rest))
  | cs => (digits? cs).map (fun (ds, rest) => (Int.ofNat (Decimal.digitsValue ds), rest))

/-- The exponent, if there is one. -/
def exponent? : List Char → Option (Int × List Char)
  | 'e' :: cs => signedExponent? cs
  | 'E' :: cs => signedExponent? cs
  | cs => some (0, cs)

/-- The most that the digits of a number can come to. -/
def maxDigits : Nat := 18446744073709551615

/-- Put digits behind a number for as long as there is room: what they come to,
and how many found room. -/
def appendDigits (n : Nat) : List Char → Nat × Nat
  | [] => (n, 0)
  | c :: cs =>
      let next := 10 * n + (c.toNat - '0'.toNat)
      if maxDigits < next then (n, 0)
      else
        let (n, taken) := appendDigits next cs
        (n, taken + 1)

/-- The numeral of the digits before and after the point.  Of the digits before
it those without room still count as places, of those after it they do not. -/
def numeral (whole fraction : List Char) (exponent : Int) : Decimal.Numeral :=
  let (n, taken) := appendDigits 0 whole
  let (n, places) := appendDigits n fraction
  ⟨n, exponent + Int.ofNat (whole.length - taken) - Int.ofNat places⟩

/-- Whether a numeral is in range: its digits and its power of ten are rounded
first, each by itself, and the product of the two must be finite.  A power of
ten beyond the range leaves room for zero only. -/
def inRange (n : Decimal.Numeral) : Bool :=
  n.digits == 0 || decide (n.exponent < 0) ||
    (decide (n.exponent ≤ 308) &&
      ((Binary64.ofNat n.digits).product (Binary64.ofNat (tenPow n.exponent.toNat))).isFinite)

/-- A number without its sign: whether it is in range, and what follows it. -/
def magnitude? (cs : List Char) : Option (Bool × List Char) := do
  let (whole, rest) ← whole? cs
  let (fraction, rest) ← fraction? rest
  let (exponent, rest) ← exponent? rest
  some (inRange (numeral whole fraction exponent), rest)

/-- A number: whether it is in range, and what follows it. -/
def number? : List Char → Option (Bool × List Char)
  | '-' :: cs => magnitude? cs
  | cs => magnitude? cs

/-! ## §4. Values. -/

/-- What follows a word, if the text starts with it. -/
def afterWord? (word : String) (cs : List Char) : Option (List Char) :=
  let letters := word.toList
  if letters.isPrefixOf cs then some (cs.drop letters.length) else none

/-- A value that is not put together of others, and what follows it. -/
def simple? (cs : List Char) : Option (JsonValue × List Char) :=
  match cs with
  | '"' :: cs => (text? cs).map (fun (text, rest) => (string text, rest))
  | 'n' :: _ => (afterWord? "null" cs).map (fun rest => (null, rest))
  | 't' :: _ => (afterWord? "true" cs).map (fun rest => (bool true, rest))
  | 'f' :: _ => (afterWord? "false" cs).map (fun rest => (bool false, rest))
  | _ => (number? cs).map (fun (inRange, rest) => (number inRange, rest))

mutual

/-- A value, and what follows it. -/
def value? : Nat → List Char → Option (JsonValue × List Char)
  | 0, _ => none
  | rounds + 1, cs =>
      match skipSpace cs with
      | '[' :: cs =>
          match skipSpace cs with
          | ']' :: rest => some (array [], rest)
          | cs => (items? rounds cs).map (fun (items, rest) => (array items, rest))
      | '\x7b' :: cs =>
          match skipSpace cs with
          | '\x7d' :: rest => some (object [], rest)
          | cs => (fields? rounds cs).map (fun (fields, rest) => (object fields, rest))
      | cs => simple? cs

/-- The items up to a closing bracket, and what follows it. -/
def items? : Nat → List Char → Option (List JsonValue × List Char)
  | 0, _ => none
  | rounds + 1, cs => do
      let (item, rest) ← value? rounds cs
      match skipSpace rest with
      | ']' :: rest => some ([item], rest)
      | ',' :: rest => (items? rounds rest).map (fun (items, rest) => (item :: items, rest))
      | _ => none

/-- The fields up to a closing brace, and what follows it. -/
def fields? : Nat → List Char → Option (List (Option String × JsonValue) × List Char)
  | 0, _ => none
  | rounds + 1, cs => do
      let (name, rest) ← match skipSpace cs with
        | '"' :: cs => text? cs
        | _ => none
      let (item, rest) ← match skipSpace rest with
        | ':' :: rest => value? rounds rest
        | _ => none
      match skipSpace rest with
      | '\x7d' :: rest => some ([(name, item)], rest)
      | ',' :: rest =>
          (fields? rounds rest).map (fun (fields, rest) => ((name, item) :: fields, rest))
      | _ => none

end

/-- **The value that a text holds**, with nothing but blanks around it.  Every
other round takes at least one character. -/
def read? (text : String) : Option JsonValue :=
  let cs := text.toList
  match value? (2 * cs.length + 2) cs with
  | some (v, rest) => if (skipSpace rest).isEmpty then some v else none
  | none => none

end JsonValue

end BoundMarkup
