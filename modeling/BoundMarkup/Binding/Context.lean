/-
  BoundMarkup.Binding.Context
  ───────────────────────────
  **WHAT A BINDING IS BOUND AGAINST.**

  Every control has a stack of data contexts: `_this` is the innermost type,
  `_parent` the next one, `_parentN` the one `N` levels out, and `_root` the
  outermost.
-/
import BoundMarkup.Types.TypeRef

namespace BoundMarkup

/-- A stack of data contexts, never empty. -/
structure DataContext where
  /-- The innermost level. -/
  this : TypeRef
  /-- The other levels, from the inside out. -/
  outer : List TypeRef
  /-- The name spaces imported by the view. -/
  spaces : List String
  deriving DecidableEq, Repr

namespace DataContext

/-- The context of a whole view. -/
def ofRoot (this : TypeRef) (spaces : List String) : DataContext := ⟨this, [], spaces⟩

/-- The context with one more level inside. -/
def push (c : DataContext) (this : TypeRef) : DataContext := ⟨this, c.this :: c.outer, c.spaces⟩

/-- All levels, from the inside out. -/
def levels (c : DataContext) : List TypeRef := c.this :: c.outer

def depth (c : DataContext) : Nat := c.levels.length

/-- The level `n` steps out; none beyond the outermost. -/
def ancestor? (c : DataContext) (n : Nat) : Option TypeRef := c.levels[n]?

/-- The outermost level. -/
def root (c : DataContext) : TypeRef := c.outer.getLastD c.this

/-- The value of a decimal digit. -/
def digit? (c : Char) : Option Nat :=
  if '0' ≤ c ∧ c ≤ '9' then some (c.toNat - '0'.toNat) else none

/-- The number that digits stand for; `acc` is what was read before. -/
def digitsValue? (acc : Nat) : List Char → Option Nat
  | [] => some acc
  | c :: cs => (digit? c).bind (fun d => digitsValue? (10 * acc + d) cs)

/-- A number of levels; a plus sign may stand before it. -/
def count? : List Char → Option Nat
  | [] => none
  | '+' :: cs => if cs.isEmpty then none else digitsValue? 0 cs
  | cs => digitsValue? 0 cs

/-- The level that `_parentN` names. -/
def numberedParent? (c : DataContext) (name : String) : Option TypeRef :=
  let word := "_parent".toList
  if word.isPrefixOf name.toList then (count? (name.toList.drop word.length)).bind c.ancestor?
  else none

/-- **The type that a keyword of the context stands for.** -/
def keyword? (c : DataContext) (name : String) : Option TypeRef :=
  if name = "_this" then some c.this
  else if name = "_root" then some c.root
  else if name = "_parent" then c.ancestor? 1
  else c.numberedParent? name

end DataContext

end BoundMarkup
