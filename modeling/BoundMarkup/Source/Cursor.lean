/-
  BoundMarkup.Source.Cursor
  ─────────────────────────
  **A PLACE IN THE TEXT: WHAT IS LEFT, AND WHERE IT STARTS.**

  Scanners look at the characters that are left and say how many they take; a
  cursor is only ever moved by `Cursor.skip`, so what it passed over is always
  a front part of what was left.
-/
import BoundMarkup.Source.Span
import BoundMarkup.Text.Blank

namespace BoundMarkup

/-! ## §1. Positions. -/

/-- A line, a column, and the number of characters before them. -/
structure Position where
  line : Nat
  col : Nat
  offset : Nat
  deriving DecidableEq, Repr

namespace Position

/-- The start of a text. -/
def start : Position := ⟨1, 1, 0⟩

/-- The position after one character. -/
def step (p : Position) (c : Char) : Position :=
  if c = '\n' then ⟨p.line + 1, 1, p.offset + 1⟩ else ⟨p.line, p.col + 1, p.offset + 1⟩

/-- The position after a run of characters. -/
def after (p : Position) (cs : List Char) : Position := cs.foldl step p

/-- The empty region at a position. -/
def span (p : Position) : Span := Span.point p.line p.col

/-- The region from one position to a later one. -/
def spanTo (p q : Position) : Span := ⟨p.line, p.col, q.offset - p.offset⟩

theorem after_append (p : Position) (cs ds : List Char) :
    p.after (cs ++ ds) = (p.after cs).after ds := List.foldl_append

theorem offset_after (p : Position) (cs : List Char) :
    (p.after cs).offset = p.offset + cs.length := by
  induction cs generalizing p with
  | nil => rfl
  | cons c cs ih =>
      have step_offset : (p.step c).offset = p.offset + 1 := by
        unfold step; split <;> rfl
      show ((p.step c).after cs).offset = _
      rw [ih, step_offset, List.length_cons]
      omega

end Position

/-! ## §2. Cursors. -/

/-- The characters that are left, and the position of the first of them. -/
structure Cursor where
  rest : List Char
  pos : Position
  deriving Repr

namespace Cursor

/-- A cursor at the start of a text. -/
def ofChars (cs : List Char) : Cursor := ⟨cs, Position.start⟩

/-- Pass over `n` characters. -/
def skip (n : Nat) (c : Cursor) : Cursor := ⟨c.rest.drop n, c.pos.after (c.rest.take n)⟩

/-- Pass over the characters in a class, also returning them. -/
def takeWhile (p : Char → Bool) (c : Cursor) : List Char × Cursor :=
  let taken := c.rest.takeWhile p
  (taken, c.skip taken.length)

/-- Pass over the characters in a class. -/
def skipWhile (p : Char → Bool) (c : Cursor) : Cursor := (c.takeWhile p).2

/-- Pass over blanks. -/
def skipBlank (c : Cursor) : Cursor := c.skipWhile Text.isBlank

/-- Pass over one given character, if it is next. -/
def skipChar? (ch : Char) (c : Cursor) : Option Cursor :=
  if c.rest.head? = some ch then some (c.skip 1) else none

/-- The given characters are next. -/
def startsWith (cs : List Char) (c : Cursor) : Bool := cs.isPrefixOf c.rest

/-- The characters between two cursors on one text. -/
def textTo (c d : Cursor) : List Char := c.rest.take (d.pos.offset - c.pos.offset)

end Cursor

end BoundMarkup
