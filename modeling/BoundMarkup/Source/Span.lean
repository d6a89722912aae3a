/-
  BoundMarkup.Source.Span
  ───────────────────────
  **POSITIONS IN MARKUP TEXT.**

  Lines and columns count from one; a column and a length count characters.  A
  binding is read by itself, so the spans found inside it are relative to its
  first character and are moved into the file by `Span.offset`.
-/

namespace BoundMarkup

/-- A region of text: where it starts, and how many characters it covers. -/
structure Span where
  line : Nat
  col : Nat
  len : Nat
  deriving DecidableEq, Repr, Inhabited

namespace Span

/-- The empty region at a position. -/
def point (line col : Nat) : Span := ⟨line, col, 0⟩

/-- The start of a file. -/
def start : Span := point 1 1

/-- The column after the last character, for a region within one line. -/
def endCol (s : Span) : Nat := s.col + s.len

/-- Whether the region is empty. -/
def isEmpty (s : Span) : Bool := s.len == 0

/-- Move a region found in text that starts at `base` into the coordinates of
`base`.  The first line continues the base column; later lines keep their own. -/
def offset (s base : Span) : Span :=
  if s.line ≤ 1 then ⟨base.line, base.col + (s.col - 1), s.len⟩
  else ⟨base.line + s.line - 1, s.col, s.len⟩

/-- The region from the earlier start to the later end.  Regions on different
lines keep the first start and add up their lengths. -/
def merge (s other : Span) : Span :=
  if s.line = other.line then
    let first := min s.col other.col
    ⟨s.line, first, max other.endCol s.endCol - first⟩
  else ⟨s.line, s.col, s.len + other.len⟩

/-- The position as `line:column`. -/
def text (s : Span) : String := s!"{s.line}:{s.col}"

end Span

end BoundMarkup
