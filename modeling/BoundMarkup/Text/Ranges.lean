/-
  BoundMarkup.Text.Ranges
  ────────────────────────
  **SETS OF CODE POINTS AS SORTED RANGES.**

  A property of the Unicode character database is a list of closed ranges.
  ASCII is decided by a short predicate of its own, so the tables start at 0x80.
-/

namespace BoundMarkup.Text

/-- A closed range of code points. -/
abbrev CodeRange := Nat × Nat

/-- Membership of a code point in a list of closed ranges. -/
def inRanges (ranges : List CodeRange) (code : Nat) : Bool :=
  ranges.any (fun r => Nat.ble r.1 code && Nat.ble code r.2)

/-- A character is in the set: ASCII by `ascii`, the rest by the table. -/
def classMember (ascii : Char → Bool) (ranges : List CodeRange) (c : Char) : Bool :=
  if c.val < 0x80 then ascii c else inRanges ranges c.toNat

/-- On ASCII the table plays no part. -/
theorem classMember_ascii {ascii : Char → Bool} {ranges : List CodeRange} {c : Char}
    (h : c.val < 0x80) : classMember ascii ranges c = ascii c := by
  simp [classMember, h]

/-- No range of one list overlaps with a range of the other. -/
def disjoint (as bs : List CodeRange) : Bool :=
  as.all (fun a => bs.all (fun b => Nat.blt a.2 b.1 || Nat.blt b.2 a.1))

theorem inRanges_eq_false {as bs : List CodeRange} (apart : disjoint as bs = true) {code : Nat}
    (h : inRanges as code = true) : inRanges bs code = false := by
  refine Bool.eq_false_iff.2 fun both => ?_
  simp only [inRanges, List.any_eq_true, Bool.and_eq_true, Nat.ble_eq] at h both
  obtain ⟨a, inA, lowA, highA⟩ := h
  obtain ⟨b, inB, lowB, highB⟩ := both
  have := List.all_eq_true.1 (List.all_eq_true.1 apart a inA) b inB
  simp only [Bool.or_eq_true, Nat.blt_eq] at this
  omega

end BoundMarkup.Text
