/-
  BoundMarkup.Text.Segments
  ─────────────────────────
  **TEXT BETWEEN SEPARATORS.**

  `segments` cuts at every separator and always yields at least one segment;
  `splitLast` cuts once, at the last separator.
-/

namespace BoundMarkup.Text

/-- The pieces of `cs` between the occurrences of `sep`. -/
def segmentChars (sep : Char) : List Char → List (List Char)
  | [] => [[]]
  | c :: cs =>
      if c = sep then [] :: segmentChars sep cs
      else match segmentChars sep cs with
        | [] => [[c]]
        | piece :: rest => (c :: piece) :: rest

theorem segmentChars_of_not_mem {sep : Char} {cs : List Char} (h : sep ∉ cs) :
    segmentChars sep cs = [cs] := by
  induction cs with
  | nil => rfl
  | cons c cs ih =>
      obtain ⟨other, rest⟩ := not_or.1 (mt List.mem_cons.2 h)
      simp [segmentChars, Ne.symm other, ih rest]

theorem segmentChars_ne_nil (sep : Char) (cs : List Char) : segmentChars sep cs ≠ [] := by
  cases cs with
  | nil => simp [segmentChars]
  | cons c cs =>
      unfold segmentChars
      split
      · simp
      · split <;> simp

/-- A separator ends the segments before it. -/
theorem segmentChars_append (sep : Char) (cs ds : List Char) :
    segmentChars sep (cs ++ sep :: ds) = segmentChars sep cs ++ segmentChars sep ds := by
  induction cs with
  | nil => simp [segmentChars]
  | cons c cs ih =>
      simp only [List.cons_append, segmentChars, ih]
      split
      · rfl
      · cases h : segmentChars sep cs with
        | nil => exact absurd h (segmentChars_ne_nil sep cs)
        | cons piece rest => rfl

/-- The segments with a separator before each but the first are the text. -/
theorem segmentChars_join {sep : Char} {cs piece : List Char} {rest : List (List Char)}
    (h : segmentChars sep cs = piece :: rest) : piece ++ rest.flatMap (sep :: ·) = cs := by
  induction cs generalizing piece rest with
  | nil => cases h; rfl
  | cons c cs ih =>
      cases found : segmentChars sep cs with
      | nil => exact absurd found (segmentChars_ne_nil sep cs)
      | cons next more =>
          have := ih found
          simp only [segmentChars, found] at h
          split at h
          · cases h; simp_all
          · cases h; simp_all

/-- The pieces of `s` between the occurrences of `sep`. -/
def segments (sep : Char) (s : String) : List String :=
  (segmentChars sep s.toList).map String.ofList

/-- The text before the first `sep`, all of it if there is none. -/
def beforeFirst (sep : Char) (s : String) : String :=
  String.ofList (s.toList.takeWhile (· != sep))

/-- The texts before and after the last `sep`, if there is one. -/
def splitLast? (sep : Char) (s : String) : Option (String × String) :=
  let back := s.toList.reverse
  match back.dropWhile (· != sep) with
  | [] => none
  | _ :: front =>
      some (String.ofList front.reverse, String.ofList (back.takeWhile (· != sep)).reverse)

/-- The text after the last `sep`, all of it if there is none. -/
def afterLast (sep : Char) (s : String) : String :=
  String.ofList (s.toList.reverse.takeWhile (· != sep)).reverse

/-- The texts joined by `sep`. -/
def join (sep : String) (pieces : List String) : String := sep.intercalate pieces

/-- All texts but the first come behind a separator. -/
theorem toList_join (sep piece : String) (pieces : List String) :
    (join sep (piece :: pieces)).toList
      = piece.toList ++ pieces.flatMap (fun next => sep.toList ++ next.toList) := by
  unfold join
  induction pieces generalizing piece with
  | nil => simp [String.intercalate_singleton]
  | cons next pieces ih => simp [String.intercalate_cons_cons, ih]

end BoundMarkup.Text
