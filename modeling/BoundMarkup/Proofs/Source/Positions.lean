/-
  BoundMarkup.Proofs.Source.Positions
  ───────────────────────────────────
  **PLACES IN A TEXT, AND IN THE FILE AROUND IT.**

  A place is a line and a column.  Reading on never leads to an earlier place
  (`precedes_after`), and to a later one if there is anything to read
  (`before_after`), so regions that are merged in their order start where the
  first one starts (`place_merge`).  A text inside a file is read from a position
  of its own; `Shifted` relates that to the position in the file, character by
  character, and moving a region by `Span.offset` leads from one to the other
  (`Shifted.offset_spanTo`).
-/
import BoundMarkup.Source.Cursor

namespace BoundMarkup

/-! ## §1. Where regions start. -/

namespace Span

variable {s t u : Span}

/-- The line and the column at which a region starts. -/
def place (s : Span) : Nat × Nat := (s.line, s.col)

/-- The region starts on an earlier line, or on the same line and not to the right. -/
def Precedes (s t : Span) : Prop := s.line < t.line ∨ s.line = t.line ∧ s.col ≤ t.col

theorem place_eq_iff : s.place = t.place ↔ s.line = t.line ∧ s.col = t.col :=
  Prod.ext_iff

theorem Precedes.refl (s : Span) : s.Precedes s := Or.inr ⟨rfl, Nat.le_refl _⟩

theorem Precedes.trans (h : s.Precedes t) (h' : t.Precedes u) : s.Precedes u := by
  unfold Precedes at *
  omega

/-- Only the places count. -/
theorem Precedes.congr {s' t' : Span} (h : s.Precedes t) (hs : s'.place = s.place)
    (ht : t'.place = t.place) : s'.Precedes t' := by
  rw [place_eq_iff] at hs ht
  unfold Precedes at *
  omega

/-- The region starts on an earlier line, or on the same line to the left. -/
def Before (s t : Span) : Prop := s.line < t.line ∨ s.line = t.line ∧ s.col < t.col

instance (s t : Span) : Decidable (s.Before t) :=
  inferInstanceAs (Decidable (s.line < t.line ∨ s.line = t.line ∧ s.col < t.col))

theorem Before.trans_precedes (h : s.Before t) (h' : t.Precedes u) : s.Before u := by
  unfold Precedes at h'
  unfold Before at *
  omega

theorem Before.asymm (h : s.Before t) : ¬ t.Before s := by
  unfold Before at *
  omega

theorem Before.place_ne (h : s.Before t) : s.place ≠ t.place := by
  intro heq
  rw [place_eq_iff] at heq
  unfold Before at h
  omega

theorem Before.ne (h : s.Before t) : s ≠ t := fun heq => h.place_ne (congrArg place heq)

/-- Only the places count. -/
theorem Before.congr {s' t' : Span} (h : s.Before t) (hs : s'.place = s.place)
    (ht : t'.place = t.place) : s'.Before t' := by
  rw [place_eq_iff] at hs ht
  unfold Before at *
  omega

/-- **Regions merged in their order** start where the first one starts. -/
theorem place_merge (h : s.Precedes t) : (s.merge t).place = s.place := by
  unfold merge
  by_cases hline : s.line = t.line
  · rw [if_pos hline]
    show (s.line, min s.col t.col) = (s.line, s.col)
    unfold Precedes at h
    rw [Nat.min_eq_left (by omega)]
  · rw [if_neg hline]
    rfl

/-- The region ends on an earlier line, or on the same line and not to the right of where
the other one starts.  A region counts as one of its first line. -/
def Clears (s t : Span) : Prop := s.line < t.line ∨ s.line = t.line ∧ s.endCol ≤ t.col

theorem Clears.precedes (h : s.Clears t) : s.Precedes t := by
  unfold Clears endCol at h
  unfold Precedes
  omega

theorem Clears.trans_precedes (h : s.Clears t) (h' : t.Precedes u) : s.Clears u := by
  unfold Precedes at h'
  unfold Clears at *
  omega

/-- **Regions of one line merged in their order** end where the last one ends. -/
theorem endCol_merge (hline : s.line = t.line) (h : s.endCol ≤ t.endCol) :
    (s.merge t).endCol = t.endCol := by
  unfold merge
  rw [if_pos hline, Nat.max_eq_left h]
  show min s.col t.col + (t.endCol - min s.col t.col) = t.endCol
  have hcol : t.col ≤ t.endCol := Nat.le_add_right t.col t.len
  omega

/-- Regions of one place are moved to one place. -/
theorem place_offset (h : s.place = t.place) (base : Span) :
    (s.offset base).place = (t.offset base).place := by
  rw [place_eq_iff] at h
  unfold offset
  rw [h.1, h.2]
  by_cases hline : t.line ≤ 1
  · rw [if_pos hline, if_pos hline]
    rfl
  · rw [if_neg hline, if_neg hline]
    rfl

end Span

/-! ## §2. Positions. -/

namespace Position

theorem precedes_step (p : Position) (c : Char) : p.span.Precedes (p.step c).span := by
  unfold step
  by_cases hc : c = '\n'
  · rw [if_pos hc]
    exact Or.inl (Nat.lt_succ_self p.line)
  · rw [if_neg hc]
    exact Or.inr ⟨rfl, Nat.le_succ p.col⟩

/-- **Reading on leads to no earlier place.** -/
theorem precedes_after (p : Position) (cs : List Char) : p.span.Precedes (p.after cs).span := by
  induction cs generalizing p with
  | nil => exact Span.Precedes.refl p.span
  | cons c cs ih => exact (p.precedes_step c).trans (ih (p.step c))

/-- Within one line, reading on adds the number of characters to the column. -/
theorem col_after (p : Position) (cs : List Char) :
    p.line < (p.after cs).line
      ∨ p.line = (p.after cs).line ∧ p.col + cs.length = (p.after cs).col := by
  induction cs generalizing p with
  | nil => exact Or.inr ⟨rfl, rfl⟩
  | cons c cs ih =>
      have hstep : p.line < (p.step c).line
          ∨ p.line = (p.step c).line ∧ p.col + 1 = (p.step c).col := by
        unfold step
        by_cases hc : c = '\n'
        · rw [if_pos hc]
          exact Or.inl (Nat.lt_succ_self p.line)
        · rw [if_neg hc]
          exact Or.inr ⟨rfl, rfl⟩
      have hrest := ih (p.step c)
      show p.line < ((p.step c).after cs).line ∨ _ ∧ _ = ((p.step c).after cs).col
      rw [List.length_cons]
      show _ ∨ p.line = ((p.step c).after cs).line ∧ _
      omega

/-- **What has been read is clear of what follows.** -/
theorem spanTo_clears (p : Position) (cs : List Char) :
    (p.spanTo (p.after cs)).Clears (p.after cs).span := by
  have hlen : (p.spanTo (p.after cs)).endCol = p.col + cs.length := by
    show p.col + ((p.after cs).offset - p.offset) = p.col + cs.length
    rw [offset_after]
    omega
  unfold Span.Clears
  rw [hlen]
  rcases p.col_after cs with hline | ⟨hline, hcol⟩
  · exact Or.inl hline
  · exact Or.inr ⟨hline, Nat.le_of_eq hcol⟩

/-- Without a line break there is one line. -/
theorem line_after (p : Position) {cs : List Char} (h : '\n' ∉ cs) :
    (p.after cs).line = p.line := by
  induction cs generalizing p with
  | nil => rfl
  | cons c cs ih =>
      obtain ⟨hc, hcs⟩ := not_or.1 (mt List.mem_cons.2 h)
      have hstep : (p.step c).line = p.line := by
        rw [step, if_neg (Ne.symm hc)]
      exact (ih (p.step c) hcs).trans hstep

/-- Lines and columns are no larger than the text that has been read makes them. -/
theorem after_le (p : Position) (cs : List Char) (hcol : 1 ≤ p.col) :
    (p.after cs).line ≤ p.line + cs.length ∧ (p.after cs).col ≤ p.col + cs.length := by
  induction cs generalizing p with
  | nil => exact ⟨Nat.le_refl _, Nat.le_refl _⟩
  | cons c cs ih =>
      have hstep : 1 ≤ (p.step c).col ∧ (p.step c).line ≤ p.line + 1
          ∧ (p.step c).col ≤ p.col + 1 := by
        unfold step
        by_cases hc : c = '\n'
        · rw [if_pos hc]
          exact ⟨Nat.le_refl 1, Nat.le_refl _, Nat.le_succ_of_le hcol⟩
        · rw [if_neg hc]
          exact ⟨Nat.le_add_left 1 p.col, Nat.le_succ _, Nat.le_refl _⟩
      obtain ⟨hline, hcol'⟩ := ih (p.step c) hstep.1
      rw [List.length_cons]
      show ((p.step c).after cs).line ≤ _ ∧ ((p.step c).after cs).col ≤ _
      omega

theorem before_step (p : Position) (c : Char) : p.span.Before (p.step c).span := by
  unfold step
  by_cases hc : c = '\n'
  · rw [if_pos hc]
    exact Or.inl (Nat.lt_succ_self p.line)
  · rw [if_neg hc]
    exact Or.inr ⟨rfl, Nat.lt_succ_self p.col⟩

/-- **Reading on leads to a later place**, if there is anything to read. -/
theorem before_after (p : Position) {cs : List Char} (h : cs ≠ []) :
    p.span.Before (p.after cs).span := by
  cases cs with
  | nil => exact absurd rfl h
  | cons c cs => exact (p.before_step c).trans_precedes ((p.step c).precedes_after cs)

/-- The position `r` in a text that starts at `base`, and the position `a` of the same
character in the file. -/
structure Shifted (base r a : Position) : Prop where
  line : 1 ≤ r.line
  col : 1 ≤ r.col
  moved : r.span.offset base.span = a.span

theorem Shifted.start (base : Position) : Shifted base .start base := by
  refine ⟨Nat.le_refl 1, Nat.le_refl 1, ?_⟩
  show (⟨base.line, base.col + (1 - 1), 0⟩ : Span) = ⟨base.line, base.col, 0⟩
  rw [Nat.sub_self, Nat.add_zero]

variable {base r a : Position}

/-- On the first line the columns of the file go on from the base; later lines have the
columns of the file. -/
theorem shifted_iff : Shifted base r a ↔ 1 ≤ r.line ∧ 1 ≤ r.col
    ∧ (r.line = 1 ∧ a.line = base.line ∧ a.col = base.col + (r.col - 1)
      ∨ 1 < r.line ∧ a.line = base.line + r.line - 1 ∧ a.col = r.col) := by
  have hmoved : r.span.offset base.span = a.span ↔
      (r.line ≤ 1 ∧ a.line = base.line ∧ a.col = base.col + (r.col - 1)
        ∨ 1 < r.line ∧ a.line = base.line + r.line - 1 ∧ a.col = r.col) := by
    by_cases hline : r.line ≤ 1
    · rw [Span.offset, if_pos (show r.span.line ≤ 1 from hline)]
      show (⟨base.line, base.col + (r.col - 1), 0⟩ : Span) = ⟨a.line, a.col, 0⟩ ↔ _
      rw [Span.mk.injEq]
      omega
    · rw [Span.offset, if_neg (show ¬ r.span.line ≤ 1 from hline)]
      show (⟨base.line + r.line - 1, r.col, 0⟩ : Span) = ⟨a.line, a.col, 0⟩ ↔ _
      rw [Span.mk.injEq]
      omega
  constructor
  · intro h
    have := hmoved.1 h.moved
    have := h.line
    have := h.col
    omega
  · intro h
    exact ⟨h.1, h.2.1, hmoved.2 (by omega)⟩

theorem Shifted.step (h : Shifted base r a) (c : Char) :
    Shifted base (r.step c) (a.step c) := by
  rw [shifted_iff] at *
  unfold Position.step
  by_cases hc : c = '\n'
  · rw [if_pos hc, if_pos hc]
    show 1 ≤ r.line + 1 ∧ 1 ≤ 1 ∧ (r.line + 1 = 1 ∧ a.line + 1 = base.line ∧ 1 = _
      ∨ 1 < r.line + 1 ∧ a.line + 1 = base.line + (r.line + 1) - 1 ∧ 1 = 1)
    omega
  · rw [if_neg hc, if_neg hc]
    show 1 ≤ r.line ∧ 1 ≤ r.col + 1 ∧ (r.line = 1 ∧ a.line = base.line ∧ a.col + 1 = _
      ∨ 1 < r.line ∧ a.line = base.line + r.line - 1 ∧ a.col + 1 = r.col + 1)
    show _ ∧ _ ∧ (_ ∧ _ ∧ a.col + 1 = base.col + (r.col + 1 - 1) ∨ _)
    omega

/-- **The two positions keep together** as both are moved over the same text. -/
theorem Shifted.after (h : Shifted base r a) (cs : List Char) :
    Shifted base (r.after cs) (a.after cs) := by
  induction cs generalizing r a with
  | nil => exact h
  | cons c cs ih => exact ih (h.step c)

/-- **A region of the text is moved to the region of the same characters in the file.** -/
theorem Shifted.offset_spanTo (h : Shifted base r a) (cs : List Char) :
    (r.spanTo (r.after cs)).offset base.span = a.spanTo (a.after cs) := by
  have hlen : ∀ p : Position, (p.after cs).offset - p.offset = cs.length := by
    intro p
    rw [offset_after]
    omega
  unfold spanTo
  rw [hlen, hlen]
  rw [shifted_iff] at h
  by_cases hline : r.line ≤ 1
  · rw [Span.offset, if_pos hline]
    show (⟨base.line, base.col + (r.col - 1), cs.length⟩ : Span) = ⟨a.line, a.col, cs.length⟩
    rw [Span.mk.injEq]
    omega
  · rw [Span.offset, if_neg hline]
    show (⟨base.line + r.line - 1, r.col, cs.length⟩ : Span) = ⟨a.line, a.col, cs.length⟩
    rw [Span.mk.injEq]
    omega

end Position

/-! ## §3. Cursors in a file. -/

namespace Cursor

/-- The cursor stands in the file behind the given part of it. -/
structure Behind (file done : List Char) (c : Cursor) : Prop where
  text : file = done ++ c.rest
  pos : c.pos = Position.start.after done

variable {file done : List Char} {c d : Cursor}

theorem behind_ofChars (file : List Char) : (ofChars file).Behind file [] := ⟨rfl, rfl⟩

theorem Behind.skip (h : c.Behind file done) (n : Nat) :
    (c.skip n).Behind file (done ++ c.rest.take n) := by
  refine ⟨?_, ?_⟩
  · show file = done ++ c.rest.take n ++ c.rest.drop n
    rw [List.append_assoc, List.take_append_drop]
    exact h.text
  · show c.pos.after (c.rest.take n) = _
    rw [h.pos, Position.after_append]

theorem take_length_takeWhile (f : Char → Bool) (cs : List Char) :
    cs.take (cs.takeWhile f).length = cs.takeWhile f :=
  (List.prefix_iff_eq_take.1 (List.takeWhile_prefix f)).symm

theorem Behind.takeWhile (h : c.Behind file done) (f : Char → Bool) :
    (c.takeWhile f).2.Behind file (done ++ (c.takeWhile f).1) := by
  have hskip := h.skip (c.rest.takeWhile f).length
  rw [take_length_takeWhile] at hskip
  exact hskip

/-- **The characters of a class are passed over**, and nothing else. -/
theorem exists_run (c : Cursor) (f : Char → Bool) : ∃ run d, c.takeWhile f = (run, d)
    ∧ (∀ ch ∈ run, f ch = true) ∧ c.rest = run ++ d.rest ∧ d.pos = c.pos.after run
    ∧ ∀ ch, d.rest.head? = some ch → f ch = false := by
  have htake := take_length_takeWhile f c.rest
  have hrest : (c.skip (c.rest.takeWhile f).length).rest = c.rest.dropWhile f := by
    have hsplit := List.take_append_drop (c.rest.takeWhile f).length c.rest
    rw [htake] at hsplit
    exact List.append_cancel_left (hsplit.trans List.takeWhile_append_dropWhile.symm)
  refine ⟨_, _, rfl, List.all_eq_true.1 List.all_takeWhile, ?_, ?_, fun ch hch => ?_⟩
  · rw [hrest, List.takeWhile_append_dropWhile]
  · show c.pos.after (c.rest.take (c.rest.takeWhile f).length) = _
    rw [htake]
  · have hhead := List.head?_dropWhile_not f c.rest
    rw [hrest] at hch
    rw [hch] at hhead
    exact hhead

theorem Behind.exists_run (h : c.Behind file done) (f : Char → Bool) :
    ∃ run d, c.takeWhile f = (run, d) ∧ (∀ ch ∈ run, f ch = true)
      ∧ d.Behind file (done ++ run) ∧ ∀ ch, d.rest.head? = some ch → f ch = false := by
  obtain ⟨run, d, htake, hrun, hrest, hpos, hhead⟩ := c.exists_run f
  refine ⟨run, d, htake, hrun, ⟨?_, ?_⟩, hhead⟩
  · rw [List.append_assoc, ← hrest]
    exact h.text
  · rw [hpos, h.pos, Position.after_append]

/-- **Blanks are passed over**, and nothing else. -/
theorem exists_gap (c : Cursor) : ∃ gap, (∀ b ∈ gap, Text.isBlank b = true)
    ∧ c.rest = gap ++ c.skipBlank.rest ∧ c.skipBlank.pos = c.pos.after gap
    ∧ ∀ ch, c.skipBlank.rest.head? = some ch → Text.isBlank ch = false := by
  obtain ⟨gap, d, htake, hgap⟩ := c.exists_run Text.isBlank
  rw [show c.skipBlank = d from congrArg Prod.snd htake]
  exact ⟨gap, hgap⟩

theorem Behind.skipBlank (h : c.Behind file done) :
    ∃ gap, (∀ b ∈ gap, Text.isBlank b = true) ∧ c.skipBlank.Behind file (done ++ gap) := by
  obtain ⟨gap, d, htake, hblank, hbehind, -⟩ := h.exists_run Text.isBlank
  rw [show c.skipBlank = d from congrArg Prod.snd htake]
  exact ⟨gap, hblank, hbehind⟩

theorem Behind.skipChar? {ch : Char} (h : c.Behind file done)
    (hd : c.skipChar? ch = some d) : d.Behind file (done ++ [ch]) := by
  unfold Cursor.skipChar? at hd
  by_cases hhead : c.rest.head? = some ch
  · rw [if_pos hhead] at hd
    have hskip := h.skip 1
    obtain ⟨rest, hrest⟩ := List.head?_eq_some_iff.1 hhead
    rw [hrest] at hskip
    rw [← Option.some.inj hd]
    exact hskip
  · rw [if_neg hhead] at hd
    cases hd

end Cursor

end BoundMarkup
