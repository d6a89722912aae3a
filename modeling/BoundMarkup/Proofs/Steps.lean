/-
  BoundMarkup.Proofs.Steps
  ────────────────────────
  **STEPS ONE AFTER ANOTHER, EACH OF WHICH MAY FAIL.**

  What is known of the steps of a sequence once its outcome is known.  Readers of
  bindings and stages of compilation are both taken apart with these facts.
-/

namespace BoundMarkup

/-- A sequence that succeeds has succeeded with its first step. -/
theorem exists_ok_of_bind {ε α β : Type} {x : Except ε α} {next : α → Except ε β} {b : β}
    (h : x >>= next = .ok b) : ∃ a, x = .ok a ∧ next a = .ok b := by
  match x, h with
  | .ok a, h => exact ⟨a, rfl, h⟩

/-- A sequence that fails has failed with its first step, or after it. -/
theorem error_or_of_bind {ε α β : Type} {x : Except ε α} {next : α → Except ε β} {e : ε}
    (h : x >>= next = .error e) : x = .error e ∨ ∃ a, x = .ok a ∧ next a = .error e := by
  match x, h with
  | .error e', h =>
      cases h
      exact Or.inl rfl
  | .ok a, h => exact Or.inr ⟨a, rfl, h⟩

/-- A result that is changed after a success comes from that success. -/
theorem exists_ok_of_map {ε α β : Type} {x : Except ε α} {f : α → β} {b : β}
    (h : x.map f = .ok b) : ∃ a, x = .ok a ∧ f a = b := by
  match x, h with
  | .ok a, h => exact ⟨a, rfl, Except.ok.inj h⟩

/-- A step whose result can be had has succeeded. -/
theorem exists_ok_of_isSome {ε α : Type} {x : Except ε α} (h : x.toOption.isSome = true) :
    ∃ a, x = .ok a := by
  match x, h with
  | .ok a, _ => exact ⟨a, rfl⟩

/-- A step whose result cannot be had has failed. -/
theorem not_exists_ok {ε α : Type} {x : Except ε α} (h : x.toOption.isSome = false) :
    ¬ ∃ a, x = .ok a := by
  rintro ⟨a, rfl⟩
  cases h

/-- What is known of the result that can be had is known of the success. -/
theorem exists_ok_of_toOption {ε α β : Type} {x : Except ε α} {f : α → β} {b : β}
    (h : x.toOption.map f = some b) : ∃ a, x = .ok a ∧ f a = b := by
  match x, h with
  | .ok a, h => exact ⟨a, rfl, Option.some.inj h⟩

/-- A success is as `good` says, and a failure is as `bad` says. -/
def Meets {ε α : Type} (good : α → Prop) (bad : ε → Prop) : Except ε α → Prop
  | .ok a => good a
  | .error e => bad e

section Meets

variable {ε α β : Type} {good good' : α → Prop} {bad bad' : ε → Prop} {x : Except ε α}

theorem Meets.of_ok {a : α} (h : Meets good bad x) (hx : x = .ok a) : good a := by
  rw [hx] at h
  exact h

theorem Meets.of_error {e : ε} (h : Meets good bad x) (hx : x = .error e) : bad e := by
  rw [hx] at h
  exact h

theorem Meets.mono (h : Meets good bad x) (hgood : ∀ a, good a → good' a)
    (hbad : ∀ e, bad e → bad' e) : Meets good' bad' x := by
  cases x with
  | ok a => exact hgood a h
  | error e => exact hbad e h

/-- **A sequence meets what its steps meet.** -/
theorem Meets.bind {next : α → Except ε β} {last : β → Prop} (h : Meets good bad x)
    (hnext : ∀ a, good a → Meets last bad (next a)) : Meets last bad (x >>= next) := by
  cases x with
  | ok a => exact hnext a h
  | error e => exact h

theorem Meets.map {f : α → β} {last : β → Prop} (h : Meets good bad x)
    (hf : ∀ a, good a → last (f a)) : Meets last bad (x.map f) := by
  cases x with
  | ok a => exact hf a h
  | error e => exact h

end Meets

/-- Checked one by one, each result comes from an element. -/
theorem exists_of_mem_mapM {ε α β : Type} {f : α → Except ε β} :
    ∀ {xs : List α} {ys : List β}, xs.mapM f = .ok ys → ∀ y ∈ ys, ∃ x ∈ xs, f x = .ok y
  | [], ys, h, y, hy => by
      cases h
      cases hy
  | x :: xs, ys, h, y, hy => by
      rw [List.mapM_cons] at h
      obtain ⟨first, hfirst, h⟩ := exists_ok_of_bind h
      obtain ⟨others, hothers, h⟩ := exists_ok_of_bind h
      cases h
      rcases List.mem_cons.1 hy with rfl | hy
      · exact ⟨x, List.mem_cons_self, hfirst⟩
      · obtain ⟨x', hx', hfx'⟩ := exists_of_mem_mapM hothers y hy
        exact ⟨x', List.mem_cons_of_mem x hx', hfx'⟩

end BoundMarkup
