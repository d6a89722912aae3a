/-
  BoundMarkup.Proofs.Builder.Running
  ──────────────────────────────────
  **RUNNING THE STATEMENTS OF A BUILDER.**

  A statement acts on the controls that the variables hold.  It is stuck where it
  uses a variable that holds nothing or whose control has already been added to
  another one, and where it creates a control in a variable that holds one.  So a
  run to the end says how the variables were used:

    • what one statement needs and leaves is said in §2, for each of them at once,
    • what a whole run needed is `Orderly`, for every run (`orderly_of_run`).
-/
import BoundMarkup.Builder.Unit

namespace BoundMarkup

/-! ## §1. Controls at run time. -/

/-- What is set on a control. -/
inductive Setting where
  | value (property value : String)
  | plain (name value : String)
  | binding (property : String) (kind : Markup.BindingKind) (expression : String) (type : TypeRef)
  deriving DecidableEq, Repr

/-- The statement that makes the setting. -/
def Setting.statement (var : Nat) : Setting → Statement
  | value property text => .setValue var property text
  | plain name text => .setAttribute var name text
  | binding property kind expression type => .setBinding var property kind expression type

/-- What has been added to a control: the control of a variable, or text. -/
inductive Child where
  | control (var : Nat)
  | text (text : String)
  deriving DecidableEq, Repr

/-- A control at run time; `added` once it is a child of another one. -/
structure RunControl where
  type : TypeRef
  internals : List (String × TypeRef)
  settings : List Setting
  children : List Child
  added : Bool
  deriving DecidableEq, Repr

/-- A control that has just been created. -/
def RunControl.new (type : TypeRef) : RunControl := ⟨type, [], [], [], false⟩

/-- What each variable holds. -/
def Store := Nat → Option RunControl

namespace Store

/-- No variable holds anything. -/
def empty : Store := fun _ => none

/-- The variable holds the control. -/
def put (s : Store) (v : Nat) (o : RunControl) : Store := fun w => if w = v then some o else s w

/-- Whether the variable holds a control, and then whether that has been added. -/
def status (s : Store) (v : Nat) : Option Bool := (s v).map RunControl.added

/-- Change the control of a variable, which must not have been added. -/
def write (s : Store) (v : Nat) (f : RunControl → RunControl) : Option Store :=
  match s v with
  | some o => if o.added then none else some (s.put v (f o))
  | none => none

/-- **One statement.** -/
def step (s : Store) : Statement → Option Store
  | .create v type => if (s v).isSome then none else some (s.put v (.new type))
  | .setInternal v name type =>
      s.write v (fun o => { o with internals := o.internals ++ [(name, type)] })
  | .setValue v property value =>
      s.write v (fun o => { o with settings := o.settings ++ [.value property value] })
  | .setAttribute v name value =>
      s.write v (fun o => { o with settings := o.settings ++ [.plain name value] })
  | .setBinding v property kind expression type =>
      s.write v (fun o =>
        { o with settings := o.settings ++ [.binding property kind expression type] })
  | .addText v text => s.write v (fun o => { o with children := o.children ++ [.text text] })
  | .addChild parent child =>
      (s.write child (fun o => { o with added := true })).bind (fun s =>
        s.write parent (fun o => { o with children := o.children ++ [.control child] }))

/-- **The statements one after the other.** -/
def run (s : Store) : List Statement → Option Store
  | [] => some s
  | a :: as => (s.step a).bind (fun s => s.run as)

end Store

namespace Statement

/-- The variables that a statement uses; the one it creates is not among them. -/
def uses : Statement → List Nat
  | create _ _ => []
  | setValue v _ _ | setAttribute v _ _ | setBinding v _ _ _ _ | setInternal v _ _ => [v]
  | addChild parent child => [parent, child]
  | addText parent _ => [parent]

/-- The variable that a statement creates. -/
def created? : Statement → Option Nat
  | create v _ => some v
  | _ => none

/-- The variable whose control a statement adds to another one. -/
def added? : Statement → Option Nat
  | addChild _ child => some child
  | _ => none

/-- **The order of statements**: how the variables are used. -/
structure Orderly (statements : List Statement) : Prop where
  /-- A variable is used only behind the statement that creates it. -/
  created : ∀ before a after, statements = before ++ a :: after →
    ∀ v ∈ a.uses, v ∈ before.filterMap created?
  /-- Each variable is created once. -/
  once : (statements.filterMap created?).Nodup
  /-- The control of a variable is added at most once. -/
  addedOnce : (statements.filterMap added?).Nodup
  /-- Behind the statement that adds its control a variable is not used. -/
  addedLast : ∀ before a after, statements = before ++ a :: after →
    ∀ v ∈ a.added?, ∀ b ∈ after, v ∉ b.uses

end Statement

/-! ## §2. One statement. -/

namespace Store

open Statement

variable {s s' next : Store} {v w : Nat} {a : Statement} {as : List Statement} {o : RunControl}

@[simp] theorem put_self (s : Store) (v : Nat) (o : RunControl) : s.put v o v = some o :=
  if_pos rfl

@[simp] theorem put_other (h : w ≠ v) (s : Store) (o : RunControl) : s.put v o w = s w :=
  if_neg h

theorem status_put (s : Store) (v w : Nat) (o : RunControl) :
    (s.put v o).status w = if w = v then some o.added else s.status w := by
  by_cases h : w = v
  · subst h
    rw [if_pos rfl, status, put_self]
    rfl
  · rw [if_neg h, status, put_other h]
    rfl

theorem write_eq_some {f : RunControl → RunControl} :
    s.write v f = some s' ↔ ∃ o, s v = some o ∧ o.added = false ∧ s' = s.put v (f o) := by
  unfold write
  constructor
  · intro h
    split at h
    · rename_i o ho
      split at h
      · cases h
      · rename_i hopen
        exact ⟨o, ho, Bool.eq_false_iff.2 hopen, (Option.some.inj h).symm⟩
    · cases h
  · rintro ⟨o, ho, hopen, rfl⟩
    rw [ho]
    simp [hopen]

/-- Only a control that is there and has not been added is changed; by most changes it is
not added either. -/
theorem status_of_write {f : RunControl → RunControl} (h : s.write v f = some s')
    (hf : ∀ o, (f o).added = o.added) :
    s.status v = some false ∧ ∀ w, s'.status w = s.status w := by
  obtain ⟨o, ho, hopen, rfl⟩ := write_eq_some.1 h
  have hv : s.status v = some false := by rw [status, ho, Option.map_some, hopen]
  refine ⟨hv, fun w => ?_⟩
  rw [status_put]
  by_cases hw : w = v
  · rw [if_pos hw, hw, hv, hf, hopen]
  · rw [if_neg hw]

/-- What is added is used. -/
theorem mem_uses_of_added (h : a.added? = some w) : w ∈ a.uses := by
  cases a <;> cases h
  exact List.mem_cons_of_mem _ List.mem_cons_self

/-- **What a statement needs and leaves.** -/
structure Steps (s : Store) (a : Statement) (s' : Store) : Prop where
  used : ∀ w ∈ a.uses, s.status w = some false
  created : ∀ w, a.created? = some w → s.status w = none
  status : ∀ w, s'.status w =
    if a.created? = some w then some false
    else if a.added? = some w then some true else s.status w

theorem steps_of_step (h : s.step a = some next) : s.Steps a next := by
  cases a with
  | create v type =>
      simp only [step] at h
      split at h
      · cases h
      · rename_i hnone
        cases h
        refine ⟨nofun, fun w hw => ?_, fun w => ?_⟩
        · cases Option.some.inj hw
          rw [Store.status, Option.not_isSome_iff_eq_none.1 hnone]
          rfl
        · show (s.put v (.new type)).status w =
            if some v = some w then some false else s.status w
          rw [status_put]
          by_cases hw : w = v
          · rw [if_pos hw, if_pos (congrArg some hw.symm)]
            rfl
          · rw [if_neg hw, if_neg (fun h => hw (Option.some.inj h).symm)]
  | setInternal v _ _ | setValue v _ _ | setAttribute v _ _ | setBinding v _ _ _ _ | addText v _ =>
      obtain ⟨hopen, hsame⟩ := status_of_write h (fun _ => rfl)
      refine ⟨fun w hw => ?_, nofun, hsame⟩
      rw [List.mem_singleton.1 hw]
      exact hopen
  | addChild parent child =>
      obtain ⟨mid, hmid, h⟩ := Option.bind_eq_some_iff.1 h
      obtain ⟨o, ho, hopen, rfl⟩ := write_eq_some.1 hmid
      obtain ⟨hparent, hsame⟩ := status_of_write h (fun _ => rfl)
      have hchild : s.status child = some false := by rw [Store.status, ho, Option.map_some, hopen]
      rw [status_put] at hparent
      refine ⟨fun w hw => ?_, nofun, fun w => ?_⟩
      · rcases List.mem_cons.1 hw with rfl | hw
        · -- The parent is open behind the change, so it is not the child.
          split at hparent
          · cases hparent
          · exact hparent
        · rw [List.mem_singleton.1 hw]
          exact hchild
      · show next.status w = if some child = some w then some true else s.status w
        rw [hsame, status_put]
        by_cases hw : w = child
        · rw [if_pos hw, if_pos (congrArg some hw.symm)]
        · rw [if_neg hw, if_neg (fun h => hw (Option.some.inj h).symm)]

/-- What holds a control behind a statement: what held one before it, and what it created. -/
theorem status_ne_none_step (h : s.step a = some next) :
    next.status w ≠ none ↔ s.status w ≠ none ∨ a.created? = some w := by
  have hsteps := steps_of_step h
  rw [hsteps.status]
  by_cases hcreated : a.created? = some w
  · rw [if_pos hcreated]
    exact iff_of_true nofun (Or.inr hcreated)
  · rw [if_neg hcreated]
    by_cases hadded : a.added? = some w
    · -- What is added has been used, so it held a control.
      rw [if_pos hadded, hsteps.used w (mem_uses_of_added hadded)]
      exact iff_of_true nofun (Or.inl nofun)
    · rw [if_neg hadded, or_iff_left hcreated]

/-- What has been added behind a statement: what was before it, and what it adds. -/
theorem status_added_step (h : s.step a = some next) :
    next.status w = some true ↔ s.status w = some true ∨ a.added? = some w := by
  have hsteps := steps_of_step h
  rw [hsteps.status]
  by_cases hcreated : a.created? = some w
  · rw [if_pos hcreated, hsteps.created w hcreated]
    refine iff_of_false nofun (fun hor => ?_)
    rcases hor with hnone | hadded
    · cases hnone
    · cases a <;> cases hadded
      cases hcreated
  · rw [if_neg hcreated]
    by_cases hadded : a.added? = some w
    · rw [if_pos hadded]
      exact iff_of_true rfl (Or.inr hadded)
    · rw [if_neg hadded, or_iff_left hadded]

/-! ## §3. Runs. -/

theorem run_append (s : Store) (as bs : List Statement) :
    s.run (as ++ bs) = (s.run as).bind (fun s => s.run bs) := by
  induction as generalizing s with
  | nil => rfl
  | cons a as ih =>
      show ((s.step a).bind fun s => s.run (as ++ bs)) = _
      simp only [ih, run, Option.bind_assoc]

theorem run_append_eq_some {bs : List Statement} :
    s.run (as ++ bs) = some s' ↔ ∃ mid, s.run as = some mid ∧ mid.run bs = some s' := by
  rw [run_append, Option.bind_eq_some_iff]

theorem run_cons_eq_some : s.run (a :: as) = some s' ↔ ∃ mid, s.step a = some mid ∧
    mid.run as = some s' :=
  Option.bind_eq_some_iff

theorem mem_filterMap_cons {f : Statement → Option Nat} :
    w ∈ (a :: as).filterMap f ↔ f a = some w ∨ w ∈ as.filterMap f := by
  simp only [List.mem_filterMap, List.mem_cons, or_and_right, exists_or, exists_eq_left]

/-- What holds a control behind a run: what held one before it, and what it created. -/
theorem status_ne_none_run (h : s.run as = some s') :
    s'.status w ≠ none ↔ s.status w ≠ none ∨ w ∈ as.filterMap created? := by
  induction as generalizing s with
  | nil =>
      cases h
      exact (or_iff_left List.not_mem_nil).symm
  | cons a as ih =>
      obtain ⟨mid, hstep, hrun⟩ := run_cons_eq_some.1 h
      rw [ih hrun, status_ne_none_step hstep, mem_filterMap_cons, or_assoc]

/-- What has been added behind a run: what was before it, and what it adds. -/
theorem status_added_run (h : s.run as = some s') :
    s'.status w = some true ↔ s.status w = some true ∨ w ∈ as.filterMap added? := by
  induction as generalizing s with
  | nil =>
      cases h
      exact (or_iff_left List.not_mem_nil).symm
  | cons a as ih =>
      obtain ⟨mid, hstep, hrun⟩ := run_cons_eq_some.1 h
      rw [ih hrun, status_added_step hstep, mem_filterMap_cons, or_assoc]

/-- A variable that holds a control is not created again. -/
theorem not_created_of_run (h : s.run as = some s') (hw : s.status w ≠ none) :
    w ∉ as.filterMap created? := by
  induction as generalizing s with
  | nil => exact List.not_mem_nil
  | cons a as ih =>
      obtain ⟨mid, hstep, hrun⟩ := run_cons_eq_some.1 h
      rw [mem_filterMap_cons, not_or]
      exact ⟨fun hcreated => hw ((steps_of_step hstep).created w hcreated),
        ih hrun ((status_ne_none_step hstep).2 (Or.inl hw))⟩

/-- **A control that has been added is left alone.** -/
theorem not_used_of_run (h : s.run as = some s') (hw : s.status w = some true) :
    ∀ b ∈ as, w ∉ b.uses := by
  induction as generalizing s with
  | nil => exact nofun
  | cons a as ih =>
      obtain ⟨mid, hstep, hrun⟩ := run_cons_eq_some.1 h
      refine List.forall_mem_cons.2 ⟨fun huses => ?_,
        ih hrun ((status_added_step hstep).2 (Or.inl hw))⟩
      rw [(steps_of_step hstep).used w huses] at hw
      cases hw

/-- The controls that a run adds are all different. -/
theorem nodup_added_of_run (h : s.run as = some s') : (as.filterMap added?).Nodup := by
  induction as generalizing s with
  | nil => exact List.nodup_nil
  | cons a as ih =>
      obtain ⟨mid, hstep, hrun⟩ := run_cons_eq_some.1 h
      rw [List.filterMap_cons]
      split
      · exact ih hrun
      · rename_i v hadded
        have hmid : mid.status v = some true := (status_added_step hstep).2 (Or.inr hadded)
        refine List.nodup_cons.2 ⟨fun hmem => ?_, ih hrun⟩
        obtain ⟨b, hb, hagain⟩ := List.mem_filterMap.1 hmem
        exact not_used_of_run hrun hmid b hb (mem_uses_of_added hagain)

/-- The variables that a run creates are all different. -/
theorem nodup_created_of_run (h : s.run as = some s') : (as.filterMap created?).Nodup := by
  induction as generalizing s with
  | nil => exact List.nodup_nil
  | cons a as ih =>
      obtain ⟨mid, hstep, hrun⟩ := run_cons_eq_some.1 h
      rw [List.filterMap_cons]
      split
      · exact ih hrun
      · rename_i v hcreated
        have hmid : mid.status v ≠ none := (status_ne_none_step hstep).2 (Or.inr hcreated)
        exact List.nodup_cons.2 ⟨not_created_of_run hrun hmid, ih hrun⟩

/-- **Statements that run to the end are in order.** -/
theorem orderly_of_run (h : Store.empty.run as = some s') : Orderly as where
  once := nodup_created_of_run h
  addedOnce := nodup_added_of_run h
  created before a after heq v hv := by
    rw [heq] at h
    obtain ⟨mid, hbefore, h⟩ := run_append_eq_some.1 h
    obtain ⟨_, hstep, _⟩ := run_cons_eq_some.1 h
    have hmid : mid.status v ≠ none := by
      rw [(steps_of_step hstep).used v hv]
      exact nofun
    exact ((status_ne_none_run hbefore).1 hmid).resolve_left (fun hempty => hempty rfl)
  addedLast before a after heq v hv := by
    rw [heq] at h
    obtain ⟨mid, hbefore, h⟩ := run_append_eq_some.1 h
    obtain ⟨next, hstep, hafter⟩ := run_cons_eq_some.1 h
    exact not_used_of_run hafter ((status_added_step hstep).2 (Or.inr hv))

end Store

end BoundMarkup
