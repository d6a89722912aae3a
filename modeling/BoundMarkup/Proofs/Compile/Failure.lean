/-
  BoundMarkup.Proofs.Compile.Failure
  ──────────────────────────────────
  **WHAT A VIEW IS REFUSED FOR ON ITS OWN ACCOUNT.**

  Reading a file, resolving its tree and checking it need no chain of views.  A
  failure there is `Own`: it refuses the view with at least one report, every
  report is about the view, and none is about a cycle.
-/
import BoundMarkup.Proofs.Compile.Dependency

namespace BoundMarkup

open Markup (Document)

/-! ## §1. Reports. -/

namespace Report

@[simp] theorem about_path (path : String) (place : Option Span) (className message : String) :
    (about path place className message).path = path := by
  cases place <;> rfl

@[simp] theorem about_className (path : String) (place : Option Span)
    (className message : String) : (about path place className message).className = className := by
  cases place <;> rfl

@[simp] theorem about_message (path : String) (place : Option Span)
    (className message : String) : (about path place className message).message = message := by
  cases place <;> rfl

/-- The report is about the view itself, whatever it depends on. -/
def Own (path : String) (r : Report) : Prop := r.path = path ∧ r.className ≠ "DependencyCycle"

theorem own_about {path className : String} (hc : className ≠ "DependencyCycle")
    (place : Option Span) (message : String) : Own path (about path place className message) := by
  refine ⟨about_path path place className message, ?_⟩
  rw [about_className]
  exact hc

theorem own_ofBinding (path : String) (error : Binding.BindingError) :
    Own path (ofBinding path error) := by
  refine own_about ?_ _ _
  cases error with
  | malformed _ =>
      show "Parse" ≠ _
      decide
  | unresolved fault =>
      show fault.error.className ≠ _
      cases fault.error <;> simp [ResolutionError.className]

end Report

theorem NodeError.report_own (path : String) (e : NodeError) : (e.report path).Own path :=
  Report.own_about (by decide) _ _

theorem UsageError.report_own (path : String) (e : UsageError) : (e.report path).Own path :=
  Report.own_about (by decide) _ _

theorem ViewError.report_own {e : ViewError} (path : String)
    (he : e.className ≠ "DependencyCycle") : (e.report path).Own path :=
  Report.own_about he _ _

namespace ControlTree

theorem errorReports_own (t : ControlTree) : ∀ r ∈ t.errorReports, r.Own t.path := by
  intro r hr
  unfold errorReports at hr
  split at hr
  · rw [Option.mem_toList] at hr
    obtain ⟨error, _, rfl⟩ := Option.map_eq_some_iff.1 hr
    exact Report.own_ofBinding t.path error
  · unfold nodeReports at hr
    obtain ⟨x, _, hr⟩ := List.mem_flatMap.1 hr
    obtain ⟨error, _, rfl⟩ := List.mem_map.1 hr
    exact error.report_own t.path

theorem usageReports_own (types : Registry) (t : ControlTree) :
    ∀ r ∈ t.usageReports types, r.Own t.path := by
  intro r hr
  unfold usageReports at hr
  obtain ⟨x, _, hr⟩ := List.mem_flatMap.1 hr
  obtain ⟨error, _, rfl⟩ := List.mem_map.1 hr
  exact error.report_own t.path

end ControlTree

/-! ## §2. Errors of a view. -/

namespace Directives

theorem typeOf_error {r : Registry} {spaces : List String} {x : Markup.Directive} {e : ViewError}
    (h : typeOf r spaces x = .error e) : e.className = ViewError.structureClass := by
  unfold typeOf at h
  dsimp only at h
  split at h <;> cases h
  rfl

theorem single?_error {d : Document} {name : String} {e : ViewError}
    (h : single? d name = .error e) : e.className = ViewError.structureClass := by
  unfold single? at h
  split at h <;> cases h
  rfl

theorem viewModelOf_error {r : Registry} {spaces : List String} {kind : ViewKind} {d : Document}
    {e : ViewError} (h : viewModelOf r spaces kind d = .error e) :
    e.className = ViewError.structureClass := by
  unfold viewModelOf at h
  rcases error_or_of_bind h with h | ⟨found, _, h⟩
  · exact single?_error h
  · cases found with
    | some x => exact typeOf_error h
    | none =>
        simp only at h
        split at h <;> cases h
        rfl

theorem masterOf_error {kind : ViewKind} {d : Document} {e : ViewError}
    (h : masterOf kind d = .error e) : e.className = ViewError.structureClass := by
  unfold masterOf at h
  rcases error_or_of_bind h with h | ⟨found, _, h⟩
  · exact single?_error h
  · cases found with
    | some x =>
        simp only at h
        split at h <;> cases h
        rfl
    | none => cases h

theorem baseTypeOf_error {r : Registry} {spaces : List String} {d : Document} {e : ViewError}
    (h : baseTypeOf r spaces d = .error e) : e.className = ViewError.structureClass := by
  unfold baseTypeOf at h
  rcases error_or_of_bind h with h | ⟨found, _, h⟩
  · exact single?_error h
  · cases found with
    | some x =>
        simp only at h
        cases ht : typeOf r spaces x with
        | error e' =>
            rw [ht] at h
            cases h
            exact typeOf_error ht
        | ok type =>
            rw [ht] at h
            cases h
    | none => cases h

theorem ofDocument_error {r : Registry} {kind : ViewKind} {d : Document} {e : ViewError}
    (h : ofDocument r kind d = .error e) : e.className = ViewError.structureClass := by
  unfold ofDocument at h
  rcases error_or_of_bind h with h | ⟨viewModel, _, h⟩
  · exact viewModelOf_error h
  rcases error_or_of_bind h with h | ⟨master, _, h⟩
  · exact masterOf_error h
  rcases error_or_of_bind h with h | ⟨baseType, _, h⟩
  · exact baseTypeOf_error h
  · cases h

end Directives

theorem ControlTree.ofDocument_error {s : ControlScope} {path : String} {kind : ViewKind}
    {d : Document} {e : ViewError} (h : ControlTree.ofDocument s path kind d = .error e) :
    e.className = ViewError.structureClass := by
  unfold ControlTree.ofDocument at h
  rcases error_or_of_bind h with h | ⟨directives, _, h⟩
  · exact Directives.ofDocument_error h
  · simp only at h
    split at h <;> cases h
    rfl

theorem Compiler.read_error {c : Compiler} {path : String} {e : ViewError}
    (h : c.read path = .error e) : e.className = "SourceNotFound" ∨ e.className = "Parse" := by
  unfold Compiler.read at h
  split at h
  · cases h
    exact Or.inl rfl
  · right
    unfold Compiler.document at h
    split at h <;> cases h
    rfl

/-! ## §3. Failures. -/

namespace Failure

/-- The view is refused, with reports of its own. -/
def Own (path : String) (f : Failure) : Prop :=
  ∃ rs, f.view path = .refused path rs ∧ rs ≠ [] ∧ ∀ r ∈ rs, r.Own path

theorem own_error {e : ViewError} (path : String) (he : e.className ≠ "DependencyCycle") :
    Own path (.error e) := by
  refine ⟨[e.report path], rfl, List.cons_ne_nil _ _, fun r hr => ?_⟩
  rw [List.mem_singleton.1 hr]
  exact e.report_own path he

theorem own_reports {path : String} {rs : List Report} (hne : rs ≠ [])
    (hrs : ∀ r ∈ rs, r.Own path) : Own path (.reports rs) := ⟨rs, rfl, hne, hrs⟩

theorem unlessNone_eq_error {rs : List Report} {f : Failure}
    (h : unlessNone rs = .error f) : f = .reports rs ∧ rs ≠ [] := by
  unfold unlessNone at h
  cases rs with
  | nil => cases h
  | cons r rs =>
      cases h
      exact ⟨rfl, List.cons_ne_nil r rs⟩

theorem unlessNone_eq_ok {rs : List Report} {u : Unit} (h : unlessNone rs = .ok u) : rs = [] := by
  cases rs with
  | nil => rfl
  | cons r rs => cases h

theorem lift_eq_ok {α : Type} {x : Except ViewError α} {a : α} (h : lift x = .ok a) :
    x = .ok a := by
  cases x <;> cases h
  rfl

theorem lift_eq_error {α : Type} {x : Except ViewError α} {f : Failure}
    (h : lift x = .error f) : ∃ e, x = .error e ∧ f = .error e := by
  cases x <;> cases h
  exact ⟨_, rfl, rfl⟩

end Failure

namespace Compiler

/-- What is known of a tree that is ready to be emitted. -/
theorem tree_eq_ok {c : Compiler} {path : String} {d : Document}
    {controls : List (String × CompiledView)} {t : ControlTree}
    (h : c.tree path d controls = .ok t) :
    t.path = path ∧ Directives.masterOf (.ofPath path) d = .ok t.directives.master
      ∧ ∀ e ∈ d.elements, ∃ found, (c.scope controls).controlType e.name = .ok found := by
  unfold tree at h
  obtain ⟨resolved, hr, h⟩ := exists_ok_of_bind h
  obtain ⟨_, he, h⟩ := exists_ok_of_bind h
  obtain ⟨_, _, h⟩ := exists_ok_of_bind h
  cases h
  have hr := Failure.lift_eq_ok hr
  have hn := ControlTree.nodeReports_eq_nil (Failure.unlessNone_eq_ok he)
  obtain ⟨hpath, hmaster, _⟩ := ControlTree.ofDocument_eq_ok hr
  exact ⟨hpath, hmaster, fun e he => ControlTree.controlType_isOk hr hn he⟩

/-- **A tree that is not ready** is a failure of the view's own. -/
theorem tree_eq_error {c : Compiler} {path : String} {d : Document}
    {controls : List (String × CompiledView)} {f : Failure}
    (h : c.tree path d controls = .error f) : f.Own path := by
  unfold tree at h
  rcases error_or_of_bind h with h | ⟨resolved, hr, h⟩
  · obtain ⟨e, he, rfl⟩ := Failure.lift_eq_error h
    refine Failure.own_error path ?_
    rw [ControlTree.ofDocument_error he]
    decide
  have hpath := (ControlTree.ofDocument_eq_ok (Failure.lift_eq_ok hr)).1
  rcases error_or_of_bind h with h | ⟨_, _, h⟩
  · obtain ⟨rfl, hne⟩ := Failure.unlessNone_eq_error h
    refine Failure.own_reports hne ?_
    rw [← hpath]
    exact resolved.errorReports_own
  rcases error_or_of_bind h with h | ⟨_, _, h⟩
  · obtain ⟨rfl, hne⟩ := Failure.unlessNone_eq_error h
    refine Failure.own_reports hne ?_
    rw [← hpath]
    exact ControlTree.usageReports_own c.types _
  · cases h

/-- A view and its master page do not fit: the master page failed, or the view
fails on its own account. -/
theorem checkMaster_eq_error {c : Compiler} {t : ControlTree} {reference : MasterReference}
    {master : CompiledView} {f : Failure} (h : c.checkMaster t reference master = .error f) :
    (master.artifact? = none
        ∧ f = .master (.masterFailed reference.path reference.span) master)
      ∨ f.Own t.path := by
  unfold checkMaster at h
  split at h
  · cases h
    exact Or.inl ⟨‹_›, rfl⟩
  · right
    split at h
    · obtain ⟨rfl, hne⟩ := Failure.unlessNone_eq_error h
      refine Failure.own_reports hne fun r hr => ?_
      obtain ⟨error, _, rfl⟩ := List.mem_map.1 hr
      exact error.report_own t.path
    · cases h
      refine Failure.own_error t.path ?_
      show ViewError.structureClass ≠ _
      decide

/-- A view fits its master page only if that compiled. -/
theorem checkMaster_eq_ok {c : Compiler} {t : ControlTree} {reference : MasterReference}
    {master : CompiledView} {u : Unit} (h : c.checkMaster t reference master = .ok u) :
    master.succeeded = true := by
  unfold checkMaster at h
  unfold CompiledView.succeeded
  cases hm : master.artifact? with
  | none =>
      rw [hm] at h
      cases h
  | some a => rfl

end Compiler

end BoundMarkup
