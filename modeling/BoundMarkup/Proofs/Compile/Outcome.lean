/-
  BoundMarkup.Proofs.Compile.Outcome
  ──────────────────────────────────
  **ALL WAYS IN WHICH THE STAGES OF A VIEW CAN END.**

  `Outcome` lists them once, with what each of them presupposes, for views that
  are taken from a table of finished ones:

    • `Outcome.error_cases` — a view fails on its own account, by a cycle, or
      because its master page failed,
    • `Outcome.dependencies_succeeded` — it succeeds only on top of successes,
    • `Outcome.unique` — away from cycles, agreeing tables lead to one outcome.
-/
import BoundMarkup.Proofs.Compile.Derivation

namespace BoundMarkup

open Markup (Document)

/-! ## §1. Tables of finished views. -/

/-- The view of a path among finished ones. -/
def lookup (views : List CompiledView) (path : String) : Option CompiledView :=
  views.find? (fun v => v.path == path)

theorem lookup_path {views : List CompiledView} {path : String} {v : CompiledView}
    (h : lookup views path = some v) : v.path = path := by
  simpa using List.find?_some h

theorem lookup_append (xs ys : List CompiledView) (path : String) :
    lookup (xs ++ ys) path = (lookup xs path).or (lookup ys path) := by
  unfold lookup
  rw [List.find?_append]

/-- What has been finished stays as it is. -/
theorem lookup_mono {xs ys : List CompiledView} (hp : xs <+: ys) {path : String}
    {v : CompiledView} (h : lookup xs path = some v) : lookup ys path = some v := by
  obtain ⟨zs, rfl⟩ := hp
  rw [lookup_append, h]
  rfl

theorem lookup_concat_self {views : List CompiledView} {v : CompiledView}
    (h : lookup views v.path = none) : lookup (views ++ [v]) v.path = some v := by
  rw [lookup_append, h]
  simp [lookup]

theorem lookup_concat_of_ne {views : List CompiledView} {v : CompiledView} {path : String}
    (h : v.path ≠ path) : lookup (views ++ [v]) path = lookup views path := by
  rw [lookup_append]
  simp [lookup, h]

theorem mem_of_lookup {views : List CompiledView} {path : String} {v : CompiledView}
    (h : lookup views path = some v) : v ∈ views := List.mem_of_find?_eq_some h

namespace Compiler

/-! ## §2. Outcomes. -/

/-- Every reference has been answered from the table, none by a cycle. -/
def Answered (table : String → Option CompiledView) (chain : List String) :
    List (String × Span) → List (String × CompiledView) → Prop :=
  List.Forall₂ fun use control =>
    control.1 = use.1 ∧ use.1 ∉ chain ∧ table use.1 = some control.2

/-- **The outcomes of the stages of a path**, the last of the chain, if what it
requires is taken from the table. -/
inductive Outcome (c : Compiler) (table : String → Option CompiledView) (chain : List String)
    (path : String) : Except Failure Artifact → Prop
  | unread {e : ViewError} (hread : c.read path = .error e) :
      Outcome c table chain path (.error (.error e))
  | controlCycle {file : MarkupFile} {d : Document} {q : String} {span : Span}
      {walk : List String} (hread : c.read path = .ok (file, d))
      (hq : (q, span) ∈ markupReferences c.options d)
      (hc : cycle? chain q = some walk) :
      Outcome c table chain path (.error (.error (.cycle walk span)))
  | faulty {file : MarkupFile} {d : Document} {controls : List (String × CompiledView)}
      {failure : Failure} (hread : c.read path = .ok (file, d))
      (hr : Answered table chain (markupReferences c.options d) controls)
      (ht : c.tree path d controls = .error failure) : Outcome c table chain path (.error failure)
  | plain {file : MarkupFile} {d : Document} {controls : List (String × CompiledView)}
      {t : ControlTree} (hread : c.read path = .ok (file, d))
      (hr : Answered table chain (markupReferences c.options d) controls)
      (ht : c.tree path d controls = .ok t) (hm : t.directives.master = none) :
      Outcome c table chain path (.ok (c.artifact file t (controls.map Prod.fst)))
  | masterCycle {file : MarkupFile} {d : Document} {controls : List (String × CompiledView)}
      {t : ControlTree} {reference : MasterReference} {walk : List String}
      (hread : c.read path = .ok (file, d))
      (hr : Answered table chain (markupReferences c.options d) controls)
      (ht : c.tree path d controls = .ok t) (hm : t.directives.master = some reference)
      (hc : cycle? chain reference.path = some walk) :
      Outcome c table chain path (.error (.error (.cycle walk reference.span)))
  | mastered {file : MarkupFile} {d : Document} {controls : List (String × CompiledView)}
      {t : ControlTree} {reference : MasterReference} {master : CompiledView}
      (hread : c.read path = .ok (file, d))
      (hr : Answered table chain (markupReferences c.options d) controls)
      (ht : c.tree path d controls = .ok t) (hm : t.directives.master = some reference)
      (hq : reference.path ∉ chain) (hv : table reference.path = some master) :
      Outcome c table chain path ((c.checkMaster t reference master).map
        (fun _ => c.artifact file t (controls.map Prod.fst)))

/-- The view that an outcome makes of a path. -/
def viewOf (path : String) : Except Failure Artifact → CompiledView
  | .ok a => .built path a
  | .error failure => failure.view path

@[simp] theorem viewOf_path (path : String) (out : Except Failure Artifact) :
    (viewOf path out).path = path := by
  cases out with
  | ok a => rfl
  | error failure => cases failure <;> rfl

theorem build_eq (c : Compiler) (request : Request) (chain : List String) (path : String)
    (s : ViewCache) :
    c.build request chain path s
      = (viewOf path (c.stages request chain path (s.noteLoad path)).1,
          (c.stages request chain path (s.noteLoad path)).2) := by
  unfold build
  cases c.stages request chain path (s.noteLoad path) with
  | mk out t => cases out <;> rfl

theorem exists_of_viewOf_succeeded {path : String} {out : Except Failure Artifact}
    (h : (viewOf path out).succeeded = true) : ∃ a, out = .ok a := by
  cases out with
  | ok a => exact ⟨a, rfl⟩
  | error failure => cases failure <;> cases h

/-! ## §3. What was answered. -/

section Answers

variable {table table' : String → Option CompiledView} {chain chain' : List String}
  {refs : List (String × Span)} {controls controls' : List (String × CompiledView)}

theorem Answered.mono (ht : ∀ q v, table q = some v → table' q = some v)
    (h : Answered table chain refs controls) : Answered table' chain refs controls :=
  List.Forall₂.imp (fun _ _ hu => ⟨hu.1, hu.2.1, ht _ _ hu.2.2⟩) h

/-- The answer for a path is found among the answers. -/
theorem Answered.find? (h : Answered table chain refs controls) {q : String}
    (hq : q ∈ refs.map Prod.fst) :
    ∃ v, table q = some v ∧ controls.find? (fun control => control.1 == q) = some (q, v) := by
  induction h with
  | nil => cases hq
  | @cons use control refs controls hu _ ih =>
      obtain ⟨hpath, _, hv⟩ := hu
      by_cases hpq : use.1 = q
      · subst hpq
        refine ⟨control.2, hv, ?_⟩
        rw [List.find?_cons_of_pos (by simpa using hpath), ← hpath]
      · obtain ⟨v, hv, hfind⟩ := ih ((List.mem_cons.1 hq).resolve_left (Ne.symm hpq))
        refine ⟨v, hv, ?_⟩
        rw [List.find?_cons_of_neg (by simpa [hpath] using hpq), hfind]

/-- Tables that agree on the references give the same answers. -/
theorem Answered.unique (h : Answered table chain refs controls)
    (h' : Answered table' chain' refs controls')
    (agree : ∀ q ∈ refs.map Prod.fst, ∀ v w, table q = some v → table' q = some w → v = w) :
    controls = controls' := by
  induction h generalizing controls' with
  | nil =>
      cases h'
      rfl
  | @cons use control refs controls hu _ ih =>
      cases h' with
      | @cons _ control' _ rest hu' hrest =>
          have hhead : control = control' := by
            refine Prod.ext (hu.1.trans hu'.1.symm) ?_
            exact agree use.1 List.mem_cons_self _ _ hu.2.2 hu'.2.2
          rw [hhead, ih hrest fun q hq => agree q (List.mem_cons_of_mem _ hq)]

end Answers

/-! ## §4. Consequences. -/

section Consequences

variable {c : Compiler} {table table' : String → Option CompiledView}
  {chain chain' : List String} {path : String} {out out' : Except Failure Artifact}

theorem Outcome.mono (ht : ∀ q v, table q = some v → table' q = some v)
    (h : c.Outcome table chain path out) : c.Outcome table' chain path out := by
  cases h with
  | unread hread => exact .unread hread
  | controlCycle hread hq hc => exact .controlCycle hread hq hc
  | faulty hread hr hfail => exact .faulty hread (hr.mono ht) hfail
  | plain hread hr hok hm => exact .plain hread (hr.mono ht) hok hm
  | masterCycle hread hr hok hm hc => exact .masterCycle hread (hr.mono ht) hok hm hc
  | mastered hread hr hok hm hq hv => exact .mastered hread (hr.mono ht) hok hm hq (ht _ _ hv)

/-- **A view fails** on its own account, or because it is required for itself, or
because its master page failed. -/
theorem Outcome.error_cases {failure : Failure}
    (h : c.Outcome table chain path (.error failure)) :
    failure.Own path
      ∨ (∃ q span walk, c.Requires path q ∧ cycle? chain q = some walk
          ∧ failure = .error (.cycle walk span))
      ∨ ∃ d reference master, c.documentAt? path = some d
          ∧ Directives.masterOf (.ofPath path) d = .ok (some reference)
          ∧ table reference.path = some master ∧ master.artifact? = none
          ∧ failure = .master (.masterFailed reference.path reference.span) master := by
  generalize hout : (Except.error failure : Except Failure Artifact) = out at h
  cases h with
  | unread hread =>
      cases hout
      refine Or.inl (Failure.own_error path ?_)
      rcases read_error hread with he | he <;> rw [he] <;> decide
  | @controlCycle _ d q span walk hread hq hc =>
      cases hout
      exact Or.inr (Or.inl ⟨q, span, walk,
        .control (documentAt?_of_read hread) (List.mem_map_of_mem hq), hc, rfl⟩)
  | faulty hread hr ht =>
      cases hout
      exact Or.inl (tree_eq_error ht)
  | plain => cases hout
  | @masterCycle _ d _ t reference walk hread hr ht hm hc =>
      cases hout
      have hmaster := (tree_eq_ok ht).2.1
      rw [hm] at hmaster
      exact Or.inr (Or.inl ⟨reference.path, reference.span, walk,
        .master (documentAt?_of_read hread) hmaster, hc, rfl⟩)
  | @mastered _ d _ t reference master hread hr ht hm hq hv =>
      obtain ⟨hpath, hmaster, _⟩ := tree_eq_ok ht
      rw [hm] at hmaster
      cases hcheck : c.checkMaster t reference master with
      | ok u =>
          rw [hcheck] at hout
          cases hout
      | error f =>
          rw [hcheck] at hout
          cases hout
          rcases checkMaster_eq_error hcheck with ⟨hnone, rfl⟩ | hown
          · exact Or.inr (Or.inr ⟨d, reference, master, documentAt?_of_read hread, hmaster,
              hv, hnone, rfl⟩)
          · rw [hpath] at hown
            exact Or.inl hown

/-- **A view succeeds** with a tree that was ready, on top of a master page that fits. -/
theorem Outcome.ok_cases {a : Artifact} (h : c.Outcome table chain path (.ok a)) :
    ∃ file d controls t, c.read path = .ok (file, d)
      ∧ Answered table chain (markupReferences c.options d) controls
      ∧ c.tree path d controls = .ok t ∧ a = c.artifact file t (controls.map Prod.fst)
      ∧ ∀ reference, t.directives.master = some reference →
          ∃ master, table reference.path = some master
            ∧ c.checkMaster t reference master = .ok () := by
  generalize hout : (Except.ok a : Except Failure Artifact) = out at h
  cases h with
  | unread => cases hout
  | controlCycle => cases hout
  | faulty => cases hout
  | masterCycle => cases hout
  | @plain file d controls t hread hr ht hm =>
      injection hout with ha
      refine ⟨file, d, controls, t, hread, hr, ht, ha, fun reference hreference => ?_⟩
      rw [hm] at hreference
      cases hreference
  | @mastered file d controls t reference master hread hr ht hm hq hv =>
      cases hcheck : c.checkMaster t reference master with
      | error f =>
          rw [hcheck] at hout
          cases hout
      | ok u =>
          rw [hcheck] at hout
          injection hout with ha
          refine ⟨file, d, controls, t, hread, hr, ht, ha, fun reference' hreference => ?_⟩
          rw [hm] at hreference
          cases hreference
          exact ⟨master, hv, hcheck⟩

/-- **Successes stand on successes**: whatever a successful view depends on has
compiled. -/
theorem Outcome.dependencies_succeeded {a : Artifact} (h : c.Outcome table chain path (.ok a))
    {q : String} (hq : c.DependsOn path q) : ∃ v, table q = some v ∧ v.succeeded = true := by
  obtain ⟨file, d, controls, t, hread, hr, ht, _, hmaster⟩ := h.ok_cases
  obtain ⟨_, hdeclared, htypes⟩ := tree_eq_ok ht
  have hdoc := documentAt?_of_read hread
  cases hq with
  | @master d' x hd' hx =>
      rw [hdoc] at hd'
      cases hd'
      -- Directives that were accepted have at most one master page, so it is this one.
      have hpath := (Directives.masterOf_eq_ok hdeclared).2 x hx
      obtain ⟨reference, hreference, hpath⟩ := Option.map_eq_some_iff.1 hpath
      obtain ⟨master, hv, hcheck⟩ := hmaster reference hreference
      rw [← hpath]
      exact ⟨master, hv, checkMaster_eq_ok hcheck⟩
  | @control d' e tagSpace control hd' he hs hc =>
      rw [hdoc] at hd'
      cases hd'
      have hpath := c.options.controlPath?_eq_some hs hc
      -- The element has a type, and the type is that of the view that was answered.
      obtain ⟨v, hv, hfind⟩ := hr.find? ((mem_markupReferences c.options d _).2 ⟨e, he, hpath⟩)
      obtain ⟨found, htype⟩ := htypes e he
      have hsome := ControlScope.signature?_isSome hpath htype
      refine ⟨v, hv, ?_⟩
      unfold scope at hsome
      simpa [hfind, CompiledView.signature?, CompiledView.succeeded] using hsome

/-- Without a document, the outcome is the reason why there is none. -/
theorem Outcome.of_unread {e : ViewError} (hread : c.read path = .error e)
    (h : c.Outcome table chain path out) : out = .error (.error e) := by
  cases h with
  | unread hread' =>
      rw [hread] at hread'
      cases hread'
      rfl
  | controlCycle hread' | faulty hread' | plain hread' | masterCycle hread' | mastered hread' =>
      rw [hread] at hread'
      cases hread'

/-- Without a cycle, a document is answered for all of its references. -/
theorem Outcome.of_read {file : MarkupFile} {d : Document} (hread : c.read path = .ok (file, d))
    (hc : ∀ q, c.Requires path q → q ∉ chain) (h : c.Outcome table chain path out) :
    ∃ controls, Answered table chain (markupReferences c.options d) controls
      ∧ ((∃ failure, c.tree path d controls = .error failure ∧ out = .error failure)
        ∨ ∃ t, c.tree path d controls = .ok t
          ∧ ((t.directives.master = none ∧ out = .ok (c.artifact file t (controls.map Prod.fst)))
            ∨ ∃ reference master, t.directives.master = some reference
              ∧ table reference.path = some master
              ∧ out = (c.checkMaster t reference master).map
                  (fun _ => c.artifact file t (controls.map Prod.fst)))) := by
  have hno : ∀ q walk, c.Requires path q → cycle? chain q ≠ some walk := by
    intro q walk hq hcycle
    rw [cycle?_of_not_mem (hc q hq)] at hcycle
    cases hcycle
  cases h with
  | unread hread' =>
      rw [hread] at hread'
      cases hread'
  | @controlCycle _ _ q span walk hread' hq hcycle =>
      have hreq := Requires.control (documentAt?_of_read hread') (List.mem_map_of_mem hq)
      exact absurd hcycle (hno q walk hreq)
  | @faulty _ _ controls failure hread' hr ht =>
      rw [hread] at hread'
      cases hread'
      exact ⟨controls, hr, Or.inl ⟨failure, ht, rfl⟩⟩
  | @plain _ _ controls t hread' hr ht hm =>
      rw [hread] at hread'
      cases hread'
      exact ⟨controls, hr, Or.inr ⟨t, ht, Or.inl ⟨hm, rfl⟩⟩⟩
  | @masterCycle _ _ _ t reference walk hread' hr ht hm hcycle =>
      have hmaster := (tree_eq_ok ht).2.1
      rw [hm] at hmaster
      exact absurd hcycle (hno _ walk (.master (documentAt?_of_read hread') hmaster))
  | @mastered _ _ controls t reference master hread' hr ht hm hq hv =>
      rw [hread] at hread'
      cases hread'
      exact ⟨controls, hr, Or.inr ⟨t, ht, Or.inr ⟨reference, master, hm, hv, rfl⟩⟩⟩

/-- **Away from cycles, agreeing tables lead to one outcome**, whatever the chains. -/
theorem Outcome.unique (h : c.Outcome table chain path out) (h' : c.Outcome table' chain' path out')
    (hc : ∀ q, c.Requires path q → q ∉ chain) (hc' : ∀ q, c.Requires path q → q ∉ chain')
    (agree : ∀ q, c.Requires path q → ∀ v w, table q = some v → table' q = some w → v = w) :
    out = out' := by
  cases hread : c.read path with
  | error e => rw [h.of_unread hread, h'.of_unread hread]
  | ok found =>
      obtain ⟨file, d⟩ := found
      have hdoc := documentAt?_of_read hread
      obtain ⟨controls, hr, hrest⟩ := h.of_read hread hc
      obtain ⟨controls', hr', hrest'⟩ := h'.of_read hread hc'
      obtain rfl := hr.unique hr' fun q hq => agree q (.control hdoc hq)
      cases ht : c.tree path d controls with
      | error failure =>
          rw [ht] at hrest hrest'
          obtain ⟨_, ⟨rfl⟩, rfl⟩ | ⟨_, hok, _⟩ := hrest
          · obtain ⟨_, ⟨rfl⟩, rfl⟩ | ⟨_, hok', _⟩ := hrest'
            · rfl
            · cases hok'
          · cases hok
      | ok t =>
          rw [ht] at hrest hrest'
          obtain ⟨_, hfail, _⟩ | ⟨_, ⟨rfl⟩, hrest⟩ := hrest
          · cases hfail
          obtain ⟨_, hfail', _⟩ | ⟨_, ⟨rfl⟩, hrest'⟩ := hrest'
          · cases hfail'
          cases hm : t.directives.master with
          | none =>
              rw [hm] at hrest hrest'
              obtain ⟨_, rfl⟩ | ⟨_, _, hsome, _⟩ := hrest
              · obtain ⟨_, rfl⟩ | ⟨_, _, hsome', _⟩ := hrest'
                · rfl
                · cases hsome'
              · cases hsome
          | some reference =>
              have hmaster := (tree_eq_ok ht).2.1
              rw [hm] at hrest hrest' hmaster
              obtain ⟨hnone, _⟩ | ⟨_, master, ⟨rfl⟩, hv, rfl⟩ := hrest
              · cases hnone
              obtain ⟨hnone', _⟩ | ⟨_, master', ⟨rfl⟩, hv', rfl⟩ := hrest'
              · cases hnone'
              rw [agree _ (.master hdoc hmaster) _ _ hv hv']

end Consequences

end Compiler

end BoundMarkup
