/-
  BoundMarkup.Proofs.Builder.Rebuilding
  ─────────────────────────────────────
  **A BUILDER REBUILDS ITS TREE.**

  A node is built with the numbers from `next` on, as many as it holds controls.
  Whatever the earlier numbers hold, the run

    • changes nothing below `next` but the children of the parent,
    • leaves a control that has been added in each number it takes, and nothing
      in the numbers above,
    • gives the parent the children that the node shows, however the other
      numbers are changed later on.

  This is `Builds`; it composes along a list of nodes, and the tree is the case
  of the root.
-/
import BoundMarkup.Proofs.Builder.Running
import BoundMarkup.Proofs.Steps
import BoundMarkup.View.Compiler

namespace BoundMarkup

/-! ## §1. What a store shows. -/

/-- The setting that a property makes. -/
def ControlProperty.setting? (p : ControlProperty) : Option Setting :=
  match p.value, p.capability with
  | .hardCoded value, some _ => some (.value p.name value)
  | .hardCoded value, none => some (.plain p.name value)
  | .bound b, _ => some (.binding p.name b.source.kind b.term.text b.term.type)
  | .failed _, _ => none

namespace Store

mutual

/-- The variable holds the control of a tree, with the content it has there. -/
inductive Shows (s : Store) : Nat → Control → List ControlNode → Prop
  | control {v : Nat} {o : RunControl} {head : Control} {nodes : List ControlNode}
      (held : s v = some o) (type : o.type = head.type)
      (internals : o.internals = head.contextMark.toList.map (fun t => (contextMarkName, t)))
      (settings : o.settings.map some = head.properties.map ControlProperty.setting?)
      (content : ShowsAll s o.children nodes) : Shows s v head nodes

/-- The children are the nodes of a tree in their order, but for texts that are empty. -/
inductive ShowsAll (s : Store) : List Child → List ControlNode → Prop
  | nil : ShowsAll s [] []
  | control {v : Nat} {head : Control} {inner nodes : List ControlNode} {children : List Child}
      (shows : Shows s v head inner) (rest : ShowsAll s children nodes) :
      ShowsAll s (.control v :: children) (.control head inner :: nodes)
  | text {text : String} {span : Span} {nodes : List ControlNode} {children : List Child}
      (inked : text ≠ "") (rest : ShowsAll s children nodes) :
      ShowsAll s (.text text :: children) (.text text span :: nodes)
  | blank {span : Span} {nodes : List ControlNode} {children : List Child}
      (rest : ShowsAll s children nodes) : ShowsAll s children (.text "" span :: nodes)

end

end Store

/-! ## §2. The statements of one control. -/

theorem ControlProperty.statement?_eq (v : Nat) (p : ControlProperty) :
    p.statement? v = p.setting?.map (Setting.statement v) := by
  obtain ⟨name, value, span, capability⟩ := p
  cases value <;> cases capability <;> rfl

/-- Without failures each property makes a setting. -/
theorem ControlProperty.map_some_setting? {ps : List ControlProperty}
    (h : ∀ p ∈ ps, p.failure? = none) :
    (ps.filterMap setting?).map some = ps.map setting? := by
  induction ps with
  | nil => rfl
  | cons p ps ih =>
      obtain ⟨hp, hps⟩ := List.forall_mem_cons.1 h
      have hsome : ∃ setting, p.setting? = some setting := by
        unfold failure? at hp
        unfold setting?
        split
        · exact ⟨_, rfl⟩
        · exact ⟨_, rfl⟩
        · exact ⟨_, rfl⟩
        · rename_i hfailed
          rw [hfailed] at hp
          cases hp
      obtain ⟨setting, hsetting⟩ := hsome
      rw [List.filterMap_cons_some hsetting, List.map_cons, List.map_cons, hsetting, ih hps]

/-- A control with its properties set, before any content. -/
def Control.started (c : Control) : RunControl :=
  { type := c.type
    internals := c.contextMark.toList.map (fun t => (contextMarkName, t))
    settings := c.properties.filterMap ControlProperty.setting?
    children := []
    added := false }

namespace Store

variable {s mid s' final : Store} {v parent next : Nat} {o : RunControl}

@[simp] theorem put_put (s : Store) (v : Nat) (o o' : RunControl) :
    (s.put v o).put v o' = s.put v o' := by
  funext w
  by_cases h : w = v
  · rw [h, put_self, put_self]
  · rw [put_other h, put_other h, put_other h]

theorem write_put (hopen : o.added = false) (f : RunControl → RunControl) :
    (s.put v o).write v f = some (s.put v (f o)) :=
  write_eq_some.2 ⟨o, put_self s v o, hopen, (put_put s v o (f o)).symm⟩

/-- The statement of a setting makes it. -/
theorem step_setting (hopen : o.added = false) (setting : Setting) :
    (s.put v o).step (setting.statement v)
      = some (s.put v { o with settings := o.settings ++ [setting] }) := by
  cases setting <;> exact write_put hopen _

theorem run_settings (settings : List Setting) (hopen : o.added = false) :
    (s.put v o).run (settings.map (Setting.statement v))
      = some (s.put v { o with settings := o.settings ++ settings }) := by
  induction settings generalizing o with
  | nil => rw [List.append_nil]; rfl
  | cons setting settings ih =>
      rw [List.map_cons]
      refine run_cons_eq_some.2 ⟨_, step_setting hopen setting, ?_⟩
      refine (ih ?_).trans ?_
      · exact hopen
      · simp only [List.append_assoc, List.singleton_append]

/-- **The statements of a control** start it in a variable that holds nothing. -/
theorem run_control (head : Control) (hv : s v = none) :
    s.run (head.statements v) = some (s.put v head.started) := by
  have hcreate : s.step (.create v head.type) = some (s.put v (.new head.type)) := by
    show (if (s v).isSome then none else some (s.put v (.new head.type))) = _
    rw [hv]
    rfl
  have hmark : (s.put v (.new head.type)).run
      (head.contextMark.map (Statement.setInternal v contextMarkName)).toList
        = some (s.put v { RunControl.new head.type with
            internals := head.contextMark.toList.map (fun t => (contextMarkName, t)) }) := by
    cases head.contextMark with
    | none => rfl
    | some type => exact run_cons_eq_some.2 ⟨_, write_put rfl _, rfl⟩
  have hsettings : head.properties.filterMap (ControlProperty.statement? v)
      = (head.properties.filterMap ControlProperty.setting?).map (Setting.statement v) := by
    rw [List.map_filterMap]
    exact congrArg (List.filterMap · head.properties)
      (funext (ControlProperty.statement?_eq v))
  unfold Control.statements
  rw [hsettings, List.cons_append]
  exact run_cons_eq_some.2
    ⟨_, hcreate, run_append_eq_some.2 ⟨_, hmark, run_settings _ rfl⟩⟩

/-! ## §3. The statements of the content. -/

/-- **What building nodes leaves.**  The parent is open and its number is below the
numbers from `next` on, which hold nothing before. -/
structure Builds (s : Store) (parent next : Nat) (nodes : List ControlNode) (s' : Store) :
    Prop where
  /-- The parent is given children, which show the nodes. -/
  given : ∀ o, s parent = some o → ∃ children,
    s' parent = some { o with children := o.children ++ children }
      ∧ ∀ final : Store,
        (∀ w, next ≤ w → w < next + ControlNode.sizeAll nodes → final w = s' w) →
          final.ShowsAll children nodes
  below : ∀ w, w < next → w ≠ parent → s' w = s w
  inside : ∀ w, next ≤ w → w < next + ControlNode.sizeAll nodes → s'.status w = some true
  above : ∀ w, next + ControlNode.sizeAll nodes ≤ w → s' w = none

theorem ShowsAll.append {left right : List Child} {n : ControlNode} {nodes : List ControlNode}
    (hleft : final.ShowsAll left [n]) (hright : final.ShowsAll right nodes) :
    final.ShowsAll (left ++ right) (n :: nodes) := by
  cases hleft with
  | control hshows hrest =>
      cases hrest
      exact .control hshows hright
  | text hinked hrest =>
      cases hrest
      exact .text hinked hright
  | blank hrest =>
      cases hrest
      exact .blank hright

/-- One node, then the nodes behind it. -/
theorem Builds.cons {n : ControlNode} {nodes : List ControlNode} (hparent : parent < next)
    (hn : s.Builds parent next [n] mid)
    (hnodes : mid.Builds parent (next + ControlNode.sizeAll [n]) nodes s') :
    s.Builds parent next (n :: nodes) s' := by
  have hsize : ControlNode.sizeAll (n :: nodes)
      = ControlNode.sizeAll [n] + ControlNode.sizeAll nodes := rfl
  -- What the first node has taken is below what the others take.
  have hkept : ∀ w, w < next + ControlNode.sizeAll [n] → w ≠ parent → s' w = mid w :=
    hnodes.below
  refine ⟨fun o ho => ?_, fun w hw hne => ?_, fun w hle hlt => ?_, fun w hle => ?_⟩
  · obtain ⟨left, hmid, hleft⟩ := hn.given o ho
    obtain ⟨right, hs', hright⟩ := hnodes.given _ hmid
    refine ⟨left ++ right, by rw [hs', List.append_assoc], fun final hfinal => ?_⟩
    refine (hleft final fun w hle hlt => ?_).append (hright final fun w hle hlt => ?_)
    · rw [hfinal w hle (by omega), hkept w hlt (by omega)]
    · exact hfinal w (by omega) (by omega)
  · rw [hkept w (by omega) hne, hn.below w hw hne]
  · by_cases hfirst : w < next + ControlNode.sizeAll [n]
    · rw [status, hkept w hfirst (by omega)]
      exact hn.inside w hle hfirst
    · exact hnodes.inside w (by omega) (by omega)
  · exact hnodes.above w (by omega)

/-- A control whose content has been built under it is added to the parent. -/
theorem Builds.control {head : Control} {inner : List ControlNode} {built : Store}
    (sound : head.failure? = none) (hparent : parent < next) (ho : s parent = some o)
    (hopen : o.added = false)
    (hinner : (s.put next head.started).Builds next (next + 1) inner built) :
    ∃ s', built.step (.addChild parent next) = some s'
      ∧ s.Builds parent next [.control head inner] s' := by
  have hsize : ControlNode.sizeAll [.control head inner] = 1 + ControlNode.sizeAll inner := rfl
  obtain ⟨children, hnext, hshows⟩ := hinner.given _ (put_self s next head.started)
  have hbelow : ∀ w, w < next → built w = s w := fun w hw => by
    rw [hinner.below w (by omega) (by omega), put_other (by omega)]
  let child : RunControl := { head.started with children := children, added := true }
  let grown : RunControl := { o with children := o.children ++ [.control next] }
  refine ⟨(built.put next child).put parent grown, ?_, ?_⟩
  · refine Option.bind_eq_some_iff.2 ⟨built.put next child, write_eq_some.2 ⟨_, hnext, rfl, rfl⟩, ?_⟩
    refine write_eq_some.2 ⟨o, ?_, hopen, rfl⟩
    rw [put_other (by omega), hbelow parent hparent, ho]
  -- The new store is the one that was built but for the two controls.
  have hchild : ((built.put next child).put parent grown) next = some child := by
    rw [put_other (by omega), put_self]
  have hsame : ∀ w, w ≠ next → w ≠ parent →
      ((built.put next child).put parent grown) w = built w := fun w hn hp => by
    rw [put_other hp, put_other hn]
  refine ⟨fun o' ho' => ⟨[.control next], ?_, fun final hfinal => ?_⟩, fun w hw hne => ?_,
    fun w hle hlt => ?_, fun w hle => ?_⟩
  · cases ho.symm.trans ho'
    exact put_self _ parent grown
  · refine .control (.control ((hfinal next (by omega) (by omega)).trans hchild) rfl rfl
      (ControlProperty.map_some_setting? (List.findSome?_eq_none_iff.1 sound)) ?_) .nil
    refine hshows final fun w hle hlt => ?_
    rw [hfinal w (by omega) (by omega), hsame w (by omega) (by omega)]
  · rw [hsame w (by omega) hne, hbelow w hw]
  · by_cases hw : w = next
    · rw [hw, status, hchild]
      rfl
    · rw [status, hsame w hw (by omega)]
      exact hinner.inside w (by omega) (by omega)
  · rw [hsame w (by omega) (by omega)]
    exact hinner.above w (by omega)

/-- A text is added to the parent unless it is empty. -/
theorem Builds.text (text : String) (span : Span) (hparent : parent < next)
    (ho : s parent = some o) (hopen : o.added = false) (hfresh : ∀ w, next ≤ w → s w = none) :
    ∃ s', s.run (ControlNode.statements parent next (.text text span)) = some s'
      ∧ s.Builds parent next [.text text span] s' := by
  have hsize : ControlNode.sizeAll [.text text span] = 0 := rfl
  rw [ControlNode.statements]
  by_cases htext : text = ""
  · rw [if_pos htext]
    refine ⟨s, rfl, fun o ho => ⟨[], ?_, fun final _ => ?_⟩, fun _ _ _ => rfl, ?_, fun w hw =>
      hfresh w hw⟩
    · rw [ho, List.append_nil]
    · rw [htext]
      exact .blank .nil
    · intro w hle hlt
      omega
  · rw [if_neg htext]
    let grown : RunControl := { o with children := o.children ++ [.text text] }
    refine ⟨s.put parent grown, ?_, fun o' ho' => ⟨[.text text], ?_, fun final _ => ?_⟩, ?_, ?_, ?_⟩
    · exact run_cons_eq_some.2 ⟨_, write_eq_some.2 ⟨o, ho, hopen, rfl⟩, rfl⟩
    · cases ho.symm.trans ho'
      exact put_self s parent grown
    · exact .text htext .nil
    · intro w hw hne
      exact put_other hne s grown
    · intro w hle hlt
      omega
    · intro w hw
      rw [put_other (by omega)]
      exact hfresh w hw

mutual

/-- **The statements of a node build it.** -/
theorem builds_node (n : ControlNode) {s : Store} {parent next : Nat} {o : RunControl}
    (sound : ∀ c ∈ n.controls, c.failure? = none) (hparent : parent < next) (ho : s parent = some o)
    (hopen : o.added = false) (hfresh : ∀ w, next ≤ w → s w = none) :
    ∃ s', s.run (n.statements parent next) = some s' ∧ s.Builds parent next [n] s' := by
  match n with
  | .text text span => exact Builds.text text span hparent ho hopen hfresh
  | .control head inner =>
      obtain ⟨hhead, hinner⟩ := List.forall_mem_cons.1 sound
      obtain ⟨built, hrun, hbuilds⟩ := builds_nodes inner hinner (Nat.lt_succ_self next)
        (put_self s next head.started) rfl (fun w hw => by
          rw [put_other (by omega)]
          exact hfresh w (by omega))
      obtain ⟨s', hadd, hs'⟩ := hbuilds.control hhead hparent ho hopen
      refine ⟨s', ?_, hs'⟩
      rw [ControlNode.statements]
      refine run_append_eq_some.2 ⟨built, run_append_eq_some.2 ⟨_, ?_, hrun⟩, ?_⟩
      · exact run_control head (hfresh next (Nat.le_refl next))
      · exact run_cons_eq_some.2 ⟨s', hadd, rfl⟩

/-- **The statements of a list of nodes build them.** -/
theorem builds_nodes (nodes : List ControlNode) {s : Store} {parent next : Nat} {o : RunControl}
    (sound : ∀ c ∈ ControlNode.controlsOf nodes, c.failure? = none) (hparent : parent < next)
    (ho : s parent = some o) (hopen : o.added = false) (hfresh : ∀ w, next ≤ w → s w = none) :
    ∃ s', s.run (ControlNode.statementsAll parent next nodes) = some s'
      ∧ s.Builds parent next nodes s' := by
  match nodes with
  | [] =>
      refine ⟨s, rfl, fun o ho => ⟨[], ?_, fun final _ => .nil⟩, fun _ _ _ => rfl, ?_, hfresh⟩
      · rw [ho, List.append_nil]
      · intro w hle hlt
        exact absurd hlt (Nat.not_lt.2 hle)
  | n :: nodes =>
      obtain ⟨hn, hnodes⟩ := List.forall_mem_append.1 sound
      obtain ⟨mid, hrun, hbuilds⟩ := builds_node n hn hparent ho hopen hfresh
      obtain ⟨children, hmid, -⟩ := hbuilds.given o ho
      obtain ⟨s', hrest, hs'⟩ := builds_nodes nodes hnodes
        (Nat.lt_of_lt_of_le hparent (Nat.le_add_right next _)) hmid hopen hbuilds.above
      refine ⟨s', ?_, hbuilds.cons hparent hs'⟩
      rw [ControlNode.statementsAll]
      exact run_append_eq_some.2 ⟨mid, hrun, hrest⟩

end

end Store

/-! ## §4. Trees. -/

namespace BuilderUnit

/-- **THE BUILDER REBUILDS THE TREE.**  Where no binding has failed, the statements
run to the end and leave the tree in the first variable.  On the way each variable is
created once and before it is used, and every variable but the first is added once,
behind all that is done to it. -/
theorem statements_rebuild (names : BuilderNames) (t : ControlTree)
    (sound : ∀ c ∈ t.controls, c.failure? = none) :
    Statement.Orderly (ofTree names t).statements
      ∧ (∀ v, v ∈ (ofTree names t).statements.filterMap Statement.added? ↔
          v ∈ (ofTree names t).statements.filterMap Statement.created? ∧ v ≠ 0)
      ∧ ∃ s, Store.empty.run (ofTree names t).statements = some s
          ∧ s.Shows 0 t.root t.children := by
  obtain ⟨hroot, hchildren⟩ := List.forall_mem_cons.1 sound
  obtain ⟨s, hrest, hbuilds⟩ := Store.builds_nodes t.children hchildren Nat.zero_lt_one
    (Store.put_self .empty 0 t.root.started) rfl (fun w hw => by
      rw [Store.put_other (by omega)]
      rfl)
  have hrun : Store.empty.run (ofTree names t).statements = some s :=
    Store.run_append_eq_some.2 ⟨_, Store.run_control t.root rfl, hrest⟩
  obtain ⟨children, hzero, hshows⟩ := hbuilds.given _ (Store.put_self .empty 0 t.root.started)
  have hadded : ∀ v, v ∈ (ofTree names t).statements.filterMap Statement.added? ↔
      s.status v = some true := fun v => by
    have hempty : Store.empty.status v ≠ some true := (Option.some_ne_none true).symm
    rw [Store.status_added_run hrun, or_iff_right hempty]
  have hcreated : ∀ v, v ∈ (ofTree names t).statements.filterMap Statement.created? ↔
      s.status v ≠ none := fun v => by
    have hempty : ¬ Store.empty.status v ≠ none := fun h => h rfl
    rw [Store.status_ne_none_run hrun, or_iff_right hempty]
  refine ⟨Store.orderly_of_run hrun, fun v => ?_, s, hrun, ?_⟩
  · rw [hadded, hcreated]
    by_cases hv : v = 0
    · rw [hv, Store.status, hzero]
      exact iff_of_false (fun h => Bool.false_ne_true (Option.some.inj h)) (fun h => h.2 rfl)
    · by_cases hlt : v < 1 + ControlNode.sizeAll t.children
      · rw [hbuilds.inside v (by omega) hlt]
        exact iff_of_true rfl ⟨Option.some_ne_none true, hv⟩
      · rw [Store.status, hbuilds.above v (by omega)]
        exact iff_of_false (Option.some_ne_none true).symm (fun h => h.1 rfl)
  · exact .control hzero rfl rfl
      (ControlProperty.map_some_setting? (List.findSome?_eq_none_iff.1 hroot))
      (hshows s (fun _ _ _ => rfl))

/-- The controls of a form. -/
def formTypes : Registry :=
  [Controls.container Controls.view, Controls.container Controls.htmlGeneric,
    (Controls.control (Controls.named "TextBox")).addCapability "Text" .string
      MarkupOptions.standard.mandatory].foldl Registry.insert Builtins.registry

/-- A form: in an element with an attribute there are a control and a text. -/
def formTree : Except ViewError ControlTree := do
  let d ← Compiler.document
    "@viewModel string\n<div class=\"box\"><dot:TextBox Text=\x7bvalue: _this\x7d />!</div>"
  let t ← ControlTree.ofDocument ⟨formTypes, Options.default, fun _ => none⟩ "form.dothtml" .page d
  .ok t.markContexts

theorem statements_rebuild_form : ∃ t, formTree = .ok t
    ∧ t.controls.map Control.displayName = ["DotHtmlView", "div", "dot:TextBox"]
    ∧ (∀ c ∈ t.controls, c.failure? = none)
    ∧ Statement.Orderly (ofTree (.ofFile "form.dothtml" 0) t).statements
    ∧ (∀ v, v ∈ (ofTree (.ofFile "form.dothtml" 0) t).statements.filterMap Statement.added? ↔
        v ∈ (ofTree (.ofFile "form.dothtml" 0) t).statements.filterMap Statement.created? ∧ v ≠ 0)
    ∧ ∃ s, Store.empty.run (ofTree (.ofFile "form.dothtml" 0) t).statements = some s
        ∧ s.Shows 0 t.root t.children := by
  have hcontrols : formTree.toOption.map (fun t =>
      (t.controls.map Control.displayName, t.controls.all (fun c => c.failure?.isNone)))
        = some (["DotHtmlView", "div", "dot:TextBox"], true) := by decide +kernel
  obtain ⟨t, ht, hshown⟩ := exists_ok_of_toOption hcontrols
  obtain ⟨hnames, hall⟩ := Prod.mk.inj hshown
  have sound : ∀ c ∈ t.controls, c.failure? = none := fun c hc =>
    Option.isNone_iff_eq_none.1 (List.all_eq_true.1 hall c hc)
  exact ⟨t, ht, hnames, sound, statements_rebuild (.ofFile "form.dothtml" 0) t sound⟩

end BuilderUnit

end BoundMarkup
