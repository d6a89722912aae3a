/-
  BoundMarkup.Proofs.View.CodeControls
  ────────────────────────────────────
  **CODE CONTROLS BY THEIR NAME SPACES.**

  A tag in a name space of code controls is looked up like any type name: as it is,
  and only then in the name space it stands for.  So it stands for the control that
  is declared there, unless some type has the bare name (`stands_for_declared_iff`).
  A type with the bare name takes the place of the control, or hides it if it is no
  control itself.
-/
import BoundMarkup.Proofs.Registry.Declared
import BoundMarkup.Proofs.Registry.Reordering
import BoundMarkup.Proofs.View.NodeErrors

namespace BoundMarkup

open Markup (Element)

/-! ## §1. Declared types and their identities. -/

/-- No declaration changes the identity or the name. -/
theorem TypeEntry.Made.id_eq {e : TypeEntry} (h : e.Made) : e.id = TypeId.ofName e.name := by
  induction h with
  | declare _ _ => rfl
  | flags _ _ ih | generic _ _ ih | derives _ _ ih | property _ _ _ _ ih | nested _ _ ih
  | method _ _ ih | extension _ _ ih | indexer _ _ _ _ ih | capability _ _ _ _ ih => exact ih

namespace Registry

variable {r r' : Registry} {e : TypeEntry} {name : String}

/-- Types are told apart by identities that come from their names. -/
structure Identified (r : Registry) : Prop where
  ids : (r.entries.map TypeEntry.id).Nodup
  names : ∀ e ∈ r.entries, e.id = TypeId.ofName e.name

theorem Identified.register (h : r.Identified) (he : e.id = TypeId.ofName e.name)
    (hr : r.register e = .ok r') : r'.Identified := by
  obtain ⟨hnew, -, rfl⟩ := register_eq_ok_iff.1 hr
  constructor
  · show ((r.entries ++ [e]).map TypeEntry.id).Nodup
    rw [List.map_append, List.map_singleton, List.nodup_append_comm, List.singleton_append,
      List.nodup_cons]
    refine ⟨fun hmem => ?_, h.ids⟩
    obtain ⟨d, hd, hid⟩ := List.mem_map.1 hmem
    exact List.find?_eq_none.1 hnew d hd (beq_iff_eq.2 hid)
  · intro d hd
    rcases List.mem_append.1 hd with hd | hd
    · exact h.names d hd
    · rw [List.mem_singleton.1 hd]
      exact he

/-- **All registries in use are like that.** -/
theorem Made.identified (h : r.Made) : r.Identified := by
  induction h with
  | empty => exact ⟨List.nodup_nil, nofun⟩
  | builtins => exact ⟨by decide +kernel, by decide +kernel⟩
  | register _ he hr ih => exact ih.register he.id_eq hr

theorem name_of_findName? (h : r.findName? name = some e) : e.name = name := by
  have hname := List.find?_some h
  exact beq_iff_eq.1 hname

/-- A declared type is the declaration behind itself. -/
theorem entryOf?_selfType (h : r.Identified) (he : e ∈ r.entries) :
    r.entryOf? e.selfType = some e :=
  (TypeEntry.find?_eq_some_iff_of_nodup h.ids).2 ⟨he, h.names e he⟩

/-- What markup may do with controls of the declared type. -/
def metadataOf (r : Registry) (e : TypeEntry) : ControlMetadata :=
  ⟨e.selfType, e.flags.allowsContent, r.capabilities e.selfType, some e.moduleName⟩

/-- **A declared type is a control** just if it is declared as one. -/
theorem controlMetadata?_selfType (h : r.Identified) (he : e ∈ r.entries) :
    r.controlMetadata? e.selfType = if e.flags.control then some (r.metadataOf e) else none := by
  have hentry := entryOf?_selfType h he
  have hflags : r.flags e.selfType = e.flags := by
    unfold flags
    rw [hentry]
    rfl
  have hmodule : r.moduleOf? e.selfType = some e.moduleName := by
    show (r.entryOf? e.selfType).map TypeEntry.moduleName = some e.moduleName
    rw [hentry, Option.map_some]
  unfold controlMetadata? metadataOf
  rw [hflags, hmodule]

/-- The bare name comes first. -/
theorem resolve?_singleton (r : Registry) (name space : String) :
    r.resolve? name [space]
      = ((r.findName? name).or (r.findName? (space ++ "." ++ name))).map TypeEntry.selfType := by
  unfold resolve?
  rw [List.map_singleton, List.findSome?_cons, List.findSome?_singleton]
  cases r.findName? name <;> rfl

end Registry

/-! ## §2. Tags. -/

namespace ControlScope

variable {s : ControlScope} {tagSpace space name : String} {e : TypeEntry}

/-- **What a tag in a name space of code controls stands for**: a type of the bare name, if there
is one, and else the one of the name space; and nothing if that is no control. -/
theorem controlType_of_space (made : s.types.Made)
    (hspace : s.options.controlSpace? tagSpace = some space)
    (hmarkup : s.options.markupControl? tagSpace name = none)
    (hfound : (s.types.findName? name).or (s.types.findName? (space ++ "." ++ name)) = some e) :
    s.controlType ⟨some tagSpace, name⟩ = if e.flags.control then
        .ok (.code, s.types.metadataOf e)
      else .error (.unknownControl (⟨some tagSpace, name⟩ : Markup.QName).text) := by
  have hmem : e ∈ s.types.entries := by
    rcases Option.or_eq_some_iff.1 hfound with h | ⟨-, h⟩ <;> exact List.mem_of_find?_eq_some h
  have hcode : s.codeControl? tagSpace name
      = if e.flags.control then some (s.types.metadataOf e) else none := by
    unfold codeControl?
    rw [hspace, Option.bind_some, Registry.resolve?_singleton, hfound, Option.map_some,
      Option.bind_some, Registry.controlMetadata?_selfType made.identified hmem]
  unfold controlType
  dsimp only
  rw [hmarkup, hcode]
  cases e.flags.control <;> rfl

end ControlScope

/-! ## §3. Elements. -/

/-- The control is a code control of the declared type. -/
structure Control.StandsFor (r : Registry) (e : TypeEntry) (c : Control) : Prop where
  kind : c.kind = .code
  metadata : c.metadata = r.metadataOf e

/-- The control stands for nothing: its tag is an error. -/
structure Control.Unknown (x : Element) (c : Control) : Prop where
  kind : c.kind = .html
  error : ⟨.unknownControl x.name.text, x.span⟩ ∈ c.errors

section Elements

variable {s : ControlScope} {r : Registry} {c : Control} {x : Element} {e other : TypeEntry}

/-- A control stands for types of one name only. -/
theorem Control.StandsFor.name_eq (h : c.StandsFor r e) (hother : c.StandsFor r other) :
    e.name = other.name := by
  have hself : e.selfType = other.selfType :=
    congrArg ControlMetadata.type (h.metadata.symm.trans hother.metadata)
  exact (TypeRef.named.inj hself).1

/-- What stands for nothing stands for no type. -/
theorem Control.Unknown.not_standsFor (h : c.Unknown x) : ¬ c.StandsFor r e := fun hstands =>
  nomatch h.kind.symm.trans hstands.kind

/-- Content changes neither what an element stands for ... -/
theorem standsFor_withContent (h : s.controlType x.name = .ok (.code, s.types.metadataOf e))
    (outer : DataContext) (nodes : List Markup.Node) (children : List ControlNode) :
    (withContent (elementControl s outer x) nodes children).StandsFor s.types e := by
  constructor
  · show (elementControl s outer x).kind = .code
    unfold elementControl
    simp only [h]
  · show (elementControl s outer x).metadata = s.types.metadataOf e
    unfold elementControl
    simp only [h]

/-- ... nor that it stands for nothing. -/
theorem unknown_withContent (h : s.controlType x.name = .error (.unknownControl x.name.text))
    (outer : DataContext) (nodes : List Markup.Node) (children : List ControlNode) :
    (withContent (elementControl s outer x) nodes children).Unknown x := by
  constructor
  · show (elementControl s outer x).kind = .html
    unfold elementControl
    simp only [h]
    rfl
  · exact List.mem_append_left _ (List.mem_append_left _ (elementControl_errors_of_fault h outer))

end Elements

namespace ControlScope

variable {s : ControlScope} {tagSpace space name : String} {e : TypeEntry}

/-- **WHEN A TAG STANDS FOR THE CONTROL OF ITS NAME SPACE.**  An element whose tag is in a name
space of code controls, where a control of its name is declared, is a control of that type just if
no type has the bare name.  If one has, the element is a control of that type instead, or its tag
is unknown if that is no control.  Other declarations make no difference. -/
theorem stands_for_declared_iff (made : s.types.Made)
    (hspace : s.options.controlSpace? tagSpace = some space)
    (hmarkup : s.options.markupControl? tagSpace name = none)
    (he : s.types.findName? (space ++ "." ++ name) = some e) (hcontrol : e.flags.control = true)
    (outer : DataContext) {x : Element} (hx : x.name = ⟨some tagSpace, name⟩)
    (nodes : List Markup.Node) :
    ∃ c inner, resolveNode s outer (.element x nodes) = some (.control c inner)
      ∧ (c.StandsFor s.types e ↔ s.types.findName? name = none)
      ∧ ∀ other, s.types.findName? name = some other →
        if other.flags.control then c.StandsFor s.types other else c.Unknown x := by
  have htype : ∀ found, (s.types.findName? name).or (s.types.findName? (space ++ "." ++ name))
      = some found → s.controlType x.name = if found.flags.control then
        .ok (.code, s.types.metadataOf found) else .error (.unknownControl x.name.text) := by
    intro found hfound
    rw [hx]
    exact controlType_of_space made hspace hmarkup hfound
  refine ⟨_, _, resolveNode.eq_1 s outer x nodes, ?_⟩
  cases hbare : s.types.findName? name with
  | none =>
      have hfound := htype e (by rw [hbare, he, Option.none_or])
      rw [if_pos hcontrol] at hfound
      exact ⟨iff_of_true (standsFor_withContent hfound outer nodes _) rfl, nofun⟩
  | some other =>
      have hfound := htype other (by rw [hbare, Option.some_or])
      cases hother : other.flags.control with
      | true =>
          rw [hother, if_pos rfl] at hfound
          have hstands := standsFor_withContent hfound outer nodes
            (resolveNodes s (elementControl s outer x).context nodes)
          refine ⟨iff_of_false (fun hdeclared => ?_) nofun, ?_⟩
          · -- The name in the name space is longer than the bare one.
            have hnames := hdeclared.name_eq hstands
            rw [Registry.name_of_findName? he, Registry.name_of_findName? hbare] at hnames
            have hlength := congrArg String.length hnames
            rw [String.length_append, String.length_append] at hlength
            have hpoint : ".".length = 1 := rfl
            omega
          · rintro _ ⟨⟩
            rw [hother, if_pos rfl]
            exact hstands
      | false =>
          rw [hother, if_neg Bool.false_ne_true] at hfound
          have hunknown := unknown_withContent hfound outer nodes
            (resolveNodes s (elementControl s outer x).context nodes)
          refine ⟨iff_of_false hunknown.not_standsFor nofun, ?_⟩
          rintro _ ⟨⟩
          rw [hother, if_neg Bool.false_ne_true]
          exact hunknown

/-- The standard button, without its properties. -/
def button : TypeEntry := Controls.container (Controls.named "Button")

def buttonTypes : Registry := Registry.empty.insert button

/-- The tag of a button, with nothing inside. -/
def buttonTag : Element := ⟨⟨some "dot", "Button"⟩, [], true, false, ⟨1, 1, 14⟩⟩

theorem buttonTypes_made : buttonTypes.Made :=
  .register .empty (.flags (.derives (.flags (.declare _ _) _) _) _)
    (Registry.register_eq_ok_iff.2 ⟨by decide +kernel, by decide +kernel, rfl⟩)

/-- The tag of a button stands for the button. -/
theorem stands_for_declared_button :
    buttonTypes.Made ∧ Options.default.controlSpace? "dot" = some Controls.space
      ∧ Options.default.markupControl? "dot" "Button" = none
      ∧ buttonTypes.findName? (Controls.space ++ "." ++ "Button") = some button
      ∧ button.flags.control = true
      ∧ ∃ c inner, resolveNode ⟨buttonTypes, .default, fun _ => none⟩ (.ofRoot .object [])
          (.element buttonTag []) = some (.control c inner) ∧ c.StandsFor buttonTypes button := by
  have hspace : Options.default.controlSpace? "dot" = some Controls.space := by decide +kernel
  have hmarkup : Options.default.markupControl? "dot" "Button" = none := by decide +kernel
  have he : buttonTypes.findName? (Controls.space ++ "." ++ "Button") = some button := by
    decide +kernel
  obtain ⟨c, inner, hc, hstands, -⟩ := stands_for_declared_iff
    (s := ⟨buttonTypes, .default, fun _ => none⟩) buttonTypes_made hspace hmarkup he rfl
    (.ofRoot .object []) (x := buttonTag) rfl []
  exact ⟨buttonTypes_made, hspace, hmarkup, he, rfl, c, inner, hc, hstands.2 (by decide +kernel)⟩

/-- A type that is no control, with the bare name of the button. -/
def bareButton : TypeEntry := .declare "Button" "App"

def bareTypes : Registry := buttonTypes.insert bareButton

/-- **A bare name hides the control**: once a type of the bare name is declared, the tag of the
button is unknown. -/
theorem bare_name_hides_button :
    bareTypes.Made ∧ Options.default.controlSpace? "dot" = some Controls.space
      ∧ Options.default.markupControl? "dot" "Button" = none
      ∧ bareTypes.findName? (Controls.space ++ "." ++ "Button") = some button
      ∧ button.flags.control = true
      ∧ ∃ c inner, resolveNode ⟨bareTypes, .default, fun _ => none⟩ (.ofRoot .object [])
          (.element buttonTag []) = some (.control c inner)
        ∧ ¬ c.StandsFor bareTypes button ∧ c.Unknown buttonTag := by
  have hmade : bareTypes.Made := .register buttonTypes_made (.declare _ _)
    (Registry.register_eq_ok_iff.2 ⟨by decide +kernel, by decide +kernel, rfl⟩)
  have hspace : Options.default.controlSpace? "dot" = some Controls.space := by decide +kernel
  have hmarkup : Options.default.markupControl? "dot" "Button" = none := by decide +kernel
  have he : bareTypes.findName? (Controls.space ++ "." ++ "Button") = some button := by
    decide +kernel
  have htype := controlType_of_space (s := ⟨bareTypes, .default, fun _ => none⟩)
    (e := bareButton) hmade hspace hmarkup (by decide +kernel)
  refine ⟨hmade, hspace, hmarkup, he, rfl, _, _, resolveNode.eq_1 .., ?_⟩
  have hunknown := unknown_withContent (x := buttonTag) htype
  exact ⟨(hunknown _ _ _).not_standsFor, hunknown _ _ _⟩

end ControlScope

end BoundMarkup
