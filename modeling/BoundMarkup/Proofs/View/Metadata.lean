/-
  BoundMarkup.Proofs.View.Metadata
  ────────────────────────────────
  **CONTROLS ARE WHAT THE REGISTRY SAYS THEY ARE.**

  The metadata of a control is that of its type, and a property of the control is
  taken for what the metadata says of its name (`Control.Described`).  Resolving a
  node establishes that, and marks and style rules keep it.  So a property that
  has to be set, and to plain text, is set to plain text on every control that has
  passed the checks (`exists_hardCoded`).
-/
import BoundMarkup.Proofs.Registry.Capabilities
import BoundMarkup.Proofs.Registry.Closing
import BoundMarkup.Proofs.View.Attributes
import BoundMarkup.Proofs.View.Checked

namespace BoundMarkup

open Markup (Attribute BindingSource Document Element QName)

/-! ## §1. Described controls. -/

/-- The metadata is what the registry says of its type, or nothing is known of the type. -/
def ControlMetadata.Known (r : Registry) (m : ControlMetadata) : Prop :=
  m = .untyped ∨ r.controlMetadata? m.type = some m

theorem ControlMetadata.known_of_eq_some {r : Registry} {type : TypeRef} {m : ControlMetadata}
    (h : r.controlMetadata? type = some m) : m.Known r := by
  have htype : m.type = type := by
    unfold Registry.controlMetadata? at h
    dsimp only at h
    split at h
    · rw [← Option.some.inj h]
    · cases h
  rw [← htype] at h
  exact .inr h

/-- **The control is described by the registry**, and its properties of the given name by its
metadata. -/
structure Control.Described (r : Registry) (name : String) (x : Control) : Prop where
  known : x.metadata.Known r
  capability : ∀ p ∈ x.properties, p.name = name → p.capability = x.metadata.property? name

/-- The name is a plain one: it has no name space, and does not switch the data context. -/
structure IsPlainName (name : String) : Prop where
  unspaced : ':' ∉ name.toList
  noContext : Text.sameIgnoringCase name Controls.dataContextProperty = false

namespace ControlScope

variable {s : ControlScope}

theorem known_standard (s : ControlScope) (name : String) : (s.standard name).Known s.types := by
  unfold standard
  cases hm : s.types.controlMetadata? (.simple name) with
  | none => exact .inl rfl
  | some m => exact ControlMetadata.known_of_eq_some hm

/-- Whatever a tag stands for is described by the registry. -/
theorem known_of_controlType {tag : QName} {found : ControlKind × ControlMetadata}
    (h : s.controlType tag = .ok found) : found.2.Known s.types := by
  unfold controlType at h
  split at h
  · rw [← Except.ok.inj h]
    exact s.known_standard _
  · split at h
    · unfold markupControl at h
      split at h
      · cases h
      · split at h
        · cases h
        · rename_i hm
          rw [← Except.ok.inj h]
          exact ControlMetadata.known_of_eq_some hm
    · split at h
      · rename_i hcode
        rw [← Except.ok.inj h]
        obtain ⟨space, -, hcode⟩ := Option.bind_eq_some_iff.1 hcode
        obtain ⟨type, -, hm⟩ := Option.bind_eq_some_iff.1 hcode
        exact ControlMetadata.known_of_eq_some hm
      · cases h

end ControlScope

section Described

variable {s : ControlScope} {r : Registry} {name : String}

theorem known_elementControl (s : ControlScope) (outer : DataContext) (e : Element) :
    (elementControl s outer e).metadata.Known s.types := by
  unfold elementControl
  cases hfound : s.controlType e.name with
  | ok found => exact ControlScope.known_of_controlType hfound
  | error fault => exact s.known_standard _

theorem described_elementControl (hname : IsPlainName name) (outer : DataContext) (e : Element) :
    (elementControl s outer e).Described s.types name := by
  refine ⟨known_elementControl s outer e, fun p hp hpname => ?_⟩
  obtain ⟨kind, metadata, _, hmetadata, -, hproperties, -⟩ := elementControl_parts s outer e
  rw [hmetadata]
  rw [hproperties] at hp
  subst hpname
  rcases List.mem_append.1 hp with hp | hp
  · obtain ⟨a, -, -, -, hswitches⟩ := exists_of_mem_contextProperty? hp
    rw [ControlProperty.switchesContext, hname.noContext] at hswitches
    cases hswitches
  · obtain ⟨a, -, -, rfl⟩ := AttributeRole.exists_of_mem_property? hp
    have hspace : a.name.space.isNone = true := by
      by_contra hspace
      exact hname.unspaced (colon_mem_text (Bool.not_eq_true _ ▸ hspace))
    show (if a.name.space.isNone then _ else none) = metadata.property? a.name.text
    rw [if_pos hspace, text_of_isNone hspace]

theorem described_literalControl (context : DataContext) (source : BindingSource) :
    (literalControl s context source).Described s.types name := by
  refine ⟨s.known_standard _, fun p hp hpname => ?_⟩
  rw [List.mem_singleton.1 hp] at hpname ⊢
  subst hpname
  rfl

/-! ## §2. Marks and styles. -/

theorem Control.Described.markContext {x : Control} (h : x.Described r name) :
    x.markContext.Described r name := ⟨h.known, h.capability⟩

/-- A rule has looked the property up itself. -/
theorem Control.Described.assignment {x : Control} (h : x.Described r name) {rule : StyleRule}
    {capability : Capability}
    (hcapability : x.metadata.property? rule.property = some capability) :
    (x.setProperty (rule.assignment x capability)).Described r name := by
  refine ⟨h.known, fun p hp hpname => ?_⟩
  rcases Control.mem_replace _ x.properties hp with rfl | hp
  · rw [← hpname]
    exact hcapability.symm
  · exact h.capability p hp hpname

/-- Style rules leave the metadata as it is. -/
theorem Control.styled_metadata (x : Control) (rules : List StyleRule) :
    (x.styled rules).control.metadata = x.metadata :=
  Control.styled_induction (P := fun c => c.metadata = x.metadata) (fun _ _ _ _ h => h) rfl rules

/-! ## §3. Trees. -/

mutual

/-- What holds of the controls of all elements and bound texts holds of the controls of a node. -/
theorem forall_controlsOf_resolveNode {P : Control → Prop} (s : ControlScope)
    (helement : ∀ outer e nodes children, P (withContent (elementControl s outer e) nodes children))
    (hliteral : ∀ context source, P (literalControl s context source)) :
    ∀ (n : Markup.Node) (context : DataContext),
      ∀ x ∈ ControlNode.controlsOf (resolveNode s context n).toList, P x
  | .element e nodes, context, x, hx => by
      rw [resolveNode] at hx
      rcases List.mem_append.1 hx with hx | hx
      · rcases List.mem_cons.1 hx with rfl | hx
        · exact helement context e nodes _
        · exact forall_controlsOf_resolveNodes s helement hliteral nodes _ x hx
      · cases hx
  | .text _ _, _, x, hx => absurd hx List.not_mem_nil
  | .binding source, context, x, hx => by
      rw [List.mem_singleton.1 hx]
      exact hliteral context source
  | .stray _, _, x, hx => absurd hx List.not_mem_nil

theorem forall_controlsOf_resolveNodes {P : Control → Prop} (s : ControlScope)
    (helement : ∀ outer e nodes children, P (withContent (elementControl s outer e) nodes children))
    (hliteral : ∀ context source, P (literalControl s context source)) :
    ∀ (ns : List Markup.Node) (context : DataContext),
      ∀ x ∈ ControlNode.controlsOf (resolveNodes s context ns), P x
  | [], _, x, hx => absurd hx List.not_mem_nil
  | n :: ns, context, x, hx => by
      rw [resolveNodes, ControlNode.controlsOf_append] at hx
      rcases List.mem_append.1 hx with hx | hx
      · exact forall_controlsOf_resolveNode s helement hliteral n context x hx
      · exact forall_controlsOf_resolveNodes s helement hliteral ns context x hx

end

namespace ControlNode

/-- The controls inside the control of the node. -/
def inner : ControlNode → List Control
  | control _ children => controlsOf children
  | text _ _ => []

theorem mem_controls_iff {n : ControlNode} {x : Control} :
    x ∈ n.controls ↔ n.head? = some x ∨ x ∈ n.inner := by
  cases n with
  | control head children =>
      rw [controls, List.mem_cons, head?, inner, Option.some.injEq, eq_comm]
  | text _ _ =>
      constructor
      · intro h
        cases h
      · rintro (h | h) <;> cases h

theorem mem_controlsOf {ns : List ControlNode} {x : Control} :
    x ∈ controlsOf ns ↔ ∃ n ∈ ns, x ∈ n.controls := by
  induction ns with
  | nil => exact ⟨nofun, fun ⟨_, hn, _⟩ => absurd hn List.not_mem_nil⟩
  | cons n ns ih => rw [controlsOf, List.mem_append, ih, List.exists_mem_cons_iff]

end ControlNode

namespace ControlTree

variable {path : String} {kind : ViewKind} {d : Document} {t : ControlTree}

/-- The controls below the top level. -/
def nested (t : ControlTree) : List Control := t.children.flatMap ControlNode.inner

/-- **All controls of a view are described by the registry.** -/
theorem described (hname : IsPlainName name) (ht : ofDocument s path kind d = .ok t) :
    ∀ x ∈ t.controls, x.Described s.types name := by
  obtain ⟨type, metadata, context, hmetadata, hchildren, hroot⟩ := ofDocument_parts ht
  intro x hx
  rcases List.mem_cons.1 hx with rfl | hx
  · rw [hroot]
    exact ⟨ControlMetadata.known_of_eq_some hmetadata, fun p hp => absurd hp List.not_mem_nil⟩
  · rw [hchildren] at hx
    refine forall_controlsOf_resolveNodes s (fun outer e nodes children => ?_)
      (fun context source => described_literalControl context source) d.nodes context x hx
    have helement := described_elementControl (s := s) hname outer e
    exact ⟨helement.known, helement.capability⟩

/-- Marks and styles keep that. -/
theorem described_styled (hname : IsPlainName name) (ht : ofDocument s path kind d = .ok t)
    (rules : List StyleRule) :
    ∀ x ∈ (t.markContexts.styled rules).controls, x.Described s.types name :=
  forall_styled (fun _ hc => hc.markContext) (fun _ _ _ hcapability hc => hc.assignment hcapability)
    (described hname ht) rules

/-- **A control is the root, or at the top level, or below it.** -/
theorem mem_controls_iff {x : Control} :
    x ∈ t.controls ↔ x = t.root ∨ x ∈ t.topLevel ∨ x ∈ t.nested := by
  unfold controls topLevel nested
  rw [List.mem_cons, ControlNode.mem_controlsOf, List.mem_filterMap, List.mem_flatMap,
    ← exists_or]
  simp only [ControlNode.mem_controls_iff, and_or_left]

/-- A control at the top level is what marks and styles make of one. -/
theorem exists_of_mem_topLevel_styled {rules : List StyleRule} {x : Control}
    (hx : x ∈ (t.markContexts.styled rules).topLevel) :
    ∃ y ∈ t.topLevel, x.metadata = y.metadata := by
  have hnodes : ∀ ns : List ControlNode, x ∈ (ControlNode.mapAll (fun c => (c.styled rules).control)
      (ControlNode.markContextsAll t.root.context ns)).filterMap ControlNode.head? →
      ∃ y ∈ ns.filterMap ControlNode.head?, x.metadata = y.metadata := by
    intro ns
    induction ns with
    | nil => exact fun hx => absurd hx List.not_mem_nil
    | cons n ns ih =>
        intro hx
        cases n with
        | text _ _ => exact ih hx
        | control head children =>
            rcases List.mem_cons.1 hx with rfl | hx
            · refine ⟨head, List.mem_cons_self, ?_⟩
              rw [Control.styled_metadata]
              split <;> rfl
            · obtain ⟨y, hy, hmetadata⟩ := ih hx
              exact ⟨y, List.mem_cons_of_mem _ hy, hmetadata⟩
  exact hnodes t.children hx

end ControlTree

/-! ## §4. Properties that have to be set to text. -/

/-- Controls of the type have to be given the property, and as plain text. -/
def Registry.RequiresText (r : Registry) (type name : String) : Prop :=
  ∃ e capability, r.find? (TypeId.ofName type) = some e ∧ e.capability? name = some capability
    ∧ capability.markup = MarkupOptions.hardCodedOnly.mandatory

/-- What is required of a type stays so as more types are registered. -/
theorem Registry.RequiresText.registerAll {r' : Registry} {type : String} {es : List TypeEntry}
    (h : r.RequiresText type name) (hes : r.registerAll es = .ok r') :
    r'.RequiresText type name := by
  obtain ⟨e, capability, hfind, hrest⟩ := h
  refine ⟨e, capability, ?_, hrest⟩
  rw [(Registry.registerAll_eq_ok_iff.1 hes).2, Registry.find?_insertAll, hfind, Option.some_or]

/-- What is required of a type is among its capability properties. -/
theorem Registry.RequiresText.exists_capability {type : String} (h : r.RequiresText type name)
    (args : List TypeRef) : ∃ capability ∈ r.capabilities (.named type args),
      capability.name = name ∧ capability.markup = MarkupOptions.hardCodedOnly.mandatory := by
  obtain ⟨e, capability, hfind, hcapability, hmarkup⟩ := h
  have hname : capability.name = name :=
    beq_iff_eq.1 (List.find?_some (p := fun d : Capability => d.name == name) hcapability)
  have hdeclared : r.declaredCapability? (.named type args) name = some capability := by
    unfold Registry.declaredCapability? Registry.entryOf? TypeRef.definition?
    rw [Option.bind_some, hfind, Option.bind_some, hcapability]
  exact ⟨capability, Registry.mem_capabilities_of_declared hdeclared, hname, hmarkup⟩

/-- A control of a named type other than `object` has the capability properties of its type. -/
theorem Control.Described.properties_eq {x : Control} {type : String} (h : x.Described r name)
    (htype : x.hasType type = true) (hobject : type ≠ Primitive.object.name) :
    ∃ args, x.metadata.properties = r.capabilities (.named type args) := by
  obtain ⟨args, hargs⟩ : ∃ args, x.metadata.type = .named type args := by
    unfold Control.hasType Control.type at htype
    split at htype
    · rename_i found args hfound
      exact ⟨args, by rw [hfound, beq_iff_eq.1 htype]⟩
    · cases htype
  refine ⟨args, ?_⟩
  rcases h.known with huntyped | hm
  · rw [huntyped] at hargs
    exact absurd (TypeRef.named.inj hargs).1.symm hobject
  · rw [hargs] at hm
    unfold Registry.controlMetadata? at hm
    dsimp only at hm
    split at hm
    · rw [← Option.some.inj hm]
    · cases hm

/-- Each capability property of the type is what the metadata finds under its name. -/
theorem ControlMetadata.property?_of_mem {m : ControlMetadata} {t : TypeRef} {c : Capability}
    (hproperties : m.properties = r.capabilities t) (hc : c ∈ r.capabilities t) :
    m.property? c.name = some c := by
  unfold ControlMetadata.property?
  rw [hproperties]
  exact Registry.find?_capabilities_of_mem hc

/-- **A property that has to be set to text is set to text**, on every control of the type that
has passed the checks. -/
theorem Control.exists_hardCoded {x : Control} {type : String} (hproper : x.Proper r)
    (hdescribed : x.Described r name) (hrequires : r.RequiresText type name)
    (htype : x.hasType type = true) (hobject : type ≠ Primitive.object.name) :
    ∃ text, x.hardCoded? name = some text := by
  obtain ⟨args, hproperties⟩ := hdescribed.properties_eq htype hobject
  obtain ⟨capability, hmem, rfl, hmarkup⟩ := hrequires.exists_capability args
  obtain ⟨p, hp, hpname⟩ := hproper.required capability (hproperties ▸ hmem) (by rw [hmarkup]; rfl)
  -- The property that its name finds is checked against the capability.
  obtain ⟨q, hq, hqname, hfound⟩ := exists_find?_of_mem (f := ControlProperty.name) hp
  rw [hpname] at hqname hfound
  have hqcapability : q.capability = some capability :=
    (hdescribed.capability q hq hqname).trans (ControlMetadata.property?_of_mem hproperties hmem)
  cases hvalue : q.value with
  | hardCoded text =>
      refine ⟨text, ?_⟩
      unfold Control.hardCoded? Control.property?
      rw [hfound, Option.map_some, hvalue]
  | bound b =>
      have hallow := ((hproper.properties q hq).bound capability b hqcapability hvalue).1
      rw [hmarkup] at hallow
      cases hallow
  | failed error => exact absurd hvalue (hproper.bound q hq error)

end Described

end BoundMarkup
