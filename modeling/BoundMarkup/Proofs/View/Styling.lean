/-
  BoundMarkup.Proofs.View.Styling
  ───────────────────────────────
  **WHAT STYLE RULES COME TO.**

  Rules are applied one after the other, to a control that they change on the way.
  What they come to can be said of each property by itself (`styledProperty?`): the
  last rule that overwrites decides, else the property stays as markup has set it,
  else the first rule decides.

    • `restyled_apply` — one rule comes to that,
    • `Restyled.trans` — and so do some rules and then others,
    • `restyled_styled` — hence all of them, on one control,
    • `Restyled.again` — where they change nothing the second time,
    • `styled_restyled` — all of this in a tree.
-/
import BoundMarkup.Proofs.View.Checked
import Mathlib.Data.List.Nodup

namespace BoundMarkup

/-! ## §1. The closed form. -/

/-- **What rules for one property come to**, each with its own assignment, where markup has set
the property or not. -/
def StyleRule.settle (assign : StyleRule → ControlProperty) (set : Option ControlProperty)
    (rules : List StyleRule) : Option ControlProperty :=
  ((rules.filter StyleRule.overwrite).getLast?.map assign).or (set.or (rules.head?.map assign))

/-- What some rules come to is like markup to the others. -/
theorem StyleRule.settle_append (assign : StyleRule → ControlProperty)
    (set : Option ControlProperty) (rules rules' : List StyleRule) :
    settle assign set (rules ++ rules') = settle assign (settle assign set rules) rules' := by
  unfold settle
  rw [List.filter_append, List.getLast?_append, List.head?_append, Option.map_or, Option.map_or]
  simp only [Option.or_assoc]

/-- The same rules once more come to the same. -/
theorem StyleRule.settle_settle (assign : StyleRule → ControlProperty)
    (set : Option ControlProperty) (rules : List StyleRule) :
    settle assign (settle assign set rules) rules = settle assign set rules := by
  unfold settle
  cases (rules.filter StyleRule.overwrite).getLast?.map assign with
  | some p => rfl
  | none => rw [Option.none_or, Option.none_or, Option.or_assoc, Option.or_self]

namespace Control

/-- The names of the properties, in their order. -/
def names (c : Control) : List String := c.properties.map ControlProperty.name

/-- The rules that are for the control and name the property. -/
def rulesOn (c : Control) (rules : List StyleRule) (name : String) : List StyleRule :=
  rules.filter (fun rule => rule.selects c && rule.property == name)

/-- **The property of a name after all rules**: what they come to, if the control can have it. -/
def styledProperty? (c : Control) (rules : List StyleRule) (name : String) :
    Option ControlProperty :=
  match c.metadata.property? name with
  | none => c.property? name
  | some capability =>
      StyleRule.settle (fun rule => rule.assignment c capability) (c.property? name)
        (c.rulesOn rules name)

/-- **The rules turn one control into the other.** -/
structure Restyled (rules : List StyleRule) (c c' : Control) : Prop where
  /-- Nothing but the properties has changed. -/
  rest : c' = { c with properties := c'.properties }
  property : ∀ name, c'.property? name = c.styledProperty? rules name
  /-- Properties keep their places, and new ones come behind them. -/
  places : c.names <+: c'.names
  distinct : c.names.Nodup → c'.names.Nodup

/-! ## §2. Setting a property. -/

variable {c c' c'' : Control} {rules rules' : List StyleRule}

/-- The property that is set is the new one, and the others stay. -/
theorem property?_setProperty (c : Control) (p : ControlProperty) (name : String) :
    (c.setProperty p).property? name = if p.name = name then some p else c.property? name := by
  show (setProperty.replace p c.properties).find? _ = if _ then _ else c.properties.find? _
  induction c.properties with
  | nil =>
      rw [setProperty.replace, List.find?_singleton]
      by_cases hp : p.name = name
      · rw [if_pos (beq_iff_eq.2 hp), if_pos hp]
      · rw [if_neg (by rwa [beq_iff_eq]), if_neg hp, List.find?_nil]
  | cons q qs ih =>
      rw [setProperty.replace]
      by_cases hq : q.name = p.name
      · -- The old property goes, and it had the same name.
        rw [if_pos hq, List.find?_cons, List.find?_cons, hq]
        by_cases hp : p.name = name
        · rw [beq_iff_eq.2 hp, if_pos hp]
        · rw [beq_eq_false_iff_ne.2 hp, if_neg hp]
      · rw [if_neg hq, List.find?_cons, List.find?_cons, ih]
        by_cases hqn : q.name = name
        · rw [beq_iff_eq.2 hqn]
          exact (if_neg fun hp => hq (hqn.trans hp.symm)).symm
        · rw [beq_eq_false_iff_ne.2 hqn]

/-- A name that is there keeps its place, and a new one comes last. -/
theorem names_setProperty (c : Control) (p : ControlProperty) :
    (c.setProperty p).names = if p.name ∈ c.names then c.names else c.names ++ [p.name] := by
  show (setProperty.replace p c.properties).map _ = if _ ∈ c.properties.map _ then _ else _
  unfold names
  induction c.properties with
  | nil => rfl
  | cons q qs ih =>
      rw [setProperty.replace, List.map_cons]
      by_cases hq : q.name = p.name
      · rw [if_pos hq, List.map_cons, hq, if_pos List.mem_cons_self]
      · rw [if_neg hq, List.map_cons, ih]
        by_cases hp : p.name ∈ qs.map ControlProperty.name
        · rw [if_pos hp, if_pos (List.mem_cons_of_mem _ hp)]
        · rw [if_neg hp, if_neg (List.not_mem_cons_of_ne_of_not_mem (Ne.symm hq) hp),
            List.cons_append]

theorem property?_isSome_iff {name : String} :
    (c.property? name).isSome = true ↔ name ∈ c.names := by
  unfold property? names
  rw [List.find?_isSome, List.mem_map]
  simp only [beq_iff_eq]

/-- Properties with the same names in the same order, each name found with the same property,
are the same. -/
theorem properties_eq_of_names {ps qs : List ControlProperty}
    (hnames : ps.map ControlProperty.name = qs.map ControlProperty.name)
    (hdistinct : (ps.map ControlProperty.name).Nodup)
    (h : ∀ name, ps.find? (fun p => p.name == name) = qs.find? (fun p => p.name == name)) :
    ps = qs := by
  induction ps generalizing qs with
  | nil => exact (List.map_eq_nil_iff.1 hnames.symm).symm
  | cons p ps ih =>
      cases qs with
      | nil => cases hnames
      | cons q qs =>
          rw [List.map_cons, List.map_cons, List.cons.injEq] at hnames
          obtain ⟨hnew, hdistinct⟩ := List.nodup_cons.1 hdistinct
          have hhead := h p.name
          rw [List.find?_cons, List.find?_cons, beq_self_eq_true, beq_iff_eq.2 hnames.1.symm]
            at hhead
          obtain rfl := Option.some.inj hhead
          refine congrArg (p :: ·) (ih hnames.2 hdistinct fun name => ?_)
          by_cases hp : p.name = name
          · -- The name of the first property is not among the others.
            have hnone (rs : List ControlProperty) (hrs : name ∉ rs.map ControlProperty.name) :
                rs.find? (fun r => r.name == name) = none := by
              refine List.find?_eq_none.2 fun r hr hname => hrs ?_
              exact List.mem_map.2 ⟨r, hr, beq_iff_eq.1 hname⟩
            rw [hp] at hnew
            rw [hnone ps hnew, hnone qs (hnames.2 ▸ hnew)]
          · have hrest := h name
            rwa [List.find?_cons, List.find?_cons, beq_eq_false_iff_ne.2 hp] at hrest

/-! ## §3. One rule. -/

/-- Nothing is for the property: it stays as it is. -/
theorem styledProperty?_of_rulesOn_eq_nil {name : String} (h : c.rulesOn rules name = []) :
    c.styledProperty? rules name = c.property? name := by
  unfold styledProperty?
  rw [h]
  split
  · rfl
  · exact Option.or_none

/-- Rules may leave all properties as they are. -/
theorem Restyled.of_same (h : ∀ name, c.styledProperty? rules name = c.property? name) :
    Restyled rules c c where
  rest := rfl
  property name := (h name).symm
  places := List.prefix_rfl
  distinct := id

theorem rulesOn_singleton (c : Control) (rule : StyleRule) (name : String) :
    c.rulesOn [rule] name
      = if rule.selects c = true ∧ rule.property = name then [rule] else [] := by
  unfold rulesOn
  rw [List.filter_singleton]
  simp only [cond_eq_ite, Bool.and_eq_true, beq_iff_eq]

/-- A rule that sets a property. -/
theorem restyled_of_setting?_eq_some {rule : StyleRule} {p : ControlProperty}
    (hselects : rule.selects c = true) (h : rule.setting? c = some p) :
    Restyled [rule] c (c.setProperty p) := by
  obtain ⟨capability, hcapability, rfl⟩ := exists_of_setting?_eq_some h
  refine ⟨rfl, fun name => ?_, ?_, fun hc => ?_⟩
  · rw [property?_setProperty]
    show (if rule.property = name then _ else _) = _
    split
    · rename_i hname
      subst hname
      unfold styledProperty? StyleRule.settle
      rw [hcapability, rulesOn_singleton, if_pos ⟨hselects, rfl⟩]
      -- The rule overwrites, or nothing is set.
      unfold StyleRule.setting? at h
      cases hover : rule.overwrite with
      | true => simp [hover]
      | false =>
          cases hset : c.property? rule.property with
          | none => simp [hover]
          | some _ => simp [hover, hset] at h
    · rename_i hname
      rw [styledProperty?_of_rulesOn_eq_nil]
      rw [rulesOn_singleton, if_neg fun h => hname h.2]
  · rw [names_setProperty]
    split
    · exact List.prefix_rfl
    · exact List.prefix_append _ _
  · rw [names_setProperty]
    split
    · exact hc
    · rename_i hnew
      rw [← List.concat_eq_append]
      exact (List.nodup_concat _ _).2 ⟨hnew, hc⟩

/-- A rule that has nothing to set. -/
theorem restyled_of_setting?_eq_none {rule : StyleRule} (h : rule.setting? c = none) :
    Restyled [rule] c c := by
  refine .of_same fun name => ?_
  unfold styledProperty? StyleRule.settle
  rw [rulesOn_singleton]
  unfold StyleRule.setting? at h
  split
  · rfl
  · rename_i capability hcapability
    split
    · rename_i hmine
      obtain rfl := hmine.2
      -- The control can have the property, so it is set and the rule does not overwrite it.
      split at h
      · rename_i hset
        rw [Bool.and_eq_true, Bool.not_eq_true'] at hset
        obtain ⟨p, hp⟩ := Option.isSome_iff_exists.1 hset.1
        simp [hset.2, hp]
      · rw [hcapability] at h
        cases h
    · exact Option.or_none

/-- **One rule** comes to what the closed form says. -/
theorem restyled_apply (s : Styled) (rule : StyleRule) :
    Restyled [rule] s.control (s.apply rule).control := by
  unfold Styled.apply
  split
  · rename_i hselects
    split
    · rename_i p hsetting
      exact restyled_of_setting?_eq_some hselects hsetting
    · rename_i hsetting
      exact restyled_of_setting?_eq_none hsetting
  · rename_i hselects
    refine .of_same fun name => styledProperty?_of_rulesOn_eq_nil ?_
    rw [rulesOn_singleton, if_neg fun h => hselects h.1]

/-! ## §4. Rules one after the other. -/

/-- **Some rules and then others** come to what all of them come to. -/
theorem Restyled.trans (h : Restyled rules c c') (h' : Restyled rules' c' c'') :
    Restyled (rules ++ rules') c c'' where
  rest := by
    rw [h'.rest, h.rest]
  property name := by
    -- Neither the rules for a control nor their assignments depend on its properties.
    have hrules : c'.rulesOn rules' name = c.rulesOn rules' name := by
      rw [h.rest]
      rfl
    have hassign (capability : Capability) (rule : StyleRule) :
        rule.assignment c' capability = rule.assignment c capability := by
      rw [h.rest]
      rfl
    have hproperty := h.property name
    rw [h'.property]
    unfold styledProperty? at hproperty ⊢
    rw [hrules, show c'.metadata = c.metadata by rw [h.rest],
      show c.rulesOn (rules ++ rules') name = c.rulesOn rules name ++ c.rulesOn rules' name from
        List.filter_append ..]
    cases hm : c.metadata.property? name with
    | none =>
        rw [hm] at hproperty
        exact hproperty
    | some capability =>
        rw [hm] at hproperty
        dsimp only at hproperty ⊢
        rw [hproperty, StyleRule.settle_append, funext (hassign capability)]
  places := h.places.trans h'.places
  distinct hc := h'.distinct (h.distinct hc)

/-- **All rules** come to what the closed form says. -/
theorem restyled_styled (c : Control) (rules : List StyleRule) :
    Restyled rules c (c.styled rules).control := by
  have hfold : ∀ (rules : List StyleRule) (s : Styled),
      Restyled rules s.control (rules.foldl Styled.apply s).control := by
    intro rules
    induction rules with
    | nil => exact fun s => .of_same fun _ => styledProperty?_of_rulesOn_eq_nil rfl
    | cons rule rules ih => exact fun s => (restyled_apply s rule).trans (ih (s.apply rule))
  exact hfold rules ⟨c, 0⟩

/-- **The same rules once more** change nothing. -/
theorem Restyled.again (h : Restyled rules c c') (h' : Restyled rules c' c'')
    (hdistinct : c.names.Nodup) : c'' = c' := by
  have hsame (name : String) : c''.property? name = c'.property? name := by
    have hboth := (h.trans h').property name
    rw [hboth, h.property]
    unfold styledProperty?
    split
    · rfl
    · rename_i capability _
      rw [show c.rulesOn (rules ++ rules) name = c.rulesOn rules name ++ c.rulesOn rules name from
        List.filter_append .., StyleRule.settle_append, StyleRule.settle_settle]
  -- A new name would be one of a property that was not there.
  have hnames : c''.names = c'.names := by
    obtain ⟨added, hadded⟩ := h'.places
    have hnone : added = [] := by
      refine List.eq_nil_iff_forall_not_mem.2 fun name hname => ?_
      have hmem : name ∈ c''.names := hadded ▸ List.mem_append_right _ hname
      rw [← property?_isSome_iff, hsame, property?_isSome_iff] at hmem
      have hboth := h'.distinct (h.distinct hdistinct)
      rw [← hadded] at hboth
      exact (List.nodup_append.1 hboth).2.2 name hmem name hname rfl
    rw [← hadded, hnone, List.append_nil]
  rw [h'.rest, properties_eq_of_names hnames (h'.distinct (h.distinct hdistinct)) hsame]

end Control

/-! ## §5. Trees. -/

namespace ControlNode

mutual

/-- A node whose controls do not change does not change. -/
theorem map_eq_self {f : Control → Control} :
    ∀ n : ControlNode, (∀ x ∈ n.controls, f x = x) → n.map f = n
  | control head children, h => by
      obtain ⟨hhead, hchildren⟩ := List.forall_mem_cons.1 h
      rw [map, hhead, mapAll_eq_self children hchildren]
  | text _ _, _ => rfl

/-- A forest whose controls do not change does not change. -/
theorem mapAll_eq_self {f : Control → Control} :
    ∀ ns : List ControlNode, (∀ x ∈ controlsOf ns, f x = x) → mapAll f ns = ns
  | [], _ => rfl
  | n :: ns, h => by
      obtain ⟨hfirst, hrest⟩ := List.forall_mem_append.1 h
      rw [mapAll, map_eq_self n hfirst, mapAll_eq_self ns hrest]

end

end ControlNode

namespace ControlTree

theorem map_eq_self {f : Control → Control} {t : ControlTree} (h : ∀ x ∈ t.controls, f x = x) :
    t.map f = t := by
  obtain ⟨hroot, hchildren⟩ := List.forall_mem_cons.1 h
  unfold map
  rw [hroot, ControlNode.mapAll_eq_self t.children hchildren]

/-- **STYLE RULES HAVE A CLOSED FORM.**  In a tree where no control has two properties of one
name, the rules change the controls only, each of them by itself and into what the closed form
says.  Afterwards there are still no two properties of one name, and the same rules would change
nothing more. -/
theorem styled_restyled {t : ControlTree} (distinct : ∀ x ∈ t.controls, x.names.Nodup)
    (rules : List StyleRule) :
    (∃ f, t.styled rules = t.map f ∧ ∀ x ∈ t.controls, Control.Restyled rules x (f x))
      ∧ (∀ x ∈ (t.styled rules).controls, x.names.Nodup)
      ∧ (t.styled rules).styled rules = t.styled rules := by
  refine ⟨⟨_, rfl, fun x _ => x.restyled_styled rules⟩, fun y hy => ?_, map_eq_self fun y hy => ?_⟩
  all_goals
    unfold styled at hy
    rw [controls_map] at hy
    obtain ⟨x, hx, rfl⟩ := List.mem_map.1 hy
  · exact (x.restyled_styled rules).distinct (distinct x hx)
  · exact (x.restyled_styled rules).again (Control.restyled_styled _ rules) (distinct x hx)

/-- A text box whose text is set in markup. -/
def nameBox : Control :=
  { kind := .code
    tag := "app:Box"
    metadata := ⟨.simple "App.Box", false,
      [⟨"Text", .string, .simple "App.Box", .standard, none⟩,
        ⟨"Hint", .string, .simple "App.Box", .standard, none⟩,
        ⟨"Size", .int32, .simple "App.Box", .standard, none⟩], none⟩
    properties := [⟨"Text", .hardCoded "Ada", ⟨2, 10, 8⟩, none⟩,
      ⟨"Size", .hardCoded "3", ⟨2, 19, 6⟩, none⟩]
    context := .ofRoot .object []
    span := ⟨2, 1, 25⟩
    errors := []
    contextMark := none }

/-- A view with nothing but the text box. -/
def nameForm : ControlTree :=
  { path := "form.dothtml"
    kind := .page
    directives := ⟨.object, none, [], none⟩
    root := { nameBox with kind := .root, tag := "", metadata := .untyped, properties := [] }
    children := [.control nameBox []] }

/-- Rules for text boxes, by tag and by type; for the size there is no rule. -/
def boxRules : List StyleRule :=
  [⟨"APP:box", "Hint", "first", false⟩, ⟨"App.Box", "Text", "one", true⟩,
    ⟨"app:Box", "Text", "two", true⟩, ⟨"app:Box", "Text", "three", false⟩,
    ⟨"App.Box", "Hint", "second", false⟩, ⟨"app:Other", "Size", "9", true⟩,
    ⟨"app:Box", "Colour", "red", true⟩]

/-- The last of the overwriting rules has set the text, and the first rule the hint. -/
theorem styled_restyled_nameForm :
    (∀ x ∈ nameForm.controls, x.names.Nodup)
      ∧ (∃ x ∈ (nameForm.styled boxRules).controls, x.hardCoded? "Text" = some "two"
        ∧ x.hardCoded? "Size" = some "3" ∧ x.hardCoded? "Hint" = some "first"
        ∧ x.hardCoded? "Colour" = none)
      ∧ (nameForm.styled boxRules).styled boxRules = nameForm.styled boxRules := by
  have distinct : ∀ x ∈ nameForm.controls, x.names.Nodup := by
    intro x hx
    rcases List.mem_pair.1 hx with rfl | rfl <;> decide
  obtain ⟨⟨f, hf, hrestyled⟩, -, hagain⟩ := styled_restyled distinct boxRules
  have hbox : nameBox ∈ nameForm.controls := List.mem_cons_of_mem _ List.mem_cons_self
  have hproperty := (hrestyled nameBox hbox).property
  refine ⟨distinct, ⟨f nameBox, ?_, ?_, ?_, ?_, ?_⟩, hagain⟩
  · rw [hf, controls_map]
    exact List.mem_map_of_mem hbox
  all_goals
    unfold Control.hardCoded?
    rw [hproperty]
    decide

end ControlTree

end BoundMarkup
