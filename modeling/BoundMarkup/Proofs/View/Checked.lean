/-
  BoundMarkup.Proofs.View.Checked
  ───────────────────────────────
  **WHAT IS TRUE OF A TREE WITHOUT REPORTS.**

  The error check runs on the resolved tree, the usage check on the tree after
  the marks of data contexts and the style rules.  `Control.Proper` says what
  both of them together leave of a control:

    • `Control.Sound` is all that the first check sees; marks and styles keep it,
    • `Control.WellUsed` is what the second check sees, rule by rule,
    • `ControlTree.proper_of_checked` puts the two together for a styled tree.
-/
import BoundMarkup.View.ContextMark
import BoundMarkup.View.ErrorCheck
import BoundMarkup.View.Style
import BoundMarkup.View.Usage
import Mathlib.Algebra.Group.Int.Defs

namespace BoundMarkup

/-! ## §1. The rules of use. -/

/-- The text is a value of the type, blanks at its ends aside: a truth value in
any case or nothing at all, a whole number in range, or a real number.  Of other
types every text is a value. -/
def Fits (type : TypeRef) (text : String) : Prop :=
  match type.primitive? with
  | some .bool =>
      Text.trim text = "" ∨ Text.sameIgnoringCase (Text.trim text) "true" = true
        ∨ Text.sameIgnoringCase (Text.trim text) "false" = true
  | some .int32 =>
      ∃ n : Int, Decimal.signed? (Text.trim text).toList = some n ∧ -2 ^ 31 ≤ n ∧ n < 2 ^ 31
  | some .int64 =>
      ∃ n : Int, Decimal.signed? (Text.trim text).toList = some n ∧ -2 ^ 63 ≤ n ∧ n < 2 ^ 63
  | some .single | some .double | some .decimal =>
      ∃ x, Decimal.real? (Text.trim text) = some x
  | _ => True

/-- The value of a binding becomes a value of the type by an implicit conversion.
Only where a string is wanted it may be written as text. -/
def Converts (r : Registry) (b : Binding.Bound) (type : TypeRef) : Prop :=
  (∃ t, b.term.convertTo? r type = some t)
    ∨ (type = .string ∧ b.term.isValue = true ∧ ∃ t, b.term.toTextCall? r = some t)

/-- A property is set in a way that its declaration admits. -/
structure ControlProperty.WellUsed (r : Registry) (p : ControlProperty) : Prop where
  /-- A plain attribute takes no command. -/
  plain : p.capability = none → ∀ b, p.value = .bound b → b.source.kind ≠ .command
  hardCoded : ∀ capability text, p.capability = some capability → p.value = .hardCoded text →
    capability.markup.allowHardCoded = true ∧ Fits capability.type text
  bound : ∀ capability b, p.capability = some capability → p.value = .bound b →
    capability.markup.allowBinding = true
      ∧ (b.source.kind = .command ↔ capability.markup.isCommand = true)
      ∧ (b.source.kind = .value → Converts r b capability.type)

namespace Control

/-- Nothing is wrong with the control by itself, and all of its bindings are bound. -/
structure Sound (c : Control) : Prop where
  errors : c.errors = []
  bound : ∀ p ∈ c.properties, ∀ error, p.value ≠ .failed error

/-- The control is used as it is declared. -/
structure WellUsed (r : Registry) (c : Control) : Prop where
  required : ∀ capability ∈ c.metadata.properties, capability.markup.required = true →
    ∃ p ∈ c.properties, p.name = capability.name
  properties : ∀ p ∈ c.properties, p.WellUsed r
  /-- A markup control stands in a data context that is its view model. -/
  context : ∀ path viewModel, c.kind = .markup path viewModel →
    r.isAssignable c.context.this viewModel = true

/-- **Nothing is wrong with the control**, as it is and as it is used. -/
structure Proper (r : Registry) (c : Control) : Prop extends Sound c, WellUsed r c

end Control

/-! ## §2. What marks and styles keep. -/

namespace Control

theorem Sound.markContext {c : Control} (h : c.Sound) : c.markContext.Sound :=
  ⟨h.errors, h.bound⟩

/-- A property that is set is the new one, or was there before. -/
theorem mem_replace (p : ControlProperty) :
    ∀ (qs : List ControlProperty) {q : ControlProperty}, q ∈ setProperty.replace p qs →
      q = p ∨ q ∈ qs
  | [], q, h => Or.inl (List.mem_singleton.1 h)
  | x :: qs, q, h => by
      unfold setProperty.replace at h
      by_cases hx : x.name = p.name
      · rw [if_pos hx] at h
        exact (List.mem_cons.1 h).imp_right (List.mem_cons_of_mem x)
      · rw [if_neg hx] at h
        rcases List.mem_cons.1 h with rfl | h
        · exact Or.inr List.mem_cons_self
        · exact (mem_replace p qs h).imp_right (List.mem_cons_of_mem x)

/-- A plain value takes nothing away from a sound control. -/
theorem Sound.setProperty {c : Control} (h : c.Sound) {p : ControlProperty} {text : String}
    (hp : p.value = .hardCoded text) : (c.setProperty p).Sound := by
  refine ⟨h.errors, fun q hq error hfailed => ?_⟩
  rcases mem_replace p c.properties hq with rfl | hq
  · rw [hp] at hfailed
    cases hfailed
  · exact h.bound q hq error hfailed

/-- A rule sets a property that the metadata knows, to the value of the rule. -/
theorem exists_of_setting?_eq_some {rule : StyleRule} {c : Control} {p : ControlProperty}
    (h : rule.setting? c = some p) :
    ∃ capability, c.metadata.property? rule.property = some capability
      ∧ p = rule.assignment c capability := by
  unfold StyleRule.setting? at h
  split at h
  · cases h
  · obtain ⟨capability, hcapability, rfl⟩ := Option.map_eq_some_iff.1 h
    exact ⟨capability, hcapability, rfl⟩

/-- **All style rules together keep** what a rule keeps that sets a property. -/
theorem styled_induction {P : Control → Prop}
    (hset : ∀ (rule : StyleRule) (c : Control) (capability : Capability),
      c.metadata.property? rule.property = some capability → P c →
      P (c.setProperty (rule.assignment c capability)))
    {c : Control} (h : P c) (rules : List StyleRule) : P (c.styled rules).control := by
  have happly (rule : StyleRule) (s : Styled) (hs : P s.control) : P (s.apply rule).control := by
    unfold Styled.apply
    split
    · split
      · rename_i p hsetting
        obtain ⟨capability, hcapability, rfl⟩ := exists_of_setting?_eq_some hsetting
        exact hset rule s.control capability hcapability hs
      · exact hs
    · exact hs
  have hrules : ∀ (rules : List StyleRule) (s : Styled), P s.control →
      P (rules.foldl Styled.apply s).control := by
    intro rules
    induction rules with
    | nil => exact fun s hs => hs
    | cons rule rules ih => exact fun s hs => ih (s.apply rule) (happly rule s hs)
  exact hrules rules ⟨c, 0⟩ h

end Control

/-! ## §3. The same for whole trees. -/

namespace ControlNode

mutual

theorem controls_map (f : Control → Control) :
    ∀ n : ControlNode, (n.map f).controls = n.controls.map f
  | control head children => by
      show f head :: controlsOf (mapAll f children) = f head :: (controlsOf children).map f
      rw [controlsOf_mapAll f children]
  | text _ _ => rfl

theorem controlsOf_mapAll (f : Control → Control) :
    ∀ ns : List ControlNode, controlsOf (mapAll f ns) = (controlsOf ns).map f
  | [] => rfl
  | n :: ns => by
      show (n.map f).controls ++ controlsOf (mapAll f ns) = _
      rw [controls_map f n, controlsOf_mapAll f ns, ← List.map_append]
      rfl

end

mutual

/-- A control of a marked node is a control of the node, marked or not. -/
theorem mem_controls_markContexts {x : Control} :
    ∀ (n : ControlNode) (outer : DataContext), x ∈ (n.markContexts outer).controls →
      ∃ y ∈ n.controls, x = y ∨ x = y.markContext
  | control head children, outer, hx => by
      rcases List.mem_cons.1 hx with rfl | hx
      · refine ⟨head, List.mem_cons_self, ?_⟩
        by_cases hc : head.context = outer
        · exact Or.inl (if_pos hc)
        · exact Or.inr (if_neg hc)
      · obtain ⟨y, hy, hxy⟩ := mem_controlsOf_markContextsAll children head.context hx
        exact ⟨y, List.mem_cons_of_mem head hy, hxy⟩
  | text _ _, _, hx => absurd hx List.not_mem_nil

theorem mem_controlsOf_markContextsAll {x : Control} :
    ∀ (ns : List ControlNode) (outer : DataContext), x ∈ controlsOf (markContextsAll outer ns) →
      ∃ y ∈ controlsOf ns, x = y ∨ x = y.markContext
  | [], _, hx => absurd hx List.not_mem_nil
  | n :: ns, outer, hx => by
      rcases List.mem_append.1 hx with hx | hx
      · obtain ⟨y, hy, hxy⟩ := mem_controls_markContexts n outer hx
        exact ⟨y, List.mem_append_left _ hy, hxy⟩
      · obtain ⟨y, hy, hxy⟩ := mem_controlsOf_markContextsAll ns outer hx
        exact ⟨y, List.mem_append_right _ hy, hxy⟩

end

end ControlNode

namespace ControlTree

theorem controls_map (f : Control → Control) (t : ControlTree) :
    (t.map f).controls = t.controls.map f := by
  show f t.root :: ControlNode.controlsOf (ControlNode.mapAll f t.children) = _
  rw [ControlNode.controlsOf_mapAll]
  rfl

theorem mem_controls_markContexts {t : ControlTree} {x : Control}
    (hx : x ∈ t.markContexts.controls) : ∃ y ∈ t.controls, x = y ∨ x = y.markContext := by
  rcases List.mem_cons.1 hx with rfl | hx
  · exact ⟨t.root, List.mem_cons_self, Or.inr rfl⟩
  · obtain ⟨y, hy, hxy⟩ := ControlNode.mem_controlsOf_markContextsAll t.children t.root.context hx
    exact ⟨y, List.mem_cons_of_mem t.root hy, hxy⟩

/-- **From the resolved to the styled tree**, all controls keep what marks keep, and rules that
set a property. -/
theorem forall_styled {P : Control → Prop} (hmark : ∀ c : Control, P c → P c.markContext)
    (hset : ∀ (rule : StyleRule) (c : Control) (capability : Capability),
      c.metadata.property? rule.property = some capability → P c →
      P (c.setProperty (rule.assignment c capability)))
    {t : ControlTree} (h : ∀ x ∈ t.controls, P x) (rules : List StyleRule) :
    ∀ x ∈ (t.markContexts.styled rules).controls, P x := by
  intro x hx
  unfold styled at hx
  rw [controls_map] at hx
  obtain ⟨y, hy, rfl⟩ := List.mem_map.1 hx
  obtain ⟨z, hz, hyz⟩ := mem_controls_markContexts hy
  refine Control.styled_induction hset ?_ rules
  rcases hyz with rfl | rfl
  · exact h y hz
  · exact hmark z (h z hz)

/-- They stay sound. -/
theorem sound_styled {t : ControlTree} (h : ∀ x ∈ t.controls, x.Sound) (rules : List StyleRule) :
    ∀ x ∈ (t.markContexts.styled rules).controls, x.Sound :=
  forall_styled (fun _ hc => hc.markContext) (fun _ _ _ _ hc => hc.setProperty rfl) h rules

/-! ## §4. No reports. -/

/-- A tree without reports of errors has sound controls only. -/
theorem sound_of_errorReports {t : ControlTree} (h : t.errorReports = []) :
    ∀ x ∈ t.controls, x.Sound := by
  unfold errorReports at h
  cases hnodes : t.nodeReports with
  | cons r rs =>
      rw [hnodes] at h
      cases h
  | nil =>
      rw [hnodes] at h
      intro x hx
      refine ⟨?_, fun p hp error hfailed => ?_⟩
      · have hnone := List.flatMap_eq_nil_iff.1 hnodes x hx
        exact List.map_eq_nil_iff.1 hnone
      · -- A binding that failed would be the first one, or come after the first one.
        have hfirst : t.firstFailure? = none := by simpa using h
        have hcontrol := List.findSome?_eq_none_iff.1 hfirst x hx
        have hproperty := List.findSome?_eq_none_iff.1 hcontrol p hp
        unfold ControlProperty.failure? at hproperty
        rw [hfailed] at hproperty
        cases hproperty

end ControlTree

theorem fits_of_valueFits {type : TypeRef} {text : String} (h : valueFits type text = true) :
    Fits type text := by
  -- A whole number in range is read as one, and its range is checked.
  have hfitting : ∀ {bits : Nat}, (Decimal.fitting? bits (Text.trim text)).isSome = true →
      ∃ n : Int, Decimal.signed? (Text.trim text).toList = some n
        ∧ - Int.ofNat (twoPow (bits - 1)) ≤ n ∧ n < Int.ofNat (twoPow (bits - 1)) := by
    intro bits hsome
    obtain ⟨n, hn⟩ := Option.isSome_iff_exists.1 hsome
    obtain ⟨hread, hrange⟩ := Option.filter_eq_some_iff.1 hn
    simp only [Bool.and_eq_true, decide_eq_true_eq] at hrange
    exact ⟨n, hread, hrange⟩
  unfold valueFits at h
  unfold Fits
  split <;> simp only [*] at h
  · simpa [or_assoc] using h
  · exact hfitting h
  · exact hfitting h
  · exact Option.isSome_iff_exists.1 h
  · exact Option.isSome_iff_exists.1 h
  · exact Option.isSome_iff_exists.1 h
  · trivial

theorem converts_of_bindingConverts {r : Registry} {b : Binding.Bound} {type : TypeRef}
    (h : bindingConverts r b type = true) : Converts r b type := by
  unfold bindingConverts at h
  by_cases hs : type = .string
  · rw [if_pos hs] at h
    obtain ⟨t, ht⟩ := Option.isSome_iff_exists.1 h
    unfold Term.convertOrText? at ht
    cases hconvert : b.term.convertTo? r type with
    | some t' => exact Or.inl ⟨t', hconvert⟩
    | none =>
        rw [hconvert, Option.orElse_none] at ht
        by_cases hv : b.term.isValue = true
        · rw [if_pos ⟨hs, hv⟩] at ht
          exact Or.inr ⟨hs, hv, t, ht⟩
        · rw [if_neg (fun hand => hv hand.2)] at ht
          cases ht
  · rw [if_neg hs] at h
    exact Or.inl (Option.isSome_iff_exists.1 h)

/-- A property without a fault is well used. -/
theorem ControlProperty.wellUsed_of_faultless {r : Registry} {owner : String}
    {p : ControlProperty} (h : propertyFault? r owner p = none) : p.WellUsed r := by
  unfold propertyFault? at h
  refine ⟨fun hc b hb hcommand => ?_, fun capability text hc hv => ?_, fun capability b hc hb => ?_⟩
  · simp [hc, hb, hcommand] at h
  · simp only [hc, hv, hardCodedFault?] at h
    by_cases hallow : capability.markup.allowHardCoded = true
    · by_cases hfits : valueFits capability.type text = true
      · exact ⟨hallow, fits_of_valueFits hfits⟩
      · simp [hallow, hfits] at h
    · simp [hallow] at h
  · simp only [hc, hb, bindingFault?] at h
    by_cases hallow : capability.markup.allowBinding = true
    · -- The four refusals in their order; the last one is about value bindings only.
      cases hcommand : capability.markup.isCommand <;> cases hkind : b.source.kind <;>
        simp [hallow, hcommand, hkind] at h
      · refine ⟨hallow, by simp, fun _ => converts_of_bindingConverts h⟩
      · exact ⟨hallow, by simp, by simp⟩
      · exact ⟨hallow, by simp, by simp⟩
    · simp [hallow] at h

/-- A control without misuses is well used. -/
theorem Control.wellUsed_of_usageErrors {r : Registry} {c : Control}
    (h : c.usageErrors r = []) : c.WellUsed r := by
  unfold usageErrors at h
  obtain ⟨hfront, hcontext⟩ := List.append_eq_nil_iff.1 h
  obtain ⟨hmissing, hproperties⟩ := List.append_eq_nil_iff.1 hfront
  refine ⟨fun capability hmem hrequired => ?_, fun p hp => ?_, fun path viewModel hkind => ?_⟩
  · have hset := List.filter_eq_nil_iff.1 (List.map_eq_nil_iff.1 hmissing) capability
      (List.mem_filter.2 ⟨hmem, hrequired⟩)
    cases hp : c.property? capability.name with
    | none => simp [hp] at hset
    | some p => exact ⟨p, List.mem_of_find?_eq_some hp, by simpa using List.find?_some hp⟩
  · have hfault := List.filterMap_eq_nil_iff.1 hproperties p hp
    exact ControlProperty.wellUsed_of_faultless (Option.map_eq_none_iff.1 hfault)
  · unfold contextFault? at hcontext
    simp only [hkind] at hcontext
    cases hassignable : r.isAssignable c.context.this viewModel with
    | true => rfl
    | false => simp [hassignable] at hcontext

/-- **A tree that passed both checks** has nothing but proper controls. -/
theorem ControlTree.proper_of_checked {r : Registry} {t : ControlTree} {rules : List StyleRule}
    (herrors : t.errorReports = [])
    (husage : (t.markContexts.styled rules).usageReports r = []) :
    ∀ x ∈ (t.markContexts.styled rules).controls, x.Proper r := by
  intro x hx
  have hsound := sound_styled (sound_of_errorReports herrors) rules x hx
  have hnone := List.flatMap_eq_nil_iff.1 husage x hx
  exact ⟨hsound, Control.wellUsed_of_usageErrors (List.map_eq_nil_iff.1 hnone)⟩

end BoundMarkup
