/-
  BoundMarkup.Proofs.View.Attributes
  ──────────────────────────────────
  **WHAT BECOMES OF THE ATTRIBUTES OF AN ELEMENT.**

  An attribute of an element is kept, as a property of its control with the name,
  the place and the value of the attribute, or it is refused, with an error at its
  place.  Repetitions are found by the name as it is written, but `DataContext` is
  recognized in any case; so a second attribute that switches the data context in
  another spelling is neither kept nor refused (`respelled`).  All other attributes
  are accounted for, each of them once (`accounts_element`).
-/
import BoundMarkup.Proofs.View.NodeErrors
import Mathlib.Data.List.Flatten
import Mathlib.Data.List.Forall2

namespace BoundMarkup

open Markup (Attribute Element QName)

/-! ## §1. Kept and refused. -/

/-- The property is set by the attribute: it has its name, its place, and its value, a binding
being bound in the data context. -/
structure ControlProperty.Shows (s : ControlScope) (context : DataContext) (a : Attribute)
    (p : ControlProperty) : Prop where
  name : p.name = a.name.text
  span : p.span = a.span
  value : p.value = attributeValue s context a

/-- The error is about the attribute, and at its place. -/
structure NodeError.Refuses (tag : String) (a : Attribute) (x : NodeError) : Prop where
  fault : x.fault = .duplicateProperty a.name.text tag ∨ x.fault = .unknownProperty tag a.name.text
  span : x.span = a.span

/-- The data context of the value of an attribute: the outer one for the attribute that leads
from there to the inner one. -/
def valueContext (outer inner : DataContext) (a : Attribute) : DataContext :=
  if isContextAttribute a then outer else inner

/-- The attribute switches the data context as one before it does, but is spelled otherwise than
all of those before it. -/
def Respells (before : List Attribute) (a : Attribute) : Prop :=
  isContextAttribute a = true ∧ (∃ b ∈ before, isContextAttribute b = true)
    ∧ ∀ b ∈ before, b.name.text ≠ a.name.text

instance (before : List Attribute) (a : Attribute) : Decidable (Respells before a) :=
  inferInstanceAs (Decidable (_ ∧ _ ∧ _))

/-- The attributes that switch the data context once more, in a spelling of their own. -/
def respelled (before : List Attribute) : List Attribute → List Attribute
  | [] => []
  | a :: as => (if Respells before a then [a] else []) ++ respelled (before ++ [a]) as

/-- **The attributes of an element are accounted for**, each of them once, but for those that
are lost: the others are kept as the properties of the control, or refused with its errors
about attributes. -/
def Control.Accounts (s : ControlScope) (outer : DataContext) (e : Element)
    (lost : List Attribute) (c : Control) : Prop :=
  ∃ kept refused, e.attributes.Perm (kept ++ refused ++ lost)
    ∧ List.Forall₂ (fun a p => p.Shows s (valueContext outer c.context a) a) kept c.properties
    ∧ List.Forall₂ (fun a x => x.Refuses c.tag a) refused
        (NodeError.about .property c.errors)

/-! ## §2. Names that switch the data context. -/

/-- A name without a name space is written as it is. -/
theorem text_of_isNone {q : QName} (h : q.space.isNone = true) : q.text = q.name := by
  rw [Option.isNone_iff_eq_none] at h
  unfold QName.text
  rw [h]

/-- A name with a name space has a colon in it. -/
theorem colon_mem_text {q : QName} (h : q.space.isNone = false) : ':' ∈ q.text.toList := by
  cases hspace : q.space with
  | none =>
      rw [hspace] at h
      cases h
  | some space =>
      rw [show q = ⟨some space, q.name⟩ by rw [← hspace], QName.toList_text]
      exact List.mem_append_right _ List.mem_cons_self

/-- Only the name as it is written counts. -/
theorem isContextAttribute_iff {a : Attribute} : isContextAttribute a = true
    ↔ Text.sameIgnoringCase a.name.text Controls.dataContextProperty = true := by
  unfold isContextAttribute
  rw [Bool.and_eq_true]
  constructor
  · rintro ⟨hspace, hname⟩
    rwa [text_of_isNone hspace]
  · intro hname
    have hspace : a.name.space.isNone = true := by
      by_contra hspace
      have hfold := List.mem_map_of_mem (f := Char.toLower)
        (colon_mem_text (Bool.not_eq_true _ ▸ hspace))
      rw [Text.sameIgnoringCase_iff.1 hname] at hfold
      exact absurd hfold (by decide)
    rw [text_of_isNone hspace] at hname
    exact ⟨hspace, hname⟩

/-- What is written like a name that switches the data context does so too. -/
theorem isContextAttribute_of_text_eq {a b : Attribute} (ha : isContextAttribute a = true)
    (h : b.name.text = a.name.text) : isContextAttribute b = true := by
  rw [isContextAttribute_iff] at ha ⊢
  rwa [h]

/-! ## §3. Roles. -/

namespace AttributeRole

variable {kind : ControlKind} {metadata : ControlMetadata} {seen : List String} {a : Attribute}

def isKept : AttributeRole → Bool
  | property _ => true
  | _ => false

def isRefused : AttributeRole → Bool
  | duplicate | unknown => true
  | _ => false

def isContext : AttributeRole → Bool
  | context => true
  | _ => false

/-- The attributes in roles of a kind. -/
def attributesIn (f : AttributeRole → Bool) (roles : List (Attribute × AttributeRole)) :
    List Attribute := (roles.filter (fun r => f r.2)).map Prod.fst

theorem map_fst_assign (kind : ControlKind) (metadata : ControlMetadata) :
    ∀ (seen : List String) (as : List Attribute),
      (assign kind metadata seen as).map Prod.fst = as
  | _, [] => rfl
  | seen, a :: as => by rw [assign, List.map_cons, map_fst_assign kind metadata _ as]

theorem isContext_of : (of kind metadata seen a).isContext = true
    ↔ isContextAttribute a = true ∧ a.name.text ∉ seen := by
  unfold of
  split
  · rename_i hseen
    simp [isContext, hseen]
  · rename_i hseen
    split
    · rename_i hcontext
      simp [isContext, hcontext, hseen]
    · rename_i hcontext
      dsimp only
      split <;> split <;> simp [isContext, hcontext]

/-- What is kept by its role does not switch the data context, and is taken for what the metadata
says of its name. -/
theorem eq_of_property {capability : Option Capability}
    (h : of kind metadata seen a = .property capability) : isContextAttribute a = false
      ∧ capability = if a.name.space.isNone then metadata.property? a.name.name else none := by
  unfold of at h
  split at h
  · cases h
  · split at h
    · cases h
    · rename_i hcontext
      refine ⟨Bool.eq_false_iff.2 hcontext, ?_⟩
      dsimp only at h
      generalize (if a.name.space.isNone then metadata.property? a.name.name else none)
        = found at h ⊢
      split at h
      · cases h
      · exact (AttributeRole.property.inj h).symm

/-- Where the properties that are kept by their roles come from. -/
theorem exists_of_mem_property? {s : ControlScope} {context : DataContext} {p : ControlProperty} :
    ∀ {as : List Attribute} {seen : List String},
      p ∈ (assign kind metadata seen as).filterMap (property? s context) →
      ∃ a ∈ as, isContextAttribute a = false ∧ p = attributeProperty s context
        (if a.name.space.isNone then metadata.property? a.name.name else none) a
  | [], _, h => absurd h List.not_mem_nil
  | a :: as, seen, h => by
      rw [assign, List.filterMap_cons] at h
      cases hrole : of kind metadata seen a with
      | property capability =>
          obtain ⟨hcontext, hcapability⟩ := eq_of_property hrole
          rw [hrole] at h
          rcases List.mem_cons.1 h with rfl | h
          · exact ⟨a, List.mem_cons_self, hcontext, by rw [← hcapability]⟩
          · obtain ⟨b, hb, hrest⟩ := exists_of_mem_property? h
            exact ⟨b, List.mem_cons_of_mem _ hb, hrest⟩
      | duplicate | unknown | context =>
          rw [hrole] at h
          obtain ⟨b, hb, hrest⟩ := exists_of_mem_property? h
          exact ⟨b, List.mem_cons_of_mem _ hb, hrest⟩

/-- An attribute has one role, and is kept or refused by it, or left to the data context. -/
theorem perm_attributesIn (roles : List (Attribute × AttributeRole)) :
    (roles.map Prod.fst).Perm (attributesIn isKept roles ++ attributesIn isRefused roles
      ++ attributesIn isContext roles) := by
  induction roles with
  | nil => exact .refl _
  | cons r roles ih =>
      obtain ⟨a, role⟩ := r
      have hcons := ih.cons a
      cases role with
      | property capability => exact hcons
      | duplicate | unknown => exact hcons.trans (List.perm_middle.append_right _).symm
      | context => exact hcons.trans List.perm_middle.symm

/-- The properties are those of the attributes that are kept. -/
theorem forall₂_property? (s : ControlScope) (outer inner : DataContext) (kind : ControlKind)
    (metadata : ControlMetadata) : ∀ (seen : List String) (as : List Attribute),
    List.Forall₂ (fun a p => p.Shows s (valueContext outer inner a) a)
      (attributesIn isKept (assign kind metadata seen as))
      ((assign kind metadata seen as).filterMap (property? s inner))
  | _, [] => .nil
  | seen, a :: as => by
      have ih := forall₂_property? s outer inner kind metadata (a.name.text :: seen) as
      unfold attributesIn
      rw [assign, List.filter_cons, List.filterMap_cons]
      cases hrole : of kind metadata seen a with
      | property capability =>
          refine .cons ⟨rfl, rfl, ?_⟩ ih
          show attributeValue s inner a = attributeValue s (valueContext outer inner a) a
          unfold valueContext
          rw [(eq_of_property hrole).1, if_neg Bool.false_ne_true]
      | duplicate | unknown | context => exact ih

/-- The errors are about the attributes that are refused. -/
theorem forall₂_error? (tag : String) (roles : List (Attribute × AttributeRole)) :
    List.Forall₂ (fun a x => x.Refuses tag a) (attributesIn isRefused roles)
      (roles.filterMap (error? tag)) := by
  induction roles with
  | nil => exact .nil
  | cons r roles ih =>
      obtain ⟨a, role⟩ := r
      cases role with
      | duplicate => exact .cons ⟨.inl rfl, rfl⟩ ih
      | unknown => exact .cons ⟨.inr rfl, rfl⟩ ih
      | property _ | context => exact ih

/-- **Of the attributes that are left to the data context**, all but the first one of the element
are spelled anew. -/
theorem attributesIn_isContext (kind : ControlKind) (metadata : ControlMetadata) :
    ∀ (as before : List Attribute) (seen : List String),
      (∀ t, t ∈ seen ↔ t ∈ before.map (fun b => b.name.text)) →
      attributesIn isContext (assign kind metadata seen as)
        = (if before.any isContextAttribute then [] else (as.find? isContextAttribute).toList)
          ++ respelled before as
  | [], before, _, _ => by
      unfold attributesIn
      rw [assign, respelled, List.find?_nil]
      cases before.any isContextAttribute <;> rfl
  | a :: as, before, seen, hseen => by
      have ih := attributesIn_isContext kind metadata as (before ++ [a]) (a.name.text :: seen)
        fun t => by
          rw [List.map_append, List.mem_append, List.mem_cons, hseen, List.map_singleton,
            List.mem_singleton, or_comm]
      have hcons : attributesIn isContext (assign kind metadata seen (a :: as))
          = (if (of kind metadata seen a).isContext then [a] else [])
            ++ attributesIn isContext (assign kind metadata (a.name.text :: seen) as) := by
        unfold attributesIn
        rw [assign, List.filter_cons]
        dsimp only
        split <;> rfl
      rw [hcons, ih, respelled, List.any_append, List.any_cons, List.any_nil, Bool.or_false,
        List.find?_cons]
      cases hcontext : isContextAttribute a with
      | false =>
          -- An attribute of another name changes nothing.
          rw [if_neg (fun h => Bool.false_ne_true (hcontext.symm.trans (isContext_of.1 h).1)),
            if_neg (fun h : Respells before a => Bool.false_ne_true (hcontext.symm.trans h.1)),
            Bool.or_false]
          rfl
      | true =>
          rw [Bool.or_true, if_pos rfl]
          cases hany : before.any isContextAttribute with
          | false =>
              -- The first one of the element: nothing of its name was before it.
              rw [List.any_eq_false] at hany
              have hnew : a.name.text ∉ seen := fun hmem => by
                obtain ⟨b, hb, htext⟩ := List.mem_map.1 ((hseen _).1 hmem)
                exact hany b hb (isContextAttribute_of_text_eq hcontext htext)
              rw [if_pos (isContext_of.2 ⟨hcontext, hnew⟩), if_neg fun h : Respells before a => by
                obtain ⟨-, ⟨b, hb, hb'⟩, -⟩ := h
                exact hany b hb hb']
              rfl
          | true =>
              -- A later one: left to the context just if it is spelled anew.
              have hiff : (of kind metadata seen a).isContext = true ↔ Respells before a := by
                rw [isContext_of, hseen, List.mem_map]
                constructor
                · rintro ⟨_, hnew⟩
                  exact ⟨hcontext, List.any_eq_true.1 hany, fun b hb htext => hnew ⟨b, hb, htext⟩⟩
                · rintro ⟨_, _, hnew⟩
                  exact ⟨hcontext, fun ⟨b, hb, htext⟩ => hnew b hb htext⟩
              rw [if_pos rfl, if_congr hiff rfl rfl]
              rfl

end AttributeRole

/-! ## §4. Elements. -/

section Elements

variable {s : ControlScope} {outer : DataContext} {e : Element} {nodes : List Markup.Node}
  {children : List ControlNode}

/-- The property that leads to the inner data context shows the attribute that does. -/
theorem forall₂_contextProperty? (s : ControlScope) (outer inner : DataContext)
    (metadata : ControlMetadata) (e : Element) :
    List.Forall₂ (fun a p => p.Shows s (valueContext outer inner a) a)
      (e.attributes.find? isContextAttribute).toList
      (contextProperty? s outer metadata e).toList := by
  unfold contextProperty?
  rw [show e.attribute? Controls.dataContextProperty = e.attributes.find? isContextAttribute from
    rfl]
  cases hfind : e.attributes.find? isContextAttribute with
  | none => exact .nil
  | some a =>
      refine .cons ⟨rfl, rfl, ?_⟩ .nil
      show attributeValue s outer a = attributeValue s (valueContext outer inner a) a
      unfold valueContext
      rw [if_pos (List.find?_some hfind)]

/-- The property switches the data context. -/
def ControlProperty.switchesContext (p : ControlProperty) : Bool :=
  Text.sameIgnoringCase p.name Controls.dataContextProperty

/-- The property that leads to the inner data context shows an attribute that switches it. -/
theorem exists_of_mem_contextProperty? {s : ControlScope} {outer : DataContext}
    {metadata : ControlMetadata} {e : Element} {p : ControlProperty}
    (h : p ∈ (contextProperty? s outer metadata e).toList) :
    ∃ a ∈ e.attributes, isContextAttribute a = true ∧ p.span = a.span
      ∧ p.switchesContext = true := by
  rw [Option.mem_toList] at h
  obtain ⟨a, ha, rfl⟩ := Option.map_eq_some_iff.1 h
  have hcontext : isContextAttribute a = true := List.find?_some ha
  exact ⟨a, List.mem_of_find?_eq_some ha, hcontext, rfl, isContextAttribute_iff.1 hcontext⟩

/-- **All attributes but those that are spelled anew** are accounted for. -/
theorem accounts_element (s : ControlScope) (outer : DataContext) (e : Element)
    (nodes : List Markup.Node) (children : List ControlNode) :
    (withContent (elementControl s outer e) nodes children).Accounts s outer e
      (respelled [] e.attributes) := by
  obtain ⟨kind, metadata, _, hproperties, -, herrors⟩ := element_parts s outer e nodes children
  have hcontext := AttributeRole.attributesIn_isContext kind metadata e.attributes [] []
    fun t => Iff.rfl
  have hperm := AttributeRole.perm_attributesIn
    (AttributeRole.assign kind metadata [] e.attributes)
  rw [AttributeRole.map_fst_assign, hcontext] at hperm
  refine ⟨(e.attributes.find? isContextAttribute).toList
    ++ AttributeRole.attributesIn AttributeRole.isKept
        (AttributeRole.assign kind metadata [] e.attributes),
    AttributeRole.attributesIn AttributeRole.isRefused
      (AttributeRole.assign kind metadata [] e.attributes), ?_, ?_, ?_⟩
  · -- The attribute that leads to the inner context is kept with the others.
    refine hperm.trans ?_
    rw [← List.append_assoc, List.append_assoc (Option.toList _)]
    exact List.perm_append_comm.append_right _
  · show List.Forall₂ _ _ (elementControl s outer e).properties
    rw [hproperties]
    exact List.rel_append (forall₂_contextProperty? s outer _ metadata e)
      (AttributeRole.forall₂_property? s outer _ kind metadata [] e.attributes)
  · rw [herrors .property]
    exact AttributeRole.forall₂_error? e.name.text _

/-- An account settles how many attributes are lost. -/
theorem Control.Accounts.length {c : Control} {lost : List Attribute}
    (h : c.Accounts s outer e lost) :
    e.attributes.length
      = c.properties.length + (NodeError.about .property c.errors).length + lost.length := by
  obtain ⟨kept, refused, hperm, hkept, hrefused⟩ := h
  rw [hperm.length_eq, List.length_append, List.length_append, hkept.length_eq,
    hrefused.length_eq]

/-- **Nothing is lost** just if nothing is spelled anew. -/
theorem accounts_element_iff :
    (withContent (elementControl s outer e) nodes children).Accounts s outer e []
      ↔ respelled [] e.attributes = [] := by
  have haccounts := accounts_element s outer e nodes children
  constructor
  · intro h
    have hall := h.length
    have hlost := haccounts.length
    rw [List.length_nil] at hall
    exact List.length_eq_zero_iff.1 (by omega)
  · intro h
    rwa [h] at haccounts

/-! ## §5. Attributes by their places. -/

/-- The places of the attributes are apart from each other, from the element, and from the end
tags in it. -/
structure Markup.Element.Apart (e : Element) (nodes : List Markup.Node) : Prop where
  attributes : (e.attributes.map (fun a => a.span)).Nodup
  tag : ∀ a ∈ e.attributes, a.span ≠ e.span
  stray : ∀ a ∈ e.attributes, ∀ tag, Markup.Node.stray tag ∈ nodes → a.span ≠ tag.span

/-- At the place of the attribute there is one property that shows it and no error, or one error
that refuses it and no property. -/
def Control.AccountsFor (s : ControlScope) (outer : DataContext) (c : Control) (a : Attribute) :
    Prop :=
  (∃ p, c.properties.filter (fun q => q.span = a.span) = [p]
      ∧ p.Shows s (valueContext outer c.context a) a
      ∧ c.errors.filter (fun x => x.span = a.span) = [])
    ∨ ∃ x, c.errors.filter (fun y => y.span = a.span) = [x] ∧ x.Refuses c.tag a
      ∧ c.properties.filter (fun q => q.span = a.span) = []

section Places

variable {α β : Type} {R : α → β → Prop} {f : α → Span} {g : β → Span} {as : List α}
  {bs : List β}

/-- What is related to things at other places is at other places. -/
theorem filter_span_eq_nil (h : List.Forall₂ R as bs) (hR : ∀ a b, R a b → g b = f a)
    {span : Span} (hspan : span ∉ as.map f) : bs.filter (fun b => g b = span) = [] := by
  induction h with
  | nil => rfl
  | cons hab _ ih =>
      rw [List.map_cons, List.mem_cons, not_or] at hspan
      rw [List.filter_cons, if_neg, ih hspan.2]
      rw [decide_eq_true_iff, hR _ _ hab]
      exact Ne.symm hspan.1

/-- Of things at different places each has its own at its place. -/
theorem exists_filter_span (h : List.Forall₂ R as bs) (hR : ∀ a b, R a b → g b = f a)
    (hnodup : (as.map f).Nodup) {a : α} (ha : a ∈ as) :
    ∃ b, bs.filter (fun b => g b = f a) = [b] ∧ R a b := by
  induction h with
  | nil => cases ha
  | @cons first b _ _ hab hrest ih =>
      rw [List.map_cons, List.nodup_cons] at hnodup
      rw [List.filter_cons]
      rcases List.mem_cons.1 ha with rfl | ha
      · refine ⟨b, ?_, hab⟩
        rw [if_pos (decide_eq_true (hR _ _ hab)), filter_span_eq_nil hrest hR hnodup.1]
      · obtain ⟨b', hb', hab'⟩ := ih hnodup.2 ha
        refine ⟨b', ?_, hab'⟩
        rw [if_neg, hb']
        rw [decide_eq_true_iff, hR _ _ hab]
        exact fun heq => hnodup.1 (heq ▸ List.mem_map_of_mem ha)

end Places

/-- The errors at the place of an attribute are errors about attributes. -/
theorem filter_span_errors (hapart : e.Apart nodes) {a : Attribute} (ha : a ∈ e.attributes) :
    (withContent (elementControl s outer e) nodes children).errors.filter
        (fun x => x.span = a.span)
      = (NodeError.about .property
          (withContent (elementControl s outer e) nodes children).errors).filter
        (fun x => x.span = a.span) := by
  obtain ⟨_, _, unknown, -, hunknown, herrors⟩ := element_parts s outer e nodes children
  unfold NodeError.about
  rw [List.filter_filter]
  refine List.filter_congr fun x hx => ?_
  have hmem := NodeError.mem_about hx
  rw [herrors] at hmem
  by_cases hspan : x.span = a.span
  · rw [decide_eq_true hspan, Bool.true_and]
    refine (decide_eq_true ?_).symm
    cases hsubject : x.fault.subject with
    | property => rfl
    | nesting =>
        rw [hsubject] at hmem
        rcases List.mem_append.1 hmem with hown | hstray
        · exact absurd (hspan.symm.trans (subject_of_mem_ownErrors hown).2) (hapart.tag a ha)
        · obtain ⟨n, hn, hx⟩ := List.mem_filterMap.1 hstray
          cases n <;> cases hx
          exact absurd hspan.symm (hapart.stray a ha _ hn)
    | tag =>
        rw [hsubject] at hmem
        exact absurd (hspan.symm.trans (hunknown x hmem)) (hapart.tag a ha)
    | content =>
        rw [hsubject] at hmem
        exact absurd (hspan.symm.trans (subject_of_mem_contentErrors hmem).2) (hapart.tag a ha)
    | placeholder =>
        rw [hsubject] at hmem
        cases hmem
  · rw [decide_eq_false hspan, Bool.false_and]

/-- Where the attribute is lost, there is nothing at all. -/
theorem filter_span_respelled (s : ControlScope) (outer : DataContext)
    (children : List ControlNode) (hapart : e.Apart nodes) {a : Attribute}
    (ha : a ∈ respelled [] e.attributes) :
    (withContent (elementControl s outer e) nodes children).properties.filter
        (fun p => p.span = a.span) = []
      ∧ (withContent (elementControl s outer e) nodes children).errors.filter
        (fun x => x.span = a.span) = [] := by
  obtain ⟨kept, refused, hperm, hkept, hrefused⟩ := accounts_element s outer e nodes children
  have hnodup := (hperm.map (fun a => a.span)).nodup_iff.1 hapart.attributes
  rw [List.map_append, List.map_append] at hnodup
  have hlost := (List.nodup_append.1 hnodup).2.2
  have hspan : a.span ∈ (respelled [] e.attributes).map (fun a => a.span) :=
    List.mem_map_of_mem ha
  rw [filter_span_errors hapart (hperm.mem_iff.2 (List.mem_append_right _ ha))]
  constructor
  · exact filter_span_eq_nil hkept (fun _ _ h => h.span)
      fun h => hlost _ (List.mem_append_left _ h) _ hspan rfl
  · exact filter_span_eq_nil hrefused (fun _ _ h => h.span)
      fun h => hlost _ (List.mem_append_right _ h) _ hspan rfl

/-- **At places apart**, an attribute is accounted for at its own just if it is not spelled
anew. -/
theorem accountsFor_iff (hapart : e.Apart nodes) {a : Attribute} (ha : a ∈ e.attributes) :
    (withContent (elementControl s outer e) nodes children).AccountsFor s outer a
      ↔ a ∉ respelled [] e.attributes := by
  constructor
  · intro h hmem
    obtain ⟨hproperties, herrors⟩ := filter_span_respelled s outer children hapart hmem
    rcases h with ⟨p, hp, -, -⟩ | ⟨x, hx, -, -⟩
    · exact List.cons_ne_nil _ _ (hp.symm.trans hproperties)
    · exact List.cons_ne_nil _ _ (hx.symm.trans herrors)
  · intro hmem
    obtain ⟨kept, refused, hperm, hkept, hrefused⟩ := accounts_element s outer e nodes children
    have hnodup := (hperm.map (fun a => a.span)).nodup_iff.1 hapart.attributes
    rw [List.map_append, List.map_append] at hnodup
    obtain ⟨hnodupKept, hnodupRefused, hapart'⟩ :=
      List.nodup_append.1 (List.nodup_append.1 hnodup).1
    have hspan {as : List Attribute} (h : a ∈ as) : a.span ∈ as.map (fun a => a.span) :=
      List.mem_map_of_mem h
    unfold Control.AccountsFor
    rw [filter_span_errors hapart ha]
    rcases List.mem_append.1 ((List.mem_append.1 (hperm.mem_iff.1 ha)).resolve_right hmem)
      with h | h
    · obtain ⟨p, hp, hshows⟩ := exists_filter_span hkept (fun _ _ h => h.span) hnodupKept h
      exact .inl ⟨p, hp, hshows, filter_span_eq_nil hrefused (fun _ _ h => h.span)
        fun h' => hapart' _ (hspan h) _ h' rfl⟩
    · obtain ⟨x, hx, hrefuses⟩ := exists_filter_span hrefused (fun _ _ h => h.span) hnodupRefused h
      exact .inr ⟨x, hx, hrefuses, filter_span_eq_nil hkept (fun _ _ h => h.span)
        fun h' => hapart' _ h' _ (hspan h) rfl⟩

end Elements

/-! ## §6. Elements of files. -/

namespace Markup

mutual

/-- The nodes of a tree with what is in them, parents first. -/
def Node.within : Node → List Node
  | .element head children => .element head children :: Node.withinAll children
  | .text s span => [.text s span]
  | .binding source => [.binding source]
  | .stray tag => [.stray tag]

/-- The nodes of a forest with what is in them, parents first. -/
def Node.withinAll : List Node → List Node
  | [] => []
  | n :: ns => n.within ++ Node.withinAll ns

end

mutual

/-- A node of a tree is listed in the tree with all that is in it. -/
theorem Node.preorder_sublist_of_mem {m : Node} :
    ∀ n : Node, m ∈ n.within → m.preorder.Sublist n.preorder
  | .element head children, hm => by
      rcases List.mem_cons.1 hm with rfl | hm
      · exact List.Sublist.refl _
      · exact (Node.preorder_sublist_of_mem_all children hm).cons _
  | .text _ _, hm => by rw [List.mem_singleton.1 hm]
  | .binding _, hm => by rw [List.mem_singleton.1 hm]
  | .stray _, hm => by rw [List.mem_singleton.1 hm]

theorem Node.preorder_sublist_of_mem_all {m : Node} :
    ∀ ns : List Node, m ∈ Node.withinAll ns → m.preorder.Sublist (Node.preorderOf ns)
  | [], hm => absurd hm List.not_mem_nil
  | n :: ns, hm => by
      rcases List.mem_append.1 hm with hm | hm
      · exact (Node.preorder_sublist_of_mem n hm).trans (List.sublist_append_left _ _)
      · exact (Node.preorder_sublist_of_mem_all ns hm).trans (List.sublist_append_right _ _)

end

theorem Node.stray_mem_preorderOf {tag : EndTag} {ns : List Node} (h : Node.stray tag ∈ ns) :
    Node.stray tag ∈ Node.preorderOf ns := by
  induction ns with
  | nil => cases h
  | cons n ns ih =>
      rcases List.mem_cons.1 h with rfl | h
      · exact List.mem_cons_self
      · exact List.mem_append_right _ (ih h)

end Markup

/-- **In a file the places are apart**, in every element. -/
theorem Compiler.document_apart {content : String} {d : Markup.Document} {e : Element}
    {nodes : List Markup.Node} (h : Compiler.document content = .ok d)
    (hmem : Markup.Node.element e nodes ∈ Markup.Node.withinAll d.nodes) : e.Apart nodes := by
  have hsublist : (Markup.tagMarks e.name e.attributes e.span
      ++ (Markup.Node.preorderOf nodes).flatMap Markup.Node.marks).Sublist d.marks :=
    (Markup.Node.preorder_sublist_of_mem_all d.nodes hmem).flatMap Markup.Node.marks
  have hordered := (Compiler.document_marks h).1.sublist hsublist
  obtain ⟨htag, -, hinner⟩ := List.pairwise_append.1 hordered
  obtain ⟨hhead, hattributes⟩ := List.pairwise_cons.1 htag
  refine ⟨?_, fun a ha => ?_, fun a ha tag htag => ?_⟩
  · exact List.pairwise_map.2 ((List.pairwise_map.1 hattributes).imp fun hbefore => hbefore.ne)
  · exact (hhead _ (List.mem_map_of_mem ha)).ne.symm
  · have hstray : tag.mark ∈ (Markup.Node.preorderOf nodes).flatMap Markup.Node.marks :=
      List.mem_flatMap.2 ⟨_, Markup.Node.stray_mem_preorderOf htag, List.mem_singleton_self _⟩
    exact (hinner _ (List.mem_cons_of_mem _ (List.mem_map_of_mem ha)) _ hstray).ne

/-- **What becomes of the attributes of an element.**  All of them are accounted for but those
that switch the data context again in a spelling of their own, and nothing is lost just if there
are none.  Where the places are apart, as in every file, each attribute is accounted for at its
own place, just if it is not one of these. -/
theorem resolveNode_accounts (s : ControlScope) (outer : DataContext) (e : Element)
    (nodes : List Markup.Node) :
    ∃ c children, resolveNode s outer (.element e nodes) = some (.control c children)
      ∧ c.Accounts s outer e (respelled [] e.attributes)
      ∧ (c.Accounts s outer e [] ↔ respelled [] e.attributes = [])
      ∧ (e.Apart nodes →
        ∀ a ∈ e.attributes, c.AccountsFor s outer a ↔ a ∉ respelled [] e.attributes) :=
  ⟨_, _, by rw [resolveNode], accounts_element s outer e nodes _, accounts_element_iff,
    fun hapart _ ha => accountsFor_iff hapart ha⟩

/-- An element with two attributes that are written without bindings. -/
def twoTexts (first second : String) : Element :=
  ⟨⟨none, "p"⟩, [⟨⟨none, first⟩, .text "a", ⟨1, 4, 15⟩⟩, ⟨⟨none, second⟩, .text "b", ⟨1, 20, 15⟩⟩],
    false, false, ⟨1, 1, 35⟩⟩

theorem apart_twoTexts (first second : String) : (twoTexts first second).Apart [] where
  attributes := (by decide : ([⟨1, 4, 15⟩, ⟨1, 20, 15⟩] : List Span).Nodup)
  tag a ha := by
    rcases List.mem_pair.1 ha with rfl | rfl
    · exact (by decide : (⟨1, 4, 15⟩ : Span) ≠ ⟨1, 1, 35⟩)
    · exact (by decide : (⟨1, 20, 15⟩ : Span) ≠ ⟨1, 1, 35⟩)
  stray := nofun

/-- Where the only control known is the root of a view. -/
def plainScope : ControlScope :=
  ⟨Registry.empty.insert (Controls.container Controls.view), .default, fun _ => none⟩

/-- A title given twice is kept once and refused once. -/
theorem resolveNode_accounts_titles :
    ∃ c children, resolveNode plainScope (.ofRoot .object [])
        (.element (twoTexts "title" "title") []) = some (.control c children)
      ∧ c.Accounts plainScope (.ofRoot .object []) (twoTexts "title" "title") []
      ∧ ∀ a ∈ (twoTexts "title" "title").attributes,
        c.AccountsFor plainScope (.ofRoot .object []) a := by
  obtain ⟨c, children, hnode, -, haccounts, hplaces⟩ :=
    resolveNode_accounts plainScope (.ofRoot .object []) (twoTexts "title" "title") []
  have hnone : respelled [] (twoTexts "title" "title").attributes = [] := by decide
  refine ⟨c, children, hnode, haccounts.2 hnone, fun a ha => ?_⟩
  rw [hplaces (apart_twoTexts _ _) a ha, hnone]
  exact List.not_mem_nil

/-- **A data context given twice in two spellings**: at the place of the second attribute there is
neither a property of the control nor an error. -/
theorem exists_attribute_lost :
    ∃ c children a, resolveNode plainScope (.ofRoot .object [])
        (.element (twoTexts "DataContext" "datacontext") []) = some (.control c children)
      ∧ a ∈ (twoTexts "DataContext" "datacontext").attributes
      ∧ c.properties.filter (fun p => p.span = a.span) = []
      ∧ c.errors.filter (fun x => x.span = a.span) = [] := by
  have hlost : respelled [] (twoTexts "DataContext" "datacontext").attributes
      = [⟨⟨none, "datacontext"⟩, .text "b", ⟨1, 20, 15⟩⟩] := by decide
  refine ⟨_, _, ⟨⟨none, "datacontext"⟩, .text "b", ⟨1, 20, 15⟩⟩, by rw [resolveNode], ?_, ?_⟩
  · exact List.mem_cons_of_mem _ List.mem_cons_self
  · refine filter_span_respelled _ _ _ (apart_twoTexts _ _) ?_
    rw [hlost]
    exact List.mem_cons_self

end BoundMarkup
