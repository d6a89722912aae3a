/-
  BoundMarkup.Proofs.Markup.Conservation
  ──────────────────────────────────────
  **NO TOKEN IS LOST.**

  Tokens are looked at one by one, each with the elements that are open when it
  comes in (`Moment`).  An end tag ends the innermost open element of its name,
  and with it all that was opened since.  From this alone it is known which node
  each token adds (`Moment.node?`), whatever the tokens are: the nodes of the
  document, parents first, are these nodes in the order of the tokens
  (`ofTokens_conserves`).

  The induction is on the tokens still to come.  What is open has no node yet, so
  it carries a view of the tree under construction (`Builder.preorder`) in which
  the open elements stand already as they will be once they are closed.
-/
import BoundMarkup.Proofs.Markup.Nesting
import Mathlib.Data.List.Forall2

namespace BoundMarkup.Markup

/-! ## §1. Preorder. -/

mutual

/-- The nodes of a tree without their content, parents first. -/
def Node.preorder : Node → List Node
  | .element head children => .element head [] :: Node.preorderOf children
  | .text s span => [.text s span]
  | .binding source => [.binding source]
  | .stray tag => [.stray tag]

/-- The nodes of a forest without their content, parents first. -/
def Node.preorderOf : List Node → List Node
  | [] => []
  | n :: ns => n.preorder ++ Node.preorderOf ns

end

theorem Node.preorderOf_append (ns ms : List Node) :
    Node.preorderOf (ns ++ ms) = Node.preorderOf ns ++ Node.preorderOf ms := by
  induction ns with
  | nil => rfl
  | cons n ns ih => rw [List.cons_append, preorderOf, preorderOf, ih, List.append_assoc]

theorem Node.preorderOf_reverse_cons (n : Node) (ns : List Node) :
    Node.preorderOf (n :: ns).reverse = Node.preorderOf ns.reverse ++ n.preorder := by
  rw [List.reverse_cons, preorderOf_append, preorderOf, preorderOf, List.append_nil]

/-! ## §2. What is open when a token comes in. -/

/-- The element has no end tag: it closes itself, or is a void element. -/
def StartTag.isSingle (tag : StartTag) : Bool := tag.selfClosing || tag.name.isVoid

/-- The element of a start tag, given whether an end tag ends it. -/
def StartTag.element (tag : StartTag) (ended : Bool) : Element :=
  { Element.ofTag tag with unclosed := !tag.isSingle && !ended }

/-- An open element: its start tag, and which of the tokens that is. -/
structure Opening where
  place : Nat
  tag : StartTag

/-- The open element that an end tag ends, the innermost one of its name.  The end tag of a
void element ends nothing. -/
def EndTag.ends? (close : EndTag) (opened : List Opening) : Option Opening :=
  if close.name.isVoid then none else opened.find? (fun o => o.tag.name.closedBy close.name)

/-- A token as it comes in: which one it is, and what is open then, innermost first. -/
structure Moment where
  opened : List Opening
  place : Nat
  token : Token

namespace Moment

/-- The element that the token ends. -/
def ended? (m : Moment) : Option Opening :=
  match m.token with
  | .endTag close => close.ends? m.opened
  | _ => none

/-- What is open after the token: an element is ended with all that was opened since. -/
def after (m : Moment) : List Opening :=
  match m.token with
  | .startTag tag => if tag.isSingle then m.opened else ⟨m.place, tag⟩ :: m.opened
  | _ =>
      match m.ended? with
      | some o => m.opened.filter (fun p => decide (p.place < o.place))
      | none => m.opened

/-- The node that the token adds, given which elements are ended. -/
def node? (ended : Nat → Bool) (m : Moment) : Option Node :=
  match m.token with
  | .directive _ => none
  | .text s span => some (.text s span)
  | .binding source => some (.binding source)
  | .startTag tag => some (.element (tag.element (ended m.place)) [])
  | .endTag close =>
      if close.name.isVoid || m.ended?.isSome then none else some (.stray close)

end Moment

/-- The tokens one by one, given what is open before the first of them. -/
def moments (opened : List Opening) (place : Nat) : List Token → List Moment
  | [] => []
  | token :: tokens =>
      ⟨opened, place, token⟩ :: moments (Moment.after ⟨opened, place, token⟩) (place + 1) tokens

/-- One of the moments ends the element at `place`. -/
def endsAt (ms : List Moment) (place : Nat) : Bool :=
  ms.any (fun m => m.ended?.any (fun o => o.place == place))

def Token.directive? : Token → Option Directive
  | .directive d => some d
  | _ => none

/-! ### Places. -/

/-- What is open stands in the order of its places, all before the tokens to come. -/
structure Placed (opened : List Opening) (place : Nat) : Prop where
  descending : opened.Pairwise (fun o p => p.place < o.place)
  before : ∀ o ∈ opened, o.place < place

theorem endsAt_iff {ms : List Moment} {place : Nat} :
    endsAt ms place = true ↔ ∃ m ∈ ms, ∃ o, m.ended? = some o ∧ o.place = place := by
  unfold endsAt
  simp [List.any_eq_true, Option.any_eq_true]

namespace Moment

variable {m : Moment} {o : Opening}

/-- Only what is open can be ended. -/
theorem mem_of_ended? (h : m.ended? = some o) : o ∈ m.opened := by
  unfold ended? at h
  split at h
  · unfold EndTag.ends? at h
    split at h
    · cases h
    · exact List.mem_of_find?_eq_some h
  · cases h

theorem after_of_ended? (h : m.ended? = some o) :
    m.after = m.opened.filter (fun p => decide (p.place < o.place)) := by
  unfold after
  split
  · rename_i tag htag
    unfold ended? at h
    rw [htag] at h
    cases h
  · rw [h]

/-- A token leaves nothing open but what was open, and itself if it is a start tag. -/
theorem mem_after (h : o ∈ m.after) : o ∈ m.opened ∨ o.place = m.place := by
  unfold after at h
  split at h
  · split at h
    · exact .inl h
    · rcases List.mem_cons.1 h with rfl | h
      · exact .inr rfl
      · exact .inl h
  · split at h
    · exact .inl (List.mem_filter.1 h).1
    · exact .inl h

theorem placed_after (h : Placed m.opened m.place) : Placed m.after (m.place + 1) := by
  refine ⟨?_, fun o ho => ?_⟩
  · unfold after
    split
    · split
      · exact h.descending
      · exact List.pairwise_cons.2 ⟨h.before, h.descending⟩
    · split
      · exact h.descending.filter _
      · exact h.descending
  · rcases mem_after ho with ho | ho
    · exact Nat.lt_succ_of_lt (h.before o ho)
    · exact ho ▸ Nat.lt_succ_self _

end Moment

/-- Later tokens end what is open, or what they open themselves. -/
theorem mem_of_ended?_of_mem_moments {o : Opening} : ∀ {tokens : List Token}
    {opened : List Opening} {place : Nat} {m : Moment}, m ∈ moments opened place tokens →
      m.ended? = some o → o ∈ opened ∨ place ≤ o.place
  | token :: tokens, opened, place, m, hm, ho => by
      rcases List.mem_cons.1 hm with rfl | hm
      · exact .inl (Moment.mem_of_ended? ho)
      · rcases mem_of_ended?_of_mem_moments hm ho with hafter | hplace
        · exact (Moment.mem_after hafter).imp_right fun h => Nat.le_of_eq h.symm
        · exact .inr (Nat.le_of_succ_le hplace)

/-- The moments to come end just the elements that are said to be ended, of those that are
open or will be. -/
def Foretold (ended : Nat → Bool) (opened : List Opening) (place : Nat) (tokens : List Token) :
    Prop :=
  ∀ p, (p ∈ opened.map Opening.place ∨ place ≤ p) →
    ended p = endsAt (moments opened place tokens) p

namespace Foretold

variable {ended : Nat → Bool} {opened : List Opening} {place : Nat} {token : Token}
  {tokens : List Token}

/-- What is still open after the token is not ended by it. -/
theorem next (h : Foretold ended opened place (token :: tokens)) (hplaced : Placed opened place) :
    Foretold ended (Moment.after ⟨opened, place, token⟩) (place + 1) tokens := by
  intro p hp
  have hopen : p ∈ opened.map Opening.place ∨ place ≤ p := by
    rcases hp with hp | hp
    · obtain ⟨o, ho, rfl⟩ := List.mem_map.1 hp
      exact (Moment.mem_after ho).imp (fun h => List.mem_map_of_mem h) fun h => Nat.le_of_eq h.symm
    · exact .inr (Nat.le_of_succ_le hp)
  have hother : (Moment.ended? ⟨opened, place, token⟩).any (fun o => o.place == p) = false := by
    rw [Option.any_eq_false]
    intro o ho
    rw [beq_eq_false_iff_ne]
    rintro rfl
    rcases hp with hp | hp
    · rw [Moment.after_of_ended? ho] at hp
      obtain ⟨o', ho', heq⟩ := List.mem_map.1 hp
      exact Nat.ne_of_lt (of_decide_eq_true (List.mem_filter.1 ho').2) heq
    · have hbefore := hplaced.before o (Moment.mem_of_ended? ho)
      omega
  rw [h p hopen, moments, endsAt, List.any_cons, hother, Bool.false_or]
  rfl

/-- What is ended with an element around it has no end tag of its own. -/
theorem inner (h : Foretold ended opened place (token :: tokens)) (hplaced : Placed opened place)
    {o p : Opening} (ho : Moment.ended? ⟨opened, place, token⟩ = some o) (hp : p ∈ opened)
    (hinner : o.place < p.place) : ended p.place = false := by
  rw [h p.place (.inl (List.mem_map_of_mem hp)), ← Bool.not_eq_true, endsAt_iff]
  rintro ⟨m, hm, o', ho', heq⟩
  rcases List.mem_cons.1 hm with rfl | hm
  · rw [ho] at ho'
    cases ho'
    omega
  · rcases mem_of_ended?_of_mem_moments hm ho' with hafter | hplace
    · rw [Moment.after_of_ended? ho] at hafter
      have hbelow := of_decide_eq_true (List.mem_filter.1 hafter).2
      omega
    · have hbefore := hplaced.before p hp
      omega

/-- What the token ends is ended. -/
theorem outer (h : Foretold ended opened place (token :: tokens)) {o : Opening}
    (ho : Moment.ended? ⟨opened, place, token⟩ = some o) : ended o.place = true := by
  rw [h o.place (.inl (List.mem_map_of_mem (Moment.mem_of_ended? ho))), endsAt_iff]
  exact ⟨_, List.mem_cons_self, o, ho, rfl⟩

end Foretold

/-! ## §3. The tree under construction. -/

namespace Builder

/-- The nodes inside the open elements, outermost first, each element as it will be. -/
def pending (ended : Nat → Bool) : List OpenElement → List Opening → List Node
  | o :: os, p :: ps =>
      pending ended os ps
        ++ .element (p.tag.element (ended p.place)) [] :: Node.preorderOf o.content.reverse
  | _, _ => []

/-- The nodes so far, parents first, each open element as it will be. -/
def preorder (ended : Nat → Bool) (b : Builder) (opened : List Opening) : List Node :=
  Node.preorderOf b.outer.reverse ++ pending ended b.opened opened

/-- The open elements of the tree are those of the start tags. -/
def Parallel (b : Builder) (opened : List Opening) : Prop :=
  List.Forall₂ (fun o p => o.head = .ofTag p.tag ∧ p.tag.isSingle = false) b.opened opened

variable {ended : Nat → Bool} {b : Builder} {opened : List Opening}

/-- A new node comes last. -/
theorem preorder_append (h : b.Parallel opened) (n : Node) :
    preorder ended (b.append n) opened = preorder ended b opened ++ n.preorder := by
  obtain ⟨ds, os, outer⟩ := b
  cases h with
  | nil =>
      show Node.preorderOf (n :: outer).reverse ++ [] = _
      rw [List.append_nil, Node.preorderOf_reverse_cons]
      exact congrArg (· ++ n.preorder) (List.append_nil _).symm
  | @cons o p os ps ho hos =>
      show Node.preorderOf outer.reverse ++ (pending ended os ps
          ++ .element (p.tag.element (ended p.place)) [] :: Node.preorderOf (n :: o.content).reverse)
        = Node.preorderOf outer.reverse ++ (pending ended os ps
          ++ .element (p.tag.element (ended p.place)) [] :: Node.preorderOf o.content.reverse)
          ++ n.preorder
      rw [Node.preorderOf_reverse_cons]
      simp only [List.append_assoc, List.cons_append]

theorem Parallel.append (h : b.Parallel opened) (n : Node) : (b.append n).Parallel opened := by
  obtain ⟨ds, os, outer⟩ := b
  cases h with
  | nil => exact .nil
  | cons ho hos => exact .cons ho hos

theorem append_directives (b : Builder) (n : Node) : (b.append n).directives = b.directives := by
  unfold append
  split <;> rfl

/-- The innermost element becomes a node where it stood, if it is closed as it will be. -/
theorem preorder_close (ended : Nat → Bool) {p : Opening} (h : b.Parallel (p :: opened)) :
    preorder ended (b.close (!ended p.place)) opened = preorder ended b (p :: opened)
      ∧ (b.close (!ended p.place)).Parallel opened := by
  obtain ⟨ds, os, outer⟩ := b
  obtain ⟨o, os, ⟨hhead, hpaired⟩, hos, rfl⟩ := List.forall₂_cons_right_iff.1 h
  have hrest : (⟨ds, os, outer⟩ : Builder).Parallel opened := hos
  have helement : ({ o.head with unclosed := !ended p.place } : Element)
      = p.tag.element (ended p.place) := by
    rw [hhead, StartTag.element, hpaired]
    rfl
  refine ⟨?_, hrest.append _⟩
  show preorder ended ((⟨ds, os, outer⟩ : Builder).append _) opened = _
  rw [preorder_append hrest, helement]
  exact List.append_assoc _ _ _

/-- Elements without an end tag become nodes where they stood. -/
theorem preorder_closeUnclosed (ended : Nat → Bool) : ∀ {inner : List Opening} {b : Builder},
    b.Parallel (inner ++ opened) → (∀ p ∈ inner, ended p.place = false) →
      preorder ended (closeUnclosed inner.length b) opened = preorder ended b (inner ++ opened)
        ∧ (closeUnclosed inner.length b).Parallel opened
  | [], b, h, _ => ⟨rfl, h⟩
  | p :: inner, b, h, hended => by
      obtain ⟨hp, hinner⟩ := List.forall_mem_cons.1 hended
      have hclose := preorder_close ended h
      rw [hp] at hclose
      obtain ⟨hpreorder, hparallel⟩ := preorder_closeUnclosed ended hclose.2 hinner
      exact ⟨hpreorder.trans hclose.1, hparallel⟩

/-- The end tag is looked for in the tree where it is looked for in the start tags. -/
theorem Parallel.findIdx? {close : EndTag} : ∀ {os : List OpenElement} {opened : List Opening},
    List.Forall₂ (fun o p => o.head = .ofTag p.tag ∧ p.tag.isSingle = false) os opened →
      os.findIdx? (fun o => o.head.name.closedBy close.name)
        = opened.findIdx? (fun o => o.tag.name.closedBy close.name)
  | _, _, .nil => rfl
  | _, _, .cons ⟨hhead, _⟩ hos => by
      rw [List.findIdx?_cons, List.findIdx?_cons, hhead, Parallel.findIdx? hos]
      rfl

/-- An end tag that ends an element closes it, and before it what is open inside. -/
theorem preorder_push_end {place : Nat} {close : EndTag} {o : Opening}
    (h : b.Parallel opened) (hplaced : Placed opened place)
    (ho : close.ends? opened = some o)
    (hinner : ∀ p ∈ opened, o.place < p.place → ended p.place = false)
    (houter : ended o.place = true) :
    preorder ended (b.push (.endTag close)) (opened.filter (fun p => decide (p.place < o.place)))
        = preorder ended b opened
      ∧ (b.push (.endTag close)).Parallel
          (opened.filter (fun p => decide (p.place < o.place))) := by
  unfold EndTag.ends? at ho
  split at ho
  · cases ho
  · rename_i hvoid
    obtain ⟨hmatch, inner, outer, rfl, hnone⟩ := List.find?_eq_some_iff_append.1 ho
    obtain ⟨-, hsplit, hordered⟩ := List.pairwise_append.1 hplaced.descending
    obtain ⟨houterPlaces, -⟩ := List.pairwise_cons.1 hsplit
    have hinnerPlaces : ∀ p ∈ inner, o.place < p.place :=
      fun p hp => hordered p hp o List.mem_cons_self
    have hfilter : (inner ++ o :: outer).filter (fun p => decide (p.place < o.place)) = outer := by
      rw [List.filter_append, List.filter_eq_nil_iff.2, List.nil_append,
        List.filter_cons_of_neg, List.filter_eq_self.2]
      · exact fun p hp => decide_eq_true (houterPlaces p hp)
      · exact fun hlt => Nat.lt_irrefl _ (of_decide_eq_true hlt)
      · exact fun p hp hlt => Nat.lt_asymm (hinnerPlaces p hp) (of_decide_eq_true hlt)
    have hfound : (inner ++ o :: outer).findIdx? (fun o => o.tag.name.closedBy close.name)
        = some inner.length := by
      rw [List.findIdx?_append, List.findIdx?_eq_none_iff.2, List.findIdx?_cons, hmatch]
      · simp
      · exact fun p hp => by simpa using hnone p hp
    have hpush : b.push (.endTag close) = (closeUnclosed inner.length b).close (!ended o.place) := by
      rw [push, if_neg hvoid, Parallel.findIdx? h, hfound, houter]
      rfl
    obtain ⟨hpreorder, hparallel⟩ := preorder_closeUnclosed ended h
      fun p hp => hinner p (List.mem_append_left _ hp) (hinnerPlaces p hp)
    obtain ⟨hclosed, hparallel⟩ := preorder_close ended hparallel
    rw [hfilter, hpush]
    exact ⟨hclosed.trans hpreorder, hparallel⟩

/-- A start tag adds its element, as it will be, and leaves it open unless it stands alone. -/
theorem preorder_push_start {place : Nat} (tag : StartTag) (h : b.Parallel opened) :
    preorder ended (b.push (.startTag tag)) (Moment.after ⟨opened, place, .startTag tag⟩)
        = preorder ended b opened ++ [.element (tag.element (ended place)) []]
      ∧ (b.push (.startTag tag)).Parallel (Moment.after ⟨opened, place, .startTag tag⟩) := by
  cases hsingle : tag.isSingle with
  | true =>
      have hpush : b.push (.startTag tag) = b.append (.element (.ofTag tag) []) := if_pos hsingle
      have hafter : Moment.after ⟨opened, place, .startTag tag⟩ = opened := if_pos hsingle
      have helement : tag.element (ended place) = .ofTag tag := by
        rw [StartTag.element, hsingle]
        rfl
      rw [hpush, hafter, preorder_append h, helement]
      exact ⟨rfl, h.append _⟩
  | false =>
      have hpaired : ¬ tag.isSingle = true := Bool.eq_false_iff.1 hsingle
      have hpush : b.push (.startTag tag)
          = ⟨b.directives, ⟨.ofTag tag, []⟩ :: b.opened, b.outer⟩ := if_neg hpaired
      have hafter : Moment.after ⟨opened, place, .startTag tag⟩ = ⟨place, tag⟩ :: opened :=
        if_neg hpaired
      rw [hpush, hafter]
      exact ⟨(List.append_assoc _ _ _).symm, .cons ⟨rfl, hsingle⟩ h⟩

/-- An end tag that ends nothing is a node, unless it is the one of a void element. -/
theorem preorder_push_stray {close : EndTag} (h : b.Parallel opened)
    (hnone : close.ends? opened = none) :
    preorder ended (b.push (.endTag close)) opened
        = preorder ended b opened
            ++ (if close.name.isVoid then none else some (Node.stray close)).toList
      ∧ (b.push (.endTag close)).Parallel opened := by
  unfold EndTag.ends? at hnone
  by_cases hvoid : close.name.isVoid = true
  · rw [push, if_pos hvoid, if_pos hvoid]
    exact ⟨(List.append_nil _).symm, h⟩
  · rw [if_neg hvoid] at hnone
    have hfound : b.opened.findIdx? (fun o => o.head.name.closedBy close.name) = none := by
      rw [Parallel.findIdx? h, List.findIdx?_eq_none_iff]
      exact fun p hp => Bool.eq_false_iff.2 (List.find?_eq_none.1 hnone p hp)
    rw [push, if_neg hvoid, if_neg hvoid, hfound]
    exact ⟨preorder_append h _, h.append _⟩

/-- **One token** adds its node, and leaves open what its moment says. -/
theorem preorder_push {place : Nat} {token : Token} {tokens : List Token}
    (h : b.Parallel opened) (hplaced : Placed opened place)
    (hended : Foretold ended opened place (token :: tokens)) :
    preorder ended (b.push token) (Moment.after ⟨opened, place, token⟩)
        = preorder ended b opened ++ (Moment.node? ended ⟨opened, place, token⟩).toList
      ∧ (b.push token).Parallel (Moment.after ⟨opened, place, token⟩) := by
  cases token with
  | directive d => exact ⟨(List.append_nil _).symm, h⟩
  | text s span => exact ⟨preorder_append h _, h.append _⟩
  | binding source => exact ⟨preorder_append h _, h.append _⟩
  | startTag tag => exact preorder_push_start tag h
  | endTag close =>
      have hends : Moment.ended? ⟨opened, place, .endTag close⟩ = close.ends? opened := rfl
      have hnode : Moment.node? ended ⟨opened, place, .endTag close⟩
          = if close.name.isVoid || (close.ends? opened).isSome then none
            else some (Node.stray close) := rfl
      cases hfound : close.ends? opened with
      | some o =>
          have hmoment := hends.trans hfound
          rw [Moment.after_of_ended? hmoment, hnode, hfound, Option.isSome_some, Bool.or_true,
            if_pos rfl, Option.toList_none, List.append_nil]
          exact preorder_push_end h hplaced hfound
            (fun p hp => hended.inner hplaced hmoment hp) (hended.outer hmoment)
      | none =>
          have hafter : Moment.after ⟨opened, place, .endTag close⟩ = opened := by
            unfold Moment.after
            rw [hends, hfound]
          rw [hafter, hnode, hfound, Option.isSome_none, Bool.or_false]
          exact preorder_push_stray h hfound

/-- What is left open at the end becomes nodes where it stood. -/
theorem preorderOf_finish (h : b.Parallel opened) (hended : ∀ p ∈ opened, ended p.place = false) :
    Node.preorderOf b.finish.nodes = preorder ended b opened := by
  have hlength : b.opened.length = opened.length := h.length_eq
  rw [← List.append_nil opened] at h
  obtain ⟨hpreorder, hparallel⟩ := preorder_closeUnclosed ended h hended
  have hnodes : Node.preorderOf b.finish.nodes
      = preorder ended (closeUnclosed opened.length b) [] := by
    unfold finish preorder
    rw [hlength, List.forall₂_nil_right_iff.1 hparallel]
    exact (List.append_nil _).symm
  rw [hnodes, hpreorder, List.append_nil]

/-- **All tokens** add their nodes one after the other. -/
theorem preorderOf_finish_foldl_push (ended : Nat → Bool) : ∀ (tokens : List Token) {b : Builder}
    {opened : List Opening} {place : Nat}, b.Parallel opened → Placed opened place →
      Foretold ended opened place tokens →
      Node.preorderOf (tokens.foldl push b).finish.nodes
        = preorder ended b opened ++ (moments opened place tokens).filterMap (Moment.node? ended)
  | [], b, opened, place, h, _, hended => by
      rw [moments, List.filterMap_nil, List.append_nil]
      exact preorderOf_finish h fun p hp => hended p.place (.inl (List.mem_map_of_mem hp))
  | token :: tokens, b, opened, place, h, hplaced, hended => by
      obtain ⟨hpush, hparallel⟩ := preorder_push h hplaced hended
      rw [List.foldl_cons, preorderOf_finish_foldl_push ended tokens hparallel
        (Moment.placed_after hplaced) (hended.next hplaced), hpush, moments, List.filterMap_cons,
        List.append_assoc]
      cases Moment.node? ended ⟨opened, place, token⟩ <;> rfl

theorem close_directives (b : Builder) (unclosed : Bool) :
    (b.close unclosed).directives = b.directives := by
  unfold close
  split
  · rfl
  · exact append_directives _ _

theorem closeUnclosed_directives : ∀ (n : Nat) (b : Builder),
    (closeUnclosed n b).directives = b.directives
  | 0, _ => rfl
  | n + 1, b => (closeUnclosed_directives n _).trans (close_directives b true)

/-- Directives are kept, the latest first. -/
theorem push_directives (b : Builder) (token : Token) :
    (b.push token).directives = token.directive?.toList ++ b.directives := by
  cases token with
  | directive d => rfl
  | text s span => exact append_directives _ _
  | binding source => exact append_directives _ _
  | startTag tag =>
      rw [push]
      split
      · exact append_directives _ _
      · rfl
  | endTag close =>
      rw [push]
      split
      · rfl
      · split
        · exact (close_directives _ _).trans (closeUnclosed_directives _ _)
        · exact append_directives _ _

theorem finish_foldl_push_directives : ∀ (tokens : List Token) (b : Builder),
    (tokens.foldl push b).finish.directives
      = b.directives.reverse ++ tokens.filterMap Token.directive?
  | [], b => by
      rw [List.filterMap_nil, List.append_nil]
      exact congrArg List.reverse (closeUnclosed_directives _ b)
  | token :: tokens, b => by
      rw [List.foldl_cons, finish_foldl_push_directives tokens, push_directives,
        List.reverse_append, List.append_assoc, List.filterMap_cons]
      cases token.directive? <;> rfl

end Builder

/-! ## §4. Whole files. -/

/-- The tokens of a file one by one. -/
def history (tokens : List Token) : List Moment := moments [] 0 tokens

/-- The moments are the tokens, each at its place. -/
theorem map_moments : ∀ (tokens : List Token) (opened : List Opening) (place : Nat),
    (moments opened place tokens).map (fun m => (m.token, m.place)) = tokens.zipIdx place
  | [], _, _ => rfl
  | token :: tokens, opened, place => by
      rw [moments, List.map_cons, map_moments tokens, List.zipIdx_cons]

/-- What is said to be wrong with an element: that it is not closed, if it has no end tag but
needs one. -/
theorem StartTag.errors_element (tag : StartTag) (ended : Bool) : (tag.element ended).errors
    = if tag.isSingle || ended then [] else ["element <" ++ tag.name.text ++ "> is not closed"] := by
  unfold Element.errors StartTag.element
  cases tag.isSingle <;> cases ended <;> rfl

/-- **Whatever the tokens are, none is lost, doubled or moved**: the directives are the directive
tokens, the nodes, parents first, are those that the tokens add, and an element that needs an end
tag is said to be unclosed, once, if no end tag ends it. -/
theorem ofTokens_conserves (tokens : List Token) :
    (Document.ofTokens tokens).directives = tokens.filterMap Token.directive?
      ∧ (history tokens).map (fun m => (m.token, m.place)) = tokens.zipIdx
      ∧ Node.preorderOf (Document.ofTokens tokens).nodes
        = (history tokens).filterMap (Moment.node? (endsAt (history tokens)))
      ∧ ∀ m ∈ history tokens, ∀ tag, m.token = .startTag tag →
          ∃ head, m.node? (endsAt (history tokens)) = some (.element head [])
            ∧ head.errors = if tag.isSingle || endsAt (history tokens) m.place then []
              else ["element <" ++ tag.name.text ++ "> is not closed"] := by
  refine ⟨Builder.finish_foldl_push_directives tokens .empty, map_moments tokens [] 0, ?_,
    fun m _ tag htag => ?_⟩
  · have hplaced : Placed [] 0 := ⟨.nil, nofun⟩
    exact Builder.preorderOf_finish_foldl_push (endsAt (history tokens)) tokens
      (b := .empty) .nil hplaced fun _ _ => rfl
  · refine ⟨tag.element (endsAt (history tokens) m.place), ?_, tag.errors_element _⟩
    unfold Moment.node?
    rw [htag]

/-- Inside a division a paragraph that is not ended; then an end tag with nothing to end, a void
element with an end tag, and a section that is open at the end of the file. -/
def crossedTokens : List Token :=
  [.startTag (division 1).tag, .startTag ⟨⟨none, "p"⟩, [], false, ⟨1, 6, 3⟩⟩,
    .text "a" ⟨1, 9, 1⟩, .endTag ⟨⟨none, "DIV"⟩, ⟨1, 10, 6⟩⟩, .endTag ⟨⟨none, "p"⟩, ⟨1, 16, 4⟩⟩,
    .startTag ⟨⟨none, "br"⟩, [], false, ⟨1, 20, 4⟩⟩, .endTag ⟨⟨none, "br"⟩, ⟨1, 24, 5⟩⟩,
    .startTag ⟨⟨none, "section"⟩, [], false, ⟨1, 29, 9⟩⟩]

theorem ofTokens_conserves_crossed :
    Node.preorderOf (Document.ofTokens crossedTokens).nodes
      = [.element (division 1) [], .element ⟨⟨none, "p"⟩, [], false, true, ⟨1, 6, 3⟩⟩ [],
        .text "a" ⟨1, 9, 1⟩, .stray ⟨⟨none, "p"⟩, ⟨1, 16, 4⟩⟩,
        .element ⟨⟨none, "br"⟩, [], false, false, ⟨1, 20, 4⟩⟩ [],
        .element ⟨⟨none, "section"⟩, [], false, true, ⟨1, 29, 9⟩⟩ []]
      ∧ ⟨[⟨0, (division 1).tag⟩], 1, .startTag ⟨⟨none, "p"⟩, [], false, ⟨1, 6, 3⟩⟩⟩
        ∈ history crossedTokens
      ∧ ∃ head, Moment.node? (endsAt (history crossedTokens))
          ⟨[⟨0, (division 1).tag⟩], 1, .startTag ⟨⟨none, "p"⟩, [], false, ⟨1, 6, 3⟩⟩⟩
            = some (.element head [])
          ∧ head.errors = ["element <p> is not closed"] := by
  obtain ⟨-, -, hnodes, herrors⟩ := ofTokens_conserves crossedTokens
  have hmem : ⟨[⟨0, (division 1).tag⟩], 1, .startTag ⟨⟨none, "p"⟩, [], false, ⟨1, 6, 3⟩⟩⟩
      ∈ history crossedTokens := List.mem_cons_of_mem _ List.mem_cons_self
  exact ⟨hnodes.trans rfl, hmem, herrors _ hmem _ rfl⟩

end BoundMarkup.Markup
