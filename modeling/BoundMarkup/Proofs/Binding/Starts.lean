/-
  BoundMarkup.Proofs.Binding.Starts
  ─────────────────────────────────
  **WHATEVER IS READ STARTS AT A TOKEN.**

  Regions grow by merging, and a merged region starts where its first part does
  as long as the parts are merged in their order.  So the readers keep two
  things: the tokens left are tokens of the text that come later, and a left side
  precedes all of them.  The places allowed are a parameter here, with the places
  of all tokens among them; every region of a tree, and every fault, is then at
  one of these places (`located`).
-/
import BoundMarkup.Proofs.Binding.Rounds
import BoundMarkup.Proofs.Source.Positions

namespace BoundMarkup.Binding

/-! ## §1. The regions of a tree. -/

mutual

/-- The regions of a type and of the types inside it. -/
def TypeExpr.spans : TypeExpr → List Span
  | .mk _ args _ span => span :: TypeExpr.spansOf args

/-- The regions of the types. -/
def TypeExpr.spansOf : List TypeExpr → List Span
  | [] => []
  | t :: ts => t.spans ++ TypeExpr.spansOf ts

end

mutual

/-- The regions of an expression and of everything inside it. -/
def Expr.spans : Expr → List Span
  | .literal _ span => [span]
  | .ident ident typeArgs span => span :: ident.span :: TypeExpr.spansOf typeArgs
  | .member target member typeArgs span =>
      span :: member.span :: (target.spans ++ TypeExpr.spansOf typeArgs)
  | .call callee args span => span :: (callee.spans ++ Argument.spansOf args)
  | .index target index span => span :: (target.spans ++ index.spans)
  | .unary _ operand span => span :: operand.spans
  | .binary left _ right span => span :: (left.spans ++ right.spans)
  | .assign target value span => span :: (target.spans ++ value.spans)
  | .paren inner span => span :: inner.spans

/-- The regions of an argument, of its name and of its value. -/
def Argument.spans : Argument → List Span
  | .mk name value span => span :: ((name.map Ident.span).toList ++ value.spans)

/-- The regions of the arguments. -/
def Argument.spansOf : List Argument → List Span
  | [] => []
  | a :: as => a.spans ++ Argument.spansOf as

end

theorem Expr.span_mem_spans (e : Expr) : e.span ∈ e.spans := by
  cases e <;> exact List.mem_cons_self

/-! ## §2. Tokens in their order. -/

/-- Tokens that end with the end of the text, in their order, at the places allowed. -/
structure Tidy (places : Nat × Nat → Prop) (ts : List Token) : Prop where
  ends : ∃ front stop, ts = front ++ [Token.eof stop]
  ordered : ts.Pairwise (fun t u => t.span.Precedes u.span)
  placed : ∀ t ∈ ts, places t.span.place

/-- What a reader leaves of the tokens it is given. -/
structure Leaves (places : Nat × Nat → Prop) (ts rest : List Token) : Prop where
  tidy : Tidy places rest
  subset : rest ⊆ ts

/-- All regions start at places that are allowed. -/
def Placed (places : Nat × Nat → Prop) (spans : List Span) : Prop := ∀ s ∈ spans, places s.place

/-- The fault is at a place that is allowed. -/
def Blamed (places : Nat × Nat → Prop) (e : SyntaxError) : Prop := places e.span.place

variable {places : Nat × Nat → Prop} {ts rest rest' : List Token} {t : Token}

theorem Tidy.exists_cons (h : Tidy places ts) : ∃ t rest, ts = t :: rest := by
  obtain ⟨front, stop, rfl⟩ := h.ends
  cases front with
  | nil => exact ⟨_, [], rfl⟩
  | cons t front => exact ⟨t, _, rfl⟩

/-- Behind a token that is not the end of the text there are tokens up to that end. -/
theorem Tidy.tail (h : Tidy places (t :: ts)) (ht : t.kind ≠ .eof) : Tidy places ts := by
  obtain ⟨front, stop, hfront⟩ := h.ends
  refine ⟨?_, (List.pairwise_cons.1 h.ordered).2, fun u hu => h.placed u (List.mem_cons_of_mem t hu)⟩
  cases front with
  | nil =>
      have heq : t = Token.eof stop := (List.cons.inj hfront).1
      rw [heq] at ht
      exact absurd rfl ht
  | cons u front => exact ⟨front, stop, (List.cons.inj hfront).2⟩

theorem Tidy.of_nextKind (h : Tidy places ts) {k : TokenKind} (kind : nextKind ts = k)
    (other : k ≠ .eof) : ∃ t rest, ts = t :: rest ∧ t.kind = k ∧ Tidy places rest := by
  obtain ⟨t, rest, rfl, ht⟩ := nextKind_cons kind other
  exact ⟨t, rest, rfl, ht, h.tail (ht ▸ other)⟩

theorem Tidy.next_mem (h : Tidy places ts) : next ts ∈ ts := by
  obtain ⟨t, rest, rfl⟩ := h.exists_cons
  exact List.mem_cons_self

theorem Tidy.precedes (h : Tidy places (t :: ts)) : ∀ u ∈ t :: ts, t.span.Precedes u.span := by
  refine List.forall_mem_cons.2 ⟨Span.Precedes.refl t.span, ?_⟩
  exact (List.pairwise_cons.1 h.ordered).1

theorem Leaves.refl (h : Tidy places ts) : Leaves places ts ts := ⟨h, List.Subset.refl ts⟩

theorem Leaves.trans (h : Leaves places ts rest) (h' : Leaves places rest rest') :
    Leaves places ts rest' := ⟨h'.tidy, fun _ ht => h.subset (h'.subset ht)⟩

theorem Leaves.behind (h : Leaves places ts rest) (t : Token) : Leaves places (t :: ts) rest :=
  ⟨h.tidy, fun _ hu => List.mem_cons_of_mem t (h.subset hu)⟩

/-- A fault at the next token is at a place that is allowed. -/
theorem faultAt_blamed {α : Type} (good : α → Prop) (h : Tidy places ts)
    (cause : TokenKind → SyntaxCause) : Meets good (Blamed places) (faultAt ts cause) :=
  h.placed _ h.next_mem

theorem expect_meets (h : Tidy places ts) {kind : TokenKind} (other : kind ≠ .eof) :
    Meets (fun r => r.1 ∈ ts ∧ Leaves places ts r.2) (Blamed places) (expect kind ts) := by
  obtain ⟨t, rest, rfl⟩ := h.exists_cons
  rw [expect]
  by_cases hk : t.kind = kind
  · rw [if_pos hk]
    exact ⟨List.mem_cons_self, (Leaves.refl (h.tail (hk ▸ other))).behind t⟩
  · rw [if_neg hk]
    exact faultAt_blamed _ h _

/-! ## §3. Type arguments. -/

/-- What is left behind a reader that also says where it ended: at the region it started
from, or at one of the tokens. -/
structure Reaches (places : Nat × Nat → Prop) (ts : List Token) (last last' : Span)
    (rest : List Token) : Prop where
  leaves : Leaves places ts rest
  last : last' ∈ last :: ts.map Token.span

variable {last last' last'' : Span}

theorem Reaches.refl (h : Tidy places ts) (last : Span) : Reaches places ts last last ts :=
  ⟨.refl h, List.mem_cons_self⟩

/-- A reader that has passed over a token has ended there or behind it. -/
theorem Reaches.behind (h : Reaches places ts t.span last' rest) (last : Span) :
    Reaches places (t :: ts) last last' rest :=
  ⟨h.leaves.behind t, List.mem_cons_of_mem last h.last⟩

theorem Reaches.trans (h : Reaches places ts last last' rest)
    (h' : Reaches places rest last' last'' rest') : Reaches places ts last last'' rest' := by
  refine ⟨h.leaves.trans h'.leaves, ?_⟩
  rcases List.mem_cons.1 h'.last with heq | hmem
  · rw [heq]
    exact h.last
  · exact List.mem_cons_of_mem last (List.map_subset Token.span h.leaves.subset hmem)

/-- What precedes all tokens precedes the end of what is read of them. -/
theorem Reaches.precedes {s : Span} (h : Reaches places ts last last' rest)
    (hlast : s.Precedes last) (hts : ∀ u ∈ ts, s.Precedes u.span) : s.Precedes last' := by
  rcases List.mem_cons.1 h.last with heq | hmem
  · rw [heq]
    exact hlast
  · obtain ⟨u, hu, rfl⟩ := List.mem_map.1 hmem
    exact hts u hu

theorem dottedName_reaches {name name' : String} (h : Tidy places ts)
    (read : dottedName name last ts = (name', last', rest)) :
    Reaches places ts last last' rest := by
  fun_induction dottedName name last ts with
  | case1 name last d i ts kinds ih =>
      have htail : Tidy places ts :=
        (h.tail (by rw [kinds.1]; decide)).tail (by rw [kinds.2]; decide)
      have hread := ih htail read
      exact (hread.behind d.span).behind last
  | case2 | case3 =>
      cases read
      exact .refl h _

theorem typeSuffixes_reaches {suffixes : List TypeSuffix} (h : Tidy places ts)
    (read : typeSuffixes last ts = (suffixes, last', rest)) :
    Reaches places ts last last' rest := by
  fun_induction typeSuffixes last ts generalizing suffixes with
  | case1 last a b ts kinds suffixes' last'' rest' found ih =>
      cases read
      have htail : Tidy places ts :=
        (h.tail (by rw [kinds.1]; decide)).tail (by rw [kinds.2]; decide)
      exact ((ih htail found).behind a.span).behind last
  | case2 last a b ts kinds question suffixes' last'' rest' found ih =>
      cases read
      exact (ih (h.tail (by rw [question]; decide)) found).behind last
  | case3 | case4 =>
      cases read
      exact .refl h _

/-- What the readers of types keep. -/
structure TypesLocated (places : Nat × Nat → Prop) (n : Nat) : Prop where
  type : ∀ {ts rest t}, Tidy places ts → typeExpr? n ts = some (t, rest) →
    Placed places t.spans ∧ Leaves places ts rest
  args : ∀ {ts rest args last'}, Tidy places ts → typeArgs? n ts = some (args, last', rest) →
    Placed places (TypeExpr.spansOf args) ∧ ∀ last, Reaches places ts last last' rest
  list : ∀ {ts rest types}, Tidy places ts → typeList? n ts = some (types, rest) →
    Placed places (TypeExpr.spansOf types) ∧ Leaves places ts rest

/-- A region merged of a token and what follows it starts at the token. -/
theorem Tidy.placed_merge (h : Tidy places (t :: ts))
    (reaches : Reaches places ts t.span last' rest) : places (t.span.merge last').place := by
  have hlast : t.span.Precedes last' :=
    reaches.precedes (.refl t.span) (fun u hu => h.precedes u (List.mem_cons_of_mem t hu))
  rw [Span.place_merge hlast]
  exact h.placed t List.mem_cons_self

theorem typesLocated (n : Nat) : TypesLocated places n := by
  induction n with
  | zero =>
      constructor
      · intro ts rest t _ h
        cases ts <;> simp [typeExpr?] at h
      · intro ts rest args last _ h
        cases ts <;> simp [typeArgs?] at h
      · intro ts rest types _ h
        simp [typeList?] at h
  | succ n below =>
      constructor
      · intro ts rest t tidy h
        obtain ⟨first, ts, name, args, suffixes, last₁, ts₁, last₂, ts₂, last₃, rfl, word, rfl,
          named, readArgs, suffixed⟩ := typeExpr?_eq_some h
        have hname := dottedName_reaches (tidy.tail (by rw [word]; decide)) named
        have hargs : Placed places (TypeExpr.spansOf args)
            ∧ Reaches places ts₁ last₁ last₂ ts₂ := by
          rcases readArgs with ⟨rfl, rfl, rfl⟩ | readArgs
          · exact ⟨List.forall_mem_nil _, .refl hname.leaves.tidy _⟩
          · obtain ⟨hplaced, hreaches⟩ := below.args hname.leaves.tidy readArgs
            exact ⟨hplaced, hreaches last₁⟩
        have hall := (hname.trans hargs.2).trans
          (typeSuffixes_reaches hargs.2.leaves.tidy suffixed)
        exact ⟨List.forall_mem_cons.2 ⟨tidy.placed_merge hall, hargs.1⟩, hall.leaves.behind first⟩
      · intro ts rest args last' tidy h
        obtain ⟨opened, ts, close, rfl, less, readList, greater, rfl⟩ := typeArgs?_eq_some h
        obtain ⟨hplaced, hleaves⟩ := below.list (tidy.tail (by rw [less]; decide)) readList
        have hclose : close ∈ ts := hleaves.subset List.mem_cons_self
        refine ⟨hplaced, fun last => ⟨Leaves.behind (hleaves.trans ?_) opened, ?_⟩⟩
        · exact (Leaves.refl (hleaves.tidy.tail (by rw [greater]; decide))).behind close
        · exact List.mem_cons_of_mem last
            (List.mem_cons_of_mem opened.span (List.mem_map_of_mem hclose))
      · intro ts rest types tidy h
        obtain ⟨t, mid, readType, tail⟩ := typeList?_eq_some h
        obtain ⟨hplaced, hleaves⟩ := below.type tidy readType
        rcases tail with ⟨rfl, rfl⟩ | ⟨comma, mid', more, rfl, isComma, readMore, rfl⟩
        · exact ⟨List.forall_mem_append.2 ⟨hplaced, List.forall_mem_nil _⟩, hleaves⟩
        · obtain ⟨hmore, hrest⟩ := below.list (hleaves.tidy.tail (by rw [isComma]; decide)) readMore
          exact ⟨List.forall_mem_append.2 ⟨hplaced, hmore⟩, hleaves.trans (hrest.behind comma)⟩

theorem callTypeArgs_reaches {typeArgs : List TypeExpr} (h : Tidy places ts)
    (read : callTypeArgs last ts = (typeArgs, last', rest)) :
    Placed places (TypeExpr.spansOf typeArgs) ∧ Reaches places ts last last' rest := by
  have hnone : Placed places (TypeExpr.spansOf []) ∧ Reaches places ts last last ts :=
    ⟨nofun, .refl h last⟩
  unfold callTypeArgs at read
  split at read
  · rename_i args close behind found
    by_cases called : nextKind behind = .leftParen
    · rw [if_pos called] at read
      cases read
      obtain ⟨hplaced, hreaches⟩ := (typesLocated _).args h found
      exact ⟨hplaced, hreaches last⟩
    · rw [if_neg called] at read
      cases read
      exact hnone
  · cases read
    exact hnone

/-! ## §4. Expressions. -/

/-- **An expression read from tokens** starts where they start, and leaves tokens behind
the first. -/
structure ReadFrom (places : Nat × Nat → Prop) (ts : List Token) (e : Expr)
    (rest : List Token) : Prop where
  place : e.span.place = (next ts).span.place
  spans : Placed places e.spans
  leaves : Leaves places ts.tail rest

/-- **The invariant of the loop**: a left side precedes the tokens that are left. -/
structure Ahead (places : Nat × Nat → Prop) (left : Expr) (ts : List Token) : Prop where
  precedes : ∀ t ∈ ts, left.span.Precedes t.span
  spans : Placed places left.spans

/-- An expression that a left side has grown to. -/
structure GrownFrom (places : Nat × Nat → Prop) (left : Expr) (ts : List Token) (e : Expr)
    (rest : List Token) : Prop where
  place : e.span.place = left.span.place
  spans : Placed places e.spans
  leaves : Leaves places ts rest

/-- What all readers keep with `n` rounds. -/
structure Located (places : Nat × Nat → Prop) (n : Nat) : Prop where
  expr : ∀ least {ts}, Tidy places ts →
    Meets (fun r => ReadFrom places ts r.1 r.2) (Blamed places) (expr n least ts)
  operand : ∀ {ts}, Tidy places ts →
    Meets (fun r => ReadFrom places ts r.1 r.2) (Blamed places) (operand n ts)
  extend : ∀ least {left ts}, Tidy places ts → Ahead places left ts →
    Meets (fun r => GrownFrom places left ts r.1 r.2) (Blamed places) (extend n least left ts)
  arguments : ∀ {ts}, Tidy places ts →
    Meets (fun r => Placed places (Argument.spansOf r.1) ∧ Leaves places ts r.2) (Blamed places)
      (arguments n ts)
  argumentList : ∀ {ts}, Tidy places ts →
    Meets (fun r => Placed places (Argument.spansOf r.1) ∧ Leaves places ts r.2) (Blamed places)
      (argumentList n ts)

variable {n : Nat} {e left left' : Expr}

/-- What precedes the tokens precedes the expression read from them. -/
theorem ReadFrom.precedes {s : Span} (h : ReadFrom places ts e rest) (tidy : Tidy places ts)
    (hs : ∀ t ∈ ts, s.Precedes t.span) : s.Precedes e.span :=
  (hs _ tidy.next_mem).congr rfl h.place

theorem ReadFrom.all_leaves (h : ReadFrom places ts e rest) : Leaves places ts rest :=
  ⟨h.leaves.tidy, fun _ hu => List.mem_of_mem_tail (h.leaves.subset hu)⟩

theorem ReadFrom.ahead (h : ReadFrom places ts e rest) (tidy : Tidy places ts) :
    Ahead places e rest := by
  obtain ⟨t, more, rfl⟩ := tidy.exists_cons
  refine ⟨fun u hu => ?_, h.spans⟩
  exact (tidy.precedes u (List.mem_cons_of_mem t (h.leaves.subset hu))).congr h.place rfl

/-- An operand of its first token alone, or of the token and what is merged to it. -/
theorem ReadFrom.of_merge {s : Span} {spans : List Span} (tidy : Tidy places (t :: ts))
    (hs : t.span.Precedes s) (hspan : e.span = t.span.merge s) (hspans : e.spans = e.span :: spans)
    (hinside : Placed places spans) (leaves : Leaves places ts rest) :
    ReadFrom places (t :: ts) e rest := by
  have hplace : e.span.place = t.span.place := by rw [hspan, Span.place_merge hs]
  refine ⟨hplace, ?_, leaves⟩
  rw [hspans]
  refine List.forall_mem_cons.2 ⟨?_, hinside⟩
  rw [hplace]
  exact tidy.placed t List.mem_cons_self

theorem operand_located (below : Located places n) (tidy : Tidy places ts) :
    Meets (fun r => ReadFrom places ts r.1 r.2) (Blamed places) (operand (n + 1) ts) := by
  obtain ⟨t, ts, rfl⟩ := tidy.exists_cons
  have hfirst : places t.span.place := tidy.placed t List.mem_cons_self
  rw [operand]
  split
  · -- A sign, and the operand behind it.
    rename_i op sign
    have htail : Tidy places ts := tidy.tail (fun heof => by rw [heof] at sign; cases sign)
    refine (below.expr unaryPower htail).bind ?_
    rintro ⟨inner, rest⟩ hinner
    have hprecedes : t.span.Precedes inner.span := hinner.precedes htail fun u hu =>
      tidy.precedes u (List.mem_cons_of_mem t hu)
    exact ReadFrom.of_merge tidy hprecedes rfl rfl hinner.spans hinner.all_leaves
  · by_cases literal : t.kind.isLiteral = true
    · rw [if_pos literal]
      have htail : Tidy places ts := tidy.tail (fun heof => by rw [heof] at literal; cases literal)
      cases constantOf t with
      | error cause => exact hfirst
      | ok value => exact ⟨rfl, List.forall_mem_singleton.2 hfirst, .refl htail⟩
    · rw [if_neg literal]
      by_cases word : t.kind = .identifier
      · -- A name ends at its type arguments, but starts where it would without them.
        rw [if_pos word]
        rcases read : callTypeArgs t.span ts with ⟨typeArgs, last, rest⟩
        obtain ⟨hplaced, hreaches⟩ := callTypeArgs_reaches (tidy.tail (by rw [word]; decide)) read
        have hspan : (if typeArgs.isEmpty then t.span else t.span.merge last).place
            = t.span.place := by
          by_cases hempty : typeArgs.isEmpty = true
          · rw [if_pos hempty]
          · rw [if_neg hempty]
            exact Span.place_merge (hreaches.precedes (.refl t.span) fun u hu =>
              tidy.precedes u (List.mem_cons_of_mem t hu))
        refine ⟨hspan, List.forall_mem_cons.2 ⟨?_, List.forall_mem_cons.2 ⟨hfirst, hplaced⟩⟩,
          hreaches.leaves⟩
        rw [hspan]
        exact hfirst
      · rw [if_neg word]
        by_cases opened : t.kind = .leftParen
        · -- Parentheses: the region is merged of the two, and the inner one keeps its own.
          rw [if_pos opened]
          have htail : Tidy places ts := tidy.tail (by rw [opened]; decide)
          refine (below.expr 0 htail).bind ?_
          rintro ⟨inner, mid⟩ hinner
          refine (expect_meets hinner.leaves.tidy (by decide)).bind ?_
          rintro ⟨close, rest⟩ hclose
          have hprecedes : t.span.Precedes close.span :=
            tidy.precedes close (List.mem_cons_of_mem t (hinner.all_leaves.subset hclose.1))
          exact ReadFrom.of_merge tidy hprecedes rfl rfl hinner.spans
            (hinner.all_leaves.trans hclose.2)
        · rw [if_neg opened]
          exact faultAt_blamed _ tidy _

/-- **One form more keeps the invariant**: what a left side is merged with comes behind it. -/
theorem extend_merged (below : Located places n) (least : Nat) {mid : List Token} {s : Span}
    {spans : List Span} (ahead : Ahead places left ts) (hs : left.span.Precedes s)
    (hspan : left'.span = left.span.merge s) (hspans : left'.spans = left'.span :: spans)
    (hinside : Placed places spans) (leaves : Leaves places ts mid) :
    Meets (fun r => GrownFrom places left ts r.1 r.2) (Blamed places)
      (extend n least left' mid) := by
  have hplace : left'.span.place = left.span.place := by rw [hspan, Span.place_merge hs]
  have hahead : Ahead places left' mid := by
    refine ⟨fun u hu => (ahead.precedes u (leaves.subset hu)).congr hplace rfl, ?_⟩
    rw [hspans]
    refine List.forall_mem_cons.2 ⟨?_, hinside⟩
    rw [hplace]
    exact ahead.spans _ left.span_mem_spans
  refine (below.extend least leaves.tidy hahead).mono (fun r hr => ?_) (fun _ h => h)
  exact ⟨hr.place.trans hplace, hr.spans, leaves.trans hr.leaves⟩

/-- The tokens behind an operator. -/
theorem operator?_leaves {op : BinaryOp} (tidy : Tidy places ts)
    (h : operator? ts = some (op, rest)) : Leaves places ts rest := by
  unfold operator? at h
  split at h
  · rename_i shift
    cases h
    match ts, shift, tidy with
    | a :: b :: ts, shift, tidy =>
        simp only [atShiftRight, Bool.and_eq_true, beq_iff_eq] at shift
        have htail : Tidy places ts := (tidy.tail (by rw [shift.1.1.1]; decide)).tail
          (by rw [shift.1.1.2]; decide)
        exact ((Leaves.refl htail).behind b).behind a
  · obtain ⟨op', hop, hfound⟩ := Option.map_eq_some_iff.1 h
    cases hfound
    obtain ⟨t, ts, rfl⟩ := tidy.exists_cons
    have hkind : t.kind ≠ .eof := fun heof => by
      have hnone : (nextKind (t :: ts)).binaryOp? = none := by
        rw [show nextKind (t :: ts) = .eof from heof]
        rfl
      rw [hnone] at hop
      cases hop
    exact (Leaves.refl (tidy.tail hkind)).behind t

theorem extend_located (below : Located places n) (least : Nat) (tidy : Tidy places ts)
    (ahead : Ahead places left ts) :
    Meets (fun r => GrownFrom places left ts r.1 r.2) (Blamed places)
      (extend (n + 1) least left ts) := by
  have hstop : GrownFrom places left ts left ts := ⟨rfl, ahead.spans, .refl tidy⟩
  rw [extend]
  split
  case h_1 kind =>
    -- A member: its name, and type arguments if it is called.
    obtain ⟨dot, ts, rfl, -, htail⟩ := tidy.of_nextKind kind (by decide)
    split
    · exact hstop
    · obtain ⟨name, ts, rfl⟩ := htail.exists_cons
      show Meets _ _ (if name.kind = .identifier then _ else _)
      by_cases word : name.kind = .identifier
      · rw [if_pos word]
        rcases read : callTypeArgs name.span ts with ⟨typeArgs, last, mid⟩
        obtain ⟨hplaced, hreaches⟩ := callTypeArgs_reaches (htail.tail (by rw [word]; decide)) read
        have hlast : left.span.Precedes last :=
          hreaches.precedes (ahead.precedes name (by simp)) fun u hu =>
            ahead.precedes u (by simp [hu])
        refine extend_merged below least ahead hlast rfl rfl ?_
          ((hreaches.leaves.behind name).behind dot)
        refine List.forall_mem_cons.2 ⟨htail.placed name List.mem_cons_self, ?_⟩
        exact List.forall_mem_append.2 ⟨ahead.spans, hplaced⟩
      · rw [if_neg word]
        exact faultAt_blamed _ htail _
  case h_2 kind =>
    -- A call ends at its parenthesis, which is one of the tokens that come later.
    obtain ⟨opened, ts, rfl, -, htail⟩ := tidy.of_nextKind kind (by decide)
    split
    · exact hstop
    · refine (below.arguments htail).bind ?_
      rintro ⟨args, mid⟩ hargs
      refine (expect_meets hargs.2.tidy (by decide)).bind ?_
      rintro ⟨close, rest⟩ hclose
      have hmem : close ∈ opened :: ts := List.mem_cons_of_mem opened (hargs.2.subset hclose.1)
      exact extend_merged below least ahead (ahead.precedes close hmem) rfl rfl
        (List.forall_mem_append.2 ⟨ahead.spans, hargs.1⟩)
        ((hargs.2.trans hclose.2).behind opened)
  case h_3 kind =>
    obtain ⟨opened, ts, rfl, -, htail⟩ := tidy.of_nextKind kind (by decide)
    split
    · exact hstop
    · refine (below.expr 0 htail).bind ?_
      rintro ⟨index, mid⟩ hindex
      refine (expect_meets hindex.leaves.tidy (by decide)).bind ?_
      rintro ⟨close, rest⟩ hclose
      have hmem : close ∈ opened :: ts :=
        List.mem_cons_of_mem opened (hindex.all_leaves.subset hclose.1)
      exact extend_merged below least ahead (ahead.precedes close hmem) rfl rfl
        (List.forall_mem_append.2 ⟨ahead.spans, hindex.spans⟩)
        ((hindex.all_leaves.trans hclose.2).behind opened)
  case h_4 kind =>
    -- An assignment ends where its value does, and that starts behind the sign.
    obtain ⟨sign, ts, rfl, -, htail⟩ := tidy.of_nextKind kind (by decide)
    split
    · exact hstop
    · refine (below.expr assignPower.2 htail).bind ?_
      rintro ⟨value, rest⟩ hvalue
      have hprecedes : left.span.Precedes value.span := hvalue.precedes htail fun u hu =>
        ahead.precedes u (List.mem_cons_of_mem sign hu)
      exact extend_merged below least ahead hprecedes rfl rfl
        (List.forall_mem_append.2 ⟨ahead.spans, hvalue.spans⟩) (hvalue.all_leaves.behind sign)
  case h_5 =>
    cases found : operator? ts with
    | none => exact hstop
    | some answer =>
        obtain ⟨op, mid⟩ := answer
        have hmid := operator?_leaves tidy found
        show Meets _ _ (if op.power.1 < least then _ else _)
        split
        · exact hstop
        · refine (below.expr op.power.2 hmid.tidy).bind ?_
          rintro ⟨right, rest⟩ hright
          have hprecedes : left.span.Precedes right.span := hright.precedes hmid.tidy fun u hu =>
            ahead.precedes u (hmid.subset hu)
          exact extend_merged below least ahead hprecedes rfl rfl
            (List.forall_mem_append.2 ⟨ahead.spans, hright.spans⟩) (hmid.trans hright.all_leaves)

theorem expr_located (below : Located places n) (least : Nat) (tidy : Tidy places ts) :
    Meets (fun r => ReadFrom places ts r.1 r.2) (Blamed places) (expr (n + 1) least ts) := by
  rw [expr]
  refine (below.operand tidy).bind fun (left, mid) hleft => ?_
  refine (below.extend least hleft.leaves.tidy (hleft.ahead tidy)).mono (fun r hr => ?_)
    (fun _ h => h)
  exact ⟨hr.place.trans hleft.place, hr.spans, hleft.leaves.trans hr.leaves⟩

/-- An argument may start with a name and a colon. -/
theorem argumentName_leaves {name : Option Ident} (tidy : Tidy places ts)
    (h : argumentName ts = (name, rest)) :
    Placed places (name.map Ident.span).toList ∧ Leaves places ts rest := by
  rcases argumentName_cases ts with ⟨word, colon, more, rfl, isWord, isColon, found⟩ | ⟨-, found⟩
  · have htail : Tidy places (colon :: more) := tidy.tail (by rw [isWord]; decide)
    cases found.symm.trans h
    refine ⟨List.forall_mem_singleton.2 (tidy.placed word List.mem_cons_self), ?_⟩
    exact ((Leaves.refl (htail.tail (by rw [isColon]; decide))).behind colon).behind word
  · cases found.symm.trans h
    exact ⟨nofun, .refl tidy⟩

theorem argumentList_located (below : Located places n) (tidy : Tidy places ts) :
    Meets (fun r => Placed places (Argument.spansOf r.1) ∧ Leaves places ts r.2) (Blamed places)
      (argumentList (n + 1) ts) := by
  obtain ⟨t, more, rfl⟩ := tidy.exists_cons
  rcases named : argumentName (t :: more) with ⟨name, start⟩
  obtain ⟨hname, hstart⟩ := argumentName_leaves tidy named
  rw [argumentList, named]
  refine (below.expr 0 hstart.tidy).bind ?_
  rintro ⟨value, rest⟩ hvalue
  have hleaves : Leaves places (t :: more) rest := hstart.trans hvalue.all_leaves
  have hprecedes : t.span.Precedes value.span := hvalue.precedes hstart.tidy fun u hu =>
    tidy.precedes u (hstart.subset hu)
  have hargument : Placed places
      (Argument.mk name value (t.span.merge value.span)).spans := by
    refine List.forall_mem_cons.2 ⟨?_, List.forall_mem_append.2 ⟨hname, hvalue.spans⟩⟩
    rw [Span.place_merge hprecedes]
    exact tidy.placed t List.mem_cons_self
  show Meets _ _ (if nextKind rest = .comma then _ else _)
  by_cases comma : nextKind rest = .comma
  · rw [if_pos comma]
    obtain ⟨mark, behind, rfl, -, hbehind⟩ := hleaves.tidy.of_nextKind comma (by decide)
    refine (below.argumentList hbehind).bind ?_
    rintro ⟨others, last⟩ hothers
    exact ⟨List.forall_mem_append.2 ⟨hargument, hothers.1⟩,
      hleaves.trans (hothers.2.behind mark)⟩
  · rw [if_neg comma]
    exact ⟨List.forall_mem_append.2 ⟨hargument, List.forall_mem_nil _⟩, hleaves⟩

/-- **Every reader keeps to the places allowed**, in what it answers and in its faults. -/
theorem located (places : Nat × Nat → Prop) (n : Nat) : Located places n := by
  induction n with
  | zero =>
      constructor
      · intro least ts tidy
        exact faultAt_blamed _ tidy _
      · intro ts tidy
        exact faultAt_blamed _ tidy _
      · intro least left ts tidy _
        exact faultAt_blamed _ tidy _
      · intro ts tidy
        exact faultAt_blamed _ tidy _
      · intro ts tidy
        exact faultAt_blamed _ tidy _
  | succ n below =>
      constructor
      · intro least ts tidy
        exact expr_located below least tidy
      · intro ts tidy
        exact operand_located below tidy
      · intro least left ts tidy ahead
        exact extend_located below least tidy ahead
      · intro ts tidy
        rw [arguments]
        by_cases closed : nextKind ts = .rightParen
        · rw [if_pos closed]
          exact ⟨List.forall_mem_nil _, .refl tidy⟩
        · rw [if_neg closed]
          exact below.argumentList tidy
      · intro ts tidy
        exact argumentList_located below tidy

/-- **Everything in the tree of a binding starts at a token**, and so does every fault. -/
theorem parseTokens_located (tidy : Tidy places ts) :
    Meets (fun e => Placed places e.spans) (Blamed places) (parseTokens ts) := by
  unfold parseTokens
  refine ((located places _).expr 0 tidy).bind fun (e, rest) he => ?_
  show Meets _ _ (if nextKind rest = .eof then _ else _)
  by_cases done : nextKind rest = .eof
  · rw [if_pos done]
    exact he.spans
  · rw [if_neg done]
    exact faultAt_blamed _ he.leaves.tidy _

end BoundMarkup.Binding
