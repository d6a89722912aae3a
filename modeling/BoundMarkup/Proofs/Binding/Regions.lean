/-
  BoundMarkup.Proofs.Binding.Regions
  ──────────────────────────────────
  **EVERY NODE COVERS ITS TOKENS.**

  A reader that answers a node has its first token in front and leaves what is
  behind its last one, which is all that `Region` speaks of.  Two facts carry the
  proof:

    • `Region.merge` — regions merged in their order are the region from the first
      token of the one to the last token of the other, and
    • `Behind` — the end that a reader of names reports is the token passed last,
      also where an attempt to read type arguments has been taken back.
-/
import BoundMarkup.Proofs.Binding.Laying
import BoundMarkup.Proofs.Binding.Nodes
import BoundMarkup.Proofs.Binding.Soundness

namespace BoundMarkup.Binding

/-! ## §1. Regions of tokens. -/

/-- **The region of the tokens before `rest`** starts where the first of them starts, and
on one line it ends where the last of them ends. -/
def Region (ts rest : List Token) (s : Span) : Prop :=
  ∃ first more last, ts = first :: more ∧ last :: rest <:+ ts ∧ s.place = first.span.place
    ∧ (first.span.line = last.span.line → s.endCol = last.span.endCol)

/-- The token right before `rest` has the region `last`. -/
def Behind (ts : List Token) (last : Span) (rest : List Token) : Prop :=
  ∃ t, t.span = last ∧ t :: rest <:+ ts

/-- Tokens as the lexer answers them: in their order, and with single words for names. -/
structure Neat (ts : List Token) : Prop where
  wordy : Wordy ts
  cleared : ts.Pairwise (fun t u => t.span.Clears u.span)

variable {ts ts' mid rest : List Token} {ss ss' : List Symbol} {s last last' : Span} {t : Token}

theorem Neat.suffix (h : Neat ts) (hrest : rest <:+ ts) : Neat rest :=
  ⟨fun t ht => h.wordy t (hrest.subset ht), h.cleared.sublist hrest.sublist⟩

theorem Neat.tail (h : Neat (t :: ts)) : Neat ts := h.suffix (List.suffix_cons t ts)

/-- The first token is not behind any other. -/
theorem Neat.precedes (h : Neat (t :: ts)) : ∀ u ∈ t :: ts, t.span.Precedes u.span := by
  refine List.forall_mem_cons.2 ⟨Span.Precedes.refl t.span, fun u hu => ?_⟩
  exact ((List.pairwise_cons.1 h.cleared).1 u hu).precedes

theorem Reads.suffix (h : Reads ts ss rest) : rest <:+ ts := by
  rw [h.spells.rest_eq]
  exact List.drop_suffix _ _

theorem Reads.past_eq (h : Reads ts ss rest) : past ts ss = rest := h.spells.rest_eq.symm

theorem Reads.past_append (h : Reads ts ss mid) (ss' : List Symbol) :
    past ts (ss ++ ss') = past mid ss' := by
  rw [← h.past_eq, past, past, past, List.drop_drop, List.length_append]

theorem Region.token (t : Token) (ts : List Token) : Region (t :: ts) ts t.span :=
  ⟨t, ts, t, rfl, List.suffix_rfl, rfl, fun _ => rfl⟩

theorem Region.suffix (h : Region ts rest s) : rest <:+ ts := by
  obtain ⟨_, _, last, _, hlast, _⟩ := h
  exact (List.suffix_cons last rest).trans hlast

theorem Behind.token (t : Token) (ts : List Token) : Behind (t :: ts) t.span ts :=
  ⟨t, rfl, List.suffix_rfl⟩

theorem Behind.of_suffix (h : Behind ts' last rest) (hts : ts' <:+ ts) : Behind ts last rest := by
  obtain ⟨t, ht, hrest⟩ := h
  exact ⟨t, ht, hrest.trans hts⟩

theorem Behind.suffix (h : Behind ts last rest) : rest <:+ ts := by
  obtain ⟨t, _, hrest⟩ := h
  exact (List.suffix_cons t rest).trans hrest

theorem Behind.tail (h : Behind (t :: ts) last rest) : rest <:+ ts := by
  obtain ⟨u, _, hu⟩ := h
  rcases List.suffix_cons_iff.1 hu with heq | hu
  · obtain rfl := (List.cons.inj heq).2
    exact List.suffix_rfl
  · exact (List.suffix_cons u rest).trans hu

/-- Of two tokens, the one with more tokens behind it ends on an earlier line, or on the same
line and not to the right. -/
theorem Neat.ends_le {u : Token} (neat : Neat ts) (ht : t :: mid <:+ ts) (hu : u :: rest <:+ ts)
    (hrest : rest <:+ mid) : t.span.line < u.span.line
      ∨ t.span.line = u.span.line ∧ t.span.endCol ≤ u.span.endCol := by
  have hsuffix : u :: rest <:+ t :: mid :=
    List.suffix_of_suffix_length_le hu ht (Nat.succ_le_succ hrest.length_le)
  rcases List.mem_cons.1 (hsuffix.subset List.mem_cons_self) with heq | hmem
  · rw [heq]
    exact Or.inr ⟨rfl, Nat.le_refl _⟩
  · have hclears : t.span.Clears u.span := (List.pairwise_cons.1 (neat.suffix ht).cleared).1 u hmem
    have hcol : u.span.col ≤ u.span.endCol := Nat.le_add_right _ _
    unfold Span.Clears at hclears
    omega

/-- **Regions merged in their order** are the region from the first token of the one to the
last token of the other. -/
theorem Region.merge {u : Span} (neat : Neat ts) (h : Region ts mid s) (h' : Region ts' rest u)
    (hts : ts' <:+ ts) (hrest : rest <:+ mid) : Region ts rest (s.merge u) := by
  obtain ⟨first, more, last, rfl, hlast, hplace, hend⟩ := h
  obtain ⟨first', more', last', rfl, hlast', hplace', hend'⟩ := h'
  have hfirst : first.span.Precedes first'.span :=
    neat.precedes first' (hts.subset List.mem_cons_self)
  refine ⟨first, more, last', rfl, hlast'.trans hts, ?_, fun hline => ?_⟩
  · rw [Span.place_merge (hfirst.congr hplace hplace'), hplace]
  · -- All four tokens are on one line.
    have hfirst' : first'.span.Precedes last'.span :=
      (neat.suffix hts).precedes last' (hlast'.subset List.mem_cons_self)
    have hfirst_last : first.span.Precedes last.span :=
      neat.precedes last (hlast.subset List.mem_cons_self)
    have hends := neat.ends_le hlast (hlast'.trans hts) hrest
    rw [Span.place_eq_iff] at hplace hplace'
    unfold Span.Precedes at hfirst hfirst' hfirst_last
    have hs : s.endCol = last.span.endCol := hend (by omega)
    have hu : u.endCol = last'.span.endCol := hend' (by omega)
    rw [Span.endCol_merge (by omega) (by omega), hu]

/-- A region merged with one that starts behind it. -/
theorem Region.append {u : Span} (neat : Neat ts) (h : Region ts mid s) (h' : Region ts' rest u)
    (hts : ts' <:+ mid) : Region ts rest (s.merge u) :=
  h.merge neat h' (hts.trans h.suffix) (h'.suffix.trans hts)

/-- A region merged with the token passed last, which may be its own last token. -/
theorem Region.merge_last (neat : Neat ts) (h : Region ts mid s) (h' : Behind ts last rest)
    (hrest : rest <:+ mid) : Region ts rest (s.merge last) := by
  obtain ⟨t, rfl, ht⟩ := h'
  exact h.merge neat (.token t rest) ht hrest

/-- A region of later tokens merged with the first token of all. -/
theorem Region.from_next (neat : Neat ts) (h : Region ts' rest s) (hts : ts' <:+ ts) :
    Region ts rest ((next ts).span.merge s) := by
  obtain ⟨first, more, last, rfl, hlast, -⟩ := id h
  cases ts with
  | nil => exact absurd (List.suffix_nil.1 hts) nofun
  | cons t ts =>
      have behind : Behind (t :: ts) last.span rest := ⟨last, rfl, hlast.trans hts⟩
      exact (Region.token t ts).merge neat h hts behind.tail

/-- **The node covers its tokens**: they are those of its symbols, and its region is theirs. -/
structure Node.Covers (node : Node) : Prop where
  spells : Spells node.tokens node.symbols node.rest
  region : Region node.tokens node.rest node.span

theorem Node.covers_of_reads (reads : Reads ts ss rest) (region : Region ts rest s) :
    Node.Covers ⟨ts, ss, s⟩ := by
  obtain rfl := reads.past_eq
  exact ⟨reads.spells, region⟩

/-! ## §2. Type arguments. -/

theorem dottedName_behind {name name' : String} (h : Behind ts' last ts)
    (read : dottedName name last ts = (name', last', rest)) : Behind ts' last' rest := by
  fun_induction dottedName name last ts with
  | case1 name last d i ts kinds ih =>
      exact ih ((Behind.token i ts).of_suffix ((List.suffix_cons d _).trans h.suffix)) read
  | case2 | case3 =>
      cases read
      exact h

theorem typeSuffixes_behind {suffixes : List TypeSuffix} (h : Behind ts' last ts)
    (read : typeSuffixes last ts = (suffixes, last', rest)) : Behind ts' last' rest := by
  fun_induction typeSuffixes last ts generalizing suffixes with
  | case1 last a b ts kinds suffixes' last'' rest' found ih =>
      cases read
      exact ih ((Behind.token b ts).of_suffix ((List.suffix_cons a _).trans h.suffix)) found
  | case2 last a b ts kinds question suffixes' last'' rest' found ih =>
      cases read
      exact ih ((Behind.token a _).of_suffix h.suffix) found
  | case3 | case4 =>
      cases read
      exact h

/-- What the readers of types answer covers its tokens. -/
structure TypesCover (n : Nat) : Prop where
  type : ∀ {ts rest t}, Neat ts → typeExpr? n ts = some (t, rest) →
    Region ts rest t.span ∧ ∀ node ∈ t.nodes ts, node.Covers
  args : ∀ {ts rest args last}, Neat ts → typeArgs? n ts = some (args, last, rest) →
    Behind ts last rest ∧ ∀ node ∈ TypeExpr.nodesOf args (past ts [.mark .less]), node.Covers
  list : ∀ {ts rest types}, Neat ts → typeList? n ts = some (types, rest) →
    ∀ node ∈ TypeExpr.nodesOf types ts, node.Covers

variable {n : Nat}

/-- The tokens of a type are those of its yield. -/
theorem typeExpr?_reads {t : TypeExpr} (wordy : Wordy ts) (h : typeExpr? n ts = some (t, rest)) :
    Reads ts t.yield rest := by
  obtain ⟨ss, reads, -, same⟩ := (passesTypes n).type h
  rw [same wordy] at reads
  exact reads

theorem typeList?_suffix {types : List TypeExpr} (h : typeList? n ts = some (types, rest)) :
    rest <:+ ts := by
  obtain ⟨t, more, -, ss, reads, -⟩ := (passesTypes n).list h
  exact reads.suffix

theorem typeExpr?_covers (below : TypesCover n) {t : TypeExpr} (neat : Neat ts)
    (h : typeExpr? (n + 1) ts = some (t, rest)) :
    Region ts rest t.span ∧ ∀ node ∈ t.nodes ts, node.Covers := by
  have reads := typeExpr?_reads neat.wordy h
  obtain ⟨first, ts, name, args, suffixes, last₁, ts₁, last₂, ts₂, last₃, rfl, word, rfl,
    named, readArgs, suffixed⟩ := typeExpr?_eq_some h
  -- The end is handed on from the first token to the last suffix.
  have behind₁ := dottedName_behind (Behind.token first ts) named
  have readName : Reads (first :: ts) (nameYield name) ts₁ := by
    obtain ⟨parts, rfl, readParts, words⟩ := dottedName_reads named
    rw [nameYield_dotted first.lexeme (words neat.wordy.tail),
      nameYield_word (neat.wordy first List.mem_cons_self word)]
    exact reads_cons.2 ⟨first, ts, rfl, ⟨word, rfl⟩, nofun, nofun, readParts⟩
  have covers : Behind (first :: ts) last₂ ts₂
      ∧ ∀ node ∈ TypeExpr.nodesOf args (past ts₁ [.mark .less]), node.Covers := by
    rcases readArgs with ⟨rfl, rfl, rfl⟩ | readArgs
    · exact ⟨behind₁, List.forall_mem_nil _⟩
    · obtain ⟨behind₂, covers⟩ := below.args (neat.suffix behind₁.suffix) readArgs
      exact ⟨behind₂.of_suffix behind₁.suffix, covers⟩
  have behind₃ := typeSuffixes_behind covers.1 suffixed
  have region := (Region.token first ts).merge_last neat behind₃ behind₃.tail
  refine ⟨region, List.forall_mem_cons.2 ⟨Node.covers_of_reads reads region, ?_⟩⟩
  rw [readName.past_append]
  exact covers.2

theorem typeArgs?_covers (below : TypesCover n) {args : List TypeExpr} (neat : Neat ts)
    (h : typeArgs? (n + 1) ts = some (args, last, rest)) :
    Behind ts last rest
      ∧ ∀ node ∈ TypeExpr.nodesOf args (past ts [.mark .less]), node.Covers := by
  obtain ⟨opened, ts, close, rfl, less, readList, greater, rfl⟩ := typeArgs?_eq_some h
  refine ⟨?_, below.list neat.tail readList⟩
  exact ⟨close, rfl, (typeList?_suffix readList).trans (List.suffix_cons opened ts)⟩

theorem typeList?_covers (below : TypesCover n) {types : List TypeExpr} (neat : Neat ts)
    (h : typeList? (n + 1) ts = some (types, rest)) :
    ∀ node ∈ TypeExpr.nodesOf types ts, node.Covers := by
  obtain ⟨t, mid, readType, tail⟩ := typeList?_eq_some h
  have reads := typeExpr?_reads neat.wordy readType
  have covers := (below.type neat readType).2
  rcases tail with ⟨rfl, rfl⟩ | ⟨comma, mid', more, rfl, isComma, readMore, rfl⟩
  · exact List.forall_mem_append.2 ⟨covers, List.forall_mem_nil _⟩
  · refine List.forall_mem_append.2 ⟨covers, ?_⟩
    rw [reads.past_append]
    exact below.list (neat.suffix reads.suffix).tail readMore

theorem typesCover (n : Nat) : TypesCover n := by
  induction n with
  | zero =>
      constructor
      · intro ts rest t _ h
        cases ts <;> simp [typeExpr?] at h
      · intro ts rest args last _ h
        cases ts <;> simp [typeArgs?] at h
      · intro ts rest types _ h
        simp [typeList?] at h
  | succ n below =>
      exact ⟨typeExpr?_covers below, typeArgs?_covers below, typeList?_covers below⟩

/-- **A name and what has been read behind it.**  If the attempt to read type arguments is
taken back, the name itself is the token passed last. -/
theorem callTypeArgs_covers {typeArgs : List TypeExpr} (neat : Neat (t :: ts))
    (word : t.kind = .identifier) (h : callTypeArgs t.span ts = (typeArgs, last, rest)) :
    Behind (t :: ts) last rest ∧ (typeArgs = [] → rest = ts)
      ∧ ∀ node ∈ calledNodes ⟨t.lexeme, t.span⟩ typeArgs (t :: ts), node.Covers := by
  have own : Node.Covers ⟨t :: ts, [.name t.lexeme], t.span⟩ :=
    Node.covers_of_reads (reads_cons.2 ⟨t, ts, rfl, ⟨word, rfl⟩, nofun, nofun, Reads.nil ts⟩)
      (.token t ts)
  have none_read : Behind (t :: ts) t.span ts ∧ (([] : List TypeExpr) = [] → ts = ts)
      ∧ ∀ node ∈ calledNodes ⟨t.lexeme, t.span⟩ [] (t :: ts), node.Covers :=
    ⟨.token t ts, fun _ => rfl, List.forall_mem_cons.2 ⟨own, List.forall_mem_nil _⟩⟩
  unfold callTypeArgs at h
  split at h
  · rename_i args close behind found
    by_cases called : nextKind behind = .leftParen
    · rw [if_pos called] at h
      cases h
      obtain ⟨first, more, rfl, -⟩ := (passesTypes _).args found
      obtain ⟨hbehind, covers⟩ := (typesCover _).args neat.tail found
      exact ⟨hbehind.of_suffix (List.suffix_cons t ts), nofun, List.forall_mem_cons.2 ⟨own, covers⟩⟩
    · rw [if_neg called] at h
      cases h
      exact none_read
  · cases h
    exact none_read

/-! ## §3. Expressions. -/

/-- **An expression read from the tokens covers them**, and so does everything inside it. -/
structure Covered (ts : List Token) (e : Expr) (rest : List Token) : Prop where
  reads : Reads ts e.yield rest
  region : Region ts rest e.span
  nodes : ∀ node ∈ e.nodes ts, node.Covers

/-- What all readers keep with `n` rounds.  The left side of a loop is an expression read
from earlier tokens. -/
structure Covering (n : Nat) : Prop where
  expr : ∀ {least ts e rest}, Neat ts → least ≤ postfixPower → expr n least ts = .ok (e, rest) →
    Covered ts e rest
  operand : ∀ {ts e rest}, Neat ts → operand n ts = .ok (e, rest) → Covered ts e rest
  extend : ∀ {least ts left mid e rest}, Neat ts → least ≤ postfixPower →
    LeftSide least left mid → Covered ts left mid → extend n least left mid = .ok (e, rest) →
    Covered ts e rest
  arguments : ∀ {ts args rest}, Neat ts → arguments n ts = .ok (args, rest) →
    ∀ node ∈ Argument.nodesOf args ts, node.Covers
  argumentList : ∀ {ts args rest}, Neat ts → argumentList n ts = .ok (args, rest) →
    ∀ node ∈ Argument.nodesOf args ts, node.Covers

variable {e left left' : Expr}

theorem Covered.intro {inside : List Node} (reads : Reads ts e.yield rest)
    (region : Region ts rest e.span) (nodes : e.nodes ts = ⟨ts, e.yield, e.span⟩ :: inside)
    (covers : ∀ node ∈ inside, node.Covers) : Covered ts e rest := by
  refine ⟨reads, region, ?_⟩
  rw [nodes]
  exact List.forall_mem_cons.2 ⟨Node.covers_of_reads reads region, covers⟩

/-- A left side that has grown: the nodes inside are its own and those behind the symbols `ss`. -/
theorem Covered.grow (covered : Covered ts left mid) (inside : List Token → List Node)
    (ss : List Symbol) (reads : Reads ts e.yield rest) (region : Region ts rest e.span)
    (nodes : e.nodes ts
      = ⟨ts, e.yield, e.span⟩ :: (left.nodes ts ++ inside (past ts (left.yield ++ ss))))
    (covers : ∀ node ∈ inside (past mid ss), node.Covers) : Covered ts e rest := by
  rw [covered.reads.past_append] at nodes
  exact .intro reads region nodes (List.forall_mem_append.2 ⟨covered.nodes, covers⟩)

theorem Operand.covered (below : Covering n) (neat : Neat ts) (h : Operand n ts e rest) :
    Covered ts e rest := by
  have reads := (h.sound (Binding.sound n) neat.wordy).1
  cases h with
  | @unary t ts op inner rest sign read =>
      have covered := below.expr neat.tail (by decide) read
      have region := (Region.token t ts).append neat covered.region List.suffix_rfl
      exact .intro reads region rfl covered.nodes
  | @literal t ts value literal read =>
      exact .intro reads (.token t _) rfl (List.forall_mem_nil _)
  | @ident t ts typeArgs last rest word read =>
      obtain ⟨behind, none_left, covers⟩ := callTypeArgs_covers neat word read
      refine .intro reads ?_ rfl covers
      cases typeArgs with
      | nil =>
          obtain rfl := none_left rfl
          exact .token t _
      | cons first more => exact (Region.token t ts).merge_last neat behind behind.tail
  | @paren t ts inner close rest opened read closed =>
      have covered := below.expr neat.tail (by decide) read
      have region := (Region.token t ts).append neat (.token close rest) covered.reads.suffix
      exact .intro reads region rfl covered.nodes

/-- **One form more**: the left side ends where the form starts, and the two together are
merged. -/
theorem Extends.covered (below : Covering n) {least : Nat} (neat : Neat ts)
    (side : LeftSide least left mid) (covered : Covered ts left mid)
    (h : Extends n least left mid left' rest) : Covered ts left' rest := by
  have neat_mid := neat.suffix covered.reads.suffix
  have reads : Reads ts left'.yield rest := by
    obtain ⟨-, ss, yield, reads⟩ := h.sound (Binding.sound n) neat_mid.wordy side
    rw [yield]
    exact covered.reads.append reads
  cases h with
  | @member dot name ts₁ typeArgs last rest tight mark word read =>
      obtain ⟨⟨t, rfl, ht⟩, -, covers⟩ := callTypeArgs_covers neat_mid.tail word read
      have region := covered.region.append neat (.token t rest) (ht.trans (List.suffix_cons dot _))
      exact covered.grow (calledNodes ⟨name.lexeme, name.span⟩ typeArgs) [.mark .dot] reads region
        rfl covers
  | @call opened ts₁ args close rest tight mark read closed =>
      have readArgs := ((Binding.sound n).arguments neat_mid.wordy.tail read).1
      have region := covered.region.append neat (.token close rest)
        (readArgs.suffix.trans (List.suffix_cons opened ts₁))
      exact covered.grow (Argument.nodesOf args) [.mark .leftParen] reads region rfl
        (below.arguments neat_mid.tail read)
  | @index opened ts₁ index close rest tight mark read closed =>
      have inner := below.expr neat_mid.tail (by decide) read
      have region := covered.region.append neat (.token close rest)
        (inner.reads.suffix.trans (List.suffix_cons opened ts₁))
      exact covered.grow index.nodes [.mark .leftBracket] reads region rfl inner.nodes
  | @assign sign ts₁ value rest tight mark read =>
      have right := below.expr neat_mid.tail (by decide) read
      have region := covered.region.append neat right.region (List.suffix_cons sign ts₁)
      exact covered.grow value.nodes [.mark .equal] reads region rfl right.nodes
  | @binary mid op start right rest tight mark read =>
      have readOp := operator?_reads mark
      have covers := below.expr (neat_mid.suffix readOp.suffix)
        (Nat.le_of_lt (power_lt_postfixPower op).2) read
      have region := covered.region.append neat covers.region readOp.suffix
      refine covered.grow right.nodes (operatorYield op) reads region rfl ?_
      rw [readOp.past_eq]
      exact covers.nodes

theorem extend_covered (below : Covering n) {least : Nat} (neat : Neat ts)
    (bound : least ≤ postfixPower) (side : LeftSide least left mid) (covered : Covered ts left mid)
    (h : extend (n + 1) least left mid = .ok (e, rest)) : Covered ts e rest := by
  rcases extend_eq_ok h with ⟨-, rfl, rfl⟩ | ⟨left', mid', grows, h⟩
  · exact covered
  · have wordy := (neat.suffix covered.reads.suffix).wordy
    have side' := (grows.sound (sound n) wordy side).1
    exact below.extend neat bound side' (grows.covered below neat side covered) h

theorem expr_covered (below : Covering n) {least : Nat} (neat : Neat ts)
    (bound : least ≤ postfixPower) (h : expr (n + 1) least ts = .ok (e, rest)) :
    Covered ts e rest := by
  rw [expr] at h
  obtain ⟨⟨left, mid⟩, readLeft, h⟩ := exists_ok_of_bind h
  have side := ((sound n).operand neat.wordy readLeft).2 least
  exact below.extend neat bound side (below.operand neat readLeft) h

/-! ## §4. Arguments. -/

/-- **An argument**, by position or with its name and a colon in front, is merged of its first
token and its value. -/
theorem argument_covered (below : Covering n) {start : List Token} {name : Option Ident}
    {value : Expr} (neat : Neat ts) (named : argumentName ts = (name, start))
    (read : expr n 0 start = .ok (value, rest)) :
    Reads ts (Argument.mk name value ((next ts).span.merge value.span)).yield rest
      ∧ ∀ node ∈ (Argument.mk name value ((next ts).span.merge value.span)).nodes ts,
        node.Covers := by
  rcases argumentName_cases ts with ⟨word, colon, more, rfl, isWord, isColon, found⟩ | ⟨-, found⟩
  · cases found.symm.trans named
    have covered := below.expr neat.tail.tail (by decide) read
    have reads := argumentName_reads (word.span.merge value.span) named covered.reads
    have region := covered.region.from_next neat
      ((List.suffix_cons colon start).trans (List.suffix_cons word _))
    refine ⟨reads, List.forall_mem_cons.2 ⟨Node.covers_of_reads reads region,
      List.forall_mem_cons.2 ⟨?_, covered.nodes⟩⟩⟩
    exact Node.covers_of_reads
      (reads_cons.2 ⟨word, _, rfl, ⟨isWord, rfl⟩, nofun, nofun, Reads.nil _⟩) (.token word _)
  · cases found.symm.trans named
    have covered := below.expr neat (by decide) read
    have region := covered.region.from_next neat List.suffix_rfl
    exact ⟨covered.reads,
      List.forall_mem_cons.2 ⟨Node.covers_of_reads covered.reads region, covered.nodes⟩⟩

theorem argumentList_covers (below : Covering n) {args : List Argument} (neat : Neat ts)
    (h : argumentList (n + 1) ts = .ok (args, rest)) :
    ∀ node ∈ Argument.nodesOf args ts, node.Covers := by
  obtain ⟨name, start, value, more, mid, named, read, rfl, tail⟩ := argumentList_eq_ok h
  obtain ⟨reads, covers⟩ := argument_covered below neat named read
  rcases tail with ⟨rfl, rfl⟩ | ⟨comma, mid, rfl, isComma, readMore⟩
  · exact List.forall_mem_append.2 ⟨covers, List.forall_mem_nil _⟩
  · refine List.forall_mem_append.2 ⟨covers, ?_⟩
    rw [reads.past_append]
    exact below.argumentList (neat.suffix reads.suffix).tail readMore

/-- **Every reader keeps its promise.** -/
theorem covering (n : Nat) : Covering n := by
  induction n with
  | zero =>
      constructor
      · intro least ts e rest _ _ h
        cases h
      · intro ts e rest _ h
        cases ts <;> cases h
      · intro least ts left mid e rest _ _ _ _ h
        cases h
      · intro ts args rest _ h
        cases h
      · intro ts args rest _ h
        cases h
  | succ n below =>
      constructor
      · exact expr_covered below
      · exact fun neat h => (operand_eq_ok h).covered below neat
      · exact extend_covered below
      · intro ts args rest neat h
        rcases arguments_eq_ok h with ⟨-, rfl, rfl⟩ | h
        · exact List.forall_mem_nil _
        · exact below.argumentList neat h
      · exact argumentList_covers below

/-! ## §5. Whole bindings. -/

/-- The first and the last token of a node are the ends of its region. -/
theorem Node.Covers.exists_ends {node : Node} (h : node.Covers) :
    ∃ first last, node.own.head? = some first ∧ node.own.getLast? = some last
      ∧ node.span.place = first.span.place
      ∧ (first.span.line = last.span.line → node.span.endCol = last.span.endCol) := by
  obtain ⟨first, more, last, hfirst, ⟨front, hlast⟩, hplace, hend⟩ := h.region
  have hsplit : node.own ++ node.rest = node.tokens := List.take_append_drop _ _
  have hown : node.own = front ++ [last] := by
    rw [← hsplit, List.append_cons] at hlast
    exact (List.append_cancel_right hlast).symm
  refine ⟨first, last, ?_, ?_, hplace, hend⟩
  · rw [hfirst, hown] at hsplit
    rw [hown]
    cases front with
    | nil => exact congrArg some (List.cons.inj hsplit).1
    | cons t front => exact congrArg some (List.cons.inj hsplit).1
  · rw [hown, List.getLast?_concat]

/-- **The regions of a tree cover its text.**  The nodes of an accepted binding, of which none
is left out, are written with tokens that are laid in its text.  Each node starts at the line
and the column of its first token; in a binding of one line it ends where its last token ends,
and in any binding if these two tokens are on one line. -/
theorem nodes_cover_tokens {source : String} {e : Expr} (h : parse source = .ok e) :
    ∃ ts stop, lex source = .ok (ts ++ [Token.eof stop])
      ∧ LaidOut .start source.toList (ts ++ [Token.eof stop])
      ∧ Spells (ts ++ [Token.eof stop]) e.yield [Token.eof stop]
      ∧ ((e.nodes (ts ++ [Token.eof stop])).map Node.span).Perm e.spans
      ∧ ∀ node ∈ e.nodes (ts ++ [Token.eof stop]),
        node.tokens <:+ ts ++ [Token.eof stop] ∧ Spells node.tokens node.symbols node.rest
          ∧ ∃ first last, node.own.head? = some first ∧ node.own.getLast? = some last
            ∧ node.span.place = first.span.place
            ∧ (first.span.line = last.span.line → node.span.endCol = last.span.endCol)
            ∧ ('\n' ∉ source.toList →
              node.span.line = last.span.line ∧ node.span.endCol = last.span.endCol) := by
  obtain ⟨n, ts, stop, lexes, lexed, read⟩ := parse_eq_ok h
  have laid := (lex_meets source).of_ok lexes
  have neat : Neat (ts ++ [Token.eof stop]) := ⟨wordy_of_lexed lexed, laid.cleared⟩
  have covered := (covering n).expr neat (by decide) read
  refine ⟨ts, stop, lexes, laid, covered.reads.spells, e.map_span_nodes _, fun node hnode => ?_⟩
  have within := e.nodes_within (ts ++ [Token.eof stop]) node hnode
  have covers := covered.nodes node hnode
  obtain ⟨first, last, hfirst, hlast, hplace, hend⟩ := covers.exists_ends
  refine ⟨within, covers.spells, first, last, hfirst, hlast, hplace, hend, fun one_line => ?_⟩
  have own_line : ∀ t ∈ node.own, t.span.line = 1 := fun t ht =>
    laid.line_eq one_line t (within.subset (List.mem_of_mem_take ht))
  have hline : first.span.line = last.span.line := by
    rw [own_line first (List.mem_of_mem_head? hfirst), own_line last (List.mem_of_getLast? hlast)]
  exact ⟨(congrArg Prod.fst hplace).trans hline, hend hline⟩

/-- In `sampleText` all nodes cover their tokens, the types in angle brackets, the named
argument and the shift among them. -/
theorem nodes_cover_tokens_sample :
    parse sampleText = .ok sampleTree
      ∧ ∃ ts stop, lex sampleText = .ok (ts ++ [Token.eof stop])
        ∧ ∀ node ∈ sampleTree.nodes (ts ++ [Token.eof stop]),
          ∃ first last, node.own.head? = some first ∧ node.own.getLast? = some last
            ∧ node.span.place = first.span.place
            ∧ node.span.line = last.span.line ∧ node.span.endCol = last.span.endCol := by
  have one_line : '\n' ∉ sampleText.toList := by decide
  obtain ⟨ts, stop, lexes, -, -, -, covers⟩ := nodes_cover_tokens parse_sampleText
  refine ⟨parse_sampleText, ts, stop, lexes, fun node hnode => ?_⟩
  obtain ⟨-, -, first, last, hfirst, hlast, hplace, -, hends⟩ := covers node hnode
  exact ⟨first, last, hfirst, hlast, hplace, hends one_line⟩

end BoundMarkup.Binding
