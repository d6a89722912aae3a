/-
  BoundMarkup.Proofs.Binding.TypeArguments
  ────────────────────────────────────────
  **TYPES IN ANGLE BRACKETS ARE READ EXACTLY WHERE THEY STAND.**

  After a name, `<` is tried as the start of a list of types, and the attempt is
  taken back where it does not lead to `(`.  Which attempts succeed depends on the
  kinds of the tokens alone, so both directions are proved about kinds first:

    • `typeArgs?_reads` — what is read is a list of types, spelled by its tokens,
    • `typeArgs?_complete` — where the kinds of a list stand, a list is read,
    • `callTypeArgs_reads`, `callTypeArgs_complete` — hence the attempt after a
      name succeeds exactly where the kinds open a call.
-/
import BoundMarkup.Proofs.Binding.Yield

namespace BoundMarkup.Binding

/-! ## §1. Dotted names. -/

/-- Identifiers are single words, without a dot. -/
def Wordy (ts : List Token) : Prop := ∀ t ∈ ts, t.kind = .identifier → '.' ∉ t.lexeme.toList

theorem Wordy.tail {t : Token} {ts : List Token} (h : Wordy (t :: ts)) : Wordy ts :=
  fun u hu => h u (List.mem_cons_of_mem t hu)

theorem Reads.wordy {ts rest : List Token} {ss : List Symbol} (h : Reads ts ss rest)
    (wordy : Wordy ts) : Wordy rest := by
  rw [h.spells.rest_eq]
  exact fun t ht => wordy t (List.mem_of_mem_drop ht)

/-- A name continued by dotted parts. -/
def dotted (name : String) (parts : List String) : String :=
  parts.foldl (fun name part => name ++ "." ++ part) name

theorem toList_dotted (name : String) (parts : List String) :
    (dotted name parts).toList = name.toList ++ (parts.map String.toList).flatMap ('.' :: ·) := by
  induction parts generalizing name with
  | nil => simp [dotted]
  | cons part parts ih =>
      have := ih (name ++ "." ++ part)
      simp_all [dotted]

theorem nameYield_word {word : String} (h : '.' ∉ word.toList) : nameYield word = [.name word] := by
  simp [nameYield, Text.segments, Text.segmentChars_of_not_mem h, dotYield]

theorem nameYield_append (name : String) {part : String} (h : '.' ∉ part.toList) :
    nameYield (name ++ "." ++ part) = nameYield name ++ [.mark .dot, .name part] := by
  have split : Text.segments '.' (name ++ "." ++ part) = Text.segments '.' name ++ [part] := by
    simp [Text.segments, Text.segmentChars_append, Text.segmentChars_of_not_mem h]
  unfold nameYield
  rw [split]
  cases found : Text.segments '.' name with
  | nil =>
      -- A text has one segment at least.
      simp [Text.segments, Text.segmentChars_ne_nil] at found
  | cons first rest => simp [dotYield]

theorem nameYield_dotted (name : String) {parts : List String}
    (h : ∀ part ∈ parts, '.' ∉ part.toList) :
    nameYield (dotted name parts) = nameYield name ++ dotYield parts := by
  induction parts generalizing name with
  | nil => simp [dotted, dotYield]
  | cons part parts ih =>
      have := ih (name ++ "." ++ part) (fun p hp => h p (List.mem_cons_of_mem part hp))
      rw [nameYield_append name (h part List.mem_cons_self)] at this
      simpa [dotted, dotYield] using this

/-- The yield of a name lists the words that make up the name. -/
theorem exists_nameYield_eq (name : String) :
    ∃ word parts, nameYield name = .name word :: dotYield parts ∧ dotted word parts = name := by
  cases found : Text.segmentChars '.' name.toList with
  | nil => exact absurd found (Text.segmentChars_ne_nil _ _)
  | cons first rest =>
      refine ⟨String.ofList first, rest.map String.ofList, ?_, ?_⟩
      · simp [nameYield, Text.segments, found]
      · have join := Text.segmentChars_join found
        apply String.toList_inj.1
        rw [toList_dotted, ← join]
        simp

theorem dottedName_reads {name name' : String} {last last' : Span} {ts rest : List Token}
    (h : dottedName name last ts = (name', last', rest)) :
    ∃ parts, name' = dotted name parts ∧ Reads ts (dotYield parts) rest
      ∧ (Wordy ts → ∀ part ∈ parts, '.' ∉ part.toList) := by
  fun_induction dottedName name last ts with
  | case1 name last d i ts kinds ih =>
      obtain ⟨parts, rfl, reads, words⟩ := ih h
      refine ⟨i.lexeme :: parts, rfl, ?_, fun wordy => ?_⟩
      · simp only [dotYield, List.flatMap_cons, List.cons_append, List.nil_append, reads_mark]
        exact ⟨d, i :: ts, rfl, kinds.1, reads_cons.2 ⟨i, ts, rfl, ⟨kinds.2, rfl⟩, by simp,
          by simp [Symbol.isPlain], reads⟩⟩
      · refine List.forall_mem_cons.2 ⟨?_, words wordy.tail.tail⟩
        exact wordy i (by simp) kinds.2
  | case2 | case3 =>
      cases h
      exact ⟨[], rfl, Reads.nil _, by simp⟩

/-- Where the kinds of dotted parts stand, they are read; the name is theirs. -/
theorem dottedName_complete (parts : List String) (name : String) (last : Span)
    {ts : List Token} {ks : List TokenKind}
    (kinds : ts.map Token.kind = (dotYield parts).map Symbol.kind ++ ks)
    (ends : ks.head? ≠ some .dot) :
    ∃ name' last' rest, dottedName name last ts = (name', last', rest)
      ∧ rest.map Token.kind = ks
      ∧ ∀ rest', Reads ts (dotYield parts) rest' → rest = rest' ∧ name' = dotted name parts := by
  induction parts generalizing name last ts with
  | nil =>
      replace kinds : ts.map Token.kind = ks := kinds
      have stop : dottedName name last ts = (name, last, ts) := by
        unfold dottedName
        split
        · rw [if_neg]
          rintro ⟨dot, -⟩
          exact ends (by simp [← kinds, dot])
        · rfl
      exact ⟨name, last, ts, stop, kinds, fun rest' reads => ⟨reads_nil.1 reads, rfl⟩⟩
  | cons part parts ih =>
      obtain ⟨d, ts, rfl, dot, kinds⟩ := List.map_eq_cons_iff.1 kinds
      obtain ⟨i, ts, rfl, word, kinds⟩ := List.map_eq_cons_iff.1 kinds
      obtain ⟨name', last', rest, found, left, same⟩ :=
        ih (name ++ "." ++ i.lexeme) i.span kinds
      refine ⟨name', last', rest, ?_, left, fun rest' reads => ?_⟩
      · rw [dottedName, if_pos ⟨dot, word⟩, found]
      · obtain ⟨rfl, rfl⟩ := same rest' reads.2.2.2.2.2.2
        exact ⟨rfl, by rw [reads.2.2.2.1.2]; rfl⟩

/-! ## §2. Suffixes. -/

theorem typeSuffixes_reads {last last' : Span} {ts rest : List Token} {suffixes : List TypeSuffix}
    (h : typeSuffixes last ts = (suffixes, last', rest)) :
    Reads ts (suffixes.flatMap suffixYield) rest := by
  fun_induction typeSuffixes last ts generalizing suffixes with
  | case1 last a b ts kinds suffixes' last'' rest' found ih =>
      cases h
      simp only [List.flatMap_cons, suffixYield, List.cons_append, List.nil_append, reads_mark]
      exact ⟨a, b :: ts, rfl, kinds.1, b, ts, rfl, kinds.2, ih found⟩
  | case2 last a b ts kinds question suffixes' last'' rest' found ih =>
      cases h
      simp only [List.flatMap_cons, suffixYield, List.cons_append, List.nil_append, reads_mark]
      exact ⟨a, b :: ts, rfl, question, ih found⟩
  | case3 | case4 =>
      cases h
      exact Reads.nil _

/-- What follows a type in a list. -/
def EndsType (ks : List TokenKind) : Prop :=
  ks.head? = some .comma ∨ ks.head? = some .greater

theorem typeSuffixes_complete (suffixes : List TypeSuffix) (last : Span) {ts : List Token}
    {ks : List TokenKind}
    (kinds : ts.map Token.kind = (suffixes.flatMap suffixYield).map Symbol.kind ++ ks)
    (ends : EndsType ks) :
    ∃ last' rest, typeSuffixes last ts = (suffixes, last', rest) ∧ rest.map Token.kind = ks := by
  induction suffixes generalizing last ts with
  | nil =>
      refine ⟨last, ts, ?_, kinds⟩
      replace kinds : ts.map Token.kind = ks := kinds
      subst kinds
      unfold typeSuffixes
      split
      · simp only [EndsType, List.map_cons, List.head?_cons, Option.some.injEq] at ends
        rcases ends with ends | ends <;> simp [ends]
      · rfl
  | cons suffix suffixes ih =>
      cases suffix with
      | array =>
          obtain ⟨a, ts, rfl, opened, kinds⟩ := List.map_eq_cons_iff.1 kinds
          obtain ⟨b, ts, rfl, closed, kinds⟩ := List.map_eq_cons_iff.1 kinds
          obtain ⟨last', rest, found, left⟩ := ih b.span kinds
          refine ⟨last', rest, ?_, left⟩
          rw [typeSuffixes, if_pos ⟨opened, closed⟩, found]
      | nullable =>
          obtain ⟨a, ts, rfl, question, kinds⟩ := List.map_eq_cons_iff.1 kinds
          obtain ⟨last', rest, found, left⟩ := ih a.span kinds
          refine ⟨last', rest, ?_, left⟩
          cases ts with
          | nil =>
              -- A list ends in a bracket, so something stands behind the suffix.
              rcases ends with ends | ends <;>
                simp [List.eq_nil_of_append_eq_nil kinds.symm] at ends
          | cons b ts =>
              replace question : a.kind = .question := question
              rw [typeSuffixes, if_neg (by simp [question]), if_pos question, found]

/-! ## §3. What is read is a type. -/

/-- What reading passed over: symbols that have the kinds of some tree, and are those of
the answer `x` where identifiers are words. -/
def Passed {α : Type} (symbols : α → List Symbol) (x : α) (ts rest : List Token) : Prop :=
  ∃ ss, Reads ts ss rest ∧ (∃ y, ss.map Symbol.kind = (symbols y).map Symbol.kind)
    ∧ (Wordy ts → ss = symbols x)

/-- The symbols of a nonempty list of types, without its brackets. -/
def typesYield (types : TypeExpr × List TypeExpr) : List Symbol :=
  types.1.yield ++ TypeExpr.tailYield types.2

/-- The symbols of a nonempty list of types, with its brackets. -/
def bracketYield (types : TypeExpr × List TypeExpr) : List Symbol :=
  TypeExpr.listYield (types.1 :: types.2)

theorem bracketYield_eq (types : TypeExpr × List TypeExpr) :
    bracketYield types = .mark .less :: (typesYield types ++ [.mark .greater]) := rfl

/-- The three readers of types pass over what they answer. -/
structure PassesTypes (n : Nat) : Prop where
  type : ∀ {ts rest t}, typeExpr? n ts = some (t, rest) → Passed TypeExpr.yield t ts rest
  args : ∀ {ts rest args last}, typeArgs? n ts = some (args, last, rest) →
    ∃ t more, args = t :: more ∧ Passed bracketYield (t, more) ts rest
  list : ∀ {ts rest types}, typeList? n ts = some (types, rest) →
    ∃ t more, types = t :: more ∧ Passed typesYield (t, more) ts rest

/-- A type is a dotted name, a list of types or none, and suffixes. -/
theorem typeExpr?_eq_some {n : Nat} {ts rest : List Token} {t : TypeExpr}
    (h : typeExpr? (n + 1) ts = some (t, rest)) :
    ∃ first ts₀ name args suffixes last₁ ts₁ last₂ ts₂ last₃, ts = first :: ts₀
      ∧ first.kind = .identifier ∧ t = .mk name args suffixes (first.span.merge last₃)
      ∧ dottedName first.lexeme first.span ts₀ = (name, last₁, ts₁)
      ∧ (args = [] ∧ last₂ = last₁ ∧ ts₂ = ts₁ ∨ typeArgs? n ts₁ = some (args, last₂, ts₂))
      ∧ typeSuffixes last₂ ts₂ = (suffixes, last₃, rest) := by
  cases ts with
  | nil => simp [typeExpr?] at h
  | cons first ts₀ =>
      rw [typeExpr?] at h
      split at h
      · cases h
      · rename_i word
        rcases named : dottedName first.lexeme first.span ts₀ with ⟨name, last₁, ts₁⟩
        rw [named] at h
        obtain ⟨⟨args, last₂, ts₂⟩, readArgs, done⟩ := Option.bind_eq_some_iff.1 h
        rcases suffixed : typeSuffixes last₂ ts₂ with ⟨suffixes, last₃, ts₃⟩
        simp only [suffixed, Option.some.injEq, Prod.mk.injEq] at done
        obtain ⟨rfl, rfl⟩ := done
        refine ⟨first, ts₀, name, args, suffixes, last₁, ts₁, last₂, ts₂, last₃, rfl,
          Decidable.not_not.1 word, rfl, named, ?_, suffixed⟩
        split at readArgs
        · exact Or.inr readArgs
        · cases readArgs
          exact Or.inl ⟨rfl, rfl, rfl⟩

/-- A list in brackets is a list of types between `<` and `>`. -/
theorem typeArgs?_eq_some {n : Nat} {ts rest : List Token} {args : List TypeExpr} {last : Span}
    (h : typeArgs? (n + 1) ts = some (args, last, rest)) :
    ∃ opened ts₀ close, ts = opened :: ts₀ ∧ opened.kind = .less
      ∧ typeList? n ts₀ = some (args, close :: rest) ∧ close.kind = .greater
      ∧ last = close.span := by
  cases ts with
  | nil => simp [typeArgs?] at h
  | cons opened ts₀ =>
      rw [typeArgs?] at h
      split at h
      · cases h
      · rename_i less
        obtain ⟨⟨args', ts'⟩, readList, done⟩ := Option.bind_eq_some_iff.1 h
        cases ts' with
        | nil => cases done
        | cons close ts' =>
            simp only [Option.ite_none_right_eq_some, Option.some.injEq, Prod.mk.injEq] at done
            obtain ⟨greater, rfl, rfl, rfl⟩ := done
            exact ⟨opened, ts₀, close, rfl, Decidable.not_not.1 less, readList, greater, rfl⟩

/-- A list of types is one type, or a type with a comma and a list behind it. -/
theorem typeList?_eq_some {n : Nat} {ts rest : List Token} {types : List TypeExpr}
    (h : typeList? (n + 1) ts = some (types, rest)) :
    ∃ t mid, typeExpr? n ts = some (t, mid)
      ∧ (types = [t] ∧ rest = mid
        ∨ ∃ comma mid' more, mid = comma :: mid' ∧ comma.kind = .comma
          ∧ typeList? n mid' = some (more, rest) ∧ types = t :: more) := by
  rw [typeList?] at h
  obtain ⟨⟨t, mid⟩, readType, done⟩ := Option.bind_eq_some_iff.1 h
  refine ⟨t, mid, readType, ?_⟩
  cases mid with
  | nil =>
      cases done
      exact Or.inl ⟨rfl, rfl⟩
  | cons comma mid' =>
      dsimp only at done
      split at done
      · rename_i isComma
        obtain ⟨⟨more, rest'⟩, readMore, found⟩ := Option.map_eq_some_iff.1 done
        cases found
        exact Or.inr ⟨comma, mid', more, rfl, isComma, readMore, rfl⟩
      · cases done
        exact Or.inl ⟨rfl, rfl⟩

/-- The kinds of a dotted name do not depend on its words. -/
theorem map_kind_dotYield (parts : List String) :
    (dotYield (parts.map fun _ => "")).map Symbol.kind = (dotYield parts).map Symbol.kind := by
  induction parts with
  | nil => rfl
  | cons part parts ih => simp_all [dotYield]

theorem typeExpr?_passed {n : Nat} (below : PassesTypes n) {ts rest : List Token} {t : TypeExpr}
    (h : typeExpr? (n + 1) ts = some (t, rest)) : Passed TypeExpr.yield t ts rest := by
  obtain ⟨first, ts, name, args, suffixes, last₁, ts₁, last₂, ts₂, last₃, rfl, word, rfl,
    named, readArgs, suffixed⟩ := typeExpr?_eq_some h
  obtain ⟨parts, rfl, readParts, words⟩ := dottedName_reads named
  have readSuffixes := typeSuffixes_reads suffixed
  have readArgs : ∃ ss, Reads ts₁ ss ts₂
      ∧ (∃ args₀, ss.map Symbol.kind = (TypeExpr.listYield args₀).map Symbol.kind)
      ∧ (Wordy ts₁ → ss = TypeExpr.listYield args) := by
    rcases readArgs with ⟨rfl, -, rfl⟩ | readArgs
    · exact ⟨[], Reads.nil _, ⟨[], rfl⟩, fun _ => rfl⟩
    · obtain ⟨t, more, rfl, ss, reads, ⟨y, kinds⟩, same⟩ := below.args readArgs
      exact ⟨ss, reads, ⟨y.1 :: y.2, kinds⟩, same⟩
  obtain ⟨ss, readArgs, ⟨args₀, kinds⟩, same⟩ := readArgs
  refine ⟨.name first.lexeme :: dotYield parts ++ ss ++ suffixes.flatMap suffixYield,
    ?_, ?_, fun wordy => ?_⟩
  · refine ((Reads.append ?_ readArgs).append readSuffixes)
    exact reads_cons.2 ⟨first, ts, rfl, ⟨word, rfl⟩, by simp, by simp, readParts⟩
  · -- The same type over empty words, which are free of dots.
    refine ⟨.mk (dotted "" (parts.map fun _ => "")) args₀ suffixes .start, ?_⟩
    rw [TypeExpr.yield, nameYield_dotted "" (by simp +contextual), nameYield_word (by simp)]
    simp only [List.map_append, List.map_cons, List.cons_append, List.nil_append, kinds,
      map_kind_dotYield, Symbol.kind_name]
  · rw [TypeExpr.yield, nameYield_dotted first.lexeme (words wordy.tail),
      nameYield_word (wordy first List.mem_cons_self word), same (readParts.wordy wordy.tail)]
    rfl

theorem typeArgs?_passed {n : Nat} (below : PassesTypes n) {ts rest : List Token}
    {args : List TypeExpr} {last : Span} (h : typeArgs? (n + 1) ts = some (args, last, rest)) :
    ∃ t more, args = t :: more ∧ Passed bracketYield (t, more) ts rest := by
  obtain ⟨opened, ts, close, rfl, less, readList, greater, -⟩ := typeArgs?_eq_some h
  obtain ⟨t, more, rfl, ss, reads, ⟨y, kinds⟩, same⟩ := below.list readList
  refine ⟨t, more, rfl, .mark .less :: (ss ++ [.mark .greater]), ?_, ⟨y, ?_⟩, ?_⟩
  · exact reads_mark.2 ⟨opened, ts, rfl, less,
      reads.append (reads_mark.2 ⟨close, rest, rfl, greater, Reads.nil _⟩)⟩
  · rw [bracketYield_eq]
    simp [kinds]
  · intro wordy
    rw [bracketYield_eq, same wordy.tail]

theorem typeList?_passed {n : Nat} (below : PassesTypes n) {ts rest : List Token}
    {types : List TypeExpr} (h : typeList? (n + 1) ts = some (types, rest)) :
    ∃ t more, types = t :: more ∧ Passed typesYield (t, more) ts rest := by
  obtain ⟨t, mid, readType, tail⟩ := typeList?_eq_some h
  obtain ⟨ss, reads, ⟨t₀, kinds⟩, same⟩ := below.type readType
  rcases tail with ⟨rfl, rfl⟩ | ⟨comma, mid', types', rfl, isComma, readMore, rfl⟩
  · refine ⟨t, [], rfl, ss, reads, ⟨(t₀, []), ?_⟩, fun wordy => ?_⟩
    · simp [typesYield, TypeExpr.tailYield, kinds]
    · simp [typesYield, TypeExpr.tailYield, same wordy]
  · obtain ⟨t', more, rfl, ss', reads', ⟨y, kinds'⟩, same'⟩ := below.list readMore
    refine ⟨t, t' :: more, rfl, ss ++ .mark .comma :: ss', ?_, ⟨(t₀, y.1 :: y.2), ?_⟩, ?_⟩
    · exact reads.append (reads_mark.2 ⟨comma, mid', rfl, isComma, reads'⟩)
    · simp [typesYield, TypeExpr.tailYield, kinds, kinds']
    · intro wordy
      rw [same wordy, same' (reads.wordy wordy).tail]
      rfl

/-- **Whatever is read as types is spelled by the tokens passed over.** -/
theorem passesTypes (n : Nat) : PassesTypes n := by
  induction n with
  | zero =>
      constructor
      · intro ts rest t h
        cases ts <;> simp [typeExpr?] at h
      · intro ts rest args last h
        cases ts <;> simp [typeArgs?] at h
      · intro ts rest types h
        simp [typeList?] at h
  | succ n below =>
      exact ⟨typeExpr?_passed below, typeArgs?_passed below, typeList?_passed below⟩

/-! ## §4. Where a type stands, it is read. -/

/-- The answer `y` leaves tokens of the kinds `ks`, and where the symbols of `x` are
spelled it is `x` up to spans. -/
def ReadBack {α : Type} (bare : α → α) (symbols : List Symbol) (x : α) (ts : List Token)
    (ks : List TokenKind) (y : α) (rest : List Token) : Prop :=
  rest.map Token.kind = ks ∧ ∀ rest', Reads ts symbols rest' → rest = rest' ∧ bare y = bare x

/-- The kinds after the name of a type do not continue the name. -/
theorem head?_ne_dot (args : List TypeExpr) (suffixes : List TypeSuffix) {ks : List TokenKind}
    (ends : EndsType ks) :
    ((TypeExpr.listYield args).map Symbol.kind
      ++ ((suffixes.flatMap suffixYield).map Symbol.kind ++ ks)).head? ≠ some .dot := by
  cases args with
  | cons t more => simp [TypeExpr.listYield]
  | nil =>
      cases suffixes with
      | nil => rcases ends with ends | ends <;> simp [TypeExpr.listYield, ends]
      | cons suffix suffixes => cases suffix <;> simp [TypeExpr.listYield, suffixYield]

/-- Without type arguments no `<` follows the name of a type. -/
theorem head?_ne_less (suffixes : List TypeSuffix) {ks : List TokenKind} (ends : EndsType ks) :
    ((suffixes.flatMap suffixYield).map Symbol.kind ++ ks).head? ≠ some .less := by
  cases suffixes with
  | nil => rcases ends with ends | ends <;> simp [ends]
  | cons suffix suffixes => cases suffix <;> simp [suffixYield]

theorem head?_kinds {ts : List Token} {k : TokenKind} (other : k ≠ .eof) :
    (ts.map Token.kind).head? = some k ↔ nextKind ts = k := by
  cases ts with
  | nil => exact iff_of_false nofun other.symm
  | cons t ts => simp [nextKind, next]

theorem length_eq_of_kinds {ts rest : List Token} {ks ks' : List TokenKind}
    (kinds : ts.map Token.kind = ks ++ ks') (left : rest.map Token.kind = ks') :
    ts.length = ks.length + rest.length := by
  rw [← left] at kinds
  simpa using congrArg List.length kinds

theorem typeExpr?_complete_of_args {name : String} {args : List TypeExpr}
    {suffixes : List TypeSuffix} {span : Span} {n : Nat} {ts : List Token} {ks : List TokenKind}
    (readArgs : ∀ {ts : List Token} {ks : List TokenKind}, args ≠ [] →
      ts.map Token.kind = (TypeExpr.listYield args).map Symbol.kind ++ ks → 3 * ts.length ≤ n →
      ∃ args' last rest, typeArgs? n ts = some (args', last, rest)
        ∧ ReadBack TypeExpr.bares (TypeExpr.listYield args) args ts ks args' rest)
    (kinds : ts.map Token.kind = (TypeExpr.mk name args suffixes span).yield.map Symbol.kind ++ ks)
    (ends : EndsType ks) (enough : 3 * ts.length ≤ n + 3) :
    ∃ t' rest, typeExpr? (n + 1) ts = some (t', rest)
      ∧ ReadBack TypeExpr.bare (TypeExpr.mk name args suffixes span).yield
        (.mk name args suffixes span) ts ks t' rest := by
  obtain ⟨word, parts, spelled, joined⟩ := exists_nameYield_eq name
  simp only [TypeExpr.yield, spelled, List.map_append, List.map_cons, List.cons_append,
    List.append_assoc] at kinds
  obtain ⟨first, ts, rfl, isWord, kinds⟩ := List.map_eq_cons_iff.1 kinds
  obtain ⟨name', last₁, ts₁, named, left₁, sameName⟩ :=
    dottedName_complete parts first.lexeme first.span kinds (head?_ne_dot args suffixes ends)
  have shorter := length_eq_of_kinds kinds left₁
  simp only [List.length_cons] at enough
  have readArgs : ∃ args' last₂ ts₂,
      (if nextKind ts₁ = .less then typeArgs? n ts₁ else some ([], last₁, ts₁))
          = some (args', last₂, ts₂)
        ∧ ReadBack TypeExpr.bares (TypeExpr.listYield args) args ts₁
          ((suffixes.flatMap suffixYield).map Symbol.kind ++ ks) args' ts₂ := by
    cases args with
    | nil =>
        -- Without a `<` no list is tried.
        have notLess : nextKind ts₁ ≠ .less := by
          rw [Ne, ← head?_kinds (by decide), left₁]
          exact head?_ne_less suffixes ends
        exact ⟨[], last₁, ts₁, if_neg notLess, left₁, fun rest' reads => ⟨reads_nil.1 reads, rfl⟩⟩
    | cons t more =>
        have less : nextKind ts₁ = .less := (head?_kinds (by decide)).1 (by rw [left₁]; rfl)
        rw [if_pos less]
        exact readArgs (by simp) left₁ (by omega)
  obtain ⟨args', last₂, ts₂, readArgs, left₂, sameArgs⟩ := readArgs
  obtain ⟨last₃, rest, suffixed, left₃⟩ := typeSuffixes_complete suffixes last₂ left₂ ends
  refine ⟨.mk name' args' suffixes (first.span.merge last₃), rest, ?_, left₃, fun rest' reads => ?_⟩
  · rw [typeExpr?, if_neg (by simp [isWord]), named]
    simp only [readArgs, Option.bind_some, suffixed]
  · rw [TypeExpr.yield, reads_append, spelled] at reads
    obtain ⟨mid₂, reads, readSuffixes⟩ := reads
    obtain ⟨mid₁, reads, readArgs⟩ := reads_append.1 reads
    obtain ⟨rfl, sameName⟩ := sameName mid₁ reads.2.2.2
    obtain ⟨rfl, sameArgs⟩ := sameArgs mid₂ readArgs
    refine ⟨(typeSuffixes_reads suffixed).unique readSuffixes, ?_⟩
    rw [TypeExpr.bare, TypeExpr.bare, sameArgs, sameName, reads.1.2, joined]

/-- Types between brackets, given that the list itself is read. -/
theorem typeArgs?_complete_of_list {t : TypeExpr} {more : List TypeExpr} {n : Nat}
    {ts : List Token} {ks : List TokenKind}
    (readList : ∀ {ts : List Token} {ks : List TokenKind},
      ts.map Token.kind = (typesYield (t, more)).map Symbol.kind ++ .greater :: ks →
      3 * ts.length + 2 ≤ n → ∃ types' rest, typeList? n ts = some (types', rest)
        ∧ ReadBack TypeExpr.bares (typesYield (t, more)) (t :: more) ts (.greater :: ks) types' rest)
    (kinds : ts.map Token.kind = (TypeExpr.listYield (t :: more)).map Symbol.kind ++ ks)
    (enough : 3 * ts.length ≤ n + 1) :
    ∃ args' last rest, typeArgs? (n + 1) ts = some (args', last, rest)
      ∧ ReadBack TypeExpr.bares (TypeExpr.listYield (t :: more)) (t :: more) ts ks args' rest := by
  have brackets : TypeExpr.listYield (t :: more) = _ := bracketYield_eq (t, more)
  simp only [brackets, List.map_cons, List.map_append, List.cons_append, List.append_assoc,
    List.map_nil, List.nil_append] at kinds
  obtain ⟨opened, ts, rfl, less, kinds⟩ := List.map_eq_cons_iff.1 kinds
  simp only [List.length_cons] at enough
  obtain ⟨types, rest, found, left, same⟩ := readList kinds (by omega)
  obtain ⟨close, rest, rfl, greater, left⟩ := List.map_eq_cons_iff.1 left
  refine ⟨types, close.span, rest, ?_, left, fun rest' reads => ?_⟩
  · rw [typeArgs?, if_neg (by simp [less]), found]
    simp [greater]
  · rw [brackets] at reads
    obtain ⟨mid, readTypes, readClose⟩ := reads_append.1 reads.2.2.2
    obtain ⟨rfl, sameTypes⟩ := same mid readTypes
    exact ⟨reads_nil.1 readClose.2.2.2, sameTypes⟩

/-- The last type of a list. -/
theorem typeList?_last {n : Nat} {ts rest : List Token} {t : TypeExpr}
    (found : typeExpr? n ts = some (t, rest)) (other : nextKind rest ≠ .comma) :
    typeList? (n + 1) ts = some ([t], rest) := by
  rw [typeList?, found, Option.bind_some]
  cases rest with
  | nil => rfl
  | cons comma rest => exact if_neg other

/-- A type of a list with more behind it. -/
theorem typeList?_cons {n : Nat} {ts rest rest' : List Token} {t : TypeExpr} {comma : Token}
    {more : List TypeExpr} (found : typeExpr? n ts = some (t, comma :: rest))
    (isComma : comma.kind = .comma) (readMore : typeList? n rest = some (more, rest')) :
    typeList? (n + 1) ts = some (t :: more, rest') := by
  rw [typeList?, found, Option.bind_some]
  simp [isComma, readMore]

mutual

theorem typeExpr?_complete : (t : TypeExpr) → ∀ {n : Nat} {ts : List Token} {ks : List TokenKind},
    ts.map Token.kind = t.yield.map Symbol.kind ++ ks → EndsType ks → 3 * ts.length + 1 ≤ n →
    ∃ t' rest, typeExpr? n ts = some (t', rest)
      ∧ ReadBack TypeExpr.bare t.yield t ts ks t' rest
  | .mk name args suffixes span, n, ts, ks, kinds, ends, enough => by
      obtain ⟨n, rfl⟩ : ∃ n', n = n' + 1 := ⟨n - 1, by omega⟩
      refine typeExpr?_complete_of_args ?_ kinds ends (by omega)
      intro ts ks some_args kinds enough
      match args with
      | [] => exact absurd rfl some_args
      | t :: more =>
          have nonempty : 0 < ts.length := by
            have := congrArg List.length kinds
            simp only [TypeExpr.listYield, List.length_map, List.length_append,
              List.length_cons] at this
            omega
          obtain ⟨n, rfl⟩ : ∃ n', n = n' + 1 := ⟨n - 1, by omega⟩
          exact typeArgs?_complete_of_list (typeList?_complete (t :: more) rfl) kinds enough

theorem typeList?_complete : (types : List TypeExpr) → ∀ {t more}, types = t :: more →
    ∀ {n : Nat} {ts : List Token} {ks : List TokenKind},
    ts.map Token.kind = (typesYield (t, more)).map Symbol.kind ++ .greater :: ks →
    3 * ts.length + 2 ≤ n →
    ∃ types' rest, typeList? n ts = some (types', rest)
      ∧ ReadBack TypeExpr.bares (typesYield (t, more)) (t :: more) ts (.greater :: ks) types' rest
  | t :: [], _, _, rfl, n, ts, ks, kinds, enough => by
      obtain ⟨n, rfl⟩ : ∃ n', n = n' + 1 := ⟨n - 1, by omega⟩
      rw [typesYield, TypeExpr.tailYield, List.append_nil] at kinds
      obtain ⟨t', rest, found, left, same⟩ :=
        typeExpr?_complete (n := n) t kinds (Or.inr rfl) (by omega)
      have closes : nextKind rest = .greater := (head?_kinds (by decide)).1 (by rw [left]; rfl)
      refine ⟨[t'], rest, typeList?_last found (by rw [closes]; decide), left, ?_⟩
      intro rest' reads
      rw [typesYield, TypeExpr.tailYield, List.append_nil] at reads
      obtain ⟨rfl, sameType⟩ := same rest' reads
      exact ⟨rfl, by simp only [TypeExpr.bares, sameType]⟩
  | t :: t₂ :: more, _, _, rfl, n, ts, ks, kinds, enough => by
      obtain ⟨n, rfl⟩ : ∃ n', n = n' + 1 := ⟨n - 1, by omega⟩
      have list : typesYield (t, t₂ :: more) = t.yield ++ .mark .comma :: typesYield (t₂, more) := rfl
      rw [list, List.map_append, List.append_assoc] at kinds
      obtain ⟨t', rest, found, left, same⟩ :=
        typeExpr?_complete (n := n) t kinds (Or.inl rfl) (by omega)
      have shorter := length_eq_of_kinds kinds left
      obtain ⟨comma, rest, rfl, isComma, left⟩ := List.map_eq_cons_iff.1 left
      simp only [List.length_cons] at shorter
      obtain ⟨more', rest', readMore, left', sameMore⟩ :=
        typeList?_complete (n := n) (t₂ :: more) rfl left (by omega)
      refine ⟨t' :: more', rest', typeList?_cons found isComma readMore, left', ?_⟩
      intro last reads
      rw [list, reads_append] at reads
      obtain ⟨mid, readType, readMore⟩ := reads
      obtain ⟨rfl, sameType⟩ := same mid readType
      obtain ⟨rfl, sameMore⟩ := sameMore last readMore.2.2.2
      exact ⟨rfl, by rw [TypeExpr.bares, TypeExpr.bares, sameType, sameMore]⟩

end

/-- A list of type arguments is read where its kinds stand. -/
theorem typeArgs?_complete {t : TypeExpr} {more : List TypeExpr} {n : Nat} {ts : List Token}
    {ks : List TokenKind}
    (kinds : ts.map Token.kind = (TypeExpr.listYield (t :: more)).map Symbol.kind ++ ks)
    (enough : 3 * ts.length ≤ n + 1) :
    ∃ args' last rest, typeArgs? (n + 1) ts = some (args', last, rest)
      ∧ ReadBack TypeExpr.bares (TypeExpr.listYield (t :: more)) (t :: more) ts ks args' rest :=
  typeArgs?_complete_of_list (typeList?_complete (t :: more) rfl) kinds enough

/-! ## §5. Type arguments of a call. -/

/-- What stands between a name and `(` if it opens a call. -/
theorem opensCall_of_typeArgs? {n : Nat} {ts rest : List Token} {args : List TypeExpr}
    {last : Span} (found : typeArgs? n ts = some (args, last, rest))
    (called : nextKind rest = .leftParen) : OpensCall (ts.map Token.kind) := by
  obtain ⟨t, more, rfl, ss, reads, ⟨y, kinds⟩, -⟩ := (passesTypes n).args found
  cases rest with
  | nil => cases called
  | cons paren rest =>
      refine ⟨y.1 :: y.2, rest.map Token.kind, by simp, ?_⟩
      rw [reads.spells.kinds_eq, kinds, List.map_cons, ← called]
      rfl

/-- **Where a call is opened, type arguments are read, and a call is opened nowhere else.** -/
theorem callTypeArgs_of_opensCall (last : Span) {ts : List Token}
    (opens : OpensCall (ts.map Token.kind)) :
    ∃ args last' rest, callTypeArgs last ts = (args, last', rest) ∧ nextKind rest = .leftParen
      ∧ typeArgs? (3 * ts.length + 3) ts = some (args, last', rest) := by
  obtain ⟨args, after, some_args, kinds⟩ := opens
  cases args with
  | nil => exact absurd rfl some_args
  | cons t more =>
      obtain ⟨args', last', rest, found, left, -⟩ :=
        typeArgs?_complete (n := 3 * ts.length + 2) kinds (by omega)
      have called : nextKind rest = .leftParen := (head?_kinds (by decide)).1 (by rw [left]; rfl)
      refine ⟨args', last', rest, ?_, called, found⟩
      simp only [callTypeArgs, found, if_pos called]

theorem callTypeArgs_of_not_opensCall (last : Span) {ts : List Token}
    (closed : ¬ OpensCall (ts.map Token.kind)) : callTypeArgs last ts = ([], last, ts) := by
  unfold callTypeArgs
  split
  · rename_i args close rest found
    rw [if_neg]
    exact fun called => closed (opensCall_of_typeArgs? found called)
  · rfl

/-- A name and the type arguments read behind it are those of a yield. -/
theorem callTypeArgs_reads {t : Token} {ts rest : List Token} {args : List TypeExpr}
    {last last' : Span} (word : t.kind = .identifier) (wordy : Wordy ts)
    (h : callTypeArgs last ts = (args, last', rest)) :
    Reads (t :: ts) (calledYield t.lexeme args) rest
      ∧ (args = [] ∨ nextKind rest = .leftParen) := by
  by_cases opens : OpensCall (ts.map Token.kind)
  · obtain ⟨args', last'', rest', found, called, read⟩ := callTypeArgs_of_opensCall last opens
    cases found.symm.trans h
    obtain ⟨first, more, rfl, ss, reads, -, same⟩ := (passesTypes _).args read
    refine ⟨reads_cons.2 ⟨t, ts, rfl, ⟨word, rfl⟩, by simp, by simp, ?_⟩, Or.inr called⟩
    rw [same wordy] at reads
    exact reads
  · cases (callTypeArgs_of_not_opensCall last opens).symm.trans h
    exact ⟨reads_cons.2 ⟨t, ts, rfl, ⟨word, rfl⟩, by simp, fun _ => opens, Reads.nil _⟩, Or.inl rfl⟩

/-- The type arguments of a yield are read behind their name. -/
theorem callTypeArgs_complete {ts rest : List Token} {name : String} {args : List TypeExpr}
    (last : Token → Span) (reads : Reads ts (calledYield name args) rest)
    (called : args = [] ∨ nextKind rest = .leftParen) :
    ∃ t ts' args' last', ts = t :: ts' ∧ t.kind = .identifier ∧ t.lexeme = name
      ∧ callTypeArgs (last t) ts' = (args', last', rest)
      ∧ TypeExpr.bares args' = TypeExpr.bares args := by
  cases args with
  | nil =>
      obtain ⟨t, ts', rfl, word, -, closed, reads⟩ := reads_cons.1 reads
      obtain rfl := reads_nil.1 reads
      exact ⟨t, ts', [], last t, rfl, word.1, word.2,
        callTypeArgs_of_not_opensCall (last t) (closed rfl), rfl⟩
  | cons first more =>
      obtain ⟨t, ts', rfl, word, -, -, reads⟩ := reads_cons.1 reads
      replace called : nextKind rest = .leftParen := called.resolve_left (by simp)
      obtain ⟨args', last', rest', found, -, same⟩ :=
        typeArgs?_complete (n := 3 * ts'.length + 2) reads.spells.kinds_eq (by omega)
      obtain ⟨rfl, same⟩ := same rest reads
      refine ⟨t, ts', args', last', rfl, word.1, word.2, ?_, same⟩
      simp only [callTypeArgs, found, if_pos called]

end BoundMarkup.Binding
