/-
  BoundMarkup.Proofs.Markup.Locations
  ───────────────────────────────────
  **BINDINGS STAND WHERE THEIR SPANS SAY.**

  The pieces that a file is cut into cover their characters, so the bindings of a
  tag and those in text stand in the file (`StandsIn`): behind what opens them
  there is the expression, and the positions of both are their spans.  With the
  positions inside a binding this makes the positions of tokens and of errors
  exact (`binding_positions_exact`).
-/
import BoundMarkup.Proofs.Binding.Bound
import BoundMarkup.Proofs.Binding.Faults
import BoundMarkup.Proofs.Markup.Tiling

namespace BoundMarkup

namespace Markup

/-! ## §1. Bindings in a file. -/

/-- The binding that an attribute is set to. -/
def AttributeValue.bindings : AttributeValue → List BindingSource
  | binding source => [source]
  | bare | text _ => []

def Attribute.bindings (a : Attribute) : List BindingSource := a.value.bindings

/-- The bindings of a token: an inline binding, or those of the attributes of a tag. -/
def Token.bindings : Token → List BindingSource
  | startTag tag => tag.attributes.flatMap Attribute.bindings
  | binding source => [source]
  | directive _ | endTag _ | text _ _ => []

/-- **The binding stands in the file** behind `outer`, and its expression behind `opening`
after that; then there may be blanks, and the closing braces.  Its spans are the positions
of its first brace and of its expression. -/
structure BindingSource.StandsIn (file outer opening : List Char) (b : BindingSource) : Prop where
  text : ∃ braces gap rest, Opens braces b.kind opening ∧ (∀ c ∈ gap, Text.isBlank c = true)
    ∧ file = outer ++ opening ++ b.expression.toList ++ gap ++ braces.closing ++ rest
  span : b.span = (Position.start.after outer).span
  expressionSpan : b.expressionSpan = (Position.start.after (outer ++ opening)).span

/-- All of the bindings stand in the file. -/
def AllStandIn (file : List Char) (bs : List BindingSource) : Prop :=
  ∀ b ∈ bs, ∃ outer opening, b.StandsIn file outer opening

variable {file outer w : List Char}

theorem allStandIn_nil : AllStandIn file [] := nofun

theorem AllStandIn.append {bs bs' : List BindingSource} (h : AllStandIn file bs)
    (h' : AllStandIn file bs') : AllStandIn file (bs ++ bs') :=
  List.forall_mem_append.2 ⟨h, h'⟩

/-! ## §2. What covers its characters. -/

/-- **A binding stands where it covers the file.** -/
theorem BindingSource.Covers.allStandIn {braces : Braces} {b : BindingSource}
    (h : b.Covers braces (Position.start.after outer) w) (hfile : outer ++ w <+: file) :
    AllStandIn file [b] := by
  obtain ⟨rest, rfl⟩ := hfile
  cases h with
  | @intro kind opening expression gap opens blank passes =>
      refine List.forall_mem_singleton.2 ⟨outer, opening, ⟨braces, gap, rest, opens, blank, ?_⟩,
        rfl, ?_⟩
      · simp only [String.toList_ofList, List.append_assoc]
      · rw [Position.after_append]

theorem AttributeValue.Covers.allStandIn {value : AttributeValue}
    (h : value.Covers (Position.start.after outer) w) (hfile : outer ++ w <+: file) :
    AllStandIn file value.bindings := by
  cases h with
  | quoted | run => exact allStandIn_nil
  | @quotedBinding q b w quote covers =>
      have hinside : outer ++ [q] ++ w <+: file := by
        refine List.IsPrefix.trans ⟨[q], ?_⟩ hfile
        simp only [List.append_assoc, List.cons_append, List.nil_append]
      have hcovers : b.Covers .one (Position.start.after (outer ++ [q])) w := by
        rw [Position.after_append]
        exact covers
      exact hcovers.allStandIn hinside
  | binding covers => exact covers.allStandIn hfile

theorem Attribute.Covers.allStandIn {a : Attribute}
    (h : a.Covers (Position.start.after outer) w) (hfile : outer ++ w <+: file) :
    AllStandIn file a.bindings := by
  cases h with
  | mentioned => exact allStandIn_nil
  | @set raw gap gap' w _ value name blank blank' covers text =>
      rw [← Position.after_append] at covers
      refine covers.allStandIn ?_
      rw [List.append_assoc, ← text]
      exact hfile

/-- By induction on the attributes: each one stands behind those before it. -/
theorem AllCover.allStandIn {p : Position} {as : List Attribute} (h : AllCover p as w)
    (hp : p = Position.start.after outer) (hfile : outer ++ w <+: file) :
    AllStandIn file (as.flatMap Attribute.bindings) := by
  induction h generalizing outer with
  | nil => exact allStandIn_nil
  | @cons p a as gap w ws blank first others ih =>
      subst hp
      rw [← Position.after_append] at first ih
      rw [← List.append_assoc] at hfile
      refine AllStandIn.append (first.allStandIn ?_) (ih rfl hfile)
      rw [List.append_assoc]
      exact (List.prefix_append _ _).trans hfile

theorem StartTag.Covers.allStandIn {tag : StartTag}
    (h : tag.Covers (Position.start.after outer) w) (hfile : outer ++ w <+: file) :
    AllStandIn file (tag.attributes.flatMap Attribute.bindings) := by
  cases h with
  | @intro name attributes selfClosing n ws gap _ named starts set blank text =>
      rw [← Position.after_append] at set
      refine set.allStandIn rfl (List.IsPrefix.trans ⟨gap ++ tagEnd selfClosing, ?_⟩ hfile)
      rw [text]
      simp only [List.append_assoc, List.cons_append]

theorem Piece.StandsAt.allStandIn {piece : Piece} {rest : List Char} {token : Token}
    (h : piece.StandsAt (Position.start.after outer) rest) (hfile : outer ++ piece.chars <+: file)
    (htoken : piece.token = some token) : AllStandIn file token.bindings := by
  cases h with
  | comment => cases htoken
  | endTag | text =>
      cases htoken
      exact allStandIn_nil
  | startTag covers =>
      cases htoken
      exact covers.allStandIn hfile
  | binding covers =>
      cases htoken
      exact covers.allStandIn hfile

/-! ## §3. Files. -/

theorem Tiling.allStandIn (t : Tiling file) :
    AllStandIn file (t.tokens.flatMap Token.bindings) := by
  intro b hb
  obtain ⟨token, htoken, hb⟩ := List.mem_flatMap.1 hb
  rcases List.mem_append.1 htoken with hdirective | hpiece
  · obtain ⟨d, _, rfl⟩ := List.mem_map.1 hdirective
    cases hb
  · obtain ⟨piece, hmem, hleaves⟩ := List.mem_filterMap.1 hpiece
    obtain ⟨before, after, hpieces⟩ := List.append_of_mem hmem
    obtain ⟨hfile, hstands⟩ := t.stands hpieces
    exact hstands.allStandIn hfile hleaves b hb

/-- **Every binding of a file stands in it.** -/
theorem tokenize_meets (source : String) :
    Meets (fun tokens => AllStandIn source.toList (tokens.flatMap Token.bindings))
      (fun _ => True) (tokenize source) := by
  cases h : tokenize source with
  | error e => exact trivial
  | ok tokens =>
      obtain ⟨t, rfl⟩ := exists_tiling h
      exact t.allStandIn

/-- **Positions are exact.**  A binding of a file stands in it at its spans.  Where its
expression stands its tokens are laid, once their spans are moved by the span of the
expression, and every error of the binding is at one of them, at the end of the expression,
or at the character at which the expression breaks. -/
theorem binding_positions_exact {source : String} {tokens : List Token}
    (h : tokenize source = .ok tokens) {b : BindingSource}
    (hb : b ∈ tokens.flatMap Token.bindings) :
    ∃ outer opening, b.StandsIn source.toList outer opening
      ∧ Binding.Exact b (Position.start.after (outer ++ opening)) := by
  obtain ⟨outer, opening, hstands⟩ := (tokenize_meets source).of_ok h b hb
  exact ⟨outer, opening, hstands, Binding.bindSource_exact hstands.expressionSpan⟩

/-- An expression over two lines, and one that does not split into tokens. -/
def twoLines : String :=
  "<p>\n<b title=\x7bvalue: Count +\n   Missing\x7d></b>\x7b\x7bvalue: '#' #\x7d\x7d"

def twoLinesBinding : BindingSource := ⟨.value, "Count +\n   Missing", ⟨2, 10, 0⟩, ⟨2, 18, 0⟩⟩

def strayMarkBinding : BindingSource := ⟨.value, "'#' #", ⟨3, 17, 0⟩, ⟨3, 26, 0⟩⟩

theorem tokenize_twoLines : ∃ tokens, tokenize twoLines = .ok tokens
    ∧ tokens.flatMap Token.bindings = [twoLinesBinding, strayMarkBinding] :=
  exists_ok_of_toOption (by decide +kernel)

/-- Where the binding of a shop fails. -/
def failsAt (b : BindingSource) : Option (Nat × Nat) :=
  match Binding.bindSource Binding.cartScope b with
  | .error error => some error.span.place
  | .ok _ => none

/-- The unknown name is on the second line of its expression, in column 4 of line 3.  The
other expression breaks at its last character, and not at the same one inside the string. -/
theorem binding_positions_exact_twoLines :
    (∃ outer opening, twoLinesBinding.StandsIn twoLines.toList outer opening
      ∧ Binding.Exact twoLinesBinding (Position.start.after (outer ++ opening))
      ∧ failsAt twoLinesBinding = some (3, 4))
    ∧ ∃ outer opening, strayMarkBinding.StandsIn twoLines.toList outer opening
      ∧ Binding.Exact strayMarkBinding (Position.start.after (outer ++ opening))
      ∧ failsAt strayMarkBinding = some (3, 30) := by
  obtain ⟨tokens, hok, hall⟩ := tokenize_twoLines
  have hfirst : twoLinesBinding ∈ tokens.flatMap Token.bindings := by
    rw [hall]
    exact List.mem_cons_self
  have hsecond : strayMarkBinding ∈ tokens.flatMap Token.bindings := by
    rw [hall]
    exact List.mem_cons_of_mem _ (List.mem_singleton_self _)
  obtain ⟨outer, opening, hstands, hexact⟩ := binding_positions_exact hok hfirst
  obtain ⟨outer', opening', hstands', hexact'⟩ := binding_positions_exact hok hsecond
  exact ⟨⟨outer, opening, hstands, hexact, by decide +kernel⟩,
    outer', opening', hstands', hexact', by decide +kernel⟩

end Markup

end BoundMarkup
