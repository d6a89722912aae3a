/-
  BoundMarkup.Proofs.Binding.Literals
  ───────────────────────────────────
  **THE TEXT OF A CONSTANT IS A LITERAL OF THE CONSTANT.**

  Of the constants that literals have, two kinds do not come back: strings with
  characters that are written as numbered escapes, which the reader of strings
  does not know, and infinity, which is written as a word.
-/
import BoundMarkup.Proofs.Binding.Emission
import BoundMarkup.Proofs.Number.Reading

namespace BoundMarkup

/-! ## §1. Legible constants. -/

/-- A character that a rendered constant shows without a numbered escape. -/
def Text.IsLegible (c : Char) : Prop :=
  c = '\t' ∨ c = '\r' ∨ c = '\n' ∨ (0x20 ≤ c.val ∧ c.val ≤ 0x7e)

instance (c : Char) : Decidable (Text.IsLegible c) := inferInstanceAs (Decidable (_ ∨ _))

/-- The text of the constant says which one it is: no numbered escape, no infinity. -/
def Constant.Legible : Constant → Prop
  | .string value => ∀ c ∈ value.toList, Text.IsLegible c
  | .double value => value.isFinite = true
  | _ => True

namespace Binding

variable {follow : List Char}

/-! ## §2. Strings. -/

/-- How a character is written in a rendered constant, and read back. -/
inductive Escape (c : Char) : List Char → Prop where
  | plain (legible : Text.IsLegible c) (slash : c ≠ '\\') (quote : c ≠ '"') : Escape c [c]
  | short {d : Char} (legible : Text.IsLegible c)
      (back : ∀ cs, unescape ('\\' :: d :: cs) = c :: unescape cs) : Escape c ['\\', d]
  | numbered (illegible : ¬ Text.IsLegible c) : Escape c (Text.numberedEscape c)

theorem escape_escapeAscii (c : Char) : Escape c (Text.escapeAscii c) := by
  unfold Text.escapeAscii
  split
  case h_7 tab newline return_ _ quote slash =>
    split
    · rename_i plain
      exact .plain (Or.inr (Or.inr (Or.inr plain))) slash quote
    · rename_i beyond
      refine .numbered ?_
      rintro (rfl | rfl | rfl | plain)
      all_goals contradiction
  all_goals exact .short (by decide) fun _ => rfl

/-- **Text reads back from its escapes just if it needs no numbered one.**  Of a numbered
escape the letter `u` is read first, which is no character that needs one. -/
theorem unescape_escapeAscii_iff (cs : List Char) :
    unescape (cs.flatMap Text.escapeAscii) = cs ↔ ∀ c ∈ cs, Text.IsLegible c := by
  induction cs with
  | nil => simp [unescape]
  | cons c cs ih =>
      have escape := escape_escapeAscii c
      rw [List.flatMap_cons, List.forall_mem_cons, ← ih]
      generalize Text.escapeAscii c = piece at escape
      cases escape with
      | plain legible slash quote =>
          rw [List.singleton_append, unescape]
          · simp [legible]
          · simp [slash]
          · simp [slash]
      | short legible back =>
          rw [List.cons_append, List.cons_append, List.nil_append, back]
          simp [legible]
      | numbered illegible =>
          refine iff_of_false (fun same => ?_) (fun both => illegible both.1)
          -- The backslash is dropped, so that what is read starts with `u`.
          have first : 'u' = c := (List.cons.inj same).1
          exact illegible (first ▸ by decide)

/-- Hexadecimal digits are digits. -/
theorem exists_digitChar_of_mem_hexChars {c : Char} (n : Nat) (mem : c ∈ Text.hexChars n) :
    ∃ d, c = Nat.digitChar d := by
  induction n using Nat.strongRecOn with
  | ind n ih =>
      rw [Text.hexChars, Nat.toDigits_eq_if (by decide)] at mem
      split at mem
      · exact ⟨n, List.mem_singleton.1 mem⟩
      · rename_i large
        rcases List.mem_append.1 mem with front | last
        · exact ih (n / 16) (by omega) front
        · exact ⟨n % 16, List.mem_singleton.1 last⟩

/-- Text without quotes and backslashes is taken as it stands. -/
theorem quoteLength_append {cs : List Char} (plain : ∀ c ∈ cs, c ≠ '\\' ∧ c ≠ '"')
    (rest : List Char) :
    quoteLength '"' (cs ++ rest) = (quoteLength '"' rest).map (· + cs.length) := by
  induction cs with
  | nil => simp
  | cons c cs ih =>
      obtain ⟨slash, quote⟩ := plain c List.mem_cons_self
      rw [List.cons_append, quoteLength, if_neg quote,
        ih fun d mem => plain d (List.mem_cons_of_mem c mem)]
      · simp [Nat.add_assoc, Function.comp_def]
      · simp [slash]
      · simp [slash]

theorem quoteLength_escape {c : Char} {piece : List Char} (escape : Escape c piece)
    (rest : List Char) :
    quoteLength '"' (piece ++ rest) = (quoteLength '"' rest).map (· + piece.length) := by
  cases escape with
  | plain legible slash quote => exact quoteLength_append (by simp [slash, quote]) rest
  | short legible back => rfl
  | numbered illegible =>
      have plain : ∀ d ∈ '\x7b' :: (Text.hexChars c.toNat ++ ['\x7d']), d ≠ '\\' ∧ d ≠ '"' := by
        intro d mem
        rcases List.mem_cons.1 mem with rfl | mem
        · decide
        · rcases List.mem_append.1 mem with digit | close
          · obtain ⟨n, rfl⟩ := exists_digitChar_of_mem_hexChars _ digit
            simp
          · rw [List.mem_singleton.1 close]
            decide
      have text : Text.numberedEscape c
          = '\\' :: 'u' :: ('\x7b' :: (Text.hexChars c.toNat ++ ['\x7d'])) := by
        simp [Text.numberedEscape]
      rw [text, List.cons_append, List.cons_append, quoteLength, quoteLength_append plain]
      simp [Function.comp_def, Nat.add_assoc]

theorem quoteLength_escapeAscii (cs : List Char) (follow : List Char) :
    quoteLength '"' (cs.flatMap Text.escapeAscii ++ '"' :: follow)
      = some ((cs.flatMap Text.escapeAscii).length + 1) := by
  induction cs with
  | nil => rfl
  | cons c cs ih =>
      rw [List.flatMap_cons, List.append_assoc, quoteLength_escape (escape_escapeAscii c), ih]
      simp only [Option.map_some, List.length_append]
      congr 1
      omega

/-- The text of a string is one token, and stands for the string just if it is legible. -/
theorem emitsIff_string (value : String) (follow : List Char) :
    EmitsIff (Constant.string value).text.toList [.constant (.string value)] follow
      (Constant.string value).Legible := by
  have text : (Constant.string value).text.toList
      = '"' :: (value.toList.flatMap Text.escapeAscii ++ ['"']) := by
    simp [Constant.text, Text.asciiText]
  have found : lexeme? '"' ((value.toList.flatMap Text.escapeAscii ++ ['"']) ++ follow)
      = .ok (.stringLiteral, (value.toList.flatMap Text.escapeAscii ++ ['"']).length + 1) := by
    have word : isIdentStart '"' = false := by decide
    rw [List.append_assoc, List.singleton_append]
    simp [lexeme?, word, quoteLength_escapeAscii]
  rw [text]
  refine EmitsIff.token (by decide) found (by simp) rfl fun span => ?_
  rw [Constant.Legible, ← unescape_escapeAscii_iff]
  simp [Symbol.Stands, TokenKind.isLiteral, constantOf, ← String.toList_inj]

/-! ## §3. Whole numbers. -/

theorem isDigits_toDigits (n : Nat) : IsDigits (Nat.toDigits 10 n) :=
  ⟨Nat.toDigits_ne_nil, Decimal.isDigit_toDigits⟩

theorem toList_toString_natCast (n : Nat) : (toString (n : Int)).toList = Nat.toDigits 10 n :=
  Nat.toList_repr

theorem natural?_toDigits (n : Nat) : Decimal.natural? (Nat.toDigits 10 n) = some n := by
  have all : (Nat.toDigits 10 n).all Char.isDigit = true := List.all_eq_true.2 Decimal.isDigit_toDigits
  simp [Decimal.natural?, all, Decimal.digitsValue_toDigits]

theorem getLast?_toDigits (n : Nat) {c : Char} (other : c.isDigit = false) :
    (Nat.toDigits 10 n).getLast? ≠ some c := by
  intro last
  have := Decimal.isDigit_toDigits c (List.mem_of_getLast? last)
  rw [other] at this
  cases this

theorem wholeConstant?_int {n : Nat} (small : n < twoPow 31) :
    wholeConstant? (Nat.toDigits 10 n) = some (.int (Int32.ofNat n)) := by
  have l : (Nat.toDigits 10 n).getLast? ≠ some 'l' := getLast?_toDigits n (by decide)
  have L : (Nat.toDigits 10 n).getLast? ≠ some 'L' := getLast?_toDigits n (by decide)
  simp [wholeConstant?, l, L, natural?_toDigits, small]

theorem wholeConstant?_long {n : Nat} (small : n < twoPow 63) :
    wholeConstant? (Nat.toDigits 10 n ++ ['L']) = some (.long (Int64.ofNat n)) := by
  simp [wholeConstant?, natural?_toDigits, small]

/-- What whole literals are read as. -/
theorem wholeConstant?_eq_some {cs : List Char} {value : Constant}
    (h : wholeConstant? cs = some value) :
    (∃ n, n < twoPow 31 ∧ value = .int (Int32.ofNat n))
      ∨ ∃ n, n < twoPow 63 ∧ value = .long (Int64.ofNat n) := by
  obtain ⟨n, -, read⟩ := Option.bind_eq_some_iff.1 h
  split at read
  · rename_i small
    cases read
    exact Or.inl ⟨n, small.1, rfl⟩
  · split at read
    · cases read
      exact Or.inr ⟨n, ‹_›, rfl⟩
    · cases read

theorem emits_int {n : Nat} (small : n < twoPow 31) (ends : Ends follow) :
    Emits (Constant.int (Int32.ofNat n)).text.toList [.constant (.int (Int32.ofNat n))] follow := by
  have text : (Constant.int (Int32.ofNat n)).text.toList
      = Nat.toDigits 10 n ++ ([] ++ ([] ++ [])) := by
    have value : (Int32.ofNat n).toInt = n := Int32.toInt_ofNat_of_lt small
    simp only [Constant.text, value, toList_toString_natCast, List.append_nil]
  rw [text]
  refine .number (isDigits_toDigits n) (Or.inl rfl) (Or.inl rfl) .none ends fun span => ?_
  simp [constantOf, plainKind, wholeConstant?_int small]

theorem emits_long {n : Nat} (small : n < twoPow 63) (ends : Ends follow) :
    Emits (Constant.long (Int64.ofNat n)).text.toList [.constant (.long (Int64.ofNat n))] follow := by
  have text : (Constant.long (Int64.ofNat n)).text.toList
      = Nat.toDigits 10 n ++ ([] ++ ([] ++ ['L'])) := by
    have value : (Int64.ofNat n).toInt = n := Int64.toInt_ofNat_of_lt small
    simp only [Constant.text, value, String.toList_append, toList_toString_natCast]
    rfl
  rw [text]
  refine .number (isDigits_toDigits n) (Or.inl rfl) (Or.inl rfl)
    (.long (Or.inr rfl) rfl) ends fun span => ?_
  simp [constantOf, wholeConstant?_long small]

/-! ## §4. Suffixes and signs. -/

variable {c d : Char} {cs : List Char}

theorem dropSuffix_concat {x : Char} (letter : x = c ∨ x = d) :
    dropSuffix c d (cs ++ [x]) = dropSuffix c d cs := by
  rcases letter with rfl | rfl <;> simp [dropSuffix]

/-- A text that ends in neither letter is kept. -/
theorem dropSuffix_of_last (last : ∀ x, cs.getLast? = some x → x ≠ c ∧ x ≠ d) :
    dropSuffix c d cs = cs := by
  unfold dropSuffix
  cases back : cs.reverse with
  | nil => simpa using back.symm
  | cons x rest =>
      have := last x (by rw [List.getLast?_eq_head?_reverse, back]; rfl)
      rw [List.dropWhile_cons_of_neg (by simp [this]), ← back, List.reverse_reverse]

/-- What is left is a front part of the text. -/
theorem dropSuffix_prefix (c d : Char) (cs : List Char) : dropSuffix c d cs <+: cs := by
  have back : cs.reverse.dropWhile (fun x => x == c || x == d) <:+ cs.reverse :=
    List.dropWhile_suffix _
  rw [← List.reverse_prefix] at back
  simpa [dropSuffix] using back

theorem IsDigits.getLast?_append {w : List Char} (h : IsDigits w) (front : List Char) :
    ∀ x, (front ++ w).getLast? = some x → x.isDigit = true := by
  intro x last
  obtain rfl | ⟨v, y, rfl⟩ := List.eq_nil_or_concat w
  · exact absurd rfl h.nonempty
  · have : y = x := by simpa using last
    exact h.digits x (by simp [this])

/-- Without a suffix a number ends in a digit. -/
theorem getLast?_number {w f e : List Char} (whole : IsDigits w) (fraction : IsFraction f)
    (exponent : IsExponent e) : ∀ x, (w ++ (f ++ e)).getLast? = some x → x.isDigit = true := by
  rcases exponent with rfl | ⟨m, sign, v, rfl, -, -, digits⟩
  · rcases fraction with rfl | ⟨v, rfl, digits⟩
    · simpa using whole.getLast?_append []
    · simpa using digits.getLast?_append (w ++ ['.'])
  · simpa using digits.getLast?_append (w ++ f ++ m :: sign)

theorem dropSuffix_number {w f e : List Char} (whole : IsDigits w) (fraction : IsFraction f)
    (exponent : IsExponent e) (letter : c.isDigit = false) (letter' : d.isDigit = false) :
    dropSuffix c d (w ++ (f ++ e)) = w ++ (f ++ e) := by
  refine dropSuffix_of_last fun x here => ?_
  have digit := getLast?_number whole fraction exponent x here
  constructor
  · rintro rfl
    simp [letter] at digit
  · rintro rfl
    simp [letter'] at digit

/-- Of a number with a suffix the suffix alone is dropped. -/
theorem dropSuffix_decimal {w f e : List Char} (whole : IsDigits w) (fraction : IsFraction f)
    (exponent : IsExponent e) {x : Char} (letter : x = 'm' ∨ x = 'M') :
    dropSuffix 'm' 'M' (w ++ (f ++ (e ++ [x]))) = w ++ (f ++ e) := by
  rw [← List.append_assoc f, ← List.append_assoc w, dropSuffix_concat letter]
  exact dropSuffix_number whole fraction exponent (by decide) (by decide)

/-! ## §5. Real and decimal numbers. -/

theorem emits_double {x : Binary64} (positive : x.isNegative = false) (finite : x.isFinite = true)
    (ends : Ends follow) :
    Emits (Constant.double x).text.toList [.constant (.double x)] follow := by
  obtain ⟨w, f, shape⟩ := Binary64.exists_pointText positive finite
  have whole : IsDigits w := ⟨shape.some_whole, shape.whole⟩
  have fraction : IsFraction ('.' :: f) := Or.inr ⟨f, rfl, shape.some_fraction, shape.fraction⟩
  have text : (Constant.double x).text.toList = w ++ ('.' :: f ++ ([] ++ [])) := by
    rw [Constant.text, shape.text, String.toList_ofList, List.append_nil, List.append_nil]
  rw [text]
  refine .number whole fraction (Or.inl rfl) .none ends fun span => ?_
  -- The text ends in a digit, so no suffix is taken from it.
  have kept : dropSuffix 'd' 'D' (w ++ ('.' :: f ++ ([] ++ []))) = w ++ '.' :: f := by
    have all : dropSuffix 'd' 'D' (w ++ ('.' :: f ++ [])) = w ++ ('.' :: f ++ []) :=
      dropSuffix_number whole fraction (Or.inl rfl) (by decide) (by decide)
    simpa using all
  have read := shape.real? positive finite
  rw [shape.text] at read
  simp only [constantOf, plainKind, List.cons_ne_nil, false_and, if_false, String.toList_ofList,
    kept, read]

/-- Without a sign, infinity and not-a-number are written as words, which are read as names. -/
theorem emitsIff_double {x : Binary64} (positive : x.isNegative = false) (ends : Ends follow) :
    EmitsIff (Constant.double x).text.toList [.constant (.double x)] follow
      (Constant.double x).Legible := by
  by_cases finite : x.isFinite = true
  · exact (emits_double positive finite ends).congr (iff_of_true trivial finite)
  · have words : (Constant.double x).text.toList = "NaN".toList
        ∨ (Constant.double x).text.toList = "inf".toList := by
      by_cases nan : x.isNaN = true <;> simp [Constant.text, Binary64.text, nan, finite, positive]
    generalize (Constant.double x).text.toList = w at words
    have isWord : IsWord w ∧ wordKind w = .identifier := by
      rcases words with rfl | rfl
      all_goals exact ⟨⟨⟨_, _, rfl, by decide⟩, forall_mem_of_all (by decide)⟩, rfl⟩
    obtain ⟨c, cs, rfl, -⟩ := isWord.1.start
    obtain ⟨found, visible⟩ := lexeme?_word isWord.1 ends.other
    rw [isWord.2] at found
    refine EmitsIff.token visible found (by simp) rfl fun span => iff_of_false ?_ finite
    exact fun stands => absurd stands.1 (by simp [TokenKind.isLiteral])

/-- The parts of a number. -/
theorem Token.Lexed.number {t : Token} (h : t.Lexed)
    (kind : t.kind = .realLiteral ∨ t.kind = .decimalLiteral) :
    ∃ w f e s, t.lexeme.toList = w ++ (f ++ (e ++ s)) ∧ IsDigits w ∧ IsFraction f ∧ IsExponent e
      ∧ IsSuffix (plainKind f e) s t.kind := by
  obtain ⟨c, cs, length, found, lexeme⟩ := h
  generalize t.kind = k at *
  cases front_of_lexeme? found with
  | @word w isWord taken => rcases wordKind_cases w with h | h | h | h <;> simp [h] at kind
  | number digit found =>
      rw [lexeme, String.toList_ofList]
      exact form_of_numberLexeme (digitRun_ne_zero digit) found
  | string quote found => simp at kind
  | mark found =>
      obtain ⟨-, -, literal, -⟩ := operatorLexeme_eq_some found
      rcases kind with rfl | rfl <;> cases literal

theorem emits_decimal {w f e : List Char} (whole : IsDigits w) (fraction : IsFraction f)
    (exponent : IsExponent e) (ends : Ends follow) :
    Emits (Constant.decimal (String.ofList (w ++ (f ++ e)))).text.toList
      [.constant (.decimal (String.ofList (w ++ (f ++ e))))] follow := by
  have text : (Constant.decimal (String.ofList (w ++ (f ++ e)))).text.toList
      = w ++ (f ++ (e ++ ['M'])) := by
    simp [Constant.text]
  rw [text]
  refine .number whole fraction exponent (.decimal (Or.inr rfl)) ends fun span => ?_
  simp only [constantOf, String.toList_ofList,
    dropSuffix_decimal whole fraction exponent (Or.inr rfl)]

/-! ## §6. Every literal. -/

/-- Some token stands for the symbol. -/
def Symbol.Written (s : Symbol) : Prop := ∃ t : Token, t.Lexed ∧ s.Stands t

/-- A constant with a word of its own. -/
theorem emits_keyword {value : Constant} (word : IsWord value.text.toList)
    (literal : (wordKind value.text.toList).isLiteral = true)
    (read : ∀ span, constantOf ⟨wordKind value.text.toList, value.text, span⟩ = .ok value)
    (ends : Ends follow) : Emits value.text.toList [.constant value] follow := by
  refine .word word ends.other nofun fun span => ⟨literal, ?_⟩
  rw [String.ofList_toList]
  exact read span

/-- A real literal has no sign. -/
theorem Token.Lexed.isNegative {t : Token} {x : Binary64} (h : t.Lexed) (kind : t.kind = .realLiteral)
    (read : Decimal.real? (String.ofList (dropSuffix 'd' 'D' t.lexeme.toList)) = some x) :
    x.isNegative = false := by
  obtain ⟨w, f, e, s, text, whole, -⟩ := h.number (Or.inl kind)
  refine Decimal.isNegative_real? ?_ read
  rw [String.toList_ofList]
  intro minus
  obtain ⟨rest, front⟩ := dropSuffix_prefix 'd' 'D' t.lexeme.toList
  obtain ⟨c, w, rfl⟩ := List.exists_cons_of_ne_nil whole.nonempty
  cases kept : dropSuffix 'd' 'D' t.lexeme.toList with
  | nil => simp [kept] at minus
  | cons d ds =>
      rw [kept, text] at front
      rw [kept] at minus
      cases minus
      cases (List.cons.inj front).1
      exact absurd whole.head (by decide)

/-- **The text of a constant that a literal stands for is a literal of it just if it is
legible.** -/
theorem emitsIff_constant {value : Constant} (written : (Symbol.constant value).Written)
    (ends : Ends follow) : EmitsIff value.text.toList [.constant value] follow value.Legible := by
  obtain ⟨t, lexed, -, read⟩ := written
  unfold constantOf at read
  split at read
  case h_1 | h_2 | h_3 =>
    cases read
    exact emits_keyword ⟨⟨_, _, rfl, by decide⟩, forall_mem_of_all (by decide)⟩ rfl
      (fun _ => rfl) ends
  case h_4 kind =>
    dsimp only at read
    split at read <;> cases read
    rcases wholeConstant?_eq_some ‹_› with ⟨n, small, rfl⟩ | ⟨n, small, rfl⟩
    · exact emits_int small ends
    · exact emits_long small ends
  case h_5 kind =>
    dsimp only at read
    split at read <;> cases read
    -- A literal has no sign, so neither has the text of its value.
    exact emitsIff_double (lexed.isNegative kind ‹_›) ends
  case h_6 kind =>
    cases read
    obtain ⟨w, f, e, s, text, whole, fraction, exponent, suffix⟩ := lexed.number (Or.inr kind)
    rw [kind] at suffix
    generalize decimal : TokenKind.decimalLiteral = k at suffix
    cases suffix with
    | none =>
        -- Without a suffix a number is whole or real.
        unfold plainKind at decimal
        split at decimal <;> cases decimal
    | decimal letter =>
        rw [text, dropSuffix_decimal whole fraction exponent letter]
        exact emits_decimal whole fraction exponent ends
    | long letter => cases decimal
    | double letter => cases decimal
  case h_7 =>
    cases read
    exact emitsIff_string _ follow
  case h_8 => cases read

end Binding

end BoundMarkup
