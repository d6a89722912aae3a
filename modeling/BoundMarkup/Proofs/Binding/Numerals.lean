/-
  BoundMarkup.Proofs.Binding.Numerals
  ───────────────────────────────────
  **THE FORM OF NUMBERS.**

  A number is digits, then maybe a fraction, an exponent and a suffix letter.
  The lexer finds its length by looking ahead; here the form is said without it:

    • `numberLexeme_of_form` — what has the form and ends is taken as a number,
    • `form_of_numberLexeme` — what is taken as a number has the form.
-/
import BoundMarkup.Binding.Lexer

namespace BoundMarkup.Binding

/-! ## §1. Runs of digits. -/

/-- One or more decimal digits. -/
structure IsDigits (w : List Char) : Prop where
  nonempty : w ≠ []
  digits : ∀ c ∈ w, c.isDigit = true

/-- No digit comes next. -/
def NoDigit (rest : List Char) : Prop := ∀ c, rest.head? = some c → c.isDigit = false

theorem digitRun_append {w rest : List Char} (digits : ∀ c ∈ w, c.isDigit = true)
    (ends : NoDigit rest) : digitRun (w ++ rest) = w.length := by
  induction w with
  | nil =>
      cases rest with
      | nil => rfl
      | cons c rest => simp [digitRun, ends c rfl]
  | cons c w ih =>
      have := ih (fun d hd => digits d (List.mem_cons_of_mem c hd))
      simp_all [digitRun]

theorem take_digitRun (cs : List Char) : cs.take (digitRun cs) = cs.takeWhile Char.isDigit := by
  induction cs with
  | nil => rfl
  | cons c cs ih => by_cases digit : c.isDigit = true <;> simp_all [digitRun]

theorem isDigits_take_digitRun {cs : List Char} (some_digits : digitRun cs ≠ 0) :
    IsDigits (cs.take (digitRun cs)) := by
  rw [take_digitRun]
  refine ⟨fun none => some_digits (by simp [digitRun, none]), fun c hc => ?_⟩
  exact List.all_eq_true.1 List.all_takeWhile c hc

theorem IsDigits.head {c : Char} {w : List Char} (h : IsDigits (c :: w)) : c.isDigit = true :=
  h.digits c List.mem_cons_self

theorem IsDigits.length_ne_zero {w : List Char} (h : IsDigits w) : w.length ≠ 0 :=
  fun none => h.nonempty (List.eq_nil_of_length_eq_zero none)

/-! ## §2. Fractions and exponents. -/

/-- Nothing, or a point and digits. -/
def IsFraction (f : List Char) : Prop := f = [] ∨ ∃ w, f = '.' :: w ∧ IsDigits w

/-- Nothing, or a mark, an optional sign and digits. -/
def IsExponent (e : List Char) : Prop :=
  e = [] ∨ ∃ mark sign w, e = mark :: (sign ++ w) ∧ (mark = 'e' ∨ mark = 'E')
    ∧ (sign = [] ∨ sign = ['-'] ∨ sign = ['+']) ∧ IsDigits w

theorem fractionLength_append {f rest : List Char} (fraction : IsFraction f) (ends : NoDigit rest)
    (other : fractionLength rest = 0) : fractionLength (f ++ rest) = f.length := by
  rcases fraction with rfl | ⟨w, rfl, digits⟩
  · exact other
  · have run := digitRun_append digits.digits ends
    have : w.length ≠ 0 := fun h => digits.nonempty (List.eq_nil_of_length_eq_zero h)
    simp [fractionLength, run, this]

theorem isFraction_take (cs : List Char) : IsFraction (cs.take (fractionLength cs)) := by
  unfold fractionLength
  split
  · split
    · exact Or.inl rfl
    · rename_i some_digits
      exact Or.inr ⟨_, rfl, isDigits_take_digitRun some_digits⟩
  · exact Or.inl rfl

/-- No mark of an exponent comes next. -/
def NoMark (rest : List Char) : Prop := ∀ c, rest.head? = some c → ¬ (c = 'e' ∨ c = 'E')

theorem exponentLength_append {e rest : List Char} (exponent : IsExponent e) (ends : NoDigit rest)
    (other : NoMark rest) : exponentLength (e ++ rest) = .ok e.length := by
  rcases exponent with rfl | ⟨mark, sign, w, rfl, isMark, isSign, digits⟩
  · cases rest with
    | nil => rfl
    | cons c rest => exact if_neg (other c rfl)
  · have run := digitRun_append digits.digits ends
    have some_digits := digits.length_ne_zero
    rw [List.cons_append, exponentLength, if_pos isMark]
    rcases isSign with rfl | rfl | rfl
    · obtain ⟨d, w, rfl⟩ := List.exists_cons_of_ne_nil digits.nonempty
      have digit := digits.head
      have noSign : ¬ (some d = some '-' ∨ some d = some '+') := by
        rintro (h | h) <;> cases h <;> simp at digit
      simp_all
    all_goals simp_all; omega

theorem isExponent_take {cs : List Char} {n : Nat} (h : exponentLength cs = .ok n) :
    IsExponent (cs.take n) := by
  unfold exponentLength at h
  split at h
  · rename_i mark cs
    split at h
    · rename_i isMark
      generalize signed : (if cs.head? = some '-' ∨ cs.head? = some '+' then 1 else 0) = k at h
      have isSign : cs.take k = [] ∨ cs.take k = ['-'] ∨ cs.take k = ['+'] := by
        split at signed
        · subst signed
          cases cs with
          | nil => exact Or.inl rfl
          | cons c cs => simp_all
        · exact Or.inl (by simp [← signed])
      dsimp only at h
      split at h
      · cases h
      · rename_i some_digits
        cases h
        refine Or.inr ⟨mark, cs.take k, _, ?_, isMark, isSign, isDigits_take_digitRun some_digits⟩
        rw [← List.take_add]
        rfl
    · cases h
      exact Or.inl rfl
  · cases h
    exact Or.inl rfl

/-! ## §3. Numbers. -/

/-- The letters that fix the type of a number, each with the kind it gives. -/
inductive IsSuffix (plain : TokenKind) : List Char → TokenKind → Prop where
  | none : IsSuffix plain [] plain
  | decimal {c : Char} (letter : c = 'm' ∨ c = 'M') : IsSuffix plain [c] .decimalLiteral
  | long {c : Char} (letter : c = 'l' ∨ c = 'L') (whole : plain = .intLiteral) :
      IsSuffix plain [c] .intLiteral
  | double {c : Char} (letter : c = 'd' ∨ c = 'D') : IsSuffix plain [c] .realLiteral

/-- The kind of a number without a suffix. -/
def plainKind (fraction exponent : List Char) : TokenKind :=
  if fraction = [] ∧ exponent = [] then .intLiteral else .realLiteral

/-- A name or number that stands before the text ends there: neither a name character nor
a point and a digit follows. -/
structure Ends (follow : List Char) : Prop where
  other : ∀ c, follow.head? = some c → isIdentContinue c = false
  noFraction : fractionLength follow = 0

theorem isIdentContinue_of_isDigit {c : Char} (h : c.isDigit = true) : isIdentContinue c = true := by
  have ascii : c.val < 0x80 := by
    simp only [Char.isDigit, Bool.and_eq_true, decide_eq_true_eq] at h
    exact UInt32.lt_of_le_of_lt h.2 (by decide)
  simp [isIdentContinue, Text.isNumeric_ascii ascii, h]

theorem Ends.noDigit {follow : List Char} (ends : Ends follow) : NoDigit follow := by
  intro c next
  refine Bool.eq_false_iff.2 fun digit => ?_
  simpa [isIdentContinue_of_isDigit digit] using ends.other c next

theorem Ends.noMark {follow : List Char} (ends : Ends follow) : NoMark follow := by
  rintro c next (rfl | rfl) <;> exact absurd (ends.other _ next) (by decide)

theorem Ends.numberKind {follow : List Char} (ends : Ends follow) (kind : TokenKind) :
    numberKind kind follow.head? = (kind, 0) := by
  unfold BoundMarkup.Binding.numberKind
  split
  all_goals first | rfl | skip
  all_goals exact absurd (ends.other _ ‹_›) (by decide)

namespace IsSuffix

variable {plain kind : TokenKind} {s follow : List Char}

/-- A suffix is no digit, mark or point, and what follows it is none either. -/
theorem ends (h : IsSuffix plain s kind) (ends : Ends follow) :
    NoDigit (s ++ follow) ∧ NoMark (s ++ follow) ∧ fractionLength (s ++ follow) = 0 := by
  cases h with
  | none => exact ⟨ends.noDigit, ends.noMark, ends.noFraction⟩
  | decimal letter | long letter | double letter =>
      rcases letter with rfl | rfl <;>
        exact ⟨by simp [NoDigit], by simp [NoMark], by simp [fractionLength]⟩

theorem numberKind (h : IsSuffix plain s kind) (ends : Ends follow) :
    Binding.numberKind plain (s ++ follow).head? = (kind, s.length) := by
  cases h with
  | none => exact ends.numberKind plain
  | long letter whole => subst whole; rcases letter with rfl | rfl <;> rfl
  | decimal letter | double letter => rcases letter with rfl | rfl <;> rfl

end IsSuffix

theorem IsExponent.ends {e rest : List Char} (h : IsExponent e) (noDigit : NoDigit rest)
    (noFraction : fractionLength rest = 0) : NoDigit (e ++ rest) ∧ fractionLength (e ++ rest) = 0 := by
  rcases h with rfl | ⟨mark, sign, w, rfl, rfl | rfl, -, -⟩
  · exact ⟨noDigit, noFraction⟩
  all_goals exact ⟨by simp [NoDigit], by simp [fractionLength]⟩

theorem IsFraction.noDigit {f rest : List Char} (h : IsFraction f) (noDigit : NoDigit rest) :
    NoDigit (f ++ rest) := by
  rcases h with rfl | ⟨w, rfl, -⟩
  · exact noDigit
  · simp [NoDigit]

/-- **What has the form of a number and ends is taken as a number.** -/
theorem numberLexeme_of_form {w f e s follow : List Char} {kind : TokenKind} (whole : IsDigits w)
    (fraction : IsFraction f) (exponent : IsExponent e) (suffix : IsSuffix (plainKind f e) s kind)
    (ends : Ends follow) :
    numberLexeme (w ++ (f ++ (e ++ (s ++ follow))))
      = .ok (kind, w.length + f.length + e.length + s.length) := by
  obtain ⟨noDigit, noMark, noFraction⟩ := suffix.ends ends
  obtain ⟨noDigit', noFraction'⟩ := exponent.ends noDigit noFraction
  have exponentRun := exponentLength_append exponent noDigit noMark
  have fractionRun := fractionLength_append fraction noDigit' noFraction'
  have wholeRun := digitRun_append whole.digits (fraction.noDigit noDigit')
  have suffixRun := suffix.numberKind ends
  -- What is left behind each of the four parts.
  have left₁ : (w ++ (f ++ (e ++ (s ++ follow)))).drop w.length = f ++ (e ++ (s ++ follow)) :=
    List.drop_left
  have left₂ : (w ++ (f ++ (e ++ (s ++ follow)))).drop (w.length + f.length)
      = e ++ (s ++ follow) := by
    rw [← List.drop_drop, left₁, List.drop_left]
  have left₃ : (w ++ (f ++ (e ++ (s ++ follow)))).drop (w.length + f.length + e.length)
      = s ++ follow := by
    rw [← List.drop_drop, left₂, List.drop_left]
  have left₄ : (w ++ (f ++ (e ++ (s ++ follow)))).drop (w.length + f.length + e.length + s.length)
      = follow := by
    rw [← List.drop_drop, left₃, List.drop_left]
  have plain : (if w.length + f.length + e.length = w.length then TokenKind.intLiteral
      else .realLiteral) = plainKind f e := by
    unfold plainKind
    simp only [← List.length_eq_zero_iff]
    congr 1
    exact propext ⟨fun h => by omega, fun h => by omega⟩
  simp only [numberLexeme, wholeRun, left₁, fractionRun, left₂, exponentRun, plain, left₃,
    suffixRun, left₄]
  split
  · rename_i c next
    rw [ends.other c next]
    rfl
  · rfl

theorem isSuffix_take {plain kind : TokenKind} {cs : List Char} {n : Nat}
    (h : numberKind plain cs.head? = (kind, n)) : IsSuffix plain (cs.take n) kind := by
  cases cs with
  | nil => cases h; exact .none
  | cons c cs =>
      rw [List.head?_cons] at h
      unfold numberKind at h
      split at h
      case h_1 letter | h_2 letter =>
        cases letter
        cases h
        exact .decimal (by decide)
      case h_3 letter | h_4 letter =>
        cases letter
        split at h <;> cases h
        · rename_i whole
          subst whole
          exact .long (by decide) rfl
        · exact .none
      case h_5 letter | h_6 letter =>
        cases letter
        cases h
        exact .double (by decide)
      case h_7 =>
        cases h
        exact .none

/-- Without a fraction and an exponent a number is as long as its first digits. -/
theorem plainKind_take {cs ds : List Char} {n : Nat} (exponentRun : exponentLength ds = .ok n) :
    plainKind (cs.take (fractionLength cs)) (ds.take n)
      = if fractionLength cs + n = 0 then .intLiteral else .realLiteral := by
  have noFraction : cs.take (fractionLength cs) = [] ↔ fractionLength cs = 0 := by
    cases cs with
    | nil => simp [fractionLength]
    | cons c cs => simp
  have noExponent : ds.take n = [] ↔ n = 0 := by
    cases ds with
    | nil => cases exponentRun; simp
    | cons c ds => simp
  simp only [plainKind, noFraction, noExponent, Nat.add_eq_zero_iff]

/-- **What is taken as a number has the form of one.** -/
theorem form_of_numberLexeme {cs : List Char} {kind : TokenKind} {length : Nat}
    (some_digits : digitRun cs ≠ 0) (h : numberLexeme cs = .ok (kind, length)) :
    ∃ w f e s, cs.take length = w ++ (f ++ (e ++ s)) ∧ IsDigits w ∧ IsFraction f ∧ IsExponent e
      ∧ IsSuffix (plainKind f e) s kind := by
  simp only [numberLexeme] at h
  generalize mantissa : digitRun cs + fractionLength (cs.drop (digitRun cs)) = m at h
  split at h
  · cases h
  · rename_i n exponentRun
    rcases suffixRun : numberKind (if m + n = digitRun cs then .intLiteral else .realLiteral)
      (cs.drop (m + n)).head? with ⟨kind', suffix⟩
    have done : kind' = kind ∧ m + n + suffix = length := by
      simp only [suffixRun] at h
      split at h
      · split at h <;> cases h
        exact ⟨rfl, rfl⟩
      · cases h
        exact ⟨rfl, rfl⟩
    obtain ⟨rfl, rfl⟩ := done
    refine ⟨cs.take (digitRun cs), (cs.drop (digitRun cs)).take (fractionLength _),
      (cs.drop m).take n, (cs.drop (m + n)).take suffix, ?_, isDigits_take_digitRun some_digits,
      isFraction_take _, isExponent_take exponentRun, ?_⟩
    · rw [List.take_add, List.take_add, ← mantissa, List.take_add]
      simp only [List.append_assoc]
    · have plain : fractionLength (cs.drop (digitRun cs)) + n = 0 ↔ m + n = digitRun cs := by omega
      simp only [plainKind_take exponentRun, plain]
      exact isSuffix_take suffixRun

end BoundMarkup.Binding
