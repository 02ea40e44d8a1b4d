import Mathlib.Data.List.Forall2
import Mathlib.Data.Nat.Digits.Defs
import ProtoSchema.Proofs.Syntax.Tokens
/-! # Numerals

What an integer literal is and which number it writes: digits in base 10, or in base 8 after
a zero, or in base 16 after a zero and an `x`. A source holds the numbers that its numerals
write.
-/

namespace ProtoSchema.Syntax

/-! ## Digits -/

/-- A character is a digit of a base, either letter case standing for the same digit. -/
def IsDigit (base : Nat) (character : Char) (value : Nat) : Prop :=
  value < base ∧ character.toLower = Nat.digitChar value

/-- Digits write a number in a base, the last of them being the least significant one. -/
def Writes (base : Nat) (text : List Char) (value : Nat) : Prop :=
  text ≠ [] ∧ ∃ digits, List.Forall₂ (IsDigit base) text.reverse digits ∧
    value = Nat.ofDigits base digits

theorem IsDigit.mono {base larger : Nat} {character : Char} {value : Nat}
    (digit : IsDigit base character value) (atMost : base ≤ larger) :
    IsDigit larger character value :=
  ⟨Nat.lt_of_lt_of_le digit.1 atMost, digit.2⟩

theorem Writes.digit_of_mem {base : Nat} {text : List Char} {value : Nat}
    (writes : Writes base text value) :
    ∀ character ∈ text, ∃ digit, IsDigit base character digit := by
  rcases writes with ⟨-, digits, written, -⟩
  have all : ∀ character ∈ text.reverse, ∃ digit, IsDigit base character digit := by
    generalize text.reverse = reversed at written
    induction written with
    | nil => simp
    | cons digit _ induction => exact List.forall_mem_cons.mpr ⟨⟨_, digit⟩, induction⟩
  simpa using all

/-! ## Numerals in a text -/

/-- A text begins with a digit of a base. -/
def BeginsDigit (base : Nat) (text : List Char) : Prop :=
  ∃ character rest value, text = character :: rest ∧ IsDigit base character value

/-- A text begins with an exponent: a letter, perhaps a sign, and a digit. -/
def BeginsExponent (text : List Char) : Prop :=
  ∃ mark sign rest, text = mark :: (sign ++ rest) ∧ (mark = 'e' ∨ mark = 'E') ∧
    (sign = [] ∨ sign = ['+'] ∨ sign = ['-']) ∧ BeginsDigit 10 rest

/-- A text does not go on with a run of decimal digits, nor makes it a floating-point
literal. -/
structure EndsRun (text : List Char) : Prop where
  digit : ¬BeginsDigit 10 text
  point : text.head? ≠ some '.'
  exponent : ¬BeginsExponent text

/-- A text is an integer literal, after which another one follows, and writes a number. -/
inductive Numeral : List Char → List Char → Nat → Prop
  | zero {after : List Char} (ends : EndsRun after)
      (noDigits : ∀ mark rest, after = mark :: rest → mark = 'x' ∨ mark = 'X' →
        ¬BeginsDigit 16 rest) : Numeral ['0'] after 0
  | decimal {text after : List Char} {value : Nat} (digits : Writes 10 text value)
      (leading : text.head? ≠ some '0') (ends : EndsRun after) : Numeral text after value
  | octal {text after : List Char} {value : Nat} (digits : Writes 8 text value)
      (ends : EndsRun after) : Numeral ('0' :: text) after value
  | hexadecimal {mark : Char} {text after : List Char} {value : Nat}
      (prefixed : mark = 'x' ∨ mark = 'X') (digits : Writes 16 text value)
      (ends : ¬BeginsDigit 16 after) : Numeral ('0' :: mark :: text) after value

namespace Lexer

/-! ## Reading digits -/

theorem le_iff_toNat (left right : Char) : left ≤ right ↔ left.toNat ≤ right.toNat := by
  rw [Char.le_def, UInt32.le_iff_toNat_le]
  rfl

theorem toNat_toLower (character : Char) :
    character.toLower.toNat =
      if 65 ≤ character.toNat ∧ character.toNat ≤ 90 then character.toNat + 32
      else character.toNat := by
  have capital : character.val ≥ 'A'.val ∧ character.val ≤ 'Z'.val ↔
      65 ≤ character.toNat ∧ character.toNat ≤ 90 := by
    rw [ge_iff_le, UInt32.le_iff_toNat_le, UInt32.le_iff_toNat_le]
    rfl
  rw [Char.toLower]
  simp only [capital]
  split
  · next bounds =>
      change (character.val + 32).toNat = character.val.toNat + 32
      have small : character.val.toNat ≤ 90 := bounds.2
      have same : (32 : UInt32).toNat = 32 := rfl
      rw [UInt32.toNat_add]
      omega
  · rfl

theorem toNat_digitChar : ∀ value < 16,
    (Nat.digitChar value).toNat = if value < 10 then value + 48 else value + 87 := by
  decide

theorem digitValue?_eq_some_iff {character : Char} {value : Nat} :
    digitValue? character = some value ↔ IsDigit 16 character value := by
  have same (small : value < 16) : character.toLower = Nat.digitChar value ↔
      (if 65 ≤ character.toNat ∧ character.toNat ≤ 90 then character.toNat + 32
        else character.toNat) = if value < 10 then value + 48 else value + 87 := by
    rw [← Char.toNat_inj, toNat_toLower, toNat_digitChar value small]
  have codes : '0'.toNat = 48 ∧ '9'.toNat = 57 ∧ 'a'.toNat = 97 ∧ 'f'.toNat = 102 ∧
      'A'.toNat = 65 ∧ 'F'.toNat = 70 := by decide
  rcases codes with ⟨zero, nine, smallA, smallF, capitalA, capitalF⟩
  rw [IsDigit, and_congr_right same]
  simp only [digitValue?, isDigit, Bool.and_eq_true, decide_eq_true_eq, le_iff_toNat]
  rw [zero, nine, smallA, smallF, capitalA, capitalF]
  generalize character.toNat = code
  grind

theorem isDigit_iff {base : Nat} (small : base ≤ 16) {character : Char} {value : Nat} :
    IsDigit base character value ↔ digitValue? character = some value ∧ value < base := by
  rw [digitValue?_eq_some_iff, IsDigit, IsDigit]
  constructor
  · rintro ⟨bound, same⟩
    exact ⟨⟨Nat.lt_of_lt_of_le bound small, same⟩, bound⟩
  · rintro ⟨⟨-, same⟩, bound⟩
    exact ⟨bound, same⟩

theorem readDigits?_append_singleton (base : Nat) (text : List Char) (last : Char) :
    readDigits? base (text ++ [last]) = (readDigits? base text).bind fun value =>
      (digitValue? last).bind fun next =>
        if next < base then some (value * base + next) else none := by
  rw [readDigits?, List.foldlM_append]
  simp only [List.foldlM_cons, List.foldlM_nil, Option.bind_eq_bind, Option.pure_def,
    Option.bind_fun_some]
  rfl

/-- Reading digits gives the number that they write. -/
theorem readDigits?_eq_some_iff {base : Nat} (small : base ≤ 16) {text : List Char}
    {value : Nat} :
    readDigits? base text = some value ↔
      ∃ digits, List.Forall₂ (IsDigit base) text.reverse digits ∧
        value = Nat.ofDigits base digits := by
  induction text using List.reverseRecOn generalizing value with
  | nil => simp [readDigits?, eq_comm]
  | append_singleton text last induction =>
      rw [readDigits?_append_singleton, List.reverse_concat]
      simp only [Option.bind_eq_some_iff, Option.ite_none_right_eq_some, Option.some.injEq,
        induction, List.forall₂_cons_left_iff, isDigit_iff small]
      constructor
      · rintro ⟨front, ⟨digits, written, rfl⟩, next, digit, bound, rfl⟩
        refine ⟨next :: digits, ⟨next, digits, ⟨digit, bound⟩, written, rfl⟩, ?_⟩
        rw [Nat.ofDigits_cons, Nat.add_comm, Nat.mul_comm]
      · rintro ⟨_, ⟨next, digits, ⟨digit, bound⟩, written, rfl⟩, rfl⟩
        refine ⟨_, ⟨digits, written, rfl⟩, next, digit, bound, ?_⟩
        rw [Nat.ofDigits_cons, Nat.add_comm, Nat.mul_comm]

theorem writes_iff {base : Nat} (small : base ≤ 16) {text : List Char} {value : Nat} :
    Writes base text value ↔ text ≠ [] ∧ readDigits? base text = some value := by
  rw [Writes, readDigits?_eq_some_iff small]

/-! ## Runs of digits -/

theorem isDigit_eq_true_iff {character : Char} :
    isDigit character = true ↔ ∃ value, IsDigit 10 character value := by
  simp only [isDigit_iff (show 10 ≤ 16 by decide), digitValue?]
  constructor
  · intro digit
    have atMost : character.toNat ≤ '9'.toNat := by
      simp only [isDigit, Bool.and_eq_true, decide_eq_true_eq, le_iff_toNat] at digit
      exact digit.2
    have nine : '9'.toNat - '0'.toNat < 10 := by decide
    exact ⟨_, if_pos digit, Nat.lt_of_le_of_lt (Nat.sub_le_sub_right atMost _) nine⟩
  · rintro ⟨value, read, small⟩
    by_contra other
    rw [if_neg other] at read
    grind

theorem isHexDigit_eq_true_iff {character : Char} :
    isHexDigit character = true ↔ ∃ value, IsDigit 16 character value := by
  rw [isHexDigit, Option.isSome_iff_exists]
  exact exists_congr fun value => digitValue?_eq_some_iff

theorem beginsDigit_iff {base : Nat} {text : List Char} :
    BeginsDigit base text ↔ ∃ character ∈ text.head?, ∃ value, IsDigit base character value := by
  cases text with
  | nil => simp [BeginsDigit]
  | cons first rest => simp [BeginsDigit]

theorem takeWhile_eq_nil_iff {condition : Char → Bool} {base : Nat}
    (digit : ∀ {character}, condition character = true ↔ ∃ value, IsDigit base character value)
    {text : List Char} : text.takeWhile condition = [] ↔ ¬BeginsDigit base text := by
  rw [beginsDigit_iff]
  cases text with
  | nil => simp
  | cons first rest => simp [List.takeWhile_cons, ← digit]

theorem drop_length_takeWhile (condition : Char → Bool) (text : List Char) :
    text.drop (text.takeWhile condition).length = text.dropWhile condition :=
  (congrArg (List.drop _) List.takeWhile_append_dropWhile.symm).trans List.drop_left

/-- The sign that may stand before the digits of an exponent. -/
def exponentSign (text : List Char) : List Char :=
  (text.takeWhile fun character => character == '+' || character == '-').take 1

theorem exponentSign_cons (first : Char) (rest : List Char) :
    exponentSign (first :: rest) = if first = '+' ∨ first = '-' then [first] else [] := by
  rw [exponentSign, List.takeWhile_cons]
  by_cases signed : first = '+' ∨ first = '-' <;> simp [signed]

theorem exponentSign_append {sign text : List Char}
    (allowed : sign = [] ∨ sign = ['+'] ∨ sign = ['-']) (digit : BeginsDigit 10 text) :
    exponentSign (sign ++ text) = sign := by
  rcases allowed with rfl | rfl | rfl
  · rcases digit with ⟨first, rest, value, rfl, digit⟩
    have isFirst : isDigit first = true := isDigit_eq_true_iff.mpr ⟨value, digit⟩
    rw [List.nil_append, exponentSign_cons, if_neg]
    rintro (rfl | rfl) <;> exact absurd isFirst (by decide)
  · exact exponentSign_cons '+' text
  · exact exponentSign_cons '-' text

theorem exponentSign_allowed (text : List Char) :
    exponentSign text = [] ∨ exponentSign text = ['+'] ∨ exponentSign text = ['-'] := by
  cases text with
  | nil => exact .inl rfl
  | cons first rest =>
      rw [exponentSign_cons]
      split
      · next signed => simpa using signed
      · exact .inl rfl

theorem beginsExponent_cons_iff (mark : Char) (rest : List Char) :
    BeginsExponent (mark :: rest) ↔ (mark = 'e' ∨ mark = 'E') ∧
      BeginsDigit 10 (rest.drop (exponentSign rest).length) := by
  constructor
  · rintro ⟨_, sign, digits, split, marked, allowed, digit⟩
    cases split
    rw [exponentSign_append allowed digit, List.drop_left]
    exact ⟨marked, digit⟩
  · rintro ⟨marked, digit⟩
    refine ⟨mark, exponentSign rest, _, ?_, marked, exponentSign_allowed rest, digit⟩
    have front : rest.take (exponentSign rest).length = exponentSign rest := by
      have short := List.take_prefix 1 (rest.takeWhile fun c => c == '+' || c == '-')
      exact (List.prefix_iff_eq_take.mp (short.trans (List.takeWhile_prefix _))).symm
    nth_rewrite 1 [← List.take_append_drop (exponentSign rest).length rest, front]
    rfl

theorem exponentLength_eq_zero_iff {text : List Char} :
    exponentLength text = 0 ↔ ¬BeginsExponent text := by
  cases text with
  | nil => simp [exponentLength, BeginsExponent]
  | cons mark rest =>
      have digits := @takeWhile_eq_nil_iff isDigit 10 isDigit_eq_true_iff
        (rest.drop (exponentSign rest).length)
      rw [beginsExponent_cons_iff, exponentLength]
      by_cases marked : mark = 'e' ∨ mark = 'E'
      · rw [if_pos marked]
        change (if ((rest.drop (exponentSign rest).length).takeWhile isDigit).isEmpty then 0
          else _) = 0 ↔ _
        split
        · next none => simp [marked, digits.mp (List.isEmpty_iff.mp none)]
        · next some =>
            have begins := not_not.mp (mt digits.mpr (mt List.isEmpty_iff.mpr some))
            simp only [marked, begins, and_self, not_true, iff_false]
            omega
      · simp [marked]

theorem fractionLength?_eq_none_iff {text : List Char} :
    fractionLength? text = none ↔ text.head? ≠ some '.' ∧ ¬BeginsExponent text := by
  rw [← exponentLength_eq_zero_iff, fractionLength?.eq_def]
  split
  · simp
  · next noPoint =>
      have other : text.head? ≠ some '.' := by
        intro point
        rcases List.head?_eq_some_iff.mp point with ⟨rest, same⟩
        exact noPoint rest same
      split
      · next zero => simp [other, zero]
      · next nonzero => simpa [other] using nonzero

theorem endsRun_iff {text : List Char} :
    EndsRun text ↔ ¬BeginsDigit 10 text ∧ fractionLength? text = none := by
  rw [fractionLength?_eq_none_iff]
  exact ⟨fun ends => ⟨ends.digit, ends.point, ends.exponent⟩,
    fun ⟨digit, point, exponent⟩ => ⟨digit, point, exponent⟩⟩

/-! ## Spellings -/

theorem hexSpelling?_eq_some_iff {characters : List Char} {spelling : IntSpelling} :
    hexSpelling? characters = some spelling ↔ ∃ mark rest, characters = '0' :: mark :: rest ∧
      (mark = 'x' ∨ mark = 'X') ∧ BeginsDigit 16 rest ∧
        spelling = ⟨16, rest.takeWhile isHexDigit, 2⟩ := by
  rw [hexSpelling?.eq_def]
  split
  · next mark rest =>
      simp only [ne_eq, takeWhile_eq_nil_iff isHexDigit_eq_true_iff, not_not,
        Option.ite_none_right_eq_some, Option.some.injEq, List.cons.injEq, true_and]
      constructor
      · rintro ⟨⟨marked, digit⟩, rfl⟩
        exact ⟨mark, rest, ⟨rfl, rfl⟩, marked, digit, rfl⟩
      · rintro ⟨_, _, ⟨rfl, rfl⟩, marked, digit, rfl⟩
        exact ⟨⟨marked, digit⟩, rfl⟩
  · next other =>
      simp only [reduceCtorEq, false_iff]
      rintro ⟨mark, rest, rfl, -⟩
      exact other mark rest rfl

theorem length_runSpelling (run : List Char) : (runSpelling run).length = run.length := by
  rw [runSpelling.eq_def]
  split <;> simp [IntSpelling.length, Nat.add_comm]

theorem runSpelling_of_leading {run : List Char} (leading : run.head? ≠ some '0') :
    runSpelling run = ⟨10, run, 0⟩ := by
  rw [runSpelling.eq_def]
  split
  · exact absurd rfl leading
  · rfl

theorem value?_eq_some_iff {spelling : IntSpelling} {value : Nat} :
    spelling.value? = some value ↔
      readDigits? spelling.base spelling.digits = some value ∧ value < UInt64.size := by
  rw [IntSpelling.value?]
  simp only [Option.bind_eq_bind, Option.bind_eq_some_iff, Option.ite_none_right_eq_some,
    Option.some.injEq]
  constructor
  · rintro ⟨_, read, bound, rfl⟩
    exact ⟨read, bound⟩
  · rintro ⟨read, bound⟩
    exact ⟨value, read, bound, rfl⟩

theorem mem_intErrors_iff {offset : Nat} {spelling : IntSpelling} {rest : List Char}
    {span : Span} :
    .integerOutOfRange span ∈ intErrors offset spelling rest ↔ spelling.value? = none ∧
      span = ⟨offset + spelling.length - spelling.digits.length, offset + spelling.length⟩ := by
  rw [intErrors, List.mem_append]
  have touching : SyntaxError.integerOutOfRange span ∉
      (if rest.head?.any isIdentStart then
        [.missingSpace ⟨offset, offset + spelling.length + (rest.takeWhile isIdentRest).length⟩]
      else [] : List SyntaxError) := by
    split <;> simp
  simp only [touching, false_or]
  cases spelling.value? <;> simp

/-- What is read as an integer without being out of range has the value of its digits. -/
theorem value?_of_readInt {offset : Nat} {spelling : IntSpelling} {characters : List Char}
    {value : Nat} (token : (readInt offset spelling characters).token = .int value)
    (inRange : ∀ span, .integerOutOfRange span ∉ (readInt offset spelling characters).errors) :
    spelling.value? = some value := by
  cases read : spelling.value? with
  | none => exact absurd (mem_intErrors_iff.mpr ⟨read, rfl⟩) (inRange _)
  | some other =>
      rw [readInt, read] at token
      cases token
      rfl

/-! ## Reading numerals -/

theorem not_beginsDigit_dropWhile {condition : Char → Bool} {base : Nat}
    (digit : ∀ {character}, condition character = true ↔ ∃ value, IsDigit base character value)
    (text : List Char) : ¬BeginsDigit base (text.dropWhile condition) := by
  rw [← takeWhile_eq_nil_iff digit]
  induction text with
  | nil => rfl
  | cons first rest induction =>
      rw [List.dropWhile_cons]
      split
      · exact induction
      · next other => rw [List.takeWhile_cons_of_neg other]

/-- What is read as an integer within its bounds is a numeral. -/
theorem exists_numeral {offset : Nat} {characters : List Char} {value : Nat}
    (starts : BeginsDigit 10 characters)
    (token : (readNumber offset characters).token = .int value)
    (inRange : ∀ span, .integerOutOfRange span ∉ (readNumber offset characters).errors) :
    ∃ text after, characters = text ++ after ∧ Numeral text after value ∧
      (readNumber offset characters).length = text.length := by
  rw [readNumber] at token inRange ⊢
  cases hex : hexSpelling? characters with
  | some spelling =>
      rw [hex] at token inRange
      rcases hexSpelling?_eq_some_iff.mp hex with ⟨mark, rest, rfl, marked, digit, rfl⟩
      have read := (value?_eq_some_iff.mp (value?_of_readInt token inRange)).1
      have some : rest.takeWhile isHexDigit ≠ [] := by
        rw [ne_eq, takeWhile_eq_nil_iff isHexDigit_eq_true_iff]
        exact not_not.mpr digit
      refine ⟨'0' :: mark :: rest.takeWhile isHexDigit, rest.dropWhile isHexDigit, ?_,
        .hexadecimal marked ((writes_iff (by decide)).mpr ⟨some, read⟩)
          (not_beginsDigit_dropWhile isHexDigit_eq_true_iff rest), Nat.add_comm 2 _⟩
      simp
  | none =>
      rw [hex] at token inRange
      dsimp only at token inRange ⊢
      have split : characters = characters.takeWhile isDigit ++ characters.dropWhile isDigit :=
        List.takeWhile_append_dropWhile.symm
      rw [drop_length_takeWhile] at token inRange ⊢
      have fresh := not_beginsDigit_dropWhile isDigit_eq_true_iff characters
      have some : characters.takeWhile isDigit ≠ [] := by
        rw [ne_eq, takeWhile_eq_nil_iff isDigit_eq_true_iff]
        exact not_not.mpr starts
      generalize characters.takeWhile isDigit = run at *
      generalize characters.dropWhile isDigit = after at *
      subst split
      cases more : fractionLength? after with
      | some more =>
          rw [more] at token
          cases token
      | none =>
          rw [more] at token inRange
          have read := (value?_eq_some_iff.mp (value?_of_readInt token inRange)).1
          have ends := endsRun_iff.mpr ⟨fresh, more⟩
          refine ⟨run, after, rfl, ?_, length_runSpelling run⟩
          by_cases leading : run.head? = Option.some '0'
          · rcases List.head?_eq_some_iff.mp leading with ⟨_ | ⟨digit, digits⟩, rfl⟩
            · cases read
              refine .zero ends fun mark rest split marked digit => ?_
              have found := hexSpelling?_eq_some_iff.mpr
                ⟨mark, rest, congrArg ('0' :: ·) split, marked, digit, rfl⟩
              exact Option.some_ne_none _ (found.symm.trans hex)
            · exact .octal ((writes_iff (by decide)).mpr ⟨List.cons_ne_nil _ _, read⟩) ends
          · rw [runSpelling_of_leading leading] at read
            exact .decimal ((writes_iff (by decide)).mpr ⟨some, read⟩) leading ends

end Lexer

end ProtoSchema.Syntax
