import ProtoSchema.Proofs.Syntax.Tiling
/-! # What follows a literal

A number without faults is read in the same way if another text follows it, provided that this
begins with white space or a slash. A string is read in the same way whatever follows it. The
place where they are read decides nothing but spans.
-/

namespace ProtoSchema.Syntax.Lexer

/-! ## Runs of characters -/

section

variable {condition : Char → Bool} {text after other : List Char}

theorem takeWhile_append_of_le
    (short : ((text ++ after).takeWhile condition).length ≤ text.length) :
    (text ++ after).takeWhile condition = text.takeWhile condition := by
  rw [List.takeWhile_append] at short ⊢
  split
  · next all =>
      rw [if_pos all, List.length_append] at short
      have none : after.takeWhile condition = [] := by
        rw [← List.length_eq_zero_iff]
        omega
      rw [none, List.append_nil]
      exact ((List.takeWhile_prefix condition).eq_of_length all).symm
  · rfl

theorem takeWhile_append_of_stops (stops : ∀ next ∈ other.head?, condition next = false)
    (text : List Char) : (text ++ other).takeWhile condition = text.takeWhile condition := by
  have none : other.takeWhile condition = [] := by
    cases other with
    | nil => rfl
    | cons next other => rw [List.takeWhile_cons, stops next rfl, if_neg Bool.false_ne_true]
  rw [List.takeWhile_append, none, List.append_nil]
  split
  · next all => exact ((List.takeWhile_prefix condition).eq_of_length all).symm
  · rfl

theorem takeWhile_append_of_lt
    (short : ((text ++ after).takeWhile condition).length < text.length) (other : List Char) :
    (text ++ other).takeWhile condition = (text ++ after).takeWhile condition := by
  have same := takeWhile_append_of_le short.le
  rw [same] at short ⊢
  rw [List.takeWhile_append, if_neg short.ne]

/-- A run among the first characters. -/
theorem takeWhile_take_append_of_lt {count : Nat}
    (short : (((text ++ after).take count).takeWhile condition).length < text.length)
    (other : List Char) :
    ((text ++ other).take count).takeWhile condition =
      ((text ++ after).take count).takeWhile condition := by
  induction text generalizing count with
  | nil => exact absurd short (Nat.not_lt_zero _)
  | cons first text induction =>
      cases count with
      | zero => rfl
      | succ count =>
          simp only [List.cons_append, List.take_succ_cons, List.takeWhile_cons] at short ⊢
          split
          · next holds =>
              rw [if_pos holds, List.length_cons, List.length_cons] at short
              rw [induction (Nat.lt_of_succ_lt_succ short)]
          · rfl

end

/-! ## Separators -/

/-- The characters with which white space and comments begin. -/
def separators : List Char :=
  [' ', '\t', '\n', '\x0B', '\x0C', '\r', '/']

theorem mem_separators_of_isSpace {character : Char} (space : isSpace character = true) :
    character ∈ separators := by
  have codes := toNat_of_isSpace space
  have listed : ∀ code < 128, code = 32 ∨ 9 ≤ code ∧ code ≤ 13 →
      Char.ofNat code ∈ separators := by
    decide
  rw [← Char.ofNat_toNat character]
  exact listed _ (by omega) codes

/-- A text that separates what is before it from itself. -/
def Separates (other : List Char) : Prop :=
  ∀ next ∈ other.head?, next ∈ separators

theorem Separates.stops {other : List Char} (separates : Separates other)
    {condition : Char → Bool} (outside : ∀ character ∈ separators, condition character = false) :
    ∀ next ∈ other.head?, condition next = false :=
  fun next found => outside next (separates next found)

theorem takeWhile_follow {condition : Char → Bool} {text after other : List Char}
    (outside : ∀ character ∈ separators, condition character = false)
    (separates : Separates other)
    (short : ((text ++ after).takeWhile condition).length ≤ text.length) :
    (text ++ other).takeWhile condition = (text ++ after).takeWhile condition := by
  rw [takeWhile_append_of_le short, takeWhile_append_of_stops (separates.stops outside)]

theorem forall_separators {condition : Char → Prop} [DecidablePred condition]
    (holds : (separators.all fun character => decide (condition character)) = true) :
    ∀ character ∈ separators, condition character := by
  simpa using holds

theorem isDigit_separators : ∀ character ∈ separators, isDigit character = false :=
  forall_separators (by decide)

theorem isHexDigit_separators : ∀ character ∈ separators, isHexDigit character = false :=
  forall_separators (by decide)

theorem isIdentStart_separators : ∀ character ∈ separators, isIdentStart character = false :=
  forall_separators (by decide)

theorem isIdentRest_separators : ∀ character ∈ separators, isIdentRest character = false :=
  forall_separators (by decide)

/-! ## Exponents and fractions -/

/-- The digits of the exponent behind its mark. -/
def exponentDigits (text : List Char) : List Char :=
  (text.drop (exponentSign text).length).takeWhile isDigit

theorem exponentLength_cons (mark : Char) (rest : List Char) :
    exponentLength (mark :: rest) =
      if mark = 'e' ∨ mark = 'E' then
        if (exponentDigits rest).isEmpty then 0
        else 1 + (exponentSign rest).length + (exponentDigits rest).length
      else 0 :=
  rfl

theorem exponentLength_le (characters : List Char) :
    exponentLength characters ≤ characters.length := by
  cases characters with
  | nil => exact Nat.zero_le _
  | cons mark rest =>
      have sign : (exponentSign rest).length ≤ rest.length :=
        ((List.take_prefix _ _).trans (List.takeWhile_prefix _)).length_le
      have digits : (exponentDigits rest).length ≤ rest.length - (exponentSign rest).length :=
        (List.takeWhile_prefix isDigit).length_le.trans_eq List.length_drop
      rw [exponentLength_cons, List.length_cons]
      split
      · split <;> omega
      · exact Nat.zero_le _

theorem fractionLength?_le {characters : List Char} {more : Nat}
    (found : fractionLength? characters = some more) : more ≤ characters.length := by
  rw [fractionLength?.eq_def] at found
  split at found
  · next rest =>
      cases found
      have digits : (rest.takeWhile isDigit).length ≤ rest.length :=
        (List.takeWhile_prefix isDigit).length_le
      have exponent := exponentLength_le (rest.drop (rest.takeWhile isDigit).length)
      rw [List.length_drop] at exponent
      rw [List.length_cons]
      omega
  · split at found
    · cases found
    · cases found
      exact exponentLength_le _

section

variable {text after other : List Char}

theorem exponentDigits_follow (separates : Separates other)
    (short : exponentDigits (text ++ after) ≠ [] →
      (exponentSign (text ++ after)).length + (exponentDigits (text ++ after)).length ≤
        text.length) :
    exponentDigits (text ++ other) = exponentDigits (text ++ after) ∧
      (exponentDigits (text ++ after) ≠ [] →
        exponentSign (text ++ other) = exponentSign (text ++ after)) := by
  cases text with
  | nil =>
      have none : exponentDigits after = [] := by
        by_contra some
        have digits := List.length_pos_iff.mpr some
        have length := short some
        simp only [List.nil_append, List.length_nil] at length
        omega
      refine ⟨?_, fun some => absurd none some⟩
      rw [List.nil_append, List.nil_append, none]
      cases other with
      | nil => rfl
      | cons next other =>
          have listed := separates next rfl
          have sign : ∀ character ∈ separators, ¬(character = '+' ∨ character = '-') :=
            forall_separators (by decide)
          rw [exponentDigits, exponentSign_cons, if_neg (sign next listed), List.length_nil,
            List.drop_zero, List.takeWhile_cons, isDigit_separators next listed,
            if_neg Bool.false_ne_true]
  | cons first text =>
      have sameSign :
          exponentSign (first :: text ++ other) = exponentSign (first :: text ++ after) :=
        (exponentSign_cons first (text ++ other)).trans
          (exponentSign_cons first (text ++ after)).symm
      refine ⟨?_, fun _ => sameSign⟩
      have bound : (exponentSign (first :: text ++ after)).length ≤ (first :: text).length := by
        rw [List.cons_append, exponentSign_cons]
        split <;> simp
      rw [exponentDigits] at short
      rw [exponentDigits, exponentDigits, sameSign, List.drop_append_of_le_length bound]
      rw [List.drop_append_of_le_length bound] at short ⊢
      refine takeWhile_follow isDigit_separators separates ?_
      rw [List.length_drop]
      by_cases none : (((first :: text).drop (exponentSign (first :: text ++ after)).length ++
          after).takeWhile isDigit) = []
      · rw [none]
        exact Nat.zero_le _
      · have length := short none
        omega

theorem exponentLength_follow (separates : Separates other)
    (short : exponentLength (text ++ after) ≤ text.length) :
    exponentLength (text ++ other) = exponentLength (text ++ after) := by
  cases text with
  | nil =>
      have none : exponentLength after = 0 := Nat.le_zero.mp short
      rw [List.nil_append, List.nil_append, none]
      cases other with
      | nil => rfl
      | cons next other =>
          have mark : ∀ character ∈ separators, ¬(character = 'e' ∨ character = 'E') :=
            forall_separators (by decide)
          rw [exponentLength_cons, if_neg (mark next (separates next rfl))]
  | cons mark text =>
      simp only [List.cons_append, exponentLength_cons] at short ⊢
      split
      · next marked =>
          rw [if_pos marked] at short
          have digits := @exponentDigits_follow text after other separates fun some => by
            rw [if_neg (mt List.isEmpty_iff.mp some), List.length_cons] at short
            omega
          rw [digits.1]
          split
          · rfl
          · next some => rw [digits.2 (mt List.isEmpty_iff.mpr some)]
      · rfl

/-- Without a point, the exponent decides. -/
theorem fractionLength?_of_head?_ne {characters : List Char} (point : characters.head? ≠ some '.') :
    fractionLength? characters =
      if exponentLength characters = 0 then none else some (exponentLength characters) := by
  rw [fractionLength?.eq_def]
  split
  · exact absurd rfl point
  · split
    · next zero => rw [if_pos zero]
    · next nonzero => rw [if_neg nonzero]

theorem fractionLength?_follow_exponent (separates : Separates other)
    (point : (text ++ after).head? ≠ some '.') (otherPoint : (text ++ other).head? ≠ some '.')
    (short : ∀ more ∈ fractionLength? (text ++ after), more ≤ text.length) :
    fractionLength? (text ++ other) = fractionLength? (text ++ after) := by
  rw [fractionLength?_of_head?_ne point] at short
  have length : exponentLength (text ++ after) ≤ text.length := by
    by_cases zero : exponentLength (text ++ after) = 0
    · rw [zero]
      exact Nat.zero_le _
    · rw [if_neg zero] at short
      exact short _ rfl
  rw [fractionLength?_of_head?_ne point, fractionLength?_of_head?_ne otherPoint,
    exponentLength_follow separates length]

theorem fractionLength?_follow_point (separates : Separates other)
    (short : ∀ more ∈ fractionLength? ('.' :: text ++ after), more ≤ ('.' :: text).length) :
    fractionLength? ('.' :: text ++ other) = fractionLength? ('.' :: text ++ after) := by
  have length : 1 + ((text ++ after).takeWhile isDigit).length +
      exponentLength ((text ++ after).drop ((text ++ after).takeWhile isDigit).length) ≤
        text.length + 1 :=
    short _ rfl
  have taken : ((text ++ after).takeWhile isDigit).length ≤ text.length := by omega
  have digits := takeWhile_follow isDigit_separators separates taken
  rw [List.drop_append_of_le_length taken] at length
  have exponent := @exponentLength_follow
    (text.drop ((text ++ after).takeWhile isDigit).length) after other separates
    (by rw [List.length_drop]; omega)
  rw [List.cons_append, List.cons_append, fractionLength?, fractionLength?, digits,
    List.drop_append_of_le_length taken, List.drop_append_of_le_length taken, exponent]

theorem fractionLength?_follow (separates : Separates other)
    (short : ∀ more ∈ fractionLength? (text ++ after), more ≤ text.length) :
    fractionLength? (text ++ other) = fractionLength? (text ++ after) := by
  cases text with
  | nil =>
      refine fractionLength?_follow_exponent separates (fun point => ?_) (fun point => ?_) short
      · rcases List.head?_eq_some_iff.mp point with ⟨rest, split⟩
        rw [split] at short
        have length := short _ rfl
        simp at length
      · exact absurd (separates '.' point) (by decide)
  | cons first text =>
      by_cases point : first = '.'
      · subst point
        exact fractionLength?_follow_point separates short
      · have noPoint (rest : List Char) : (first :: text ++ rest).head? ≠ some '.' := by
          simpa using point
        exact fractionLength?_follow_exponent separates (noPoint after) (noPoint other) short

end

/-! ## Numbers -/

section

variable {text after other : List Char}

theorem intErrors_eq_nil_iff {offset : Nat} {spelling : IntSpelling} {rest : List Char} :
    intErrors offset spelling rest = [] ↔
      rest.head?.any isIdentStart = false ∧ spelling.value?.isSome := by
  rw [intErrors, List.append_eq_nil_iff]
  cases rest.head?.any isIdentStart <;> cases spelling.value? <;> simp

theorem hexSpelling?_length_le {characters : List Char} {spelling : IntSpelling}
    (found : hexSpelling? characters = some spelling) :
    2 ≤ spelling.length ∧ spelling.length ≤ characters.length := by
  rcases hexSpelling?_eq_some_iff.mp found with ⟨mark, rest, rfl, -, -, rfl⟩
  have digits : (rest.takeWhile isHexDigit).length ≤ rest.length :=
    (List.takeWhile_prefix isHexDigit).length_le
  simp only [IntSpelling.length, List.length_cons]
  omega

/-- No hexadecimal literal begins with a text whose second character is a separator. -/
theorem hexSpelling?_eq_none {characters : List Char}
    (unmarked : ∀ mark rest, characters = '0' :: mark :: rest → mark ∈ separators) :
    hexSpelling? characters = none := by
  rw [Option.eq_none_iff_forall_ne_some]
  intro spelling found
  rcases hexSpelling?_eq_some_iff.mp found with ⟨mark, rest, split, marked, -, -⟩
  have listed := unmarked mark rest split
  rcases marked with rfl | rfl <;> exact absurd listed (by decide)

theorem hexSpelling?_follow_digits {mark : Char} (separates : Separates other)
    (short : ∀ spelling ∈ hexSpelling? ('0' :: mark :: text ++ after),
      spelling.length ≤ ('0' :: mark :: text).length) :
    hexSpelling? ('0' :: mark :: text ++ other) = hexSpelling? ('0' :: mark :: text ++ after) := by
  simp only [List.cons_append, hexSpelling?] at short ⊢
  by_cases marked : mark = 'x' ∨ mark = 'X'
  · have within : ((text ++ after).takeWhile isHexDigit).length ≤ text.length := by
      by_cases some : (text ++ after).takeWhile isHexDigit = []
      · rw [some]
        exact Nat.zero_le _
      · have length := short _ (if_pos ⟨marked, some⟩)
        simp only [IntSpelling.length, List.length_cons] at length
        omega
    rw [takeWhile_follow isHexDigit_separators separates within]
  · rw [if_neg fun both => marked both.1, if_neg fun both => marked both.1]

theorem hexSpelling?_follow (separates : Separates other)
    (short : ∀ spelling ∈ hexSpelling? (text ++ after), spelling.length ≤ text.length) :
    hexSpelling? (text ++ other) = hexSpelling? (text ++ after) := by
  have none_of_short (few : text.length < 2) : hexSpelling? (text ++ after) = none := by
    cases found : hexSpelling? (text ++ after) with
    | none => rfl
    | some spelling =>
        have long := (hexSpelling?_length_le found).1
        have length := short spelling found
        omega
  rcases text with _ | ⟨first, _ | ⟨mark, text⟩⟩
  · rw [none_of_short (by simp)]
    refine hexSpelling?_eq_none fun mark rest split => ?_
    have zero := separates '0' (by rw [← List.nil_append other, split]; rfl)
    exact absurd zero (by decide)
  · rw [none_of_short (by simp)]
    refine hexSpelling?_eq_none fun mark rest split => ?_
    have tail : other = mark :: rest := (List.cons.inj split).2
    exact separates mark (by rw [tail]; rfl)
  · by_cases zero : first = '0'
    · subst zero
      exact hexSpelling?_follow_digits separates short
    · have without (rest : List Char) : hexSpelling? (first :: rest) = none := by
        rw [hexSpelling?.eq_def]
        split
        · next same => exact absurd (List.cons.inj same).1 zero
        · rfl
      exact (without (mark :: text ++ other)).trans (without (mark :: text ++ after)).symm

/-- A number is read again, with the same token, and without faults. -/
structure NumberReading.Again (reading again : NumberReading) : Prop where
  token_eq : again.token = reading.token
  length_eq : again.length = reading.length
  clean : again.errors = []

theorem NumberReading.Again.ofInt {offset : Nat} (place : Nat) {spelling : IntSpelling}
    (separates : Separates other)
    (short : (readInt offset spelling (text ++ after)).length ≤ text.length)
    (clean : (readInt offset spelling (text ++ after)).errors = []) :
    (readInt offset spelling (text ++ after)).Again (readInt place spelling (text ++ other)) where
  token_eq := rfl
  length_eq := rfl
  clean := by
    have inside : spelling.length ≤ text.length := short
    have holds : intErrors offset spelling ((text ++ after).drop spelling.length) = [] := clean
    change intErrors place spelling ((text ++ other).drop spelling.length) = []
    rw [List.drop_append_of_le_length inside] at holds ⊢
    rw [intErrors_eq_nil_iff] at holds ⊢
    refine ⟨?_, holds.2⟩
    generalize text.drop spelling.length = tail at holds ⊢
    cases tail with
    | cons first rest => exact holds.1
    | nil =>
        cases other with
        | nil => rfl
        | cons next rest => exact isIdentStart_separators next (separates next rfl)

theorem length_readNumber_le (offset : Nat) (characters : List Char) :
    (readNumber offset characters).length ≤ characters.length := by
  have run : (characters.takeWhile isDigit).length ≤ characters.length :=
    (List.takeWhile_prefix isDigit).length_le
  rw [readNumber]
  split
  · next spelling found => exact (hexSpelling?_length_le found).2
  · dsimp only
    split
    · next more found =>
        have length := fractionLength?_le found
        rw [List.length_drop] at length
        dsimp only
        omega
    · exact (length_runSpelling _).trans_le run

theorem two_le_length_readNumber (offset : Nat) {next : Char} {after : List Char}
    (digit : isDigit next = true) :
    2 ≤ (readNumber offset ('.' :: next :: after)).length := by
  have run : ('.' :: next :: after).takeWhile isDigit = [] := rfl
  have digits : (next :: after).takeWhile isDigit = next :: after.takeWhile isDigit := by
    rw [List.takeWhile_cons, if_pos digit]
  have noHex : hexSpelling? ('.' :: next :: after) = none := rfl
  rw [readNumber, noHex, run]
  simp only [List.length_nil, List.drop_zero, fractionLength?, digits, List.length_cons]
  omega

theorem readNumber_follow {offset : Nat} (place : Nat) (separates : Separates other)
    (short : (readNumber offset (text ++ after)).length ≤ text.length)
    (clean : (readNumber offset (text ++ after)).errors = []) :
    (readNumber offset (text ++ after)).Again (readNumber place (text ++ other)) := by
  have spellings : hexSpelling? (text ++ other) = hexSpelling? (text ++ after) := by
    refine hexSpelling?_follow separates fun spelling found => ?_
    rw [readNumber, found] at short
    exact short
  rw [readNumber] at short clean
  rw [readNumber, readNumber, spellings]
  cases found : hexSpelling? (text ++ after) with
  | some spelling =>
      rw [found] at short clean
      exact .ofInt place separates short clean
  | none =>
      rw [found] at short clean
      dsimp only at short clean ⊢
      have within : ((text ++ after).takeWhile isDigit).length ≤ text.length := by
        split at short
        · exact (Nat.le_add_right _ _).trans short
        · rw [readInt, length_runSpelling] at short
          exact short
      have run := takeWhile_follow isDigit_separators separates within
      rw [List.drop_append_of_le_length within] at short clean ⊢
      have fractions := @fractionLength?_follow
        (text.drop ((text ++ after).takeWhile isDigit).length) after other separates
        fun more isMore => by
          rw [Option.mem_def.mp isMore] at short
          rw [List.length_drop]
          exact Nat.le_sub_of_add_le' short
      rw [run, List.drop_append_of_le_length within, fractions]
      generalize follows : fractionLength? (text.drop _ ++ after) = more at short clean fractions ⊢
      cases more with
      | some more =>
          dsimp only at short ⊢
          refine ⟨?_, rfl, rfl⟩
          dsimp only
          rw [List.take_append_of_le_length short, List.take_append_of_le_length short]
      | none => exact .ofInt place separates short clean

end

/-! ## Strings -/

section

variable {text after other : List Char} {quote : Char}

theorem escape?_follow {escape : Escape} (read : escape? (text ++ after) = some escape)
    (short : escape.length < text.length) (other : List Char) :
    escape? (text ++ other) = some escape := by
  cases text with
  | nil => exact absurd short (Nat.not_lt_zero _)
  | cons kind text =>
      rw [List.length_cons] at short
      have digits {condition : Char → Bool} {count : Nat}
          (length : escape.length =
            1 + (((text ++ after).take count).takeWhile condition).length) :=
        @takeWhile_take_append_of_lt condition text after count (by omega) other
      rw [List.cons_append, escape?] at read ⊢
      split at read
      · next marked => rw [if_pos marked, digits (length_of_byteEscape read), read]
      next unmarked =>
      rw [if_neg unmarked]
      split at read
      · next octal =>
          have length := length_of_byteEscape read
          rw [List.length_cons, Nat.zero_add, Nat.add_comm] at length
          rw [if_pos octal, digits length, read]
      next notOctal =>
      rw [if_neg notOctal]
      have character {count : Nat} (read : charEscape? count (text ++ after) = some escape) :
          charEscape? count (text ++ other) = some escape := by
        rw [charEscape?, digits (length_of_charEscape read)]
        exact read
      split at read
      · next small =>
          rw [if_pos small]
          exact character read
      next notSmall =>
      rw [if_neg notSmall]
      split at read
      · next large =>
          rw [if_pos large]
          exact character read
      · next notLarge =>
          rw [if_neg notLarge]
          exact read

/-- The content of a string is read as another one, and without faults. -/
structure StringContent.Again (content again : StringContent) : Prop where
  bytes_eq : again.bytes = content.bytes
  length_eq : again.length = content.length
  clean : again.errors = []

theorem StringContent.Again.prepend {content again : StringContent}
    (same : content.Again again) (length : Nat) (bytes : List UInt8) :
    (content.prepend length bytes []).Again (again.prepend length bytes []) where
  bytes_eq := congrArg (bytes ++ ·) same.bytes_eq
  length_eq := congrArg (length + ·) same.length_eq
  clean := same.clean

theorem readContent_nil (offset : Nat) :
    readContent quote offset [] = ⟨[], [.unexpectedEnd .stringTerminator], 0⟩ := by
  rw [readContent.eq_def]

theorem readContent_length_pos {offset : Nat} {characters : List Char}
    (clean : (readContent quote offset characters).errors = []) :
    0 < (readContent quote offset characters).length := by
  cases characters with
  | nil =>
      rw [readContent_nil] at clean
      cases clean
  | cons first rest =>
      rw [readContent.eq_def]
      dsimp only
      split
      · exact Nat.one_pos
      split
      · exact Nat.one_pos
      split
      · split <;> simp [StringContent.prepend]
      split <;> simp [StringContent.prepend]

/-- A string is read up to its closing quote. -/
theorem readContent_follow {offset : Nat} (place : Nat) (other : List Char)
    (clean : (readContent quote offset (text ++ after)).errors = [])
    (short : (readContent quote offset (text ++ after)).length ≤ text.length) :
    (readContent quote offset (text ++ after)).Again
      (readContent quote place (text ++ other)) := by
  generalize whole : text ++ after = characters at clean short ⊢
  induction characters using content_induction quote generalizing offset place text with
  | none =>
      rw [readContent_nil] at clean
      cases clean
  | closes rest =>
      rw [readContent_quote] at short ⊢
      cases text with
      | nil => exact absurd short (Nat.not_lt_zero _)
      | cons first text =>
          cases (List.cons.inj whole).1
          rw [List.cons_append, readContent_quote]
          exact ⟨rfl, rfl, rfl⟩
  | lineFeed rest noQuote =>
      rw [readContent_lineFeed noQuote] at clean
      cases clean
  | escape rest escape noQuote read induction =>
      rw [readContent_escape noQuote read] at clean short ⊢
      have positive := readContent_length_pos (show (readContent quote _ _).errors = [] from clean)
      simp only [StringContent.prepend] at short
      cases text with
      | nil =>
          rw [List.length_nil] at short
          omega
      | cons first text =>
          have tail : text ++ after = rest := (List.cons.inj whole).2
          cases (List.cons.inj whole).1
          subst tail
          rw [List.length_cons] at short
          have inside : escape.length ≤ text.length := by omega
          rw [List.cons_append,
            readContent_escape noQuote (escape?_follow read (by omega) other),
            @List.drop_append_of_le_length _ text other _ inside]
          refine StringContent.Again.prepend (induction _ ?_ clean ?_) _ _
          · rw [List.drop_append_of_le_length inside]
          · rw [List.length_drop]
            omega
  | backslash rest noQuote read induction =>
      rw [readContent_backslash noQuote read] at clean
      cases clean
  | nul rest run noQuote isRun induction =>
      rw [readContent_nul noQuote rest offset isRun] at clean
      cases clean
  | plain character rest plain induction =>
      rw [readContent_plain plain] at clean short ⊢
      have positive := readContent_length_pos (show (readContent quote _ _).errors = [] from clean)
      simp only [StringContent.prepend] at short
      cases text with
      | nil =>
          rw [List.length_nil] at short
          omega
      | cons first text =>
          have tail : text ++ after = rest := (List.cons.inj whole).2
          cases (List.cons.inj whole).1
          subst tail
          rw [List.length_cons] at short
          rw [List.cons_append, readContent_plain plain]
          exact StringContent.Again.prepend (induction _ rfl clean (by omega)) _ _

end

end ProtoSchema.Syntax.Lexer
