import ProtoSchema.Proofs.Syntax.Numerals
/-! # Numerals in a source

A numeral that stands in a source outside of comments and strings is read as one token, which
has the number that the numeral writes. If this number needs more than 64 bits, the source is
not accepted.
-/

namespace ProtoSchema.Syntax

/-! ## Places -/

/-- A text stands in a source at a span. -/
def TextAt (source : String) (span : Span) (text after : List Char) : Prop :=
  ∃ before, source.toList = before ++ (text ++ after) ∧
    span = ⟨Utf8.size before, Utf8.size before + Utf8.size text⟩

/-- A numeral stands in a source at a span. One of the pieces that the source is cut into
begins there, so that it is outside of comments, strings and names. -/
structure NumeralAt (source : String) (span : Span) (value : Nat) : Prop where
  written : ∃ text after, TextAt source span text after ∧ Numeral text after value
  outside : ∃ piece ∈ Lexer.pieces 0 source.toList, piece.span.start = span.start

/-- A place in a text tells the characters before it. -/
theorem eq_of_size_eq {before other after rest : List Char}
    (same : before ++ after = other ++ rest) (size : Utf8.size before = Utf8.size other) :
    before = other ∧ after = rest := by
  induction before generalizing other with
  | nil =>
      cases other with
      | nil => exact ⟨rfl, same⟩
      | cons first other =>
          have positive := first.utf8Size_pos
          rw [Utf8.size_nil, Utf8.size_cons] at size
          omega
  | cons first before induction =>
      cases other with
      | nil =>
          have positive := first.utf8Size_pos
          rw [Utf8.size_nil, Utf8.size_cons] at size
          omega
      | cons head other =>
          rcases List.cons.inj same with ⟨rfl, tails⟩
          rcases induction tails (Nat.add_left_cancel size) with ⟨rfl, rest⟩
          exact ⟨rfl, rest⟩

namespace Lexer

/-! ## Pieces with digits -/

theorem readPiece_of_beginsDigit {offset : Nat} {first : Char} {rest : List Char}
    (starts : BeginsDigit 10 (first :: rest)) :
    readPiece offset first rest =
      { content := .token (readNumber offset (first :: rest)).token
        errors := (readNumber offset (first :: rest)).errors
        extra := (readNumber offset (first :: rest)).length - 1 } := by
  rcases starts with ⟨_, _, value, split, digit⟩
  cases split
  have isFirst := isDigit_eq_true_iff.mpr ⟨value, digit⟩
  have codes : '0'.toNat = 48 ∧ '9'.toNat = 57 ∧ 'a'.toNat = 97 ∧ 'A'.toNat = 65 ∧
      'Z'.toNat = 90 ∧ '\t'.toNat = 9 ∧ '\r'.toNat = 13 := by decide
  have noSpace : ¬isSpace first = true := by
    simp only [isDigit, isSpace, Bool.and_eq_true, Bool.or_eq_true, decide_eq_true_eq,
      beq_iff_eq, le_iff_toNat] at isFirst ⊢
    rintro (rfl | space)
    · exact absurd isFirst (by decide)
    · omega
  have noName : ¬isIdentStart first = true := by
    simp only [isDigit, isIdentStart, Bool.and_eq_true, Bool.or_eq_true, decide_eq_true_eq,
      beq_iff_eq, le_iff_toNat] at isFirst ⊢
    rintro ((letter | letter) | rfl)
    · omega
    · omega
    · exact absurd isFirst (by decide)
  rw [readPiece, if_neg noSpace, if_neg noName, if_pos (by rw [isFirst, Bool.true_or])]

/-- A literal that begins with a point is no integer. -/
theorem readNumber_point (offset : Nat) (rest : List Char) (value : Nat) :
    (readNumber offset ('.' :: rest)).token ≠ .int value := by
  have run : ('.' :: rest).takeWhile isDigit = [] := rfl
  rw [readNumber, run]
  exact Token.noConfusion

theorem beginsDigit_of_readPiece {offset : Nat} {first : Char} {rest : List Char} {value : Nat}
    (content : (readPiece offset first rest).content = .token (.int value)) :
    BeginsDigit 10 (first :: rest) := by
  revert content
  unfold readPiece
  split
  · simp
  split
  · simp
  split
  · next starts =>
      intro content
      rcases Bool.or_eq_true_iff.mp starts with digit | point
      · rcases isDigit_eq_true_iff.mp digit with ⟨value, digit⟩
        exact ⟨first, rest, value, rfl, digit⟩
      · have isPoint : first = '.' := beq_iff_eq.mp (Bool.and_eq_true_iff.mp point).1
        subst isPoint
        exact absurd (Content.token.inj content) (readNumber_point offset rest value)
  split
  · simp
  split
  · simp [CommentReading.reading]
  split
  · simp [CommentReading.reading]
  split <;> simp

theorem size_eq_length {text : List Char} (ascii : ∀ character ∈ text, character.toNat < 128) :
    Utf8.size text = text.length := by
  induction text with
  | nil => rfl
  | cons first rest induction =>
      rw [List.forall_mem_cons] at ascii
      have single : first.utf8Size = 1 := by
        have small : first.val ≤ 0x7f := by
          rw [UInt32.le_iff_toNat_le]
          exact Nat.le_of_lt_succ ascii.1
        rw [Char.utf8Size]
        simp [small]
      rw [Utf8.size_cons, single, induction ascii.2, List.length_cons, Nat.add_comm]

theorem toNat_lt_of_isDigit {base : Nat} (small : base ≤ 16) {character : Char} {value : Nat}
    (digit : IsDigit base character value) : character.toNat < 128 := by
  have same := congrArg Char.toNat digit.2
  rw [toNat_toLower, toNat_digitChar value (Nat.lt_of_lt_of_le digit.1 small)] at same
  have bound := digit.1
  split at same <;> split at same <;> omega

theorem ne_nil_of_numeral {text after : List Char} {value : Nat}
    (numeral : Numeral text after value) : text ≠ [] := by
  cases numeral with
  | decimal writes => exact writes.1
  | _ => exact List.cons_ne_nil _ _

/-- A piece that begins with a digit is the number that is read there. -/
theorem ReadAt.number {characters before : List Char} {first : Char} {rest : List Char}
    {piece : Piece} (read : ReadAt 0 characters before first rest piece)
    (starts : BeginsDigit 10 (first :: rest)) :
    let number := readNumber (Utf8.size before) (first :: rest)
    piece.content = .token number.token ∧ piece.errors = number.errors ∧
      piece.span = ⟨Utf8.size before,
        Utf8.size before + Utf8.size (first :: rest.take (number.length - 1))⟩ := by
  have reading := @readPiece_of_beginsDigit (Utf8.size before) first rest starts
  rw [read.content, read.errors, read.span, Nat.zero_add, reading]
  exact ⟨rfl, rfl, rfl⟩

theorem cons_take_eq {first : Char} {rest text after : List Char}
    (same : first :: rest = text ++ after) (filled : text ≠ []) :
    first :: rest.take (text.length - 1) = text := by
  cases text with
  | nil => exact absurd rfl filled
  | cons head tail =>
      cases same
      simp

end Lexer

/-! ## Pieces and numerals -/

variable {source : String} {span : Span} {value : Nat}

/-- In a source without lexical faults every integer is a numeral. -/
theorem numeralAt_of_mem_lexemes (clean : (lex source).errors = []) {lexeme : Lexeme}
    (member : lexeme ∈ (lex source).lexemes) (token : lexeme.token = .int value) :
    NumeralAt source lexeme.span value := by
  rcases Lexer.exists_piece_of_mem_group member with ⟨piece, inText, content, place⟩
  rcases Lexer.exists_readAt inText with ⟨before, first, rest, read⟩
  rw [Lexer.errors_lex] at clean
  have noErrors := List.flatMap_eq_nil_iff.mp clean piece inText
  rw [read.content, token] at content
  have starts := Lexer.beginsDigit_of_readPiece content
  rcases read.number starts with ⟨tokenRead, errors, span⟩
  rw [read.content.symm.trans tokenRead] at content
  rcases Lexer.exists_numeral starts (Lexer.Content.token.inj content)
    (fun span fault => List.not_mem_nil (noErrors ▸ errors ▸ fault)) with
    ⟨text, after, split, numeral, length⟩
  rw [length, Lexer.cons_take_eq split (Lexer.ne_nil_of_numeral numeral)] at span
  exact
    { written :=
        ⟨text, after, ⟨before, split ▸ read.split, place.symm.trans span⟩, numeral⟩
      outside := ⟨piece, inText, congrArg Span.start place⟩ }

end ProtoSchema.Syntax
