import ProtoSchema.Proofs.Syntax.Tiling
/-! # String literals

A character may be written in a string literal as it is or by escapes: by one that stands for it,
by its code, or by each of its bytes. However its characters are written, a string is read back
from its literal.
-/

namespace ProtoSchema.Syntax

/-! ## Spellings -/

/-- The escapes of one letter, and the characters that they stand for. -/
def letterEscapes : List (Char × Char) :=
  [('a', '\x07'), ('b', '\x08'), ('t', '\t'), ('n', '\n'), ('v', '\x0b'), ('f', '\x0c'),
    ('r', '\r'), ('"', '"'), ('\'', '\''), ('?', '?'), ('\\', '\\')]

/-- A byte is written by two hexadecimal digits or by three octal ones. -/
inductive SpellsByte (byte : UInt8) : List Char → Prop
  | hexadecimal {mark : Char} {digits : List Char} (marked : mark = 'x' ∨ mark = 'X')
      (writes : Writes 16 digits byte.toNat) (two : digits.length = 2) :
      SpellsByte byte ('\\' :: mark :: digits)
  | octal {digits : List Char} (writes : Writes 8 digits byte.toNat) (three : digits.length = 3) :
      SpellsByte byte ('\\' :: digits)

/-- A character is written in a string literal with a quote. -/
inductive SpellsChar (quote character : Char) : List Char → Prop
  | plain (plain : Lexer.IsPlain quote character) : SpellsChar quote character [character]
  | letter {letter : Char} (listed : (letter, character) ∈ letterEscapes) :
      SpellsChar quote character ['\\', letter]
  | bytes {texts : List (List Char)}
      (each : List.Forall₂ SpellsByte (String.utf8EncodeChar character) texts) :
      SpellsChar quote character texts.flatten
  | short {digits : List Char} (writes : Writes 16 digits character.toNat)
      (four : digits.length = 4) : SpellsChar quote character ('\\' :: 'u' :: digits)
  | long {digits : List Char} (writes : Writes 16 digits character.toNat)
      (eight : digits.length = 8) : SpellsChar quote character ('\\' :: 'U' :: digits)

/-- A string is written character by character. -/
inductive Spells (quote : Char) : List Char → List Char → Prop
  | none : Spells quote [] []
  | more {character : Char} {characters text rest : List Char}
      (first : SpellsChar quote character text) (others : Spells quote characters rest) :
      Spells quote (character :: characters) (text ++ rest)

namespace Lexer

/-! ## Reading escapes -/

/-- Digits that are followed by anything are the first digits of the text. -/
theorem takeWhile_digits_take {condition : Char → Bool} {digits : List Char} {count : Nat}
    (all : ∀ character ∈ digits, condition character = true) (length : digits.length = count)
    (rest : List Char) : ((digits ++ rest).take count).takeWhile condition = digits := by
  rw [← length, List.take_left, List.takeWhile_eq_self_iff.mpr all]

theorem isHexDigit_of_writes {digits : List Char} {value : Nat} (writes : Writes 16 digits value) :
    ∀ character ∈ digits, isHexDigit character = true := by
  intro character member
  exact isHexDigit_eq_true_iff.mpr (writes.digit_of_mem character member)

theorem isOctalDigit_of_writes {digits : List Char} {value : Nat} (writes : Writes 8 digits value) :
    ∀ character ∈ digits, isOctalDigit character = true := by
  intro character member
  rcases writes.digit_of_mem character member with ⟨digit, isDigit⟩
  rcases (isDigit_iff (by decide)).mp isDigit with ⟨read, small⟩
  have codes : '0'.toNat = 48 ∧ '7'.toNat = 55 ∧ '9'.toNat = 57 := by decide
  simp only [digitValue?, Lexer.isDigit, isOctalDigit, Bool.and_eq_true, decide_eq_true_eq,
    le_iff_toNat] at read ⊢
  grind

theorem byteEscape?_of_writes {base lead : Nat} {digits : List Char} {byte : UInt8}
    (small : base ≤ 16) (writes : Writes base digits byte.toNat) :
    byteEscape? base digits lead = some ⟨[byte], lead + digits.length⟩ := by
  rcases (writes_iff small).mp writes with ⟨filled, read⟩
  simp [byteEscape?, read, filled, byte.toNat_lt, UInt8.ofNat_toNat]

theorem charEscape?_of_writes {digits : List Char} {character : Char} {count : Nat}
    (writes : Writes 16 digits character.toNat) (length : digits.length = count)
    (rest : List Char) :
    charEscape? count (digits ++ rest) =
      some ⟨String.utf8EncodeChar character, 1 + count⟩ := by
  have read := ((writes_iff le_rfl).mp writes).2
  have valid : character.toNat.isValidChar := character.valid
  simp only [charEscape?, takeWhile_digits_take (isHexDigit_of_writes writes) length, read,
    Option.bind_eq_bind, Option.bind_some, length, valid, and_self, if_true, Char.ofNat_toNat]
  simp [Utf8.encode]

theorem escape?_of_byte {byte : UInt8} {text : List Char} (spelled : SpellsByte byte ('\\' :: text))
    (rest : List Char) : escape? (text ++ rest) = some ⟨[byte], text.length⟩ := by
  cases spelled with
  | @hexadecimal mark digits marked writes two =>
      rw [List.cons_append, escape?, if_pos marked,
        takeWhile_digits_take (isHexDigit_of_writes writes) two,
        byteEscape?_of_writes le_rfl writes, List.length_cons, Nat.add_comm]
  | octal writes three =>
      rcases List.exists_cons_of_ne_nil writes.1 with ⟨kind, digits, rfl⟩
      have octal := isOctalDigit_of_writes writes
      rw [List.forall_mem_cons] at octal
      have noMark : ¬(kind = 'x' ∨ kind = 'X') := by
        rintro (rfl | rfl) <;> exact absurd octal.1 (by decide)
      rw [List.cons_append, escape?, if_neg noMark, if_pos octal.1,
        takeWhile_digits_take octal.2 (Nat.succ.inj three),
        byteEscape?_of_writes (by decide) writes, Nat.zero_add]

theorem escape?_of_letter {letter character : Char} (listed : (letter, character) ∈ letterEscapes)
    (rest : List Char) :
    escape? (letter :: rest) = some ⟨String.utf8EncodeChar character, 1⟩ := by
  simp only [letterEscapes, List.mem_cons, Prod.mk.injEq, List.not_mem_nil, or_false] at listed
  rcases listed with ⟨rfl, rfl⟩ | ⟨rfl, rfl⟩ | ⟨rfl, rfl⟩ | ⟨rfl, rfl⟩ | ⟨rfl, rfl⟩ | ⟨rfl, rfl⟩ |
    ⟨rfl, rfl⟩ | ⟨rfl, rfl⟩ | ⟨rfl, rfl⟩ | ⟨rfl, rfl⟩ | ⟨rfl, rfl⟩ <;> rfl

/-! ## Reading spellings -/

/-- At any place, reading a string passes a text, which gives some bytes and no fault. -/
def Passes (quote : Char) (text : List Char) (bytes : List UInt8) : Prop :=
  ∀ rest offset, ∃ next, readContent quote offset (text ++ rest) =
    (readContent quote next rest).prepend text.length bytes []

namespace Passes

variable {quote : Char} {text more : List Char} {bytes others : List UInt8}

theorem none : Passes quote [] [] := by
  intro rest offset
  refine ⟨offset, ?_⟩
  rw [List.nil_append, StringContent.prepend, List.length_nil, Nat.zero_add]
  rfl

theorem append (first : Passes quote text bytes) (second : Passes quote more others) :
    Passes quote (text ++ more) (bytes ++ others) := by
  intro rest offset
  rcases first (more ++ rest) offset with ⟨middle, firstRun⟩
  rcases second rest middle with ⟨next, secondRun⟩
  refine ⟨next, ?_⟩
  rw [List.append_assoc, firstRun, secondRun]
  simp only [StringContent.prepend, List.length_append, List.append_assoc, Nat.add_assoc,
    List.nil_append]

/-- An escape is passed with all of its characters. -/
theorem escape (noQuote : '\\' ≠ quote)
    (read : ∀ rest, escape? (text ++ rest) = some ⟨bytes, text.length⟩) :
    Passes quote ('\\' :: text) bytes := by
  intro rest offset
  refine ⟨offset + 1 + text.length, ?_⟩
  rw [List.cons_append, readContent_escape noQuote (read rest), List.drop_left, List.length_cons,
    Nat.add_comm 1]

theorem of_bytes {texts : List (List Char)} (noQuote : '\\' ≠ quote)
    (each : List.Forall₂ SpellsByte bytes texts) : Passes quote texts.flatten bytes := by
  induction each with
  | nil => exact none
  | @cons byte text bytes texts first others induction =>
      rw [List.flatten_cons, ← List.singleton_append]
      refine append ?_ induction
      cases first with
      | hexadecimal marked writes two =>
          exact escape noQuote (escape?_of_byte (.hexadecimal marked writes two))
      | octal writes three => exact escape noQuote (escape?_of_byte (.octal writes three))

theorem of_char {character : Char} (noQuote : '\\' ≠ quote)
    (spelled : SpellsChar quote character text) :
    Passes quote text (String.utf8EncodeChar character) := by
  cases spelled with
  | plain plain =>
      intro rest offset
      refine ⟨offset + character.utf8Size, ?_⟩
      rw [List.singleton_append, readContent_plain plain, Utf8.encode, List.flatMap_singleton]
      rfl
  | letter listed => exact escape noQuote (escape?_of_letter listed)
  | bytes each => exact of_bytes noQuote each
  | short writes four =>
      refine escape noQuote fun rest => ?_
      rw [List.cons_append, List.length_cons, four]
      exact charEscape?_of_writes writes four rest
  | long writes eight =>
      refine escape noQuote fun rest => ?_
      rw [List.cons_append, List.length_cons, eight]
      exact charEscape?_of_writes writes eight rest

theorem of_spells {characters : List Char} (noQuote : '\\' ≠ quote)
    (spelled : Spells quote characters text) : Passes quote text (Utf8.encode characters) := by
  induction spelled with
  | none => exact none
  | more first _ induction =>
      rw [Utf8.encode_cons]
      exact append (of_char noQuote first) induction

end Passes

/-! ## Reading literals -/

section

variable {quote : Char} {characters text : List Char}

/-- A literal between quotes is read as the string that its text spells. -/
theorem readString_of_spells (isQuote : quote = '"' ∨ quote = '\'')
    (spelled : Spells quote characters text) (offset : Nat) (after : List Char) :
    readString offset quote (text ++ quote :: after) =
      ⟨String.ofList characters, [], 1 + (text.length + 1)⟩ := by
  have noQuote : '\\' ≠ quote := by rcases isQuote with rfl | rfl <;> decide
  rcases Passes.of_spells noQuote spelled (quote :: after) (offset + 1) with ⟨next, run⟩
  rw [readContent_quote] at run
  simp only [readString, run, StringContent.prepend, List.append_nil, Utf8.decode?_encode]

theorem readPiece_of_spells (isQuote : quote = '"' ∨ quote = '\'')
    (spelled : Spells quote characters text) (offset : Nat) (after : List Char) :
    readPiece offset quote (text ++ quote :: after) =
      ⟨.token (.string (String.ofList characters)), [], text.length + 1⟩ := by
  have literal : readPiece offset quote (text ++ quote :: after) =
      { content := .token (.string (readString offset quote (text ++ quote :: after)).value)
        errors := (readString offset quote (text ++ quote :: after)).errors
        extra := (readString offset quote (text ++ quote :: after)).length - 1 } := by
    rcases isQuote with rfl | rfl <;> rfl
  rw [literal, readString_of_spells isQuote spelled, Nat.add_sub_cancel_left]

/-- A literal is one piece, whatever follows it. -/
theorem pieces_of_spells (isQuote : quote = '"' ∨ quote = '\'')
    (spelled : Spells quote characters text) (offset : Nat) (after : List Char) :
    pieces offset (quote :: (text ++ quote :: after)) =
      ⟨.token (.string (String.ofList characters)), [],
        ⟨offset, offset + Utf8.size (quote :: (text ++ [quote]))⟩⟩ ::
        pieces (offset + Utf8.size (quote :: (text ++ [quote]))) after := by
  rw [pieces_cons, readPiece_of_spells isQuote spelled]
  dsimp only
  rw [List.take_length_add_append, List.drop_length_add_append]
  rfl

/-- A source that is a literal has one lexeme. -/
theorem lex_of_spells (isQuote : quote = '"' ∨ quote = '\'')
    (spelled : Spells quote characters text) :
    lex (String.ofList (quote :: (text ++ [quote]))) =
      ⟨[⟨[], [], .string (String.ofList characters),
        ⟨0, Utf8.size (quote :: (text ++ [quote]))⟩⟩], []⟩ := by
  rw [lex, String.toList_ofList, pieces_of_spells isQuote spelled, pieces, Nat.zero_add]
  rfl

end

/-! ## Behind a literal -/

/-- A string literal begins with a quote, and its content tells how far it reaches. -/
theorem eq_quote_of_readPiece {offset : Nat} {first : Char} {rest : List Char} {value : String}
    (content : (readPiece offset first rest).content = .token (.string value)) :
    (first = '"' ∨ first = '\'') ∧
      (readPiece offset first rest).extra = (readContent first (offset + 1) rest).length := by
  have number : (readNumber offset (first :: rest)).token ≠ .string value := by
    rcases readNumber_token_cases offset (first :: rest) with ⟨value, token⟩ | ⟨value, token⟩ <;>
      simp [token]
  have length : (readString offset first rest).length =
      1 + (readContent first (offset + 1) rest).length := by
    rw [readString]
    dsimp only
    split <;> rfl
  revert content
  unfold readPiece
  split
  · simp
  split
  · simp
  split
  · simp [number]
  split
  · next isQuote =>
      refine fun _ => ⟨?_, ?_⟩
      · simpa using isQuote
      · exact (congrArg (· - 1) length).trans (Nat.add_sub_cancel_left 1 _)
  split
  · simp [CommentReading.reading]
  split
  · simp [CommentReading.reading]
  split <;> simp

/-- Behind a piece the lexer goes on at a boundary of the source. If the piece is a string literal,
this is where reading it byte by byte ends. -/
structure Resumes (source : String) (piece : Piece) (back : List Piece) : Prop where
  boundary : ∃ before after, source.toList = before ++ after ∧
    piece.span.stop = Utf8.size before ∧ back = pieces piece.span.stop after
  counted : ∃ before quote rest, source.toList = before ++ quote :: rest ∧
    piece.span.start = Utf8.size before ∧ ∀ offset, piece.span.stop =
      piece.span.start + 1 + (readContent quote offset (Utf8.byteChars rest)).length

theorem resumes_of_string {source : String} {front back : List Piece} {piece : Piece}
    (split : pieces 0 source.toList = front ++ piece :: back) {value : String}
    (literal : piece.content = .token (.string value)) : Resumes source piece back where
  boundary := by
    rcases exists_of_pieces_eq_append split with ⟨before, after, same, stop, later⟩
    exact ⟨before, after, same, by rw [stop, Nat.zero_add], later⟩
  counted := by
    rcases exists_readAt (show piece ∈ pieces 0 source.toList by simp [split]) with
      ⟨before, quote, rest, read⟩
    have place := read.span
    rcases eq_quote_of_readPiece (read.content.symm.trans literal) with ⟨isQuote, extra⟩
    have ascii : quote.toNat < 128 := by rcases isQuote with rfl | rfl <;> decide
    rw [extra, Nat.zero_add] at place
    refine ⟨before, quote, rest, read.split, by rw [place], fun offset => ?_⟩
    rw [place, Utf8.size_cons, Utf8.utf8Size_of_lt ascii,
      (readContent_countsBytes ascii rest (Utf8.size before + 1) offset).2, Nat.add_assoc]

/-- A string is read back from every literal that spells it, whatever follows; and behind every
string literal of every source, with faults or without, the lexer goes on between two characters. -/
theorem string_literals :
    (∀ {quote : Char} {characters text : List Char}, quote = '"' ∨ quote = '\'' →
      Spells quote characters text →
        lex (String.ofList (quote :: (text ++ [quote]))) =
            ⟨[⟨[], [], .string (String.ofList characters),
              ⟨0, Utf8.size (quote :: (text ++ [quote]))⟩⟩], []⟩ ∧
          ∀ offset after, pieces offset (quote :: (text ++ quote :: after)) =
            ⟨.token (.string (String.ofList characters)), [],
              ⟨offset, offset + Utf8.size (quote :: (text ++ [quote]))⟩⟩ ::
              pieces (offset + Utf8.size (quote :: (text ++ [quote]))) after) ∧
      ∀ {source : String} {front back : List Piece} {piece : Piece} {value : String},
        pieces 0 source.toList = front ++ piece :: back →
          piece.content = .token (.string value) → Resumes source piece back :=
  ⟨fun isQuote spelled => ⟨lex_of_spells isQuote spelled, pieces_of_spells isQuote spelled⟩,
    fun split literal => resumes_of_string split literal⟩

/-- A letter escape, a character by its bytes in both bases, a long and a short escape, and plain
characters. Behind a literal with two faults the next line is read. -/
theorem string_literals_mixed :
    (Spells '"' "\né😀ß'z".toList "\\n\\xC3\\251\\U0001f600\\u00dF'z".toList ∧
      lex "\"\\n\\xC3\\251\\U0001f600\\u00dF'z\"" =
        ⟨[⟨[], [], .string "\né😀ß'z", ⟨0, 30⟩⟩], []⟩) ∧
    ∃ piece back, pieces 0 "'\\q\n;".toList = piece :: back ∧
      piece.content = .token (.string "q") ∧ piece.errors ≠ [] ∧
      Resumes "'\\q\n;" piece back := by
  have writes {base : Nat} (digits : List Char) {value : Nat} (small : base ≤ 16)
      (read : digits ≠ [] ∧ readDigits? base digits = some value) : Writes base digits value :=
    (writes_iff small).mpr read
  have letter : SpellsChar '"' '\n' ['\\', 'n'] := .letter (by decide)
  have bytes : SpellsChar '"' 'é' [['\\', 'x', 'C', '3'], ['\\', '2', '5', '1']].flatten := by
    have encoded : String.utf8EncodeChar 'é' = [0xC3, 0xA9] := by decide
    refine .bytes ?_
    rw [encoded]
    exact .cons (.hexadecimal (.inl rfl) (writes ['C', '3'] (by decide) (by decide)) rfl)
      (.cons (.octal (writes ['2', '5', '1'] (by decide) (by decide)) rfl) .nil)
  have long : SpellsChar '"' '😀' ('\\' :: 'U' :: "0001f600".toList) :=
    .long (writes _ (by decide) (by decide)) rfl
  have short : SpellsChar '"' 'ß' ('\\' :: 'u' :: "00dF".toList) :=
    .short (writes _ (by decide) (by decide)) rfl
  have quote : SpellsChar '"' '\'' ['\''] :=
    .plain ⟨by decide, by decide, by decide, by decide⟩
  have plain : SpellsChar '"' 'z' ['z'] := .plain ⟨by decide, by decide, by decide, by decide⟩
  have spelled : Spells '"' "\né😀ß'z".toList "\\n\\xC3\\251\\U0001f600\\u00dF'z".toList :=
    .more letter (.more bytes (.more long (.more short (.more quote (.more plain .none)))))
  have split : pieces 0 "'\\q\n;".toList = [] ++
      ⟨.token (.string "q"), [.invalidStringEscape ⟨1, 2⟩, .unterminatedString ⟨3, 4⟩], ⟨0, 4⟩⟩ ::
        [⟨.token (.mark .semicolon), [], ⟨4, 5⟩⟩] := by
    cbv
  exact ⟨⟨spelled, (string_literals.1 (.inl rfl) spelled).1⟩, _, _, split, rfl,
    List.cons_ne_nil _ _, string_literals.2 split rfl⟩

end Lexer

end ProtoSchema.Syntax
