import ProtoSchema.Proofs.Syntax.Comments
import ProtoSchema.Proofs.Text.Utf8
/-! # Reading by bytes

Strings and comments may be read byte by byte: all that their readers look for is ASCII, so that
they come to the end of the same character, and count the bytes up to there.
-/

namespace ProtoSchema.Syntax

open Utf8 (byteChars)

namespace Lexer

/-! ## Runs of characters -/

section Runs

variable {condition : Char → Bool}

/-- A run of ASCII characters is the same run of bytes. -/
theorem takeWhile_take_byteChars (ascii : ∀ character, condition character = true →
    character.toNat < 128) (count : Nat) (characters : List Char) :
    ((byteChars characters).take count).takeWhile condition =
      (characters.take count).takeWhile condition := by
  induction characters generalizing count with
  | nil => rfl
  | cons first rest induction =>
      cases count with
      | zero => rfl
      | succ count =>
          by_cases small : first.toNat < 128
          · rw [Utf8.byteChars_cons_of_lt small, List.take_succ_cons, List.take_succ_cons,
              List.takeWhile_cons, List.takeWhile_cons, induction]
          · rcases Utf8.exists_byteChars_cons (Nat.le_of_not_lt small) rest with
              ⟨bytes, same, filled, -, high⟩
            rcases List.exists_cons_of_ne_nil filled with ⟨byte, bytes, rfl⟩
            have large := high byte List.mem_cons_self
            rw [same, List.cons_append, List.take_succ_cons, List.take_succ_cons,
              List.takeWhile_cons_of_neg fun holds => absurd (ascii byte holds) (by omega),
              List.takeWhile_cons_of_neg fun holds => small (ascii first holds)]

theorem takeWhile_byteChars (ascii : ∀ character, condition character = true →
    character.toNat < 128) (characters : List Char) :
    (byteChars characters).takeWhile condition = characters.takeWhile condition := by
  have bounded := takeWhile_take_byteChars ascii (Utf8.size characters + characters.length)
    characters
  rwa [List.take_of_length_le (by rw [Utf8.length_byteChars]; omega),
    List.take_of_length_le (by omega)] at bounded

/-- A run that only an ASCII character can end is as long in bytes. -/
theorem length_takeWhile_byteChars (other : ∀ character, 128 ≤ character.toNat →
    condition character = true) (characters : List Char) :
    ((byteChars characters).takeWhile condition).length =
      Utf8.size (characters.takeWhile condition) := by
  induction characters with
  | nil => rfl
  | cons first rest induction =>
      by_cases small : first.toNat < 128
      · rw [Utf8.byteChars_cons_of_lt small, List.takeWhile_cons, List.takeWhile_cons]
        split
        · rw [List.length_cons, induction, Utf8.size_cons, Utf8.utf8Size_of_lt small, Nat.add_comm]
        · rfl
      · have large := Nat.le_of_not_lt small
        rcases Utf8.exists_byteChars_cons large rest with ⟨bytes, same, -, length, high⟩
        rw [same, List.takeWhile_append_of_pos fun byte member => other byte (high byte member),
          List.takeWhile_cons_of_pos (other first large), List.length_append, induction,
          Utf8.size_cons, length]

end Runs

/-! ## Escapes -/

theorem toNat_lt_of_isHexDigit (character : Char) (digit : isHexDigit character = true) :
    character.toNat < 128 := by
  rcases isHexDigit_eq_true_iff.mp digit with ⟨value, isDigit⟩
  exact toNat_lt_of_isDigit le_rfl isDigit

theorem toNat_lt_of_isOctalDigit (character : Char) (digit : isOctalDigit character = true) :
    character.toNat < 128 := by
  simp only [isOctalDigit, Bool.and_eq_true, decide_eq_true_eq, le_iff_toNat] at digit
  exact Nat.lt_of_le_of_lt digit.2 (by decide)

/-- Every escape begins with an ASCII character. -/
theorem toNat_lt_of_escape {kind : Char} {rest : List Char} {escape : Escape}
    (read : escape? (kind :: rest) = some escape) : kind.toNat < 128 := by
  rw [escape?] at read
  split at read
  · next byte => rcases byte with rfl | rfl <;> decide
  split at read
  · next octal => exact toNat_lt_of_isOctalDigit kind octal
  split at read
  · next short =>
      subst short
      decide
  split at read
  · next long =>
      subst long
      decide
  · rcases Option.map_eq_some_iff.mp read with ⟨byte, simple, -⟩
    rw [simpleEscape?.eq_def] at simple
    split at simple <;> first | decide | cases simple

theorem escape?_byteChars (rest : List Char) : escape? (byteChars rest) = escape? rest := by
  cases rest with
  | nil => rfl
  | cons kind rest =>
      by_cases small : kind.toNat < 128
      · rw [Utf8.byteChars_cons_of_lt small, escape?, escape?, charEscape?, charEscape?,
          charEscape?, charEscape?]
        simp only [takeWhile_take_byteChars toNat_lt_of_isHexDigit,
          takeWhile_take_byteChars toNat_lt_of_isOctalDigit]
      · have none {kind : Char} {rest : List Char} (large : ¬kind.toNat < 128) :
            escape? (kind :: rest) = none := by
          by_contra found
          rcases Option.ne_none_iff_exists'.mp found with ⟨escape, read⟩
          exact large (toNat_lt_of_escape read)
        rcases Utf8.exists_byteChars_cons (Nat.le_of_not_lt small) rest with
          ⟨bytes, same, filled, -, high⟩
        rcases List.exists_cons_of_ne_nil filled with ⟨byte, bytes, rfl⟩
        rw [same, List.cons_append, none small, none (Nat.not_lt.mpr (high byte (by simp)))]

theorem length_of_byteEscape {base lead : Nat} {digits : List Char} {escape : Escape}
    (read : byteEscape? base digits lead = some escape) :
    escape.length = lead + digits.length := by
  simp only [byteEscape?, Option.bind_eq_bind, Option.bind_eq_some_iff,
    Option.ite_none_right_eq_some, Option.some.injEq] at read
  rcases read with ⟨value, -, -, rfl⟩
  rfl

theorem length_of_charEscape {count : Nat} {rest : List Char} {escape : Escape}
    (read : charEscape? count rest = some escape) :
    escape.length = 1 + ((rest.take count).takeWhile isHexDigit).length := by
  simp only [charEscape?, Option.bind_eq_bind, Option.bind_eq_some_iff,
    Option.ite_none_right_eq_some, Option.some.injEq] at read
  rcases read with ⟨value, -, ⟨full, -⟩, rfl⟩
  rw [full]

/-- An escape consists of ASCII characters of the text. -/
theorem exists_of_escape {rest : List Char} {escape : Escape}
    (read : escape? rest = some escape) :
    ∃ front back, rest = front ++ back ∧ front.length = escape.length ∧
      ∀ character ∈ front, character.toNat < 128 := by
  cases rest with
  | nil => cases read
  | cons kind rest =>
      have first := toNat_lt_of_escape read
      have digits {condition : Char → Bool} {count : Nat}
          (ascii : ∀ character, condition character = true → character.toNat < 128)
          (length : escape.length = 1 + ((rest.take count).takeWhile condition).length) :
          ∃ front back, kind :: rest = front ++ back ∧ front.length = escape.length ∧
            ∀ character ∈ front, character.toNat < 128 := by
        rcases (List.takeWhile_prefix condition).trans (List.take_prefix count rest) with
          ⟨back, same⟩
        refine ⟨kind :: (rest.take count).takeWhile condition, back, by rw [List.cons_append, same],
          by rw [length, List.length_cons, Nat.add_comm], List.forall_mem_cons.mpr ⟨first, ?_⟩⟩
        exact fun character member => ascii character (List.mem_takeWhile_imp member)
      rw [escape?] at read
      split at read
      · exact digits toNat_lt_of_isHexDigit (length_of_byteEscape read)
      split at read
      · have length := length_of_byteEscape read
        rw [List.length_cons, Nat.zero_add, Nat.add_comm] at length
        exact digits toNat_lt_of_isOctalDigit length
      split at read
      · exact digits toNat_lt_of_isHexDigit (length_of_charEscape read)
      split at read
      · exact digits toNat_lt_of_isHexDigit (length_of_charEscape read)
      · rcases Option.map_eq_some_iff.mp read with ⟨byte, -, rfl⟩
        exact ⟨[kind], rest, rfl, rfl, List.forall_mem_singleton.mpr first⟩

/-! ## Strings -/

section Steps

variable {quote : Char} {rest : List Char}

theorem readContent_quote (quote : Char) (rest : List Char) (offset : Nat) :
    readContent quote offset (quote :: rest) = ⟨[], [], 1⟩ := by
  rw [readContent, if_pos rfl]

theorem readContent_lineFeed (noQuote : '\n' ≠ quote) (rest : List Char) (offset : Nat) :
    readContent quote offset ('\n' :: rest) =
      ⟨[], [.unterminatedString ⟨offset, offset + 1⟩], 1⟩ := by
  rw [readContent, if_neg noQuote, if_pos rfl]

theorem readContent_escape (noQuote : '\\' ≠ quote) {escape : Escape}
    (read : escape? rest = some escape) (offset : Nat) :
    readContent quote offset ('\\' :: rest) =
      (readContent quote (offset + 1 + escape.length) (rest.drop escape.length)).prepend
        (1 + escape.length) escape.bytes [] := by
  rw [readContent, if_neg noQuote, if_neg (by decide), if_pos rfl, read]

theorem readContent_backslash (noQuote : '\\' ≠ quote) (read : escape? rest = none)
    (offset : Nat) :
    readContent quote offset ('\\' :: rest) =
      (readContent quote (offset + 1) rest).prepend 1 []
        [.invalidStringEscape ⟨offset, offset + 1⟩] := by
  rw [readContent, if_neg noQuote, if_neg (by decide), if_pos rfl, read]

theorem readContent_nul (noQuote : '\x00' ≠ quote) (rest : List Char) (offset : Nat) {run : Nat}
    (isRun : run = (rest.takeWhile (· == '\x00')).length) :
    readContent quote offset ('\x00' :: rest) =
      (readContent quote (offset + (1 + run)) (rest.drop run)).prepend (1 + run) []
        [.invalidStringCharacters ⟨offset, offset + (1 + run)⟩] := by
  rw [readContent, if_neg noQuote, if_neg (by decide), if_neg (by decide), if_pos rfl, ← isRun]
  dsimp only
  rw [Nat.add_sub_cancel_left]

/-- A character that a string may contain as it is. -/
structure IsPlain (quote character : Char) : Prop where
  noQuote : character ≠ quote
  noEnd : character ≠ '\n'
  noEscape : character ≠ '\\'
  noNul : character ≠ '\x00'

theorem readContent_plain {character : Char} (plain : IsPlain quote character) (rest : List Char)
    (offset : Nat) :
    readContent quote offset (character :: rest) =
      (readContent quote (offset + character.utf8Size) rest).prepend 1
        (Utf8.encode [character]) [] := by
  rw [readContent, if_neg plain.noQuote, if_neg plain.noEnd, if_neg plain.noEscape,
    if_neg plain.noNul]

end Steps

/-- Induction over what is left of a string. -/
theorem content_induction (quote : Char) {Holds : List Char → Prop} (none : Holds [])
    (closes : ∀ rest, Holds (quote :: rest))
    (lineFeed : ∀ rest, '\n' ≠ quote → Holds ('\n' :: rest))
    (escape : ∀ rest escape, '\\' ≠ quote → escape? rest = some escape →
      Holds (rest.drop escape.length) → Holds ('\\' :: rest))
    (backslash : ∀ rest, '\\' ≠ quote → escape? rest = Option.none → Holds rest →
      Holds ('\\' :: rest))
    (nul : ∀ rest run, '\x00' ≠ quote → run = (rest.takeWhile (· == '\x00')).length →
      Holds (rest.drop run) → Holds ('\x00' :: rest))
    (plain : ∀ character rest, IsPlain quote character → Holds rest →
      Holds (character :: rest)) (characters : List Char) : Holds characters := by
  fun_induction readContent quote 0 characters with
  | case1 => exact none
  | case2 offset rest => exact closes rest
  | case3 offset rest noQuote => exact lineFeed rest noQuote
  | case4 offset rest read found noQuote _ induction =>
      exact escape rest read noQuote found induction
  | case5 offset rest found noQuote _ induction => exact backslash rest noQuote found induction
  | case6 offset rest run noQuote _ _ induction =>
      rw [Nat.add_sub_cancel_left] at induction
      exact nul rest _ noQuote rfl induction
  | case7 offset character rest noQuote noEnd noEscape noNul induction =>
      exact plain character rest ⟨noQuote, noEnd, noEscape, noNul⟩ induction

/-- A count of the characters at the beginning of a text counts their bytes if it is given the
bytes of the text. -/
structure CountsBytes (count : List Char → Nat) (characters : List Char) : Prop where
  inside : count characters ≤ characters.length
  bytes : count (byteChars characters) = Utf8.size (characters.take (count characters))

theorem size_take_of_escape {rest : List Char} {escape : Escape}
    (read : escape? rest = some escape) :
    escape.length ≤ rest.length ∧ Utf8.size (rest.take escape.length) = escape.length ∧
      (byteChars rest).drop escape.length = byteChars (rest.drop escape.length) := by
  rcases exists_of_escape read with ⟨front, back, rfl, length, ascii⟩
  rw [← length, List.take_left, List.drop_left, Utf8.byteChars_append_of_lt ascii, List.drop_left]
  exact ⟨by simp, size_eq_length ascii, rfl⟩

theorem size_take_of_run {rest : List Char} {run : Nat}
    (isRun : run = (rest.takeWhile (· == '\x00')).length) :
    run ≤ rest.length ∧ Utf8.size (rest.take run) = run ∧
      (byteChars rest).drop run = byteChars (rest.drop run) := by
  subst isRun
  have ascii : ∀ character ∈ rest.takeWhile (· == '\x00'), character.toNat < 128 := by
    intro character member
    have isNul := List.mem_takeWhile_imp member
    rw [beq_iff_eq.mp isNul]
    decide
  have split : rest.takeWhile (· == '\x00') ++ rest.dropWhile (· == '\x00') = rest :=
    List.takeWhile_append_dropWhile
  generalize rest.takeWhile (· == '\x00') = front at ascii split ⊢
  generalize rest.dropWhile (· == '\x00') = back at split
  subst split
  rw [List.take_left, List.drop_left, Utf8.byteChars_append_of_lt ascii, List.drop_left]
  exact ⟨by simp, size_eq_length ascii, rfl⟩

/-- Bytes other than ASCII are passed one by one. -/
theorem readContent_bytes {quote : Char} (small : quote.toNat < 128) {bytes : List Char}
    (high : ∀ byte ∈ bytes, 128 ≤ byte.toNat) (rest : List Char) (offset : Nat) :
    ∃ next, (readContent quote offset (bytes ++ rest)).length =
      bytes.length + (readContent quote next rest).length := by
  induction bytes generalizing offset with
  | nil => exact ⟨offset, (Nat.zero_add _).symm⟩
  | cons byte bytes induction =>
      rw [List.forall_mem_cons] at high
      have other {special : Char} (ascii : special.toNat < 128) : byte ≠ special := by
        rintro rfl
        omega
      have plain : IsPlain quote byte :=
        ⟨other small, other (by decide), other (by decide), other (by decide)⟩
      rcases induction high.2 (offset + byte.utf8Size) with ⟨next, length⟩
      refine ⟨next, ?_⟩
      rw [List.cons_append, readContent_plain plain, StringContent.prepend, length,
        List.length_cons, Nat.add_comm _ 1, Nat.add_assoc]

theorem size_take_cons (first : Char) (rest : List Char) (count : Nat) :
    Utf8.size ((first :: rest).take (count + 1)) =
      first.utf8Size + Utf8.size (rest.take count) := by
  rw [List.take_succ_cons, Utf8.size_cons]

theorem size_take_cons_add {first : Char} (small : first.toNat < 128) (taken more : Nat)
    (rest : List Char) :
    Utf8.size ((first :: rest).take (1 + taken + more)) =
      1 + Utf8.size (rest.take taken) + Utf8.size ((rest.drop taken).take more) := by
  rw [Nat.add_assoc, Nat.add_comm 1, size_take_cons, Utf8.utf8Size_of_lt small, List.take_add,
    Utf8.size_append, Nat.add_assoc]

/-- Reading a string byte by byte ends at the same character. -/
theorem readContent_countsBytes {quote : Char} (small : quote.toNat < 128)
    (characters : List Char) : ∀ offset other,
    (readContent quote offset characters).length ≤ characters.length ∧
      (readContent quote other (byteChars characters)).length =
        Utf8.size (characters.take (readContent quote offset characters).length) := by
  induction characters using content_induction quote with
  | none =>
      intro offset other
      have empty : byteChars [] = [] := rfl
      rw [empty, readContent, readContent]
      exact ⟨le_rfl, rfl⟩
  | closes rest =>
      intro offset other
      rw [Utf8.byteChars_cons_of_lt small, readContent_quote, readContent_quote]
      exact ⟨by simp, by simp [Utf8.utf8Size_of_lt small]⟩
  | lineFeed rest noQuote =>
      intro offset other
      rw [Utf8.byteChars_cons_of_lt (by decide), readContent_lineFeed noQuote,
        readContent_lineFeed noQuote]
      exact ⟨by simp, rfl⟩
  | escape rest escape noQuote read induction =>
      intro offset other
      rcases size_take_of_escape read with ⟨bound, size, after⟩
      rcases induction (offset + 1 + escape.length) (other + 1 + escape.length) with ⟨inside, bytes⟩
      rw [List.length_drop] at inside
      rw [Utf8.byteChars_cons_of_lt (by decide), readContent_escape noQuote read,
        readContent_escape noQuote ((escape?_byteChars rest).trans read), after]
      simp only [StringContent.prepend, bytes, List.length_cons]
      rw [size_take_cons_add (by decide), size]
      exact ⟨by omega, rfl⟩
  | backslash rest noQuote read induction =>
      intro offset other
      rcases induction (offset + 1) (other + 1) with ⟨inside, bytes⟩
      rw [Utf8.byteChars_cons_of_lt (by decide), readContent_backslash noQuote read,
        readContent_backslash noQuote ((escape?_byteChars rest).trans read)]
      simp only [StringContent.prepend, bytes, List.length_cons]
      have size := @size_take_cons_add '\\' (by decide) 0
        (readContent quote (offset + 1) rest).length rest
      rw [size]
      exact ⟨by omega, rfl⟩
  | nul rest run noQuote isRun induction =>
      intro offset other
      rcases size_take_of_run isRun with ⟨bound, size, after⟩
      rcases induction (offset + (1 + run)) (other + (1 + run)) with ⟨inside, bytes⟩
      have isByteRun : run = ((byteChars rest).takeWhile (· == '\x00')).length := by
        rw [takeWhile_byteChars, isRun]
        intro character isNul
        rw [beq_iff_eq.mp isNul]
        decide
      rw [List.length_drop] at inside
      rw [Utf8.byteChars_cons_of_lt (by decide), readContent_nul noQuote rest offset isRun,
        readContent_nul noQuote (byteChars rest) other isByteRun, after]
      simp only [StringContent.prepend, bytes, List.length_cons]
      rw [size_take_cons_add (by decide), size]
      exact ⟨by omega, rfl⟩
  | plain character rest plain induction =>
      intro offset other
      rw [readContent_plain plain]
      simp only [StringContent.prepend, List.length_cons, Nat.add_comm 1, size_take_cons]
      by_cases ascii : character.toNat < 128
      · rcases induction (offset + character.utf8Size) (other + character.utf8Size) with
          ⟨inside, bytes⟩
        rw [Utf8.byteChars_cons_of_lt ascii, readContent_plain plain, StringContent.prepend, bytes]
        exact ⟨by omega, by rw [Utf8.utf8Size_of_lt ascii]⟩
      · rcases Utf8.exists_byteChars_cons (Nat.le_of_not_lt ascii) rest with
          ⟨bytes, same, filled, length, high⟩
        rcases readContent_bytes small high (byteChars rest) other with ⟨next, passed⟩
        rcases induction (offset + character.utf8Size) next with ⟨inside, counted⟩
        rw [same, passed, counted, length]
        exact ⟨by omega, rfl⟩

theorem countsBytes_readContent {quote : Char} (isQuote : quote = '"' ∨ quote = '\'')
    (offset : Nat) (characters : List Char) :
    CountsBytes (fun text => (readContent quote offset text).length) characters := by
  have small : quote.toNat < 128 := by rcases isQuote with rfl | rfl <;> decide
  rcases readContent_countsBytes small characters offset offset with ⟨inside, bytes⟩
  exact ⟨inside, bytes⟩

/-! ## Comments -/

theorem countsBytes_lineComment (characters : List Char) :
    CountsBytes (fun text => (lineCommentContent text).length) characters where
  inside := (List.takeWhile_prefix _).length_le
  bytes := by
    have other (character : Char) (large : 128 ≤ character.toNat) :
        (character != '\n') = true := by
      rw [bne_iff_ne]
      rintro rfl
      exact absurd large (by decide)
    rw [lineCommentContent, length_takeWhile_byteChars other, lineCommentContent,
      ← List.prefix_iff_eq_take.mp (List.takeWhile_prefix _)]

theorem findPair?_cons (first second character : Char) (rest : List Char) :
    findPair? first second (character :: rest) =
      if character = first ∧ rest.head? = some second then some 0
      else (findPair? first second rest).map (· + 1) := by
  cases rest with
  | nil => simp [findPair?]
  | cons next rest => simp [findPair?]

/-- A text and its bytes begin with the same ASCII character, if one of them does. -/
theorem head?_byteChars {character : Char} (small : character.toNat < 128)
    (characters : List Char) :
    (byteChars characters).head? = some character ↔ characters.head? = some character := by
  cases characters with
  | nil => rfl
  | cons first rest =>
      by_cases ascii : first.toNat < 128
      · rw [Utf8.byteChars_cons_of_lt ascii, List.head?_cons, List.head?_cons]
      · rcases Utf8.exists_byteChars_cons (Nat.le_of_not_lt ascii) rest with
          ⟨bytes, same, filled, -, high⟩
        rcases List.exists_cons_of_ne_nil filled with ⟨byte, bytes, rfl⟩
        have large := high byte List.mem_cons_self
        rw [same, List.cons_append, List.head?_cons, List.head?_cons, Option.some_inj,
          Option.some_inj]
        constructor <;> (rintro rfl; omega)

/-- An ASCII character is not among the bytes of another one. -/
theorem findPair?_append_of_high {first : Char} (small : first.toNat < 128) (second : Char)
    {bytes : List Char} (high : ∀ byte ∈ bytes, 128 ≤ byte.toNat) (rest : List Char) :
    findPair? first second (bytes ++ rest) =
      (findPair? first second rest).map (bytes.length + ·) := by
  induction bytes with
  | nil => simp
  | cons byte bytes induction =>
      rw [List.forall_mem_cons] at high
      have other : byte ≠ first := by
        rintro rfl
        omega
      rw [List.cons_append, findPair?_cons, if_neg fun both => other both.1, induction high.2,
        Option.map_map]
      refine Option.map_congr fun count _ => ?_
      simp only [Function.comp_apply, List.length_cons]
      omega

/-- Two ASCII characters are found behind the bytes of what is before them. -/
theorem findPair?_byteChars {first second : Char} (small : first.toNat < 128)
    (smallSecond : second.toNat < 128) (characters : List Char) :
    findPair? first second (byteChars characters) =
      (findPair? first second characters).map fun count => Utf8.size (characters.take count) := by
  induction characters with
  | nil => rfl
  | cons character rest induction =>
      rw [findPair?_cons first second character]
      by_cases ascii : character.toNat < 128
      · rw [Utf8.byteChars_cons_of_lt ascii, findPair?_cons]
        simp only [head?_byteChars smallSecond]
        split
        · rfl
        · rw [induction, Option.map_map, Option.map_map]
          refine Option.map_congr fun count _ => ?_
          simp only [Function.comp_apply, size_take_cons, Utf8.utf8Size_of_lt ascii]
          omega
      · rcases Utf8.exists_byteChars_cons (Nat.le_of_not_lt ascii) rest with
          ⟨bytes, same, -, length, high⟩
        have other : character ≠ first := by
          rintro rfl
          exact ascii small
        rw [same, findPair?_append_of_high small second high, induction,
          if_neg fun both => other both.1, Option.map_map, Option.map_map]
        refine Option.map_congr fun count _ => ?_
        simp only [Function.comp_apply, size_take_cons, length]

theorem length_readBlockComment_of_some {characters : List Char} {count : Nat}
    (ends : findPair? '*' '/' characters = some count) (offset : Nat) :
    (readBlockComment offset characters).length = 2 + min count characters.length + 2 := by
  simp only [readBlockComment, ends, Option.getD_some, Option.isSome_some, if_true,
    List.length_take]

theorem length_readBlockComment_of_none {characters : List Char}
    (endless : findPair? '*' '/' characters = none) (offset : Nat) :
    (readBlockComment offset characters).length = 2 + characters.length := by
  simp only [readBlockComment, endless, Option.getD_none, Option.isSome_none,
    Bool.false_eq_true, if_false, List.take_length, Nat.add_zero]

/-- The characters of a block comment after its opening. -/
theorem countsBytes_blockComment (offset : Nat) (characters : List Char) :
    CountsBytes (fun text => (readBlockComment offset text).length - 2) characters := by
  have found := @findPair?_byteChars '*' '/' (by decide) (by decide) characters
  cases ends : findPair? '*' '/' characters with
  | none =>
      rw [ends, Option.map_none] at found
      constructor
      · rw [length_readBlockComment_of_none ends]
        omega
      · rw [length_readBlockComment_of_none ends, length_readBlockComment_of_none found,
          Utf8.length_byteChars, Nat.add_sub_cancel_left, Nat.add_sub_cancel_left,
          List.take_length]
  | some count =>
      rw [ends, Option.map_some] at found
      rcases exists_of_findPair? ends with ⟨front, back, rfl, rfl, -⟩
      have closing (rest : List Char) : Utf8.size ('*' :: '/' :: rest) = 2 + Utf8.size rest := by
        have single : '*'.utf8Size = 1 ∧ '/'.utf8Size = 1 := ⟨rfl, rfl⟩
        rw [Utf8.size_cons, Utf8.size_cons, single.1, single.2]
        omega
      have total := Utf8.size_append front ('*' :: '/' :: back)
      have inText : front.length ≤ (front ++ '*' :: '/' :: back).length := by simp
      have inBytes : Utf8.size front ≤ (byteChars (front ++ '*' :: '/' :: back)).length := by
        rw [Utf8.length_byteChars, total]
        omega
      rw [List.take_left] at found
      have length := length_readBlockComment_of_some ends offset
      have bytes := length_readBlockComment_of_some found offset
      rw [Nat.min_eq_left inText] at length
      rw [Nat.min_eq_left inBytes] at bytes
      have count : (readBlockComment offset (front ++ '*' :: '/' :: back)).length - 2 =
          front.length + 2 := by omega
      constructor
      · rw [count, List.length_append]
        simp only [List.length_cons]
        omega
      · rw [count, bytes, List.take_length_add_append, Utf8.size_append]
        change _ = Utf8.size front + Utf8.size ('*' :: '/' :: [])
        rw [closing, Utf8.size_nil]
        omega

end Lexer

end ProtoSchema.Syntax
