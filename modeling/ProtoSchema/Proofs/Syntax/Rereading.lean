import ProtoSchema.Proofs.Syntax.Followers
/-! # Pieces read again

A piece without faults is read again if another text follows it, provided that this begins with
white space or a slash. So the pieces before such a text stay, and those behind it have other
places only.
-/

namespace ProtoSchema.Syntax.Lexer

/-! ## Comments -/

theorem findPair?_follow {first second : Char} {text after : List Char} {count : Nat}
    (found : findPair? first second (text ++ after) = some count)
    (short : count + 2 ≤ text.length) (other : List Char) :
    findPair? first second (text ++ other) = some count := by
  induction text generalizing count with
  | nil => exact absurd short (Nat.not_succ_le_zero _)
  | cons character text induction =>
      rw [List.length_cons] at short
      rw [List.cons_append, findPair?_cons] at found ⊢
      have head : (text ++ other).head? = (text ++ after).head? := by
        cases text with
        | nil =>
            rw [List.length_nil] at short
            omega
        | cons next text => rfl
      rw [head]
      split at found
      · next here => rw [if_pos here, found]
      · next elsewhere =>
          rcases Option.map_eq_some_iff.mp found with ⟨later, isLater, rfl⟩
          rw [if_neg elsewhere, induction isLater (by omega)]
          rfl

/-! ## Pieces -/

section

variable {offset : Nat} {first : Char} {rest : List Char}

theorem readPiece_space (space : isSpace first = true) :
    readPiece offset first rest = { content := .blank } :=
  if_pos space

theorem readPiece_ident (space : ¬isSpace first = true) (ident : isIdentStart first = true) :
    readPiece offset first rest =
      { content := .token (.ident (String.ofList (first :: rest.takeWhile isIdentRest)))
        extra := (rest.takeWhile isIdentRest).length } := by
  rw [readPiece, if_neg space, if_pos ident]

theorem readPiece_digit (digit : isDigit first = true) :
    readPiece offset first rest =
      { content := .token (readNumber offset (first :: rest)).token
        errors := (readNumber offset (first :: rest)).errors
        extra := (readNumber offset (first :: rest)).length - 1 } := by
  rcases isDigit_eq_true_iff.mp digit with ⟨value, isValue⟩
  exact readPiece_of_beginsDigit ⟨first, rest, value, rfl, isValue⟩

theorem readPiece_point :
    readPiece offset '.' rest =
      if rest.head?.any isDigit = true then
        { content := .token (readNumber offset ('.' :: rest)).token
          errors := (readNumber offset ('.' :: rest)).errors
          extra := (readNumber offset ('.' :: rest)).length - 1 }
      else { content := .token (.mark .dot) } := by
  rw [readPiece, if_neg (by decide), if_neg (by decide)]
  cases rest.head?.any isDigit <;> rfl

theorem readPiece_quote (isQuote : first = '"' ∨ first = '\'') :
    readPiece offset first rest =
      { content := .token (.string (readString offset first rest).value)
        errors := (readString offset first rest).errors
        extra := (readString offset first rest).length - 1 } := by
  rcases isQuote with rfl | rfl <;> rfl

theorem readPiece_line (offset : Nat) (rest : List Char) :
    readPiece offset '/' ('/' :: rest) =
      { content := .comment
          (String.ofList (Text.trim (dropCarriageReturn (lineCommentContent rest))))
        extra := 1 + (lineCommentContent rest).length } := by
  have extra : 2 + (lineCommentContent rest).length - 1 = 1 + (lineCommentContent rest).length := by
    omega
  change (readLineComment rest).reading = _
  rw [← extra]
  rfl

theorem readPiece_block {count : Nat} (offset : Nat)
    (found : findPair? '*' '/' rest = some count)
    (flat : findPair? '/' '*' (rest.take count) = none) :
    readPiece offset '/' ('*' :: rest) =
      { content := .comment (String.ofList (Text.trim (blockCommentText (rest.take count))))
        extra := count + 3 } := by
  change (readBlockComment offset rest).reading = _
  rcases exists_of_findPair? found with ⟨front, back, rfl, rfl, -⟩
  rw [List.take_left] at flat
  simp only [CommentReading.reading, readBlockComment, found, flat, Option.getD_some,
    List.take_left, Option.isNone_some, Option.isSome_some, Bool.false_eq_true, if_true, if_false,
    List.nil_append]
  congr 1
  omega

theorem exists_of_readBlockComment (clean : (readBlockComment offset rest).errors = []) :
    ∃ count, findPair? '*' '/' rest = some count ∧ findPair? '/' '*' (rest.take count) = none := by
  rcases List.append_eq_nil_iff.mp clean with ⟨ended, flat⟩
  cases found : findPair? '*' '/' rest with
  | none =>
      rw [found] at ended
      cases ended
  | some count =>
      rw [found, Option.getD_some] at flat
      refine ⟨count, rfl, ?_⟩
      split at flat
      · cases flat
      · next none => exact none

/-- A slash begins a comment. -/
theorem exists_of_readPiece_slash (clean : (readPiece offset '/' rest).errors = []) :
    (∃ tail, rest = '/' :: tail) ∨
      ∃ tail count, rest = '*' :: tail ∧ findPair? '*' '/' tail = some count ∧
        findPair? '/' '*' (tail.take count) = none := by
  have noMark : Punctuation.ofChar? '/' = none := rfl
  rw [readPiece, if_neg (by decide), if_neg (by decide), if_neg (by simp; decide),
    if_neg (by decide)] at clean
  split at clean
  · next line =>
      simp only [beq_self_eq_true, Bool.true_and, beq_iff_eq] at line
      rcases List.head?_eq_some_iff.mp line with ⟨tail, rfl⟩
      exact .inl ⟨tail, rfl⟩
  split at clean
  · next block =>
      simp only [beq_self_eq_true, Bool.true_and, beq_iff_eq] at block
      rcases List.head?_eq_some_iff.mp block with ⟨tail, rfl⟩
      rcases exists_of_readBlockComment clean with ⟨count, found, flat⟩
      exact .inr ⟨tail, count, rfl, found, flat⟩
  · rw [noMark] at clean
    cases clean

/-- A character that begins no piece of more than one character, and that is no white space. -/
structure IsAlone (first : Char) : Prop where
  space : ¬isSpace first = true
  ident : ¬isIdentStart first = true
  digit : ¬isDigit first = true
  point : first ≠ '.'
  quote : ¬(first = '"' ∨ first = '\'')
  slash : first ≠ '/'

theorem readPiece_mark (alone : IsAlone first) {symbol : Punctuation}
    (mark : Punctuation.ofChar? first = some symbol) :
    readPiece offset first rest = { content := .token (.mark symbol) } := by
  rcases alone with ⟨space, ident, digit, point, quote, slash⟩
  rw [readPiece, if_neg space, if_neg ident, if_neg (by simp [digit, point]),
    if_neg (by simpa using quote), if_neg (by simp [slash]), if_neg (by simp [slash]), mark]

theorem readPiece_invalid (alone : IsAlone first) (noMark : Punctuation.ofChar? first = none) :
    readPiece offset first rest =
      { content := .token .invalid
        errors := [.invalidToken ⟨offset, offset + first.utf8Size⟩] } := by
  rcases alone with ⟨space, ident, digit, point, quote, slash⟩
  rw [readPiece, if_neg space, if_neg ident, if_neg (by simp [digit, point]),
    if_neg (by simpa using quote), if_neg (by simp [slash]), if_neg (by simp [slash]), noMark]

end

/-- What a first character tells about its piece. -/
inductive Beginning (first : Char) : Prop
  | space (space : isSpace first = true)
  | ident (noSpace : ¬isSpace first = true) (ident : isIdentStart first = true)
  | digit (digit : isDigit first = true)
  | point (point : first = '.')
  | quote (quote : first = '"' ∨ first = '\'')
  | slash (slash : first = '/')
  | alone (alone : IsAlone first)

theorem beginning (first : Char) : Beginning first := by
  by_cases space : isSpace first = true
  · exact .space space
  by_cases ident : isIdentStart first = true
  · exact .ident space ident
  by_cases digit : isDigit first = true
  · exact .digit digit
  by_cases point : first = '.'
  · exact .point point
  by_cases quote : first = '"' ∨ first = '\''
  · exact .quote quote
  by_cases slash : first = '/'
  · exact .slash slash
  · exact .alone ⟨space, ident, digit, point, quote, slash⟩

/-- A piece is read as another one, and without faults. -/
structure Reading.Again (reading again : Reading) : Prop where
  content_eq : again.content = reading.content
  extra_eq : again.extra = reading.extra
  clean : again.errors = []

section

variable {offset : Nat} {first : Char} {text after other : List Char}

theorem readString_again {quote : Char} (place : Nat) (other : List Char)
    (clean : (readString offset quote (text ++ after)).errors = [])
    (short : (readString offset quote (text ++ after)).length - 1 ≤ text.length) :
    (readString place quote (text ++ other)).value =
        (readString offset quote (text ++ after)).value ∧
      (readString place quote (text ++ other)).length =
        (readString offset quote (text ++ after)).length ∧
      (readString place quote (text ++ other)).errors = [] := by
  rw [readString] at clean short
  rw [readString, readString]
  dsimp only at clean short ⊢
  cases decoded : Utf8.decode? (readContent quote (offset + 1) (text ++ after)).bytes with
  | none =>
      rw [decoded] at clean
      exact absurd (List.append_eq_nil_iff.mp clean).2 (List.cons_ne_nil _ _)
  | some characters =>
      rw [decoded] at clean short
      dsimp only at clean short
      rcases @readContent_follow text after quote (offset + 1) (place + 1) other clean (by omega)
        with ⟨bytes, length, again⟩
      rw [bytes, decoded, length]
      exact ⟨rfl, rfl, again⟩

theorem again_of_number {number again : NumberReading} (same : number.Again again) :
    Reading.Again
      { content := .token number.token, errors := number.errors, extra := number.length - 1 }
      { content := .token again.token, errors := again.errors, extra := again.length - 1 } where
  content_eq := congrArg (Content.token ·) same.token_eq
  extra_eq := congrArg (· - 1) same.length_eq
  clean := same.clean

theorem readPiece_follow_point (place : Nat) (separates : Separates other)
    (clean : (readPiece offset '.' (text ++ after)).errors = [])
    (short : (readPiece offset '.' (text ++ after)).extra ≤ text.length) :
    (readPiece offset '.' (text ++ after)).Again (readPiece place '.' (text ++ other)) := by
  have number (digit : (text ++ after).head?.any isDigit = true)
      (otherDigit : (text ++ other).head?.any isDigit = true) :
      (readPiece offset '.' (text ++ after)).Again (readPiece place '.' (text ++ other)) := by
    rw [readPiece_point, if_pos digit] at clean short
    rw [readPiece_point, if_pos digit, readPiece_point, if_pos otherDigit]
    exact again_of_number (@readNumber_follow ('.' :: text) after other offset place separates
      (Nat.le_add_of_sub_le short) clean)
  have mark (noDigit : ¬(text ++ after).head?.any isDigit = true)
      (otherNoDigit : ¬(text ++ other).head?.any isDigit = true) :
      (readPiece offset '.' (text ++ after)).Again (readPiece place '.' (text ++ other)) := by
    rw [readPiece_point, if_neg noDigit, readPiece_point, if_neg otherNoDigit]
    exact ⟨rfl, rfl, rfl⟩
  cases text with
  | cons next text =>
      by_cases digit : isDigit next = true
      · exact number digit digit
      · exact mark digit digit
  | nil =>
      refine mark (fun digit => ?_) fun digit => ?_
      · -- a point and a digit are two characters at least
        rw [readPiece_point, if_pos digit] at short
        cases after with
        | nil => cases digit
        | cons next after =>
            have long := @two_le_length_readNumber offset next after digit
            have single : (readNumber offset ('.' :: next :: after)).length - 1 ≤ 0 := short
            omega
      · cases other with
        | nil => cases digit
        | cons next other =>
            rw [List.nil_append, List.head?_cons, Option.any_some,
              isDigit_separators next (separates next rfl)] at digit
            cases digit

theorem readPiece_follow_line {tail : List Char} (place : Nat) (whole : text ++ after = '/' :: tail)
    (short : (readPiece offset '/' (text ++ after)).extra ≤ text.length)
    (ends : other = [] ∨ (readPiece offset '/' (text ++ after)).extra < text.length) :
    (readPiece offset '/' (text ++ after)).Again (readPiece place '/' (text ++ other)) := by
  rw [whole, readPiece_line] at short ends
  dsimp only at short ends
  cases text with
  | nil =>
      rw [List.length_nil] at short
      omega
  | cons next text =>
      have same : text ++ after = tail := (List.cons.inj whole).2
      cases (List.cons.inj whole).1
      subst same
      rw [List.length_cons] at short ends
      have content : lineCommentContent (text ++ other) = lineCommentContent (text ++ after) := by
        rcases ends with rfl | longer
        · rw [List.append_nil]
          exact (takeWhile_append_of_le (Nat.le_of_add_le_add_left (short.trans_eq
            (Nat.add_comm _ _)))).symm
        · exact takeWhile_append_of_lt (Nat.lt_of_add_lt_add_left (longer.trans_eq
            (Nat.add_comm _ _))) other
      rw [List.cons_append, List.cons_append, readPiece_line, readPiece_line, content]
      exact ⟨rfl, rfl, rfl⟩

theorem readPiece_follow_block {tail : List Char} {count : Nat} (place : Nat) (other : List Char)
    (whole : text ++ after = '*' :: tail) (found : findPair? '*' '/' tail = some count)
    (flat : findPair? '/' '*' (tail.take count) = none)
    (short : (readPiece offset '/' (text ++ after)).extra ≤ text.length) :
    (readPiece offset '/' (text ++ after)).Again (readPiece place '/' (text ++ other)) := by
  rw [whole, readPiece_block offset found flat] at short
  cases text with
  | nil => exact absurd short (Nat.not_succ_le_zero _)
  | cons next text =>
      have same : text ++ after = tail := (List.cons.inj whole).2
      cases (List.cons.inj whole).1
      subst same
      have inside : count + 2 ≤ text.length := Nat.le_of_succ_le_succ short
      have taken : (text ++ other).take count = (text ++ after).take count := by
        rw [List.take_append_of_le_length (by omega), List.take_append_of_le_length (by omega)]
      rw [List.cons_append, List.cons_append, readPiece_block offset found flat,
        readPiece_block place (findPair?_follow found inside other) (taken ▸ flat), taken]
      exact ⟨rfl, rfl, rfl⟩

theorem readPiece_follow_slash (place : Nat)
    (clean : (readPiece offset '/' (text ++ after)).errors = [])
    (short : (readPiece offset '/' (text ++ after)).extra ≤ text.length)
    (ends : other = [] ∨ (readPiece offset '/' (text ++ after)).extra < text.length ∨
      ∃ token, (readPiece offset '/' (text ++ after)).content = .token token) :
    (readPiece offset '/' (text ++ after)).Again (readPiece place '/' (text ++ other)) := by
  rcases exists_of_readPiece_slash clean with ⟨tail, whole⟩ | ⟨tail, count, whole, found, flat⟩
  · refine readPiece_follow_line place whole short (ends.imp id fun ends => ?_)
    rcases ends with longer | ⟨token, isToken⟩
    · exact longer
    · rw [whole, readPiece_line] at isToken
      cases isToken
  · exact readPiece_follow_block place other whole found flat short

theorem readPiece_extra_le {rest : List Char} (clean : (readPiece offset first rest).errors = []) :
    (readPiece offset first rest).extra ≤ rest.length := by
  have number : (readNumber offset (first :: rest)).length - 1 ≤ rest.length :=
    Nat.sub_le_of_le_add (length_readNumber_le offset (first :: rest))
  cases beginning first with
  | space space =>
      rw [readPiece_space space]
      exact Nat.zero_le _
  | ident noSpace ident =>
      rw [readPiece_ident noSpace ident]
      exact (List.takeWhile_prefix isIdentRest).length_le
  | digit digit =>
      rw [readPiece_digit digit]
      exact number
  | point point =>
      subst point
      rw [readPiece_point]
      split
      · exact number
      · exact Nat.zero_le _
  | quote quote =>
      have content := (countsBytes_readContent quote (offset + 1) rest).inside
      rw [readPiece_quote quote, readString]
      dsimp only at content ⊢
      split <;> (dsimp only; omega)
  | slash slash =>
      subst slash
      rcases exists_of_readPiece_slash clean with ⟨tail, rfl⟩ | ⟨tail, count, rfl, found, flat⟩
      · have content : (lineCommentContent tail).length ≤ tail.length :=
          (List.takeWhile_prefix _).length_le
        rw [readPiece_line, List.length_cons]
        dsimp only
        omega
      · rcases exists_of_findPair? found with ⟨front, back, rfl, rfl, -⟩
        rw [readPiece_block offset found flat, List.length_cons, List.length_append,
          List.length_cons, List.length_cons]
        dsimp only
        omega
  | alone alone =>
      cases mark : Punctuation.ofChar? first with
      | some symbol =>
          rw [readPiece_mark alone mark]
          exact Nat.zero_le _
      | none =>
          rw [readPiece_invalid alone mark]
          exact Nat.zero_le _

/-- A piece without faults is read again in front of a text that separates. If it is a comment
or white space, it has to end before that text, or the text is empty. -/
theorem readPiece_follow (place : Nat) (separates : Separates other)
    (clean : (readPiece offset first (text ++ after)).errors = [])
    (short : (readPiece offset first (text ++ after)).extra ≤ text.length)
    (ends : other = [] ∨ (readPiece offset first (text ++ after)).extra < text.length ∨
      ∃ token, (readPiece offset first (text ++ after)).content = .token token) :
    (readPiece offset first (text ++ after)).Again (readPiece place first (text ++ other)) := by
  cases beginning first with
  | space space =>
      rw [readPiece_space space, readPiece_space space]
      exact ⟨rfl, rfl, rfl⟩
  | ident noSpace ident =>
      rw [readPiece_ident noSpace ident] at short
      rw [readPiece_ident noSpace ident, readPiece_ident noSpace ident,
        takeWhile_follow isIdentRest_separators separates short]
      exact ⟨rfl, rfl, rfl⟩
  | digit digit =>
      rw [readPiece_digit digit] at clean short
      rw [readPiece_digit digit, readPiece_digit digit]
      exact again_of_number (@readNumber_follow (first :: text) after other offset place separates
        (Nat.le_add_of_sub_le short) clean)
  | point point =>
      subst point
      exact readPiece_follow_point place separates clean short
  | quote quote =>
      rw [readPiece_quote quote] at clean short
      rw [readPiece_quote quote, readPiece_quote quote]
      rcases readString_again place other clean short with ⟨value, length, again⟩
      exact ⟨congrArg (Content.token <| .string ·) value, congrArg (· - 1) length, again⟩
  | slash slash =>
      subst slash
      exact readPiece_follow_slash place clean short ends
  | alone alone =>
      cases mark : Punctuation.ofChar? first with
      | some symbol =>
          rw [readPiece_mark alone mark, readPiece_mark alone mark]
          exact ⟨rfl, rfl, rfl⟩
      | none =>
          rw [readPiece_invalid alone mark] at clean
          exact absurd clean (List.cons_ne_nil _ _)

end

/-! ## Texts read again -/

/-- A first piece that takes a text up. -/
theorem pieces_of_extra {offset : Nat} {first : Char} {text after : List Char}
    (extra : (readPiece offset first (text ++ after)).extra = text.length) :
    pieces offset (first :: (text ++ after)) =
      ⟨(readPiece offset first (text ++ after)).content,
        (readPiece offset first (text ++ after)).errors,
        ⟨offset, offset + Utf8.size (first :: text)⟩⟩ ::
        pieces (offset + Utf8.size (first :: text)) after := by
  rw [pieces_cons, extra, List.take_left, List.drop_left]

/-- A piece without faults has been read from a character and the text behind it, before another
text. -/
structure ReadFrom (offset : Nat) (piece : Piece) (first : Char) (text after : List Char) :
    Prop where
  clean : (readPiece offset first (text ++ after)).errors = []
  extra_eq : (readPiece offset first (text ++ after)).extra = text.length
  piece_eq : piece =
    ⟨(readPiece offset first (text ++ after)).content, [],
      ⟨offset, offset + Utf8.size (first :: text)⟩⟩

theorem exists_readFrom {offset : Nat} {characters : List Char} {piece : Piece}
    {later : List Piece} (split : pieces offset characters = piece :: later)
    (clean : piece.errors = []) :
    ∃ first text after, characters = first :: (text ++ after) ∧
      later = pieces piece.span.stop after ∧ ReadFrom offset piece first text after := by
  cases characters with
  | nil =>
      rw [pieces] at split
      cases split
  | cons first rest =>
      rw [pieces_cons] at split
      rcases List.cons.inj split with ⟨rfl, rfl⟩
      have within := readPiece_extra_le clean
      refine ⟨first, rest.take _, rest.drop _, by rw [List.take_append_drop], rfl, ?_, ?_, ?_⟩
      · rw [List.take_append_drop]
        exact clean
      · rw [List.take_append_drop, List.length_take_of_le within]
      · rw [List.take_append_drop]
        exact congrArg (Piece.mk _ · _) clean

/-- The place of a piece does not matter to its content, and neither does what follows it. -/
theorem ReadFrom.pieces_again {offset : Nat} {piece : Piece} {first : Char}
    {text middle after other : List Char}
    (read : ReadFrom offset piece first text (middle ++ after)) (place : Nat)
    (separates : Separates other)
    (ends : other = [] ∨ middle ≠ [] ∨ ∃ token, piece.content = .token token) :
    pieces place (first :: (text ++ (middle ++ other))) =
      ⟨piece.content, [], ⟨place, place + Utf8.size (first :: text)⟩⟩ ::
        pieces (place + Utf8.size (first :: text)) (middle ++ other) := by
  rcases read with ⟨clean, extra, rfl⟩
  rw [← List.append_assoc] at clean extra
  have follow : (readPiece offset first (text ++ middle ++ after)).Again
      (readPiece place first (text ++ middle ++ other)) := by
    refine readPiece_follow place separates clean ?_ (ends.imp id (Or.imp (fun filled => ?_) ?_))
    · rw [extra, List.length_append]
      exact Nat.le_add_right _ _
    · rw [extra, List.length_append]
      exact Nat.lt_add_of_pos_right (List.length_pos_iff.mpr filled)
    · rw [List.append_assoc]
      exact id
  rw [List.append_assoc text middle other] at follow
  rw [pieces_of_extra (follow.extra_eq.trans extra), follow.content_eq, follow.clean,
    List.append_assoc]

/-- Pieces with the same contents as others, and without faults. -/
structure SameContents (list others : List Piece) : Prop where
  contents : others.map Piece.content = list.map Piece.content
  clean : ∀ piece ∈ others, piece.errors = []

theorem pieces_shift {offset : Nat} {characters : List Char}
    (clean : ∀ piece ∈ pieces offset characters, piece.errors = []) (place : Nat) :
    SameContents (pieces offset characters) (pieces place characters) := by
  generalize whole : pieces offset characters = list at clean ⊢
  induction list generalizing offset place characters with
  | nil =>
      cases characters with
      | nil =>
          rw [pieces]
          exact ⟨rfl, clean⟩
      | cons first rest =>
          rw [pieces_cons] at whole
          cases whole
  | cons piece later induction =>
      rw [List.forall_mem_cons] at clean
      rcases exists_readFrom whole clean.1 with ⟨first, text, after, rfl, same, read⟩
      have tail := induction (place + Utf8.size (first :: text)) same.symm clean.2
      have again := @ReadFrom.pieces_again offset piece first text after [] []
        (by rwa [List.append_nil]) place (fun _ none => by cases none) (.inl rfl)
      rw [List.append_nil] at again
      rw [again]
      exact ⟨congrArg (piece.content :: ·) tail.contents,
        List.forall_mem_cons.mpr ⟨rfl, tail.clean⟩⟩

/-- A piece of a text ends behind the beginning of the text. -/
theorem lt_stop_of_mem_pieces {offset : Nat} {characters : List Char} {piece : Piece}
    (member : piece ∈ pieces offset characters) : offset < piece.span.stop := by
  rcases exists_readAt member with ⟨before, first, rest, read⟩
  have positive := first.utf8Size_pos
  rw [read.span, Utf8.size_cons]
  dsimp only
  omega

theorem ReadFrom.eq {offset : Nat} {piece : Piece} {first : Char} {text after : List Char}
    (read : ReadFrom offset piece first text after) :
    piece = ⟨piece.content, [], ⟨offset, offset + Utf8.size (first :: text)⟩⟩ := by
  rw [read.piece_eq]

/-- The pieces up to a token stay if a separating text is put behind it. -/
theorem pieces_follow {offset : Nat} {before after other : List Char} {front back : List Piece}
    {piece : Piece} {token : Token} (separates : Separates other)
    (split : pieces offset (before ++ after) = front ++ piece :: back)
    (stop : piece.span.stop = offset + Utf8.size before) (isToken : piece.content = .token token)
    (clean : ∀ piece ∈ pieces offset (before ++ after), piece.errors = []) :
    back = pieces (offset + Utf8.size before) after ∧
      pieces offset (before ++ other) =
        front ++ piece :: pieces (offset + Utf8.size before) other := by
  rw [split] at clean
  induction front generalizing offset before with
  | nil =>
      rw [List.nil_append, List.forall_mem_cons] at clean
      rcases exists_readFrom split clean.1 with ⟨first, text, rest, whole, later, read⟩
      have place := congrArg (·.span.stop) read.piece_eq
      rcases eq_of_size_eq whole (Nat.add_left_cancel (stop.symm.trans place)) with ⟨rfl, rfl⟩
      have again := @ReadFrom.pieces_again offset piece first text [] after other read offset
        separates (.inr (.inr ⟨token, isToken⟩))
      rw [← read.eq] at again
      rw [stop] at later
      exact ⟨later, again⟩
  | cons head front induction =>
      rw [List.cons_append, List.forall_mem_cons] at clean
      rcases exists_readFrom split clean.1 with ⟨first, text, rest, whole, later, read⟩
      have place : head.span.stop = offset + Utf8.size (first :: text) :=
        congrArg (·.span.stop) read.piece_eq
      rcases exists_of_pieces_eq_append later.symm with ⟨middle, remaining, rfl, ends, -⟩
      have filled : middle ≠ [] := by
        rintro rfl
        have member : piece ∈ pieces head.span.stop ([] ++ remaining) := by
          rw [← later]
          exact List.mem_append_right front List.mem_cons_self
        exact (lt_stop_of_mem_pieces member).ne ends.symm
      have total : offset + Utf8.size (first :: (text ++ middle)) =
          head.span.stop + Utf8.size middle := by
        rw [place, ← List.cons_append, Utf8.size_append, Nat.add_assoc]
      rw [← List.append_assoc, ← List.cons_append] at whole
      rcases eq_of_size_eq whole (by omega) with ⟨rfl, rfl⟩
      rcases induction later.symm ends clean.2 with ⟨rest, again⟩
      have same := read.pieces_again offset separates (.inr (.inl filled))
      rw [← read.eq, ← place, again] at same
      rw [total, List.cons_append, List.append_assoc]
      exact ⟨rest, same⟩

end ProtoSchema.Syntax.Lexer
