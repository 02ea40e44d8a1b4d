import ProtoSchema.Proofs.Syntax.Walk
/-! # Tokens in the text

Every piece of a source is read at a place in its text, and covers the characters that it is
made of. Every lexeme of the source is one of these pieces.
-/

namespace ProtoSchema.Syntax

namespace Lexer

/-! ## Pieces -/

/-- A piece at a place in a text that begins at an offset: what is read there, and the span
of the characters that belong to it. -/
structure ReadAt (offset : Nat) (characters before : List Char) (first : Char) (rest : List Char)
    (piece : Piece) : Prop where
  split : characters = before ++ first :: rest
  content : piece.content = (readPiece (offset + Utf8.size before) first rest).content
  errors : piece.errors = (readPiece (offset + Utf8.size before) first rest).errors
  span : piece.span = ⟨offset + Utf8.size before, offset + Utf8.size before +
    Utf8.size (first :: rest.take (readPiece (offset + Utf8.size before) first rest).extra)⟩

/-- A piece after some characters of a text is a piece of the whole text. -/
theorem ReadAt.later {offset count : Nat} {first next : Char} {rest before others : List Char}
    {piece : Piece} (read : ReadAt (offset + Utf8.size (first :: rest.take count))
      (rest.drop count) before next others piece) :
    ReadAt offset (first :: rest) (first :: (rest.take count ++ before)) next others piece := by
  rcases read with ⟨split, content, errors, span⟩
  have place : offset + Utf8.size (first :: rest.take count) + Utf8.size before =
      offset + Utf8.size (first :: (rest.take count ++ before)) := by
    simp [Nat.add_assoc]
  rw [place] at content errors span
  refine ⟨?_, content, errors, span⟩
  rw [List.cons_append, List.append_assoc, ← split, List.take_append_drop]

theorem exists_readAt {offset : Nat} {characters : List Char} {piece : Piece}
    (member : piece ∈ pieces offset characters) :
    ∃ before first rest, ReadAt offset characters before first rest piece := by
  fun_induction pieces offset characters with
  | case1 => cases member
  | case2 offset first rest reading stop induction =>
      rcases List.mem_cons.mp member with rfl | member
      · exact ⟨[], first, rest, rfl, rfl, rfl, rfl⟩
      · rcases induction member with ⟨before, next, others, read⟩
        exact ⟨_, next, others, read.later⟩

/-- Every lexeme is one of the pieces. -/
theorem exists_piece_of_mem_group {pieces : List Piece} {comments : List String}
    {errors : List SyntaxError} {lexeme : Lexeme}
    (member : lexeme ∈ (group comments errors pieces).lexemes) :
    ∃ piece ∈ pieces, piece.content = .token lexeme.token ∧ piece.span = lexeme.span := by
  induction pieces generalizing comments errors with
  | nil => cases member
  | cons piece pieces induction =>
      have later {comments : List String} {errors : List SyntaxError}
          (member : lexeme ∈ (group comments errors pieces).lexemes) :
          ∃ other ∈ piece :: pieces, other.content = .token lexeme.token ∧
            other.span = lexeme.span := by
        rcases induction member with ⟨other, inside, same⟩
        exact ⟨other, List.mem_cons_of_mem piece inside, same⟩
      unfold group at member
      dsimp only at member
      split at member
      · exact later member
      · exact later member
      · next token content =>
          rcases List.mem_cons.mp member with rfl | member
          · exact ⟨piece, List.mem_cons_self, content, rfl⟩
          · exact later member

theorem exists_readAt_of_mem_lexemes {source : String} {lexeme : Lexeme}
    (member : lexeme ∈ (lex source).lexemes) :
    ∃ before first rest piece, ReadAt 0 source.toList before first rest piece ∧
      piece.content = .token lexeme.token ∧ piece.span = lexeme.span := by
  rcases exists_piece_of_mem_group member with ⟨piece, inText, content, span⟩
  rcases exists_readAt inText with ⟨before, first, rest, read⟩
  exact ⟨before, first, rest, piece, read, content, span⟩

/-! ## Identifiers -/

/-- What is read as a number is an integer or has a fraction. -/
theorem readNumber_token_cases (offset : Nat) (characters : List Char) :
    (∃ value, (readNumber offset characters).token = .int value) ∨
      ∃ value, (readNumber offset characters).token = .float value := by
  rw [readNumber]
  split
  · exact .inl ⟨_, rfl⟩
  · dsimp only
    split
    · exact .inr ⟨_, rfl⟩
    · exact .inl ⟨_, rfl⟩

/-- A name is the whole run of characters that can belong to it. -/
theorem eq_run_of_readPiece {offset : Nat} {first : Char} {rest : List Char} {name : String}
    (content : (readPiece offset first rest).content = .token (.ident name)) :
    isIdentStart first = true ∧ name.toList = first :: rest.takeWhile isIdentRest ∧
      (readPiece offset first rest).extra = (rest.takeWhile isIdentRest).length := by
  have number : (readNumber offset (first :: rest)).token ≠ .ident name := by
    rcases readNumber_token_cases offset (first :: rest) with ⟨value, token⟩ | ⟨value, token⟩ <;>
      simp [token]
  revert content
  unfold readPiece
  split
  · simp
  split
  · next starts =>
      intro content
      cases content
      exact ⟨starts, String.toList_ofList, rfl⟩
  split
  · simp [number]
  split
  · simp
  split
  · simp [CommentReading.reading]
  split
  · simp [CommentReading.reading]
  split <;> simp

theorem isIdentifier_of_readPiece {offset : Nat} {first : Char} {rest : List Char} {name : String}
    (content : (readPiece offset first rest).content = .token (.ident name)) :
    IsIdentifier name := by
  rcases eq_run_of_readPiece content with ⟨starts, text, -⟩
  rw [isIdentifier_iff text]
  exact ⟨starts, fun character member => List.mem_takeWhile_imp member⟩

/-! ## Marks -/

/-- A mark is its character. -/
theorem eq_char_of_readPiece {offset : Nat} {first : Char} {rest : List Char}
    {symbol : Punctuation}
    (content : (readPiece offset first rest).content = .token (.mark symbol)) :
    first = symbol.char ∧ (readPiece offset first rest).extra = 0 := by
  have number : (readNumber offset (first :: rest)).token ≠ .mark symbol := by
    rcases readNumber_token_cases offset (first :: rest) with ⟨value, token⟩ | ⟨value, token⟩ <;>
      simp [token]
  revert content
  unfold readPiece
  split
  · simp
  split
  · simp
  split
  · simp [number]
  split
  · simp
  split
  · simp [CommentReading.reading]
  split
  · simp [CommentReading.reading]
  split
  · next read =>
      intro content
      cases content
      exact ⟨(Punctuation.char_of_ofChar? read).symm, rfl⟩
  · simp

end Lexer

theorem isIdentifier_of_mem_lexemes {source : String} {lexeme : Lexeme}
    (member : lexeme ∈ (lex source).lexemes) {name : String}
    (token : lexeme.token = .ident name) : IsIdentifier name := by
  rcases Lexer.exists_readAt_of_mem_lexemes member with
    ⟨before, first, rest, piece, read, content, -⟩
  rw [read.content, token] at content
  exact Lexer.isIdentifier_of_readPiece content

end ProtoSchema.Syntax
