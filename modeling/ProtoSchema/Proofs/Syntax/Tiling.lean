import ProtoSchema.Proofs.Syntax.Bytes
import ProtoSchema.Proofs.Syntax.Course
/-! # The pieces of a source

The tokens and comments of a source follow each other without touching the inside of a character,
and there is only white space between them.
-/

namespace ProtoSchema.Syntax

/-! ## Places in a source -/

/-- A place in a source, given by the number of bytes before it, at which a character begins or
the source ends. -/
def IsBoundary (source : String) (place : Nat) : Prop :=
  ∃ before after, source.toList = before ++ after ∧ place = Utf8.size before

/-- A span that is not empty and begins and ends at boundaries of a source. -/
structure Placed (source : String) (span : Span) : Prop where
  start : IsBoundary source span.start
  stop : IsBoundary source span.stop
  filled : span.start < span.stop

theorem IsBoundary.le {source : String} {place : Nat} (boundary : IsBoundary source place) :
    place ≤ Utf8.size source.toList := by
  rcases boundary with ⟨before, after, split, rfl⟩
  rw [split, Utf8.size_append]
  exact Nat.le_add_right _ _

theorem TextAt.placed {source : String} {span : Span} {text after : List Char}
    (stands : TextAt source span text after) (filled : text ≠ []) : Placed source span where
  start := by
    rcases stands with ⟨before, split, rfl⟩
    exact ⟨before, text ++ after, split, rfl⟩
  stop := by
    rcases stands with ⟨before, split, rfl⟩
    exact ⟨before ++ text, after, by rw [split, List.append_assoc],
      (Utf8.size_append before text).symm⟩
  filled := stands.lt_of_ne_nil filled

namespace Lexer

/-! ## Pieces one after another -/

/-- What is read first, and the rest. -/
theorem pieces_cons (offset : Nat) (first : Char) (rest : List Char) :
    pieces offset (first :: rest) =
      ⟨(readPiece offset first rest).content, (readPiece offset first rest).errors,
        ⟨offset, offset + Utf8.size (first :: rest.take (readPiece offset first rest).extra)⟩⟩ ::
        pieces (offset + Utf8.size (first :: rest.take (readPiece offset first rest).extra))
          (rest.drop (readPiece offset first rest).extra) := by
  rw [pieces]

theorem textAt_of_mem_pieces {source : String} {piece : Piece}
    (member : piece ∈ pieces 0 source.toList) :
    ∃ first rest after, TextAt source piece.span (first :: rest) after ∧
      ∃ offset more, piece.content = (readPiece offset first more).content ∧
        rest = more.take (readPiece offset first more).extra := by
  rcases exists_readAt member with ⟨before, first, rest, read⟩
  have place := read.span
  rw [Nat.zero_add] at place
  refine ⟨first, _, rest.drop (readPiece (Utf8.size before) first rest).extra,
    ⟨before, ?_, place⟩, Utf8.size before, rest, ?_, rfl⟩
  · rw [List.cons_append, List.take_append_drop]
    exact read.split
  · rw [read.content, Nat.zero_add]

theorem placed_of_mem_pieces {source : String} {piece : Piece}
    (member : piece ∈ pieces 0 source.toList) : Placed source piece.span := by
  rcases textAt_of_mem_pieces member with ⟨first, rest, after, stands, -⟩
  exact stands.placed (List.cons_ne_nil _ _)

/-- Behind a piece the lexer goes on at the end of its span, between two characters. -/
theorem exists_of_pieces_eq_append {offset : Nat} {characters : List Char} {front back : List Piece}
    {piece : Piece} (split : pieces offset characters = front ++ piece :: back) :
    ∃ before after, characters = before ++ after ∧
      piece.span.stop = offset + Utf8.size before ∧ back = pieces piece.span.stop after := by
  induction front generalizing offset characters with
  | nil =>
      cases characters with
      | nil =>
          rw [pieces] at split
          cases split
      | cons first rest =>
          rw [pieces_cons] at split
          cases split
          refine ⟨first :: rest.take _, rest.drop _, ?_, rfl, rfl⟩
          rw [List.cons_append, List.take_append_drop]
  | cons head front induction =>
      cases characters with
      | nil =>
          rw [pieces] at split
          cases split
      | cons first rest =>
          rw [pieces_cons, List.cons_append] at split
          rcases induction (List.cons.inj split).2 with ⟨before, after, same, stop, later⟩
          refine ⟨first :: (rest.take (readPiece offset first rest).extra ++ before), after, ?_, ?_,
            later⟩
          · rw [List.cons_append, List.append_assoc, ← same, List.take_append_drop]
          · rw [stop, Nat.add_assoc, ← Utf8.size_append, List.cons_append]

theorem inOrder_pieces (offset : Nat) (characters : List Char) :
    InOrder offset ((pieces offset characters).map Piece.span)
      (offset + Utf8.size characters) := by
  fun_induction pieces offset characters with
  | case1 offset => exact .none (Nat.le_add_right _ _)
  | case2 offset first rest reading stop induction =>
      have positive := first.utf8Size_pos
      have parts := size_take_add_size_drop reading.extra rest
      have total : stop + Utf8.size (rest.drop reading.extra) =
          offset + Utf8.size (first :: rest) := by
        simp only [stop, Utf8.size_cons]
        omega
      rw [total] at induction
      refine .more le_rfl ?_ induction
      simp only [stop, Utf8.size_cons]
      omega

/-- Every byte belongs to a piece. -/
theorem exists_piece_of_le {offset place : Nat} {characters : List Char} (low : offset ≤ place)
    (high : place < offset + Utf8.size characters) :
    ∃ piece ∈ pieces offset characters, piece.span.start ≤ place ∧ place < piece.span.stop := by
  fun_induction pieces offset characters with
  | case1 offset =>
      rw [Utf8.size_nil] at high
      omega
  | case2 offset first rest reading stop induction =>
      have parts := size_take_add_size_drop reading.extra rest
      have total : stop + Utf8.size (rest.drop reading.extra) =
          offset + Utf8.size (first :: rest) := by
        simp only [stop, Utf8.size_cons]
        omega
      by_cases here : place < stop
      · exact ⟨_, List.mem_cons_self, low, here⟩
      · rcases induction (Nat.le_of_not_lt here) (by omega) with ⟨piece, member, inside⟩
        exact ⟨piece, List.mem_cons_of_mem _ member, inside⟩

/-- A character that begins no token is a token of its own. -/
theorem extra_of_invalid {offset : Nat} {first : Char} {rest : List Char}
    (content : (readPiece offset first rest).content = .token .invalid) :
    (readPiece offset first rest).extra = 0 := by
  have number := readNumber_token_ne_invalid offset (first :: rest)
  revert content
  unfold readPiece
  split
  · simp
  split
  · simp
  split
  · simp [number]
  split
  · simp
  split
  · simp [CommentReading.reading]
  split
  · simp [CommentReading.reading]
  split <;> simp

/-! ## Tokens and comments -/

def Content.isBlank : Content → Bool
  | .blank => true
  | _ => false

/-- The tokens and comments of a source. -/
def elements (source : String) : List Piece :=
  (pieces 0 source.toList).filter fun piece => !piece.content.isBlank

/-- The bytes of white space: tab, line feed, vertical tab, form feed, carriage return and
space. -/
def spaceBytes : List UInt8 :=
  [0x09, 0x0A, 0x0B, 0x0C, 0x0D, 0x20]

theorem toNat_of_isSpace {character : Char} (space : isSpace character = true) :
    character.toNat = 32 ∨ 9 ≤ character.toNat ∧ character.toNat ≤ 13 := by
  simp only [isSpace, Bool.or_eq_true, beq_iff_eq, Bool.and_eq_true, decide_eq_true_eq,
    le_iff_toNat] at space
  rcases space with rfl | space
  · exact .inl rfl
  · exact .inr space

theorem mem_spaceBytes {character : Char} (space : isSpace character = true) :
    character.toNat < 128 ∧ UInt8.ofNat character.toNat ∈ spaceBytes := by
  have codes := toNat_of_isSpace space
  have listed : ∀ code < 128, code = 32 ∨ 9 ≤ code ∧ code ≤ 13 → UInt8.ofNat code ∈ spaceBytes := by
    decide
  have small : character.toNat < 128 := by omega
  exact ⟨small, listed _ small codes⟩

/-- The byte at which a character begins. -/
theorem getElem?_encode {before after : List Char} {character : Char}
    (ascii : character.toNat < 128) :
    (Utf8.encode (before ++ character :: after))[Utf8.size before]? =
      some (UInt8.ofNat character.toNat) := by
  rw [Utf8.encode_append, Utf8.encode_cons, Utf8.utf8EncodeChar_of_lt ascii,
    ← Utf8.length_encode, List.getElem?_append_right le_rfl, Nat.sub_self]
  rfl

/-- A byte outside of tokens and comments is white space. -/
theorem mem_spaceBytes_of_outside {source : String} {place : Nat} {byte : UInt8}
    (present : source.toUTF8.toList[place]? = some byte)
    (outside : ∀ piece ∈ elements source,
      ¬(piece.span.start ≤ place ∧ place < piece.span.stop)) : byte ∈ spaceBytes := by
  rw [Utf8.toUTF8_toList] at present
  rcases List.getElem?_eq_some_iff.mp present with ⟨inside, -⟩
  rw [Utf8.length_encode] at inside
  rcases exists_piece_of_le (Nat.zero_le place) (by rwa [Nat.zero_add]) with
    ⟨piece, member, covers⟩
  have blank : piece.content.isBlank = true := by
    by_contra visible
    exact outside piece (List.mem_filter.mpr ⟨member, by simpa using visible⟩) covers
  rcases textAt_of_mem_pieces member with
    ⟨first, rest, after, ⟨before, split, span⟩, offset, more, content, rfl⟩
  have isBlank : (readPiece offset first more).content = .blank := by
    rw [content] at blank
    revert blank
    cases (readPiece offset first more).content <;> simp [Content.isBlank]
  rcases isSpace_of_readPiece isBlank with ⟨space, extra⟩
  rcases mem_spaceBytes space with ⟨ascii, listed⟩
  rw [extra, List.take_zero] at split span
  have start : place = Utf8.size before := by
    rw [span, Utf8.size_cons, Utf8.utf8Size_of_lt ascii, Utf8.size_nil] at covers
    exact Nat.le_antisymm (Nat.le_of_lt_succ covers.2) covers.1
  rw [split, start, List.singleton_append, getElem?_encode ascii] at present
  cases present
  exact listed

/-- Some pieces are all of a source but white space. -/
structure Tiles (source : String) (pieces : List Piece) : Prop where
  placed : ∀ piece ∈ pieces, Placed source piece.span
  ascending : pieces.Pairwise fun earlier later => earlier.span.stop ≤ later.span.start
  /-- What begins no token is one character. -/
  invalid : ∀ piece ∈ pieces, piece.content = .token .invalid →
    ∃ character, StandsAt source piece.span [character]
  blank : ∀ (place : Nat) (byte : UInt8), source.toUTF8.toList[place]? = some byte →
    (∀ piece ∈ pieces, ¬(piece.span.start ≤ place ∧ place < piece.span.stop)) →
      byte ∈ spaceBytes
  /-- The tokens among them are those that the source is read from. -/
  tokens : (lex source).lexemes.map (fun lexeme => (lexeme.token, lexeme.span)) =
    pieces.filterMap Piece.token?

theorem tiles_elements (source : String) : Tiles source (elements source) where
  placed piece member := placed_of_mem_pieces (List.mem_filter.mp member).1
  ascending := by
    have ordered := (inOrder_pieces 0 source.toList).ascending
    exact (List.pairwise_map.mp ordered).filter _
  invalid piece member isInvalid := by
    rcases textAt_of_mem_pieces (List.mem_filter.mp member).1 with
      ⟨first, rest, after, stands, offset, more, content, rfl⟩
    rw [extra_of_invalid (content.symm.trans isInvalid), List.take_zero] at stands
    exact ⟨first, after, stands⟩
  blank _ _ := mem_spaceBytes_of_outside
  tokens := by
    rw [lex, tokens_group, elements, List.filterMap_filter]
    refine List.filterMap_congr fun piece _ => ?_
    rw [Piece.token?]
    cases piece.content <;> rfl

/-- What the readers of strings and comments pass ends in the text and between two characters,
also if it is counted in bytes. -/
structure PassesCharacters (rest : List Char) : Prop where
  string : ∀ quote offset, quote = '"' ∨ quote = '\'' →
    CountsBytes (fun text => (readContent quote offset text).length) rest
  lineComment : CountsBytes (fun text => (lineCommentContent text).length) rest
  blockComment : ∀ offset,
    CountsBytes (fun text => (readBlockComment offset text).length - 2) rest

/-- The lexer tiles every source, and its readers pass whole characters of every text. -/
theorem tiles_and_passes :
    (∀ source, Tiles source (elements source)) ∧ ∀ rest, PassesCharacters rest :=
  ⟨tiles_elements, fun rest => ⟨fun _ offset isQuote => countsBytes_readContent isQuote offset rest,
    countsBytes_lineComment rest, fun offset => countsBytes_blockComment offset rest⟩⟩

end Lexer

end ProtoSchema.Syntax
