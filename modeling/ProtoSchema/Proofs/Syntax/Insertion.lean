import ProtoSchema.Proofs.Syntax.Parsing
import ProtoSchema.Proofs.Syntax.Rereading
import ProtoSchema.Proofs.Syntax.Retelling
/-! # White space and comments between tokens

White space and comments can be put in front of a source and behind each of its tokens, as far as
there is room for them. The tokens stay the same, and so does the tree, apart from spans and comments.
-/

namespace ProtoSchema.Syntax

/-! ## Texts without tokens -/

/-- White space, comments that end with their lines, and block comments that end and have no other
ends or beginnings inside. -/
inductive Trivia : List Char → Prop
  | none : Trivia []
  | space {character : Char} {text : List Char} (blank : Lexer.isSpace character = true)
      (rest : Trivia text) : Trivia (character :: text)
  | line {content text : List Char} (inside : '\n' ∉ content) (rest : Trivia text) :
      Trivia ('/' :: '/' :: (content ++ '\n' :: text))
  | block {content text : List Char} (ends : ¬['*', '/'] <:+: content)
      (flat : ¬['/', '*'] <:+: content) (rest : Trivia text) :
      Trivia ('/' :: '*' :: (content ++ '*' :: '/' :: text))

namespace Lexer

def Content.token? : Content → Option Token
  | .token found => some found
  | _ => none

/-- A piece without faults that is no token. -/
structure Piece.IsSilent (piece : Piece) : Prop where
  clean : piece.errors = []
  token?_eq : piece.content.token? = none

/-- A text of which only silent pieces are read. -/
def ReadsSilently (offset : Nat) (text after : List Char) : Prop :=
  ∃ silent, pieces offset (text ++ after) = silent ++ pieces (offset + Utf8.size text) after ∧
    ∀ piece ∈ silent, piece.IsSilent

namespace ReadsSilently

variable {offset : Nat} {first : Char} {text rest after : List Char}

theorem nil (offset : Nat) (after : List Char) : ReadsSilently offset [] after :=
  ⟨[], rfl, List.forall_mem_nil _⟩

theorem cons {content : Content} (silent : content.token? = none)
    (read : readPiece offset first (text ++ (rest ++ after)) =
      { content := content, extra := text.length })
    (later : ReadsSilently (offset + Utf8.size (first :: text)) rest after) :
    ReadsSilently offset (first :: text ++ rest) after := by
  rcases later with ⟨pieces, split, quiet⟩
  have here := @pieces_of_extra offset first text (rest ++ after) (by rw [read])
  rw [read, split] at here
  refine ⟨⟨content, [], ⟨offset, offset + Utf8.size (first :: text)⟩⟩ :: pieces, ?_,
    List.forall_mem_cons.mpr ⟨⟨rfl, silent⟩, quiet⟩⟩
  rw [Utf8.size_append, ← Nat.add_assoc, List.append_assoc, List.cons_append]
  exact here

theorem space (blank : isSpace first = true)
    (later : ReadsSilently (offset + Utf8.size [first]) rest after) :
    ReadsSilently offset (first :: rest) after :=
  @cons offset first [] rest after .blank rfl (readPiece_space blank) later

theorem comment {kept : String}
    (read : readPiece offset first (text ++ (rest ++ after)) =
      { content := .comment kept, extra := text.length })
    (later : ReadsSilently (offset + Utf8.size (first :: text)) rest after) :
    ReadsSilently offset (first :: text ++ rest) after :=
  cons rfl read later

end ReadsSilently

/-! ## Ends of comments -/

theorem lineCommentContent_append {content : List Char} (inside : '\n' ∉ content)
    (rest : List Char) : lineCommentContent (content ++ '\n' :: rest) = content := by
  have plain (character : Char) (member : character ∈ content) : (character != '\n') = true := by
    rw [bne_iff_ne]
    rintro rfl
    exact inside member
  rw [lineCommentContent, List.takeWhile_append_of_pos plain,
    List.takeWhile_cons_of_neg (by decide), List.append_nil]

theorem findPair?_eq_none {first second : Char} {content : List Char}
    (none : ¬[first, second] <:+: content) : findPair? first second content = Option.none := by
  cases found : findPair? first second content with
  | none => rfl
  | some count =>
      rcases exists_of_findPair? found with ⟨front, back, rfl, -, -⟩
      exact absurd ⟨front, back, by simp⟩ none

theorem findPair?_append {first second : Char} (other : first ≠ second) {content : List Char}
    (none : ¬[first, second] <:+: content) (rest : List Char) :
    findPair? first second (content ++ first :: second :: rest) = some content.length := by
  induction content with
  | nil => rw [List.nil_append, findPair?_cons, if_pos ⟨rfl, rfl⟩, List.length_nil]
  | cons character content induction =>
      rw [List.infix_cons_iff, not_or] at none
      have elsewhere : ¬(character = first ∧
          (content ++ first :: second :: rest).head? = some second) := by
        rintro ⟨rfl, next⟩
        cases content with
        | nil => exact other (Option.some.inj next)
        | cons head content =>
            cases next
            exact none.1 ⟨content, rfl⟩
      rw [List.cons_append, findPair?_cons, if_neg elsewhere, induction none.2, Option.map_some,
        List.length_cons]

end Lexer

namespace Trivia

/-- Nothing but white space and comments is read, whatever follows. -/
theorem readsSilently {text : List Char} (trivia : Trivia text) (offset : Nat)
    (after : List Char) : Lexer.ReadsSilently offset text after := by
  induction trivia generalizing offset with
  | none => exact .nil offset after
  | space blank rest induction => exact .space blank (induction _)
  | @line content text inside rest induction =>
      have read := Lexer.readPiece_line offset (content ++ '\n' :: (text ++ after))
      rw [Lexer.lineCommentContent_append inside, Nat.add_comm] at read
      exact @Lexer.ReadsSilently.comment offset '/' ('/' :: content) ('\n' :: text) after _ read
        (.space rfl (induction _))
  | @block content text ends flat rest induction =>
      have found := Lexer.findPair?_append (by decide) ends (text ++ after)
      have read := Lexer.readPiece_block offset found
        (by rw [List.take_left]; exact Lexer.findPair?_eq_none flat)
      have whole (rest : List Char) :
          content ++ '*' :: '/' :: rest = content ++ ['*', '/'] ++ rest :=
        (List.append_assoc content ['*', '/'] rest).symm
      have length : content.length + 3 = ('*' :: (content ++ ['*', '/'])).length := by simp
      rw [whole, length] at read
      rw [whole]
      exact @Lexer.ReadsSilently.comment offset '/' ('*' :: (content ++ ['*', '/'])) text after _
        read (induction _)

/-- What begins with white space or a comment separates. -/
theorem separates {text : List Char} (trivia : Trivia text) (filled : text ≠ [])
    (after : List Char) : Lexer.Separates (text ++ after) := by
  cases trivia with
  | none => exact absurd rfl filled
  | space blank rest =>
      rintro _ ⟨⟩
      exact Lexer.mem_separators_of_isSpace blank
  | line | block =>
      rintro _ ⟨⟩
      decide

end Trivia

namespace Lexer

/-! ## Pieces of the longer source -/

theorem tokens_lex (source : String) :
    (lex source).tokens =
      ((pieces 0 source.toList).map Piece.content).filterMap Content.token? := by
  have grouped := congrArg (List.map Prod.fst) (tokens_group [] [] (pieces 0 source.toList))
  rw [List.map_map, List.map_filterMap] at grouped
  rw [List.filterMap_map]
  refine grouped.trans (List.filterMap_congr fun piece _ => ?_)
  rw [Function.comp_apply, Piece.token?]
  cases piece.content <;> rfl

/-- A text is cut at its start or right behind a piece that is a token. -/
def CutBehindPiece (before after : List Char) : Prop :=
  before = [] ∨ ∃ piece ∈ pieces 0 (before ++ after),
    (∃ token, piece.content = .token token) ∧ piece.span.stop = Utf8.size before

/-- What is put between two tokens becomes pieces that are silent, and those behind it are moved
only. -/
theorem exists_of_insert {before after inserted : List Char}
    (clean : ∀ piece ∈ pieces 0 (before ++ after), piece.errors = [])
    (cut : CutBehindPiece before after) (trivia : Trivia inserted) :
    ∃ front silent back others, pieces 0 (before ++ after) = front ++ back ∧
      pieces 0 (before ++ (inserted ++ after)) = front ++ (silent ++ others) ∧
      (∀ piece ∈ silent, piece.IsSilent) ∧ SameContents back others := by
  by_cases filled : inserted = []
  · subst filled
    exact ⟨pieces 0 (before ++ after), [], [], [], (List.append_nil _).symm,
      (List.append_nil _).symm, List.forall_mem_nil _, ⟨rfl, List.forall_mem_nil _⟩⟩
  rcases cut with rfl | ⟨piece, member, ⟨token, isToken⟩, stop⟩
  · rcases trivia.readsSilently 0 after with ⟨silent, split, quiet⟩
    exact ⟨[], silent, pieces 0 after, _, rfl, split, quiet, pieces_shift clean _⟩
  · rcases List.append_of_mem member with ⟨front, back, split⟩
    rcases trivia.readsSilently (0 + Utf8.size before) after with ⟨silent, inside, quiet⟩
    rcases pieces_follow (trivia.separates filled after) split
      (stop.trans (Nat.zero_add _).symm) isToken clean with ⟨rfl, again⟩
    rw [inside] at again
    refine ⟨front ++ [piece], silent, _, _, split.trans (List.append_cons ..),
      again.trans (List.append_cons ..), quiet, pieces_shift (fun piece member => ?_) _⟩
    exact clean piece (split ▸ List.mem_append_right front (List.mem_cons_of_mem _ member))

theorem insert_keeps {before after inserted : List Char}
    (clean : ∀ piece ∈ pieces 0 (before ++ after), piece.errors = [])
    (cut : CutBehindPiece before after) (trivia : Trivia inserted) :
    (∀ piece ∈ pieces 0 (before ++ (inserted ++ after)), piece.errors = []) ∧
      ((pieces 0 (before ++ (inserted ++ after))).map Piece.content).filterMap Content.token? =
        ((pieces 0 (before ++ after)).map Piece.content).filterMap Content.token? := by
  rcases exists_of_insert clean cut trivia with
    ⟨front, silent, back, others, split, again, quiet, contents, cleanOthers⟩
  rw [split] at clean
  rw [split, again]
  constructor
  · intro piece member
    rcases List.mem_append.mp member with member | member
    · exact clean piece (List.mem_append_left _ member)
    rcases List.mem_append.mp member with member | member
    · exact (quiet piece member).clean
    · exact cleanOthers piece member
  · have none : (silent.map Piece.content).filterMap Content.token? = [] := by
      rw [List.filterMap_map, List.filterMap_eq_nil_iff]
      exact fun piece member => (quiet piece member).token?_eq
    simp only [List.map_append, List.filterMap_append, none, contents, List.nil_append]

end Lexer

/-! ## Trees of the longer source -/

theorem Grammar.SameTokens.of_map {lexemes others : List Lexeme}
    (same : lexemes.map Lexeme.token = others.map Lexeme.token) : SameTokens lexemes others := by
  rwa [← List.forall₂_eq_eq_eq, List.forall₂_map_left_iff, List.forall₂_map_right_iff] at same

/-- A source is accepted with the tree of another one, apart from spans and comments, if both have
the same tokens, and it is without lexical faults and not too large. -/
theorem parse_of_same_tokens {name source other : String} {tree : File}
    (parsed : parse name source = .ok tree) (clean : (lex other).errors = [])
    (same : (lex source).tokens = (lex other).tokens)
    (fits : other.utf8ByteSize ≤ maxFileSize) :
    ∃ again, parse name other = .ok again ∧ again.bare = tree.bare := by
  rcases exists_outline_of_parse parsed with ⟨-, outline, derivation, rfl, valid⟩
  rcases Grammar.Source.retold derivation (.of_map same) with ⟨again, derivation, equal⟩
  rcases readSource_of_derivation clean derivation with ⟨file, verdict⟩
  have accepted := verdict.eq_nil_iff.mpr ((Outline.valid_congr equal).mpr valid)
  have read : readSource other = (again.file, []) := Prod.ext file accepted
  exact ⟨again.file, parse_eq_ok_iff.mpr ⟨fits, read⟩,
    by rw [← Outline.file_bare, equal, Outline.file_bare]⟩

theorem parse_of_cut {name source : String} {before after inserted : List Char} {tree : File}
    (parsed : parse name source = .ok tree) (split : source.toList = before ++ after)
    (cut : Lexer.CutBehindPiece before after) (trivia : Trivia inserted)
    (fits : (String.ofList (before ++ (inserted ++ after))).utf8ByteSize ≤ maxFileSize) :
    ∃ again, parse name (String.ofList (before ++ (inserted ++ after))) = .ok again ∧
      again.bare = tree.bare := by
  have clean := (exists_outline_of_parse parsed).1
  rw [Lexer.errors_lex, split, List.flatMap_eq_nil_iff] at clean
  rcases Lexer.insert_keeps clean cut trivia with ⟨cleanAgain, tokens⟩
  refine parse_of_same_tokens parsed ?_ ?_ fits
  · rw [Lexer.errors_lex, String.toList_ofList, List.flatMap_eq_nil_iff]
    exact cleanAgain
  · rw [Lexer.tokens_lex, Lexer.tokens_lex, String.toList_ofList, split, tokens]

/-- The start of a source and the places right behind its tokens. -/
def IsTokenEnd (source : String) (place : Nat) : Prop :=
  place = 0 ∨ ∃ lexeme ∈ (lex source).lexemes, lexeme.span.stop = place

theorem IsTokenEnd.exists_cut {source : String} {place : Nat} (ends : IsTokenEnd source place) :
    ∃ before after, source.toList = before ++ after ∧ Utf8.size before = place ∧
      Lexer.CutBehindPiece before after := by
  rcases ends with rfl | ⟨lexeme, member, rfl⟩
  · exact ⟨[], source.toList, rfl, rfl, .inl rfl⟩
  · rcases Lexer.exists_piece_of_mem_group member with ⟨piece, inText, content, span⟩
    rcases (Lexer.placed_of_mem_pieces inText).stop with ⟨before, after, split, stop⟩
    rw [split] at inText
    exact ⟨before, after, split, stop.symm.trans (congrArg Span.stop span),
      .inr ⟨piece, inText, ⟨lexeme.token, content⟩, stop⟩⟩

/-- White space and comments at the start of a source or right behind one of its tokens do not
change what the source means, as long as it does not become too large. -/
theorem parse_insert {name source inserted : String} {tree : File} {place : Nat}
    (parsed : parse name source = .ok tree) (ends : IsTokenEnd source place)
    (trivia : Trivia inserted.toList) :
    ∃ before after, source = before ++ after ∧ Utf8.size before.toList = place ∧
      ((before ++ inserted ++ after).utf8ByteSize ≤ maxFileSize →
        ∃ again, parse name (before ++ inserted ++ after) = .ok again ∧
          again.bare = tree.bare) := by
  rcases ends.exists_cut with ⟨before, after, split, rfl, cut⟩
  refine ⟨String.ofList before, String.ofList after, ?_, by rw [String.toList_ofList], ?_⟩
  · rw [← String.ofList_append, ← split, String.ofList_toList]
  · have whole : String.ofList before ++ inserted ++ String.ofList after =
        String.ofList (before ++ (inserted.toList ++ after)) := by
      rw [String.ofList_append, String.ofList_append, String.ofList_toList, String.append_assoc]
    rw [whole]
    exact parse_of_cut parsed split cut trivia

/-- The name of a package goes on behind comments. -/
theorem parse_insert_package :
    ∃ before after, "package a.b;" = before ++ after ∧ Utf8.size before.toList = 9 ∧
      ∃ again, parse "c.proto" (before ++ "/*d*/ //e\n" ++ after) = .ok again ∧
        again.bare =
          ⟨.proto2, none, some ⟨⟨⟨"a", nowhere⟩, [⟨"b", nowhere⟩]⟩, nowhere⟩, [], [], []⟩ := by
  have parsed : parse "c.proto" "package a.b;" = .ok
      ⟨.proto2, none, some ⟨⟨⟨"a", ⟨8, 9⟩⟩, [⟨"b", ⟨10, 11⟩⟩]⟩, ⟨0, 12⟩⟩, [], [], []⟩ := by
    cbv
  have lexemes : (lex "package a.b;").lexemes =
      [⟨[], [], .ident "package", ⟨0, 7⟩⟩, ⟨[], [], .ident "a", ⟨8, 9⟩⟩,
        ⟨[], [], .mark .dot, ⟨9, 10⟩⟩, ⟨[], [], .ident "b", ⟨10, 11⟩⟩,
        ⟨[], [], .mark .semicolon, ⟨11, 12⟩⟩] := by
    cbv
  have ends : IsTokenEnd "package a.b;" 9 := .inr ⟨⟨[], [], .ident "a", ⟨8, 9⟩⟩, by
    rw [lexemes]; decide, rfl⟩
  have trivia : Trivia ['/', '*', 'd', '*', '/', ' ', '/', '/', 'e', '\n'] :=
    @Trivia.block ['d'] _ (by decide) (by decide)
      (.space (by decide) (@Trivia.line ['e'] [] (by decide) .none))
  rcases @parse_insert _ _ "/*d*/ //e\n" _ _ parsed ends trivia with
    ⟨before, after, split, place, again⟩
  refine ⟨before, after, split, place, again ?_⟩
  have size : (before ++ after).utf8ByteSize = 12 := by
    rw [← split]
    decide
  have inserted : "/*d*/ //e\n".utf8ByteSize = 10 := by decide
  rw [String.utf8ByteSize_append] at size
  rw [String.utf8ByteSize_append, String.utf8ByteSize_append, inserted, maxFileSize]
  omega

end ProtoSchema.Syntax
