import ProtoSchema.Syntax.Lexer.Comment
import ProtoSchema.Syntax.Lexer.StringLiteral
/-!
## The lexer

A source is cut into pieces that follow each other without a gap: white space,
comments and tokens. The pieces are then grouped into lexemes, a lexeme being a
token with the comments before it. Faults never stop the lexer; a character that
begins no token is a token of its own.
-/

namespace ProtoSchema.Syntax

namespace Lexer

/-! ### Pieces -/

/-- White space between tokens. -/
def isSpace (character : Char) : Bool :=
  character == ' ' || ('\t' ≤ character && character ≤ '\r')

/-- What a piece of the source is. -/
inductive Content
  | blank
  | comment (text : String)
  | token (token : Token)

/-- What begins at some place: its content, its faults, and the number of
characters that belong to it after the first. -/
structure Reading where
  content : Content
  errors : List SyntaxError := []
  extra : Nat := 0

/-- A comment as a piece. The white space around its text is not kept. -/
def CommentReading.reading (comment : CommentReading) : Reading :=
  { content := .comment (String.ofList (Text.trim comment.text))
    errors := comment.errors
    extra := comment.length - 1 }

/-- What begins with a character. -/
def readPiece (offset : Nat) (first : Char) (rest : List Char) : Reading :=
  if isSpace first then { content := .blank }
  else if isIdentStart first then
    let more := rest.takeWhile isIdentRest
    { content := .token (.ident (String.ofList (first :: more))), extra := more.length }
  else if isDigit first || (first == '.' && rest.head?.any isDigit) then
    let number := readNumber offset (first :: rest)
    { content := .token number.token, errors := number.errors, extra := number.length - 1 }
  else if first == '"' || first == '\'' then
    let literal := readString offset first rest
    { content := .token (.string literal.value)
      errors := literal.errors
      extra := literal.length - 1 }
  else if first == '/' && rest.head? == some '/' then
    (readLineComment rest.tail).reading
  else if first == '/' && rest.head? == some '*' then
    (readBlockComment offset rest.tail).reading
  else
    match Punctuation.ofChar? first with
    | some symbol => { content := .token (.mark symbol) }
    | none =>
        { content := .token .invalid
          errors := [.invalidToken ⟨offset, offset + first.utf8Size⟩] }

/-- A piece at its place. -/
structure Piece where
  content : Content
  errors : List SyntaxError
  span : Span

/-- The pieces of a text that begins at an offset. -/
def pieces (offset : Nat) : List Char → List Piece
  | [] => []
  | first :: rest =>
      let reading := readPiece offset first rest
      let stop := offset + Utf8.size (first :: rest.take reading.extra)
      ⟨reading.content, reading.errors, ⟨offset, stop⟩⟩ ::
        pieces stop (rest.drop reading.extra)
  termination_by characters => characters.length

end Lexer

/-! ### Lexemes -/

/-- A token at its place, the comments between it and the token before it, and the
faults found while reading the comments and the token. -/
structure Lexeme where
  comments : List String
  errors : List SyntaxError
  token : Token
  span : Span
  deriving DecidableEq, Repr

/-- The lexemes of a source and the faults after the last token. -/
structure LexemeSequence where
  lexemes : List Lexeme
  trailing : List SyntaxError
  deriving DecidableEq, Repr

namespace Lexer

/-- Groups pieces into lexemes. The comments and faults that precede the first
piece wait for the first token. -/
def group (comments : List String) (errors : List SyntaxError) : List Piece → LexemeSequence
  | [] => ⟨[], errors⟩
  | piece :: rest =>
      let errors := errors ++ piece.errors
      match piece.content with
      | .blank => group comments errors rest
      | .comment text => group (comments ++ [text]) errors rest
      | .token token =>
          let following := group [] [] rest
          { following with
            lexemes := ⟨comments, errors, token, piece.span⟩ :: following.lexemes }

end Lexer

def lex (source : String) : LexemeSequence :=
  Lexer.group [] [] (Lexer.pieces 0 source.toList)

/-- All lexical faults, in the order of the source. -/
def LexemeSequence.errors (sequence : LexemeSequence) : List SyntaxError :=
  sequence.lexemes.flatMap Lexeme.errors ++ sequence.trailing

def LexemeSequence.tokens (sequence : LexemeSequence) : List Token :=
  sequence.lexemes.map Lexeme.token

example :
    (lex "x = 012ab; // c\n-1.5e1").tokens =
      [.ident "x", .mark .equals, .int 10, .ident "ab", .mark .semicolon,
        .mark .minus, .float (Binary64.ofNat 15)] := by
  cbv

end ProtoSchema.Syntax
