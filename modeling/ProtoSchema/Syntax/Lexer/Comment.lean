import ProtoSchema.Syntax.Error
import ProtoSchema.Text.Blank
import ProtoSchema.Text.Split
/-!
## Comments

A line comment ends before the line feed, a block comment at the first `*/`.
Block comments do not nest. What is kept of a comment is its text: continuation
lines of a block lose their indentation and one leading asterisk.
-/

namespace ProtoSchema.Syntax.Lexer

/-! ### Searching -/

/-- The number of characters before the first place where two characters follow
each other. -/
def findPair? (first second : Char) : List Char → Option Nat
  | left :: right :: rest =>
      if left = first ∧ right = second then some 0
      else (findPair? first second (right :: rest)).map (· + 1)
  | _ => none

example : findPair? '*' '/' "a**/".toList = some 2 := by decide +kernel

/-! ### Line comments -/

/-- The text without a carriage return at its end. -/
def dropCarriageReturn (line : List Char) : List Char :=
  if line.getLast? = some '\r' then line.dropLast else line

/-- The characters of a line comment after its slashes. -/
def lineCommentContent (rest : List Char) : List Char :=
  rest.takeWhile (· != '\n')

/-! ### Block comments -/

/-- The lines of a text, without their ends. A line feed at the very end begins no
further line. -/
def lines (content : List Char) : List (List Char) :=
  let pieces := Text.split '\n' content
  let ended := pieces.dropLast.map dropCarriageReturn
  match pieces.getLast? with
  | some [] | none => ended
  | some last => ended ++ [last]

/-- A continuation line without its indentation and one asterisk. -/
def continuationLine (line : List Char) : List Char :=
  match Text.trimStart line with
  | '*' :: rest => rest
  | line => line

def blockCommentText (content : List Char) : List Char :=
  if '\n' ∈ content then
    match lines content with
    | [] => []
    | first :: continuation => Text.join '\n' (first :: continuation.map continuationLine)
  else content

/-- A comment with its faults and its number of characters. -/
structure CommentReading where
  text : List Char
  errors : List SyntaxError
  length : Nat

/-- The line comment that two slashes begin. -/
def readLineComment (rest : List Char) : CommentReading :=
  let content := lineCommentContent rest
  ⟨dropCarriageReturn content, [], 2 + content.length⟩

/-- The block comment whose opening was read at an offset. -/
def readBlockComment (offset : Nat) (rest : List Char) : CommentReading :=
  let ending? := findPair? '*' '/' rest
  let content := rest.take (ending?.getD rest.length)
  let endErrors : List SyntaxError :=
    if ending?.isNone then [.unexpectedEnd .commentTerminator] else []
  let nestedErrors :=
    match findPair? '/' '*' content with
    | some before =>
        let start := offset + 2 + Utf8.size (content.take before)
        [SyntaxError.nestedBlockComment ⟨start, start + 2⟩]
    | none => []
  ⟨blockCommentText content, endErrors ++ nestedErrors,
    2 + content.length + (if ending?.isSome then 2 else 0)⟩

end ProtoSchema.Syntax.Lexer
