import ProtoSchema.Number.Binary64
import ProtoSchema.Text.Quoted
import ProtoSchema.Text.Span
/-!
## Tokens

What the lexer hands to the parser. Keywords are ordinary identifiers; only the
place in the grammar tells them apart.
-/

namespace ProtoSchema.Syntax

/-! ### Punctuation -/

/-- The tokens of one fixed character. -/
inductive Punctuation
  | dot | minus | plus | comma | equals | semicolon
  | leftParen | rightParen
  | leftBrace | rightBrace
  | leftBracket | rightBracket
  | leftAngle | rightAngle
  deriving DecidableEq, Repr

namespace Punctuation

def all : List Punctuation :=
  [dot, minus, plus, comma, equals, semicolon, leftParen, rightParen,
    leftBrace, rightBrace, leftBracket, rightBracket, leftAngle, rightAngle]

def char : Punctuation → Char
  | dot => '.'
  | minus => '-'
  | plus => '+'
  | comma => ','
  | equals => '='
  | semicolon => ';'
  | leftParen => '('
  | rightParen => ')'
  | leftBrace => '\x7b'
  | rightBrace => '\x7d'
  | leftBracket => '['
  | rightBracket => ']'
  | leftAngle => '<'
  | rightAngle => '>'

def ofChar? (character : Char) : Option Punctuation :=
  all.find? (·.char == character)

theorem ofChar?_char (mark : Punctuation) : ofChar? mark.char = some mark := by
  cases mark <;> rfl

theorem char_of_ofChar? {character : Char} {mark : Punctuation}
    (found : ofChar? character = some mark) : mark.char = character := by
  simpa using List.find?_some found

end Punctuation

/-! ### Tokens -/

/-- A token. An integer literal is at most `2 ^ 64 - 1`; a string literal holds
the text that its escapes stand for. `invalid` is a character that begins no
token. -/
inductive Token
  | ident (name : String)
  | int (value : Nat)
  | float (value : Binary64)
  | string (value : String)
  | mark (symbol : Punctuation)
  | invalid
  deriving DecidableEq, Repr

namespace Token

/-- The token as an error message quotes it. -/
def text : Token → String
  | ident name => name
  | int value => toString value
  | float value => value.constantText
  | string value => Text.quote value
  | mark symbol => String.singleton symbol.char
  | invalid => "<ERROR>"

end Token

end ProtoSchema.Syntax
