/-!
## White space

The characters with the Unicode property White_Space, and trimming by it. The
white space between tokens is a smaller set, which the lexer defines.
-/

namespace ProtoSchema.Text

/-- Whether a character has the property White_Space. -/
def isBlank (character : Char) : Bool :=
  let code := character.toNat
  (0x09 ≤ code && code ≤ 0x0D) || code == 0x20 || code == 0x85 || code == 0xA0
    || code == 0x1680 || (0x2000 ≤ code && code ≤ 0x200A)
    || code == 0x2028 || code == 0x2029 || code == 0x202F || code == 0x205F
    || code == 0x3000

/-- The text without the white space at its beginning. -/
def trimStart (characters : List Char) : List Char :=
  characters.dropWhile isBlank

/-- The text without the white space at its end. -/
def trimEnd (characters : List Char) : List Char :=
  (characters.reverse.dropWhile isBlank).reverse

/-- The text without the white space at both ends. -/
def trim (characters : List Char) : List Char :=
  trimEnd (trimStart characters)

theorem isBlank_of_isWhitespace {character : Char} (blank : character.isWhitespace) :
    isBlank character := by
  simp only [Char.isWhitespace, Bool.or_eq_true, decide_eq_true_eq] at blank
  rcases blank with ((rfl | rfl) | rfl) | rfl <;> decide

example : trim " \u00A0a b\r\n".toList = "a b".toList := by cbv

end ProtoSchema.Text
