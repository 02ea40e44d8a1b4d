import ProtoSchema.Text.Unprintable
/-!
## Quoted text

A text between double quotes that shows every character. The quote and the
backslash are escaped by a backslash, a few controls have a letter of their own,
and all other characters without a printed form are written as `\u` with their
code point in braces, in lower-case hexadecimal digits.
-/

namespace ProtoSchema.Text

/-- The lower-case hexadecimal digits of a number, without leading zeros. -/
def hexDigits (number : Nat) : List Char :=
  Nat.toDigits 16 number

/-- The form of one character between the quotes. -/
def quoteChar (character : Char) : List Char :=
  match character with
  | '\x00' => ['\\', '0']
  | '\t' => ['\\', 't']
  | '\n' => ['\\', 'n']
  | '\r' => ['\\', 'r']
  | '"' => ['\\', '"']
  | '\\' => ['\\', '\\']
  | other =>
      if isUnprintable other then
        ['\\', 'u', '\x7b'] ++ hexDigits other.toNat ++ ['\x7d']
      else [other]

def quote (text : String) : String :=
  String.ofList ('"' :: (text.toList.flatMap quoteChar ++ ['"']))

example : quote "a\"b'c\\d\n" = "\"a\\\"b'c\\\\d\\n\"" := by decide +kernel

example : quote "e\u0301\u200b\x7f" = "\"e\\u\x7b301\x7d\\u\x7b200b\x7d\\u\x7b7f\x7d\"" := by
  decide +kernel

end ProtoSchema.Text
