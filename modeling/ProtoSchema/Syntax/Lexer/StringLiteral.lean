import ProtoSchema.Syntax.Lexer.Number
/-!
## String literals

A string literal ends at the quote that began it. Escapes may write single bytes,
so that the content is first collected as bytes and read as UTF-8 at the end. A
literal never fails as a whole: its faults are recorded, and what can be read is
kept.
-/

namespace ProtoSchema.Syntax.Lexer

/-! ### Escapes -/

/-- The bytes that an escape stands for and the number of characters after its
backslash, all of them ASCII. -/
structure Escape where
  bytes : List UInt8
  length : Nat

/-- An escape that writes one byte by digits. -/
def byteEscape? (base : Nat) (digits : List Char) (lead : Nat) : Option Escape := do
  let value ← readDigits? base digits
  if digits ≠ [] ∧ value < 256 then
    some ⟨[UInt8.ofNat value], lead + digits.length⟩
  else none

/-- An escape that writes one character by a fixed number of hexadecimal digits. -/
def charEscape? (count : Nat) (rest : List Char) : Option Escape := do
  let digits := (rest.take count).takeWhile isHexDigit
  let value ← readDigits? 16 digits
  if digits.length = count ∧ value.isValidChar then
    some ⟨Utf8.encode [Char.ofNat value], 1 + count⟩
  else none

/-- The byte of an escape that consists of one character. -/
def simpleEscape? : Char → Option UInt8
  | 'a' => some 0x07
  | 'b' => some 0x08
  | 't' => some 0x09
  | 'n' => some 0x0A
  | 'v' => some 0x0B
  | 'f' => some 0x0C
  | 'r' => some 0x0D
  | '"' => some 0x22
  | '\'' => some 0x27
  | '?' => some 0x3F
  | '\\' => some 0x5C
  | _ => none

def isOctalDigit (character : Char) : Bool :=
  '0' ≤ character && character ≤ '7'

/-- The escape that follows a backslash: up to two hexadecimal digits after `x`,
up to three octal digits, four or eight hexadecimal digits after `u` or `U`, or a
single character. -/
def escape? : List Char → Option Escape
  | [] => none
  | kind :: rest =>
      if kind = 'x' ∨ kind = 'X' then byteEscape? 16 ((rest.take 2).takeWhile isHexDigit) 1
      else if isOctalDigit kind then
        byteEscape? 8 (kind :: (rest.take 2).takeWhile isOctalDigit) 0
      else if kind = 'u' then charEscape? 4 rest
      else if kind = 'U' then charEscape? 8 rest
      else (simpleEscape? kind).map fun byte => ⟨[byte], 1⟩

/-! ### Content -/

/-- The content of a string literal after its opening quote: the bytes, the
faults in order, and the number of characters up to and with its end. -/
structure StringContent where
  bytes : List UInt8
  errors : List SyntaxError
  length : Nat

namespace StringContent

/-- The content with further characters, bytes and faults in front. -/
def prepend (content : StringContent) (length : Nat) (bytes : List UInt8)
    (errors : List SyntaxError) : StringContent :=
  ⟨bytes ++ content.bytes, errors ++ content.errors, length + content.length⟩

end StringContent

/-- Reads on to the closing quote, the end of the line or the end of the source.
A backslash that begins no escape is dropped. NUL characters are dropped, one
fault for each run of them. -/
def readContent (quote : Char) (offset : Nat) : List Char → StringContent
  | [] => ⟨[], [.unexpectedEnd .stringTerminator], 0⟩
  | character :: rest =>
      if character = quote then ⟨[], [], 1⟩
      else if character = '\n' then ⟨[], [.unterminatedString ⟨offset, offset + 1⟩], 1⟩
      else if character = '\\' then
        match escape? rest with
        | some escape =>
            (readContent quote (offset + 1 + escape.length) (rest.drop escape.length)).prepend
              (1 + escape.length) escape.bytes []
        | none =>
            (readContent quote (offset + 1) rest).prepend 1 []
              [.invalidStringEscape ⟨offset, offset + 1⟩]
      else if character = '\x00' then
        let run := 1 + (rest.takeWhile (· == '\x00')).length
        (readContent quote (offset + run) (rest.drop (run - 1))).prepend run []
          [.invalidStringCharacters ⟨offset, offset + run⟩]
      else
        (readContent quote (offset + character.utf8Size) rest).prepend 1
          (Utf8.encode [character]) []
  termination_by characters => characters.length

/-! ### Literals -/

/-- A string literal with its faults and its number of characters. -/
structure StringReading where
  value : String
  errors : List SyntaxError
  length : Nat

/-- The string literal that begins with a quote. Content that is no UTF-8 is one
more fault. -/
def readString (offset : Nat) (quote : Char) (rest : List Char) : StringReading :=
  let content := readContent quote (offset + 1) rest
  let length := 1 + content.length
  match Utf8.decode? content.bytes with
  | some characters => ⟨String.ofList characters, content.errors, length⟩
  | none =>
      let stop := offset + 1 + Utf8.size (rest.take content.length)
      ⟨String.ofList (Utf8.decodeLossy content.bytes),
        content.errors ++ [.invalidUtf8String ⟨offset, stop⟩], length⟩

end ProtoSchema.Syntax.Lexer
