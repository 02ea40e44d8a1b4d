import ProtoSchema.Syntax.Error
/-!
## Number literals

An integer is written in base 16 after `0x`, in base 8 after a leading `0`, and in
base 10 otherwise. A run of digits that a fraction or an exponent follows is a
floating-point literal, whatever its first digit. Every character of a number
literal takes one byte.
-/

namespace ProtoSchema.Syntax.Lexer

/-! ### Characters -/

def isDigit (character : Char) : Bool :=
  '0' ≤ character && character ≤ '9'

/-- ASCII letters and the underscore. -/
def isIdentStart (character : Char) : Bool :=
  ('a' ≤ character && character ≤ 'z') || ('A' ≤ character && character ≤ 'Z')
    || character == '_'

/-- What may follow the first character of an identifier. -/
def isIdentRest (character : Char) : Bool :=
  isIdentStart character || isDigit character

/-- The value of a digit in any base up to 16. -/
def digitValue? (character : Char) : Option Nat :=
  if isDigit character then some (character.toNat - '0'.toNat)
  else if 'a' ≤ character ∧ character ≤ 'f' then some (character.toNat - 'a'.toNat + 10)
  else if 'A' ≤ character ∧ character ≤ 'F' then some (character.toNat - 'A'.toNat + 10)
  else none

def isHexDigit (character : Char) : Bool :=
  (digitValue? character).isSome

/-- The number that digits write in a base, if each of them is a digit of it. -/
def readDigits? (base : Nat) (digits : List Char) : Option Nat :=
  digits.foldlM (fun value digit => do
    let next ← digitValue? digit
    if next < base then some (value * base + next) else none) 0

def readDecimal (digits : List Char) : Nat :=
  (readDigits? 10 digits).getD 0

example : readDigits? 8 "017".toList = some 15 := by decide +kernel
example : readDigits? 8 "08".toList = none := by decide +kernel

/-! ### Integers -/

/-- The spelling of an integer literal: its base, its digits, and the number of
characters before the digits. -/
structure IntSpelling where
  base : Nat
  digits : List Char
  lead : Nat

namespace IntSpelling

def length (spelling : IntSpelling) : Nat :=
  spelling.lead + spelling.digits.length

/-- The value, if all digits belong to the base and it has 64 bits at most. -/
def value? (spelling : IntSpelling) : Option Nat := do
  let value ← readDigits? spelling.base spelling.digits
  if value < UInt64.size then some value else none

end IntSpelling

/-- The hexadecimal literal at the beginning of a text. -/
def hexSpelling? : List Char → Option IntSpelling
  | '0' :: x :: rest =>
      let digits := rest.takeWhile isHexDigit
      if (x = 'x' ∨ x = 'X') ∧ digits ≠ [] then some ⟨16, digits, 2⟩ else none
  | _ => none

/-- A run of decimal digits as an integer literal. -/
def runSpelling : List Char → IntSpelling
  | '0' :: digit :: digits => ⟨8, digit :: digits, 1⟩
  | digits => ⟨10, digits, 0⟩

/-- The faults of an integer literal: an identifier that touches it, and a value
that does not exist. -/
def intErrors (offset : Nat) (spelling : IntSpelling) (rest : List Char) : List SyntaxError :=
  let stop := offset + spelling.length
  let spaceErrors :=
    if rest.head?.any isIdentStart then
      [.missingSpace ⟨offset, stop + (rest.takeWhile isIdentRest).length⟩]
    else []
  let rangeErrors :=
    if spelling.value?.isNone then
      [.integerOutOfRange ⟨stop - spelling.digits.length, stop⟩]
    else []
  spaceErrors ++ rangeErrors

/-! ### Floating point -/

/-- The number of characters of the exponent at the beginning of a text; zero if
there is none or it has no digits. -/
def exponentLength : List Char → Nat
  | mark :: rest =>
      if mark = 'e' ∨ mark = 'E' then
        let sign := (rest.takeWhile fun c => c == '+' || c == '-').take 1
        let digits := (rest.drop sign.length).takeWhile isDigit
        if digits.isEmpty then 0 else 1 + sign.length + digits.length
      else 0
  | [] => 0

/-- The number of characters of the fraction and exponent that follow a run of
digits, if they make it a floating-point literal. -/
def fractionLength? : List Char → Option Nat
  | '.' :: rest =>
      let digits := (rest.takeWhile isDigit).length
      some (1 + digits + exponentLength (rest.drop digits))
  | rest =>
      match exponentLength rest with
      | 0 => none
      | length => some length

/-- The exponent that a text such as `e-5` writes; zero for the empty text. -/
def readExponent : List Char → Int
  | _ :: '-' :: digits => -(readDecimal digits : Int)
  | _ :: '+' :: digits => readDecimal digits
  | _ :: digits => readDecimal digits
  | [] => 0

/-- The number that a floating-point literal writes. -/
def readFloat (literal : List Char) : Binary64 :=
  let whole := literal.takeWhile isDigit
  let rest := literal.drop whole.length
  let fraction := if rest.head? = some '.' then (rest.drop 1).takeWhile isDigit else []
  let exponent := rest.dropWhile fun c => c == '.' || isDigit c
  Binary64.ofDecimal (readDecimal (whole ++ fraction))
    (readExponent exponent - fraction.length)

/-! ### Literals -/

/-- A number literal with its faults and its number of characters. -/
structure NumberReading where
  token : Token
  errors : List SyntaxError
  length : Nat

/-- The reading of an integer literal; an invalid one counts as zero. -/
def readInt (offset : Nat) (spelling : IntSpelling) (characters : List Char) : NumberReading :=
  { token := .int (spelling.value?.getD 0)
    errors := intErrors offset spelling (characters.drop spelling.length)
    length := spelling.length }

/-- The number literal at the beginning of a text that starts with a digit, or
with a point and a digit. -/
def readNumber (offset : Nat) (characters : List Char) : NumberReading :=
  match hexSpelling? characters with
  | some spelling => readInt offset spelling characters
  | none =>
      let run := characters.takeWhile isDigit
      match fractionLength? (characters.drop run.length) with
      | some more =>
          let length := run.length + more
          { token := .float (readFloat (characters.take length)), errors := [], length := length }
      | none => readInt offset (runSpelling run) characters

end ProtoSchema.Syntax.Lexer
