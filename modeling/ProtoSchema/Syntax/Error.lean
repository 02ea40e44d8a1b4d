import ProtoSchema.Diagnostic
import ProtoSchema.Syntax.Expected
/-!
## Syntax errors

The faults that reading one source can have, and the failure that collects all
of them. A fault without a span lies at the end of the source, or the source as a
whole is at fault.
-/

namespace ProtoSchema.Syntax

def maxFieldNumber : Nat := 536870911

/-- The greatest number of bytes in a source. -/
def maxFileSize : Nat := 2147483647

/-- The declarations, apart from messages, that hold fields. -/
inductive FieldHost
  | oneof
  | extend
  deriving DecidableEq, Repr

/-- A fault of the source. -/
inductive SyntaxError
  | invalidToken (span : Span)
  | integerOutOfRange (span : Span)
  | invalidStringCharacters (span : Span)
  | unterminatedString (span : Span)
  | invalidStringEscape (span : Span)
  | invalidUtf8String (span : Span)
  | nestedBlockComment (span : Span)
  | missingSpace (span : Span)
  | unexpectedToken (expected : Expected) (found : Token) (span : Span)
  | unexpectedEnd (expected : Expected)
  | unknownVersion (version : String) (span : Span)
  | duplicatePackage (first second : Span)
  | invalidImport (span : Span)
  | invalidIdentifier (span : Span)
  | invalidFieldNumber (span : Span)
  | invalidEnumNumber (span : Span)
  | invalidRange (span : Span)
  | groupNotSupported (span : Span)
  | labelledMapField (span : Span)
  | labelledOneofField (span : Span)
  | misplacedMapField (host : FieldHost) (span : Span)
  | requiredExtensionField (span : Span)
  | requiredFieldInProto3 (span : Span)
  | emptyOneof (span : Span)
  | fileTooLarge
  deriving DecidableEq, Repr

namespace SyntaxError

/-- Where the fault lies. Of two package statements the second one is at fault. -/
def span? : SyntaxError → Option Span
  | unexpectedEnd _ | fileTooLarge => none
  | duplicatePackage _ second => some second
  | unexpectedToken _ _ span => some span
  | unknownVersion _ span => some span
  | misplacedMapField _ span => some span
  | invalidToken span | integerOutOfRange span | invalidStringCharacters span
  | unterminatedString span | invalidStringEscape span | invalidUtf8String span
  | nestedBlockComment span | missingSpace span | invalidImport span
  | invalidIdentifier span | invalidFieldNumber span | invalidEnumNumber span
  | invalidRange span | groupNotSupported span | labelledMapField span
  | labelledOneofField span | requiredExtensionField span
  | requiredFieldInProto3 span | emptyOneof span => some span

/-- What is wrong. -/
def message : SyntaxError → String
  | invalidToken _ => "invalid token"
  | integerOutOfRange _ => "integer is too large"
  | invalidStringCharacters _ => "invalid string character"
  | unterminatedString _ => "unterminated string"
  | invalidStringEscape _ => "invalid string escape"
  | invalidUtf8String _ => "string is not valid utf-8"
  | nestedBlockComment _ => "nested block comments are not supported"
  | missingSpace _ => "whitespace is required between an integer literal and an identifier"
  | unexpectedToken expected found _ =>
      "expected " ++ expected.text ++ ", but found '" ++ found.text ++ "'"
  | unexpectedEnd expected => "expected " ++ expected.text ++ ", but reached end of file"
  | unknownVersion version _ => "unknown syntax '" ++ version ++ "'"
  | duplicatePackage _ _ => "multiple package names specified"
  | invalidImport _ => "invalid import path"
  | invalidIdentifier _ => "invalid identifier"
  | invalidFieldNumber _ => "message numbers must be between 1 and " ++ toString maxFieldNumber
  | invalidEnumNumber _ => "enum numbers must be between -2147483648 and 2147483647"
  | invalidRange _ => "range start must not be greater than its end"
  | groupNotSupported _ => "groups are not supported"
  | labelledMapField _ => "map fields cannot have labels"
  | labelledOneofField _ => "oneof fields cannot have labels"
  | misplacedMapField .oneof _ => "map fields are not allowed in oneofs"
  | misplacedMapField .extend _ => "map fields are not allowed in extensions"
  | requiredExtensionField _ => "extension fields may not be required"
  | requiredFieldInProto3 _ => "required fields are not allowed in proto3 syntax"
  | emptyOneof _ => "a oneof must have at least one field"
  | fileTooLarge => "file is too large"

/-- What to do about a source with too many bytes. -/
def sizeAdvice : String := "the maximum file length is 2,147,483,647 bytes"

/-- What to do about it. -/
def help? : SyntaxError → Option String
  | unknownVersion .. => some "possible values are 'proto2' and 'proto3'"
  | invalidIdentifier _ => some
      "identifiers must consist of letters, numbers and underscores, and may not start with a number"
  | invalidImport _ => some
      "imports may not contain backslashes, repeated forward slashes, '.' or '..' components"
  | groupNotSupported _ => some "declare a nested message and a field of that type instead"
  | fileTooLarge => some sizeAdvice
  | _ => none

def remark : SyntaxError → String
  | invalidToken _ | missingSpace _ | unexpectedToken .. => "found here"
  | integerOutOfRange _ => "integer defined here"
  | invalidStringCharacters _ => "invalid characters"
  | unterminatedString _ => "string starts here"
  | _ => "defined here"

/-- The labelled spans. -/
def labels : SyntaxError → List Label
  | duplicatePackage first second => [⟨first, "defined here…"⟩, ⟨second, "…and again here"⟩]
  | error => (error.span?.map (⟨·, error.remark⟩)).toList

def notice (error : SyntaxError) : Notice :=
  { message := error.message, help := error.help?, labels := error.labels }

end SyntaxError

/-! ### Failures -/

/-- A source that could not be read: at least one fault, in the order in which
they were found. -/
structure SyntaxFailure where
  file : String
  source : String
  first : SyntaxError
  others : List SyntaxError
  deriving DecidableEq, Repr

namespace SyntaxFailure

def errors (failure : SyntaxFailure) : List SyntaxError :=
  failure.first :: failure.others

/-- The bytes of the source. -/
def bytes (failure : SyntaxFailure) : List UInt8 :=
  failure.source.toUTF8.toList

/-- The first message and the number of further ones. -/
def message (failure : SyntaxFailure) : String :=
  failure.first.message ++
    match failure.others.length with
    | 0 => ""
    | 1 => " (and 1 more error)"
    | count => s!" (and {count} more errors)"

/-- The line of the first fault, if it has a place. -/
def line? (failure : SyntaxFailure) : Option Nat := do
  let span ← failure.first.span?
  let position ← Text.position? failure.bytes span
  return position.line

/-- The first fault, with the others as related notices. -/
def diagnostic (failure : SyntaxFailure) : Diagnostic :=
  { main := { failure.first.notice with message := failure.message }
    related := failure.others.map SyntaxError.notice }

/-- One fault on a line: file, place and message. -/
def errorText (failure : SyntaxFailure) (error : SyntaxError) : String :=
  failure.file ++ ":" ++
    (match error.span? with
      | some span =>
          match positionText failure.bytes span with
          | "" => ""
          | place => place ++ " "
      | none => " ") ++
    error.message

/-- All faults, a line each. -/
def text (failure : SyntaxFailure) : String :=
  "\n".intercalate (failure.errors.map failure.errorText)

end SyntaxFailure

end ProtoSchema.Syntax
