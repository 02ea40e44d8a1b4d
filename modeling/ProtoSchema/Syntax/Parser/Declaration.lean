import ProtoSchema.Syntax.Parser.Field
/-!
## Declarations

Messages, enums, services and extend blocks. All of them have a body in braces,
in which an entry may be left empty by a semicolon. The first word of an entry
decides what it is.
-/

namespace ProtoSchema.Syntax.Parser

/-! ### Bodies -/

/-- An entry of a body. -/
inductive Entry
  | blank
  | option (option : OptionEntry)
  | reserved (reserved : Reserved)
  | extensions (extensions : ExtensionRanges)
  | item (item : MessageItem)
  | field (field : Field)
  | value (value : EnumValue)
  | method (method : Method)

namespace Entry

def option? : Entry → Option OptionEntry
  | option entry => some entry
  | _ => none

def reserved? : Entry → Option Reserved
  | reserved entry => some entry
  | _ => none

def extensions? : Entry → Option ExtensionRanges
  | extensions entry => some entry
  | _ => none

def item? : Entry → Option MessageItem
  | item entry => some entry
  | _ => none

def field? : Entry → Option Field
  | field entry => some entry
  | _ => none

def value? : Entry → Option EnumValue
  | value entry => some entry
  | _ => none

def method? : Entry → Option Method
  | method entry => some entry
  | _ => none

end Entry

/-- The entries up to the closing brace. For the first token of an entry, `entry`
gives its parser. -/
def entries (expected : Expected) (entry : Token → Option (Parser Entry)) :
    Parser (List Entry) :=
  collect do
    match ← look with
    | some (.mark .semicolon, _) => advance; return some .blank
    | some (.mark .rightBrace, _) => advance; return none
    | some (token, _) =>
        match entry token with
        | some parser => return some (← parser)
        | none => unexpected expected
    | none => unexpected expected

/-- A body in braces. -/
def body (expected : Expected) (entry : Token → Option (Parser Entry)) :
    Parser (List Entry) := do
  let _ ← mark .leftBrace
  entries expected entry

def optionBodyEntry : Parser Entry := do
  return .option (← optionStatement)

/-! ### Reserved numbers and names -/

def reservedName : Parser Ident := do
  let (name, span) ← stringLiteral
  let valid := match name.toList with
    | [] => false
    | first :: rest => Lexer.isIdentStart first && rest.all Lexer.isIdentRest
  check valid (.invalidIdentifier span)
  return ⟨name, span⟩

/-- A `reserved` statement whose numbers are read by `number`. -/
def reservedStatement (number : Parser IntLiteral) : Parser Reserved := do
  let _ ← word "reserved"
  match ← look with
  | some (.int _, _) | some (.mark .minus, _) =>
      let ranges ← numberRanges number
      let _ ← mark .semicolon
      return .ranges ranges
  | some (.string _, _) =>
      let first ← reservedName
      let more ← collect do
        match ← look with
        | some (.mark .comma, _) => advance; return some (← reservedName)
        | some (.mark .semicolon, _) => advance; return none
        | _ => unexpected .reservedNameEnd
      return .names (first :: more)
  | _ => unexpected .reservedTarget

def extensionsStatement : Parser ExtensionRanges := do
  let start ← word "extensions"
  let ranges ← numberRanges fieldNumber
  let options ← match ← look with
    | some (.mark .leftBracket, _) => optionList
    | _ => pure []
  let _ ← mark .semicolon
  return ⟨ranges, options, ← spanFrom start.start⟩

/-! ### Enums -/

def enumValue : Parser EnumValue := do
  let comments ← comments
  let name ← ident
  let _ ← mark .equals
  let number ← enumNumber
  let options ← match ← look with
    | some (.mark .semicolon, _) => pure []
    | some (.mark .leftBracket, _) => optionList
    | _ => unexpected .fieldEnd
  let _ ← mark .semicolon
  return { name, number, options, comments, span := ← spanFrom name.span.start }

def enumDeclaration : Parser Enum := do
  let comments ← comments
  let start ← word "enum"
  let name ← ident
  let entries ← body .enumEntry fun
    | .ident "option" => some optionBodyEntry
    | .ident "reserved" => some do return .reserved (← reservedStatement enumNumber)
    | .ident _ => some do return .value (← enumValue)
    | _ => none
  return {
    name, comments
    values := entries.filterMap Entry.value?
    options := entries.filterMap Entry.option?
    reserved := entries.filterMap Entry.reserved?
    span := ← spanFrom start.start }

/-! ### Services -/

/-- Whether the word `stream` stands before the type of a method. A type cannot be
called so. -/
def streamFlag : Parser Bool := do
  match ← look with
  | some (.ident "stream", _) => advance; return true
  | some (.ident _, _) => return false
  | some (.mark .dot, _) => return false
  | _ => unexpected .streamOrType

/-- The type of a method in parentheses, and whether it is streamed. -/
def methodType : Parser (TypeName × Bool) := do
  let _ ← mark .leftParen
  let streaming ← streamFlag
  let type ← typeName [.mark .rightParen]
  let _ ← mark .rightParen
  return (type, streaming)

def method : Parser Method := do
  let comments ← comments
  let start ← word "rpc"
  let name ← ident
  let (input, clientStreaming) ← methodType
  let _ ← word "returns"
  let (output, serverStreaming) ← methodType
  let options ← match ← look with
    | some (.mark .semicolon, _) => advance; pure []
    | some (.mark .leftBrace, _) =>
        let entries ← body .methodEntry fun
          | .ident "option" => some optionBodyEntry
          | _ => none
        pure (entries.filterMap Entry.option?)
    | _ => unexpected .methodEnd
  return {
    name, input, output, clientStreaming, serverStreaming, options, comments
    span := ← spanFrom start.start }

def service : Parser Service := do
  let comments ← comments
  let start ← word "service"
  let name ← ident
  let entries ← body .serviceEntry fun
    | .ident "rpc" => some do return .method (← method)
    | .ident "option" => some optionBodyEntry
    | _ => none
  return {
    name, comments
    methods := entries.filterMap Entry.method?
    options := entries.filterMap Entry.option?
    span := ← spanFrom start.start }

/-! ### Messages and what they hold -/

/-- A field as an entry, if its first token can begin one. -/
def hostField? (version : Version) (host : FieldHost) (token : Token) :
    Option (Parser Entry) :=
  match token with
  | .ident _ | .mark .dot => some do return .field (← field version (some host))
  | _ => none

def extend (version : Version) : Parser Extend := do
  let comments ← comments
  let start ← word "extend"
  let extendee ← typeName [.mark .leftBrace]
  let entries ← body .extendEntry (hostField? version .extend)
  return {
    extendee, comments
    fields := entries.filterMap Entry.field?
    span := ← spanFrom start.start }

def oneof (version : Version) : Parser Oneof := do
  let comments ← comments
  let start ← word "oneof"
  let name ← ident
  let entries ← body .oneofEntry fun
    | .ident "option" => some optionBodyEntry
    | token => hostField? version .oneof token
  let fields := entries.filterMap Entry.field?
  let span ← spanFrom start.start
  check (!fields.isEmpty) (.emptyOneof span)
  return { name, fields, options := entries.filterMap Entry.option?, comments, span }

/-- A message; messages inside it may be nested as deeply as the fuel says. -/
def message (version : Version) : Nat → Parser Message
  | 0 => fail
  | depth + 1 => do
      let comments ← comments
      let start ← word "message"
      let name ← ident
      let entries ← body .messageEntry fun
        | .ident "message" => some do return .item (.message (← message version depth))
        | .ident "enum" => some do return .item (.enum (← enumDeclaration))
        | .ident "extend" => some do return .item (.extend (← extend version))
        | .ident "oneof" => some do return .item (.oneof (← oneof version))
        | .ident "option" => some optionBodyEntry
        | .ident "reserved" => some do return .reserved (← reservedStatement fieldNumber)
        | .ident "extensions" => some do return .extensions (← extensionsStatement)
        | .ident _ => some do return .item (.field (← field version none))
        | .mark .dot => some do return .item (.field (← field version none))
        | _ => none
      return {
        name, comments
        items := entries.filterMap Entry.item?
        options := entries.filterMap Entry.option?
        extensions := entries.filterMap Entry.extensions?
        reserved := entries.filterMap Entry.reserved?
        span := ← spanFrom start.start }

end ProtoSchema.Syntax.Parser
