import ProtoSchema.Syntax.Parser
/-! # The grammar

The sentences of the schema language, as productions over lexemes, each with the tree
that it stands for. Where two productions begin with the same word, the sentence of one
of them may not begin with certain words.
-/

namespace ProtoSchema.Syntax

/-! ## Places -/

/-- The end of the last of some lexemes, or `stop` if there is none. -/
def stopAfter (stop : Nat) (lexemes : List Lexeme) : Nat :=
  lexemes.foldl (fun _ lexeme => lexeme.span.stop) stop

/-- The beginning of the first of some lexemes, or `start` if there is none. -/
def startBefore (start : Nat) : List Lexeme → Nat
  | [] => start
  | first :: _ => first.span.start

/-- From the beginning of the first lexeme to the end of the last. -/
def spanOf (lexemes : List Lexeme) : Span :=
  ⟨startBefore 0 lexemes, stopAfter 0 lexemes⟩

/-- The comments before the first lexeme. -/
def commentsOf : List Lexeme → Option String
  | [] => none
  | first :: _ =>
      if first.comments.isEmpty then none else some ("\n".intercalate first.comments)

namespace Grammar

/-- Which lexemes stand for which values. -/
abbrev Production (α : Type) : Type :=
  List Lexeme → α → Prop

/-- A sentence begins with one of some words. -/
def Begins (words : List String) (sentence : List Lexeme) : Prop :=
  ∃ lexeme rest, sentence = lexeme :: rest ∧ ∃ word ∈ words, lexeme.token = .ident word

/-! ## Combinations -/

/-- Any number of sentences. -/
inductive Many {α : Type} (element : Production α) : Production (List α)
  | none : Many element [] []
  | more {front back : List Lexeme} {value : α} {values : List α}
      (first : element front value) (rest : Many element back values) :
      Many element (front ++ back) (value :: values)

/-- A sentence after a token. -/
inductive After {α : Type} (token : Token) (inner : Production α) : Production α
  | intro {lexeme : Lexeme} {sentence : List Lexeme} {value : α} (first : lexeme.token = token)
      (rest : inner sentence value) : After token inner (lexeme :: sentence) value

/-- One or more sentences with a token between two of them. -/
inductive Separated {α : Type} (separator : Token) (element : Production α) : Production (List α)
  | intro {front back : List Lexeme} {value : α} {values : List α}
      (first : element front value) (rest : Many (After separator element) back values) :
      Separated separator element (front ++ back) (value :: values)

/-! ## Names and literals -/

inductive Name : Production Ident
  | intro {lexeme : Lexeme} {name : String} (token : lexeme.token = .ident name) :
      Name [lexeme] ⟨name, lexeme.span⟩

/-- Names with dots between them. -/
inductive DottedName : Production Syntax.DottedName
  | intro {front back : List Lexeme} {first : Ident} {rest : List Ident}
      (name : Name front first) (more : Many (After (.mark .dot) Name) back rest) :
      DottedName (front ++ back) ⟨first, rest⟩

/-- A dotted name, before which there may be one more dot. -/
inductive TypeName : Production Syntax.TypeName
  | relative {sentence : List Lexeme} {name : Syntax.DottedName}
      (inner : DottedName sentence name) : TypeName sentence ⟨none, name⟩
  | absolute {dot : Lexeme} {sentence : List Lexeme} {name : Syntax.DottedName}
      (first : dot.token = .mark .dot) (inner : DottedName sentence name) :
      TypeName (dot :: sentence) ⟨some dot.span, name⟩

inductive StringText : Production (String × Span)
  | intro {lexeme : Lexeme} {value : String} (token : lexeme.token = .string value) :
      StringText [lexeme] (value, lexeme.span)

inductive PositiveInt : Production IntLiteral
  | intro {lexeme : Lexeme} {value : Nat} (token : lexeme.token = .int value) :
      PositiveInt [lexeme] ⟨false, value, lexeme.span⟩

inductive SignedInt : Production IntLiteral
  | plain {sentence : List Lexeme} {literal : IntLiteral}
      (inner : PositiveInt sentence literal) : SignedInt sentence literal
  | negative {sign lexeme : Lexeme} {value : Nat} (minus : sign.token = .mark .minus)
      (token : lexeme.token = .int value) :
      SignedInt [sign, lexeme] ⟨true, value, spanOf [sign, lexeme]⟩

/-! ## Ranges -/

/-- A range, the bounds of which are written as numbers of some kind. -/
inductive NumberRange (number : Production IntLiteral) : Production Syntax.NumberRange
  | single {sentence : List Lexeme} {start : IntLiteral} (bound : number sentence start) :
      NumberRange number sentence ⟨start, .single⟩
  | bounded {front back : List Lexeme} {between : Lexeme} {start stop : IntLiteral}
      (lower : number front start) (word : between.token = .ident "to") (upper : number back stop) :
      NumberRange number (front ++ between :: back) ⟨start, .int stop⟩
  | unbounded {front : List Lexeme} {between max : Lexeme} {start : IntLiteral}
      (lower : number front start) (word : between.token = .ident "to")
      (keyword : max.token = .ident "max") :
      NumberRange number (front ++ [between, max]) ⟨start, .max max.span⟩

/-- Ranges with commas between them. -/
abbrev NumberRanges (number : Production IntLiteral) : Production (List Syntax.NumberRange) :=
  Separated (.mark .comma) (NumberRange number)

/-! ## Constants -/

/-- A floating-point value after a sign. -/
def signed (negative : Bool) (value : Binary64) : Binary64 :=
  if negative then value.neg else value

/-- The number that a token stands for after a sign. -/
inductive Magnitude (negative : Bool) (span : Span) : Token → Constant → Prop
  | int (value : Nat) : Magnitude negative span (.int value) (.int ⟨negative, value, span⟩)
  | float (value : Binary64) :
      Magnitude negative span (.float value) (.float (signed negative value) span)
  | infinity : Magnitude negative span (.ident "inf") (.float (signed negative .infinity) span)
  | nan : Magnitude negative span (.ident "nan") (.float (signed negative .nan) span)

/-- A string literal without its place. -/
inductive StringPart : Production String
  | intro {lexeme : Lexeme} {value : String} (token : lexeme.token = .string value) :
      StringPart [lexeme] value

/-- The value of an option. String literals that follow each other make one value. -/
inductive Constant : Production Syntax.Constant
  | ident {sentence : List Lexeme} {name : Syntax.DottedName}
      (inner : DottedName sentence name) : Constant sentence (.ident name)
  | int {lexeme : Lexeme} {value : Nat} (token : lexeme.token = .int value) :
      Constant [lexeme] (.int ⟨false, value, lexeme.span⟩)
  | float {lexeme : Lexeme} {value : Binary64} (token : lexeme.token = .float value) :
      Constant [lexeme] (.float value lexeme.span)
  | plus {sign lexeme : Lexeme} {value : Syntax.Constant} (plus : sign.token = .mark .plus)
      (number : Magnitude false (spanOf [sign, lexeme]) lexeme.token value) :
      Constant [sign, lexeme] value
  | minus {sign lexeme : Lexeme} {value : Syntax.Constant} (minus : sign.token = .mark .minus)
      (number : Magnitude true (spanOf [sign, lexeme]) lexeme.token value) :
      Constant [sign, lexeme] value
  | string {lexeme : Lexeme} {rest : List Lexeme} {value : String} {more : List String}
      (token : lexeme.token = .string value) (parts : Many StringPart rest more) :
      Constant (lexeme :: rest) (.string (String.join (value :: more)) (spanOf (lexeme :: rest)))

/-! ## Options -/

/-- A name, or a dotted name in parentheses, before which there may be one more dot. -/
inductive OptionNamePart : Production String
  | name {lexeme : Lexeme} {name : String} (token : lexeme.token = .ident name) :
      OptionNamePart [lexeme] name
  | extension {open_ close : Lexeme} {sentence : List Lexeme} {name : Syntax.DottedName}
      (opens : open_.token = .mark .leftParen) (inner : DottedName sentence name)
      (closes : close.token = .mark .rightParen) :
      OptionNamePart (open_ :: (sentence ++ [close])) ("(" ++ "" ++ name.text ++ ")")
  | absolute {open_ dot close : Lexeme} {sentence : List Lexeme} {name : Syntax.DottedName}
      (opens : open_.token = .mark .leftParen) (first : dot.token = .mark .dot)
      (inner : DottedName sentence name) (closes : close.token = .mark .rightParen) :
      OptionNamePart (open_ :: dot :: (sentence ++ [close])) ("(" ++ "." ++ name.text ++ ")")

/-- The name of an option with its value. -/
inductive OptionEntry : Production Syntax.OptionEntry
  | intro {front back : List Lexeme} {equals : Lexeme} {parts : List String}
      {value : Syntax.Constant} (name : Separated (.mark .dot) OptionNamePart front parts)
      (sign : equals.token = .mark .equals) (inner : Constant back value) :
      OptionEntry (front ++ equals :: back)
        ⟨".".intercalate parts, spanOf front, value, spanOf (front ++ equals :: back)⟩

inductive OptionStatement : Production Syntax.OptionEntry
  | intro {keyword close : Lexeme} {sentence : List Lexeme} {entry : Syntax.OptionEntry}
      (word : keyword.token = .ident "option") (inner : OptionEntry sentence entry)
      (closes : close.token = .mark .semicolon) :
      OptionStatement (keyword :: (sentence ++ [close]))
        { entry with span := spanOf (keyword :: (sentence ++ [close])) }

/-- Options in brackets. -/
inductive OptionList : Production (List Syntax.OptionEntry)
  | intro {open_ close : Lexeme} {sentence : List Lexeme} {entries : List Syntax.OptionEntry}
      (opens : open_.token = .mark .leftBracket)
      (inner : Separated (.mark .comma) OptionEntry sentence entries)
      (closes : close.token = .mark .rightBracket) :
      OptionList (open_ :: (sentence ++ [close])) entries

/-- Options in brackets, or nothing. -/
inductive Options : Production (List Syntax.OptionEntry)
  | none : Options [] []
  | list {sentence : List Lexeme} {entries : List Syntax.OptionEntry}
      (inner : OptionList sentence entries) : Options sentence entries

/-! ## Fields -/

inductive Label : Production (Option (FieldLabel × Span))
  | none : Label [] none
  | optional {lexeme : Lexeme} (word : lexeme.token = .ident "optional") :
      Label [lexeme] (some (.optional, lexeme.span))
  | required {lexeme : Lexeme} (word : lexeme.token = .ident "required") :
      Label [lexeme] (some (.required, lexeme.span))
  | repeated {lexeme : Lexeme} (word : lexeme.token = .ident "repeated") :
      Label [lexeme] (some (.repeated, lexeme.span))

/-- The type of a field. The word `group` cannot begin it. -/
inductive FieldType : Production Syntax.FieldType
  | named {sentence : List Lexeme} {name : Syntax.TypeName} (inner : TypeName sentence name)
      (allowed : ¬Begins ["group"] sentence) : FieldType sentence (.named name)
  | map {keyword open_ comma close : Lexeme} {front back : List Lexeme}
      {key value : Syntax.TypeName} (word : keyword.token = .ident "map")
      (opens : open_.token = .mark .leftAngle) (left : TypeName front key)
      (separates : comma.token = .mark .comma) (right : TypeName back value)
      (closes : close.token = .mark .rightAngle) :
      FieldType (keyword :: open_ :: (front ++ comma :: (back ++ [close])))
        (.map key value (spanOf (keyword :: open_ :: (front ++ comma :: (back ++ [close])))))

/-- A field with its semicolon. The type of a field without a label cannot begin with a
label. -/
inductive Field : Production Syntax.Field
  | intro {labelled typed named numbered listed : List Lexeme} {equals close : Lexeme}
      {label : Option (FieldLabel × Span)} {type : Syntax.FieldType} {name : Ident}
      {number : IntLiteral} {options : List Syntax.OptionEntry}
      (first : Label labelled label) (kind : FieldType typed type)
      (unlabelled : label = none → ¬Begins ["optional", "required", "repeated"] typed)
      (called : Name named name) (sign : equals.token = .mark .equals)
      (value : PositiveInt numbered number) (list : Options listed options)
      (closes : close.token = .mark .semicolon)
      {sentence : List Lexeme}
      (whole : sentence =
        labelled ++ (typed ++ (named ++ equals :: (numbered ++ (listed ++ [close]))))) :
      Field sentence
        { label, type, name, number, options
          comments := commentsOf sentence
          span := spanOf sentence }

/-! ## Bodies -/

/-- An entry of a body, or a semicolon that stands for nothing. -/
inductive Element (entry : Production Parser.Entry) : Production Parser.Entry
  | blank {lexeme : Lexeme} (token : lexeme.token = .mark .semicolon) :
      Element entry [lexeme] .blank
  | entry {sentence : List Lexeme} {value : Parser.Entry} (inner : entry sentence value) :
      Element entry sentence value

/-- Entries in braces. -/
inductive Body (entry : Production Parser.Entry) : Production (List Parser.Entry)
  | intro {open_ close : Lexeme} {sentence : List Lexeme} {entries : List Parser.Entry}
      (opens : open_.token = .mark .leftBrace) (inner : Many (Element entry) sentence entries)
      (closes : close.token = .mark .rightBrace) :
      Body entry (open_ :: (sentence ++ [close])) entries

/-! ## Reserved numbers and names -/

/-- A name in quotes. -/
inductive QuotedName : Production Ident
  | intro {sentence : List Lexeme} {value : String} {span : Span}
      (inner : StringText sentence (value, span)) : QuotedName sentence ⟨value, span⟩

/-- A `reserved` statement, the numbers of which are of some kind. -/
inductive ReservedStatement (number : Production IntLiteral) : Production Reserved
  | ranges {keyword close : Lexeme} {sentence : List Lexeme} {ranges : List Syntax.NumberRange}
      (word : keyword.token = .ident "reserved") (inner : NumberRanges number sentence ranges)
      (closes : close.token = .mark .semicolon) :
      ReservedStatement number (keyword :: (sentence ++ [close])) (.ranges ranges)
  | names {keyword close : Lexeme} {sentence : List Lexeme} {names : List Ident}
      (word : keyword.token = .ident "reserved")
      (inner : Separated (.mark .comma) QuotedName sentence names)
      (closes : close.token = .mark .semicolon) :
      ReservedStatement number (keyword :: (sentence ++ [close])) (.names names)

inductive ExtensionsStatement : Production ExtensionRanges
  | intro {keyword close : Lexeme} {front back : List Lexeme}
      {ranges : List Syntax.NumberRange} {options : List Syntax.OptionEntry}
      (word : keyword.token = .ident "extensions") (inner : NumberRanges PositiveInt front ranges)
      (list : Options back options) (closes : close.token = .mark .semicolon) :
      ExtensionsStatement (keyword :: (front ++ (back ++ [close])))
        ⟨ranges, options, spanOf (keyword :: (front ++ (back ++ [close])))⟩

/-! ## Enums -/

inductive EnumValue : Production Syntax.EnumValue
  | intro {named numbered listed : List Lexeme} {equals close : Lexeme} {name : Ident}
      {number : IntLiteral} {options : List Syntax.OptionEntry} (called : Name named name)
      (sign : equals.token = .mark .equals) (value : SignedInt numbered number)
      (list : Options listed options) (closes : close.token = .mark .semicolon)
      {sentence : List Lexeme}
      (whole : sentence = named ++ equals :: (numbered ++ (listed ++ [close]))) :
      EnumValue sentence
        { name, number, options, comments := commentsOf sentence, span := spanOf sentence }

inductive EnumEntry : Production Parser.Entry
  | option {sentence : List Lexeme} {option : Syntax.OptionEntry}
      (inner : OptionStatement sentence option) : EnumEntry sentence (.option option)
  | reserved {sentence : List Lexeme} {reserved : Reserved}
      (inner : ReservedStatement SignedInt sentence reserved) :
      EnumEntry sentence (.reserved reserved)
  | value {sentence : List Lexeme} {value : Syntax.EnumValue} (inner : EnumValue sentence value)
      (allowed : ¬Begins ["option", "reserved"] sentence) : EnumEntry sentence (.value value)

inductive Enum : Production Syntax.Enum
  | intro {keyword : Lexeme} {named inside : List Lexeme} {name : Ident}
      {entries : List Parser.Entry} (word : keyword.token = .ident "enum")
      (called : Name named name) (body : Body EnumEntry inside entries)
      {sentence : List Lexeme} (whole : sentence = keyword :: (named ++ inside)) :
      Enum sentence
        { name
          values := entries.filterMap Parser.Entry.value?
          options := entries.filterMap Parser.Entry.option?
          reserved := entries.filterMap Parser.Entry.reserved?
          comments := commentsOf sentence
          span := spanOf sentence }

/-! ## Services -/

/-- The type of a method in parentheses, and whether it is streamed. Without the word
`stream` the type cannot begin with it. -/
inductive MethodType : Production (Syntax.TypeName × Bool)
  | single {open_ close : Lexeme} {sentence : List Lexeme} {type : Syntax.TypeName}
      (opens : open_.token = .mark .leftParen) (inner : TypeName sentence type)
      (allowed : ¬Begins ["stream"] sentence) (closes : close.token = .mark .rightParen) :
      MethodType (open_ :: (sentence ++ [close])) (type, false)
  | streamed {open_ keyword close : Lexeme} {sentence : List Lexeme} {type : Syntax.TypeName}
      (opens : open_.token = .mark .leftParen) (word : keyword.token = .ident "stream")
      (inner : TypeName sentence type) (closes : close.token = .mark .rightParen) :
      MethodType (open_ :: keyword :: (sentence ++ [close])) (type, true)

inductive MethodEntry : Production Parser.Entry
  | option {sentence : List Lexeme} {option : Syntax.OptionEntry}
      (inner : OptionStatement sentence option) : MethodEntry sentence (.option option)

/-- What a method ends with: a semicolon, or options in braces. -/
inductive MethodEnd : Production (List Syntax.OptionEntry)
  | plain {lexeme : Lexeme} (token : lexeme.token = .mark .semicolon) : MethodEnd [lexeme] []
  | body {sentence : List Lexeme} {entries : List Parser.Entry}
      (inner : Body MethodEntry sentence entries) :
      MethodEnd sentence (entries.filterMap Parser.Entry.option?)

inductive Method : Production Syntax.Method
  | intro {keyword returns : Lexeme} {named taken given ended : List Lexeme} {name : Ident}
      {input output : Syntax.TypeName} {clientStreaming serverStreaming : Bool}
      {options : List Syntax.OptionEntry} (word : keyword.token = .ident "rpc")
      (called : Name named name) (takes : MethodType taken (input, clientStreaming))
      (between : returns.token = .ident "returns")
      (gives : MethodType given (output, serverStreaming)) (ends : MethodEnd ended options)
      {sentence : List Lexeme}
      (whole : sentence = keyword :: (named ++ (taken ++ returns :: (given ++ ended)))) :
      Method sentence
        { name, input, output, clientStreaming, serverStreaming, options
          comments := commentsOf sentence
          span := spanOf sentence }

inductive ServiceEntry : Production Parser.Entry
  | method {sentence : List Lexeme} {method : Syntax.Method} (inner : Method sentence method) :
      ServiceEntry sentence (.method method)
  | option {sentence : List Lexeme} {option : Syntax.OptionEntry}
      (inner : OptionStatement sentence option) : ServiceEntry sentence (.option option)

inductive Service : Production Syntax.Service
  | intro {keyword : Lexeme} {named inside : List Lexeme} {name : Ident}
      {entries : List Parser.Entry} (word : keyword.token = .ident "service")
      (called : Name named name) (body : Body ServiceEntry inside entries)
      {sentence : List Lexeme} (whole : sentence = keyword :: (named ++ inside)) :
      Service sentence
        { name
          methods := entries.filterMap Parser.Entry.method?
          options := entries.filterMap Parser.Entry.option?
          comments := commentsOf sentence
          span := spanOf sentence }

/-! ## Messages and what they hold -/

inductive ExtendEntry : Production Parser.Entry
  | field {sentence : List Lexeme} {field : Syntax.Field} (inner : Field sentence field) :
      ExtendEntry sentence (.field field)

inductive Extend : Production Syntax.Extend
  | intro {keyword : Lexeme} {typed inside : List Lexeme} {extendee : Syntax.TypeName}
      {entries : List Parser.Entry} (word : keyword.token = .ident "extend")
      (extended : TypeName typed extendee) (body : Body ExtendEntry inside entries)
      {sentence : List Lexeme} (whole : sentence = keyword :: (typed ++ inside)) :
      Extend sentence
        { extendee
          fields := entries.filterMap Parser.Entry.field?
          comments := commentsOf sentence
          span := spanOf sentence }

inductive OneofEntry : Production Parser.Entry
  | option {sentence : List Lexeme} {option : Syntax.OptionEntry}
      (inner : OptionStatement sentence option) : OneofEntry sentence (.option option)
  | field {sentence : List Lexeme} {field : Syntax.Field} (inner : Field sentence field)
      (allowed : ¬Begins ["option"] sentence) : OneofEntry sentence (.field field)

inductive Oneof : Production Syntax.Oneof
  | intro {keyword : Lexeme} {named inside : List Lexeme} {name : Ident}
      {entries : List Parser.Entry} (word : keyword.token = .ident "oneof")
      (called : Name named name) (body : Body OneofEntry inside entries)
      {sentence : List Lexeme} (whole : sentence = keyword :: (named ++ inside)) :
      Oneof sentence
        { name
          fields := entries.filterMap Parser.Entry.field?
          options := entries.filterMap Parser.Entry.option?
          comments := commentsOf sentence
          span := spanOf sentence }

/-- The words that begin an entry of a message other than a field. -/
def messageKeywords : List String :=
  ["message", "enum", "extend", "oneof", "option", "reserved", "extensions"]

mutual

inductive Message : Production Syntax.Message
  | intro {keyword : Lexeme} {named inside : List Lexeme} {name : Ident}
      {entries : List Parser.Entry} (word : keyword.token = .ident "message")
      (called : Name named name) (body : Body MessageEntry inside entries)
      {sentence : List Lexeme} (whole : sentence = keyword :: (named ++ inside)) :
      Message sentence
        { name
          items := entries.filterMap Parser.Entry.item?
          options := entries.filterMap Parser.Entry.option?
          extensions := entries.filterMap Parser.Entry.extensions?
          reserved := entries.filterMap Parser.Entry.reserved?
          comments := commentsOf sentence
          span := spanOf sentence }

inductive MessageEntry : Production Parser.Entry
  | message {sentence : List Lexeme} {message : Syntax.Message}
      (inner : Message sentence message) : MessageEntry sentence (.item (.message message))
  | enum {sentence : List Lexeme} {enum : Syntax.Enum} (inner : Enum sentence enum) :
      MessageEntry sentence (.item (.enum enum))
  | extend {sentence : List Lexeme} {extend : Syntax.Extend} (inner : Extend sentence extend) :
      MessageEntry sentence (.item (.extend extend))
  | oneof {sentence : List Lexeme} {oneof : Syntax.Oneof} (inner : Oneof sentence oneof) :
      MessageEntry sentence (.item (.oneof oneof))
  | option {sentence : List Lexeme} {option : Syntax.OptionEntry}
      (inner : OptionStatement sentence option) : MessageEntry sentence (.option option)
  | reserved {sentence : List Lexeme} {reserved : Reserved}
      (inner : ReservedStatement PositiveInt sentence reserved) :
      MessageEntry sentence (.reserved reserved)
  | extensions {sentence : List Lexeme} {extensions : ExtensionRanges}
      (inner : ExtensionsStatement sentence extensions) :
      MessageEntry sentence (.extensions extensions)
  | field {sentence : List Lexeme} {field : Syntax.Field} (inner : Field sentence field)
      (allowed : ¬Begins messageKeywords sentence) :
      MessageEntry sentence (.item (.field field))

end

/-! ## Files -/

/-- The statement that tells the version: the version as written, and the place. -/
inductive VersionStatement : Production (String × Span)
  | intro {keyword equals version close : Lexeme} {name : String}
      (word : keyword.token = .ident "syntax") (sign : equals.token = .mark .equals)
      (text : version.token = .string name) (closes : close.token = .mark .semicolon) :
      VersionStatement [keyword, equals, version, close]
        (name, spanOf [keyword, equals, version, close])

inductive PackageStatement : Production Package
  | intro {keyword close : Lexeme} {sentence : List Lexeme} {name : Syntax.DottedName}
      (word : keyword.token = .ident "package") (inner : DottedName sentence name)
      (closes : close.token = .mark .semicolon) :
      PackageStatement (keyword :: (sentence ++ [close]))
        ⟨name, spanOf (keyword :: (sentence ++ [close]))⟩

/-- The word between `import` and the name of the file. -/
inductive Modifier : Production (Option ImportModifier)
  | none : Modifier [] none
  | weak {lexeme : Lexeme} (word : lexeme.token = .ident "weak") :
      Modifier [lexeme] (some .weak)
  | reexport {lexeme : Lexeme} (word : lexeme.token = .ident "public") :
      Modifier [lexeme] (some .reexport)

inductive ImportStatement : Production Import
  | intro {keyword close : Lexeme} {front back : List Lexeme}
      {modifier : Option ImportModifier} {file : String} {fileSpan : Span}
      (word : keyword.token = .ident "import") (how : Modifier front modifier)
      (text : StringText back (file, fileSpan)) (closes : close.token = .mark .semicolon) :
      ImportStatement (keyword :: (front ++ (back ++ [close])))
        ⟨modifier, file, fileSpan, spanOf (keyword :: (front ++ (back ++ [close])))⟩

inductive Statement : Production Parser.Statement
  | blank {lexeme : Lexeme} (token : lexeme.token = .mark .semicolon) :
      Statement [lexeme] .blank
  | import_ {sentence : List Lexeme} {statement : Import}
      (inner : ImportStatement sentence statement) : Statement sentence (.import_ statement)
  | package {sentence : List Lexeme} {package : Package}
      (inner : PackageStatement sentence package) : Statement sentence (.package package)
  | option {sentence : List Lexeme} {option : Syntax.OptionEntry}
      (inner : OptionStatement sentence option) : Statement sentence (.option option)
  | message {sentence : List Lexeme} {message : Syntax.Message}
      (inner : Message sentence message) : Statement sentence (.item (.message message))
  | enum {sentence : List Lexeme} {enum : Syntax.Enum} (inner : Enum sentence enum) :
      Statement sentence (.item (.enum enum))
  | service {sentence : List Lexeme} {service : Syntax.Service}
      (inner : Service sentence service) : Statement sentence (.item (.service service))
  | extend {sentence : List Lexeme} {extend : Syntax.Extend} (inner : Extend sentence extend) :
      Statement sentence (.item (.extend extend))

end Grammar

/-- The statements of a file as they are written. The first of them may tell the
version. -/
structure Outline where
  version : Option (String × Span)
  statements : List Parser.Statement

namespace Parser.Statement

def package? : Statement → Option Package
  | package statement => some statement
  | _ => none

def import? : Statement → Option Import
  | import_ statement => some statement
  | _ => none

def option? : Statement → Option OptionEntry
  | option statement => some statement
  | _ => none

def item? : Statement → Option FileItem
  | item statement => some statement
  | _ => none

end Parser.Statement

/-- The version that a name stands for. Any other name counts as proto2. -/
def Version.ofName (name : String) : Version :=
  if name = "proto3" then .proto3 else .proto2

namespace Outline

def fileVersion (outline : Outline) : Version :=
  (outline.version.map fun version => Version.ofName version.1).getD .proto2

/-- The tree of a file: its statements sorted by kind, in the order in which they are
written. Of several package statements the first one counts. -/
def file (outline : Outline) : File :=
  { version := outline.fileVersion
    versionSpan := outline.version.map (·.2)
    package := (outline.statements.filterMap Parser.Statement.package?).head?
    imports := outline.statements.filterMap Parser.Statement.import?
    options := outline.statements.filterMap Parser.Statement.option?
    items := outline.statements.filterMap Parser.Statement.item? }

end Outline

/-- A file: any number of statements, which one with the version may precede. -/
inductive Grammar.Source : Grammar.Production Outline
  | plain {sentence : List Lexeme} {statements : List Parser.Statement}
      (inner : Many Statement sentence statements) : Source sentence ⟨none, statements⟩
  | versioned {front back : List Lexeme} {version : String × Span}
      {statements : List Parser.Statement} (first : VersionStatement front version)
      (inner : Many Statement back statements) :
      Source (front ++ back) ⟨some version, statements⟩

end ProtoSchema.Syntax
