import ProtoSchema.Model.Identity
import ProtoSchema.Model.OptionValue
import ProtoSchema.Model.Scalar
import ProtoSchema.Model.TagRange
import ProtoSchema.Syntax.Tree
import ProtoSchema.Text.Split
/-!
## Declarations

What a file declares, with full names, and with type references both as written
and as linked. A link is absent only before its file is linked. Full names begin
with a dot. A namespace is a full name with a dot behind it, or a single dot.
-/

namespace ProtoSchema

/-- A line of a file. -/
structure Location where
  file : String
  line : Nat
  deriving DecidableEq, Repr

/-- The file and the line with a colon between them. -/
def Location.text (location : Location) : String :=
  s!"{location.file}:{location.line}"

/-! ### Types -/

/-- The type of a field as written. -/
inductive WrittenType
  | named (name : String)
  | map (key value : String)
  deriving DecidableEq, Repr

def WrittenType.text : WrittenType → String
  | named name => name
  | map key value => s!"map<{key}, {value}>"

inductive ValueType
  | scalar (scalar : ScalarType)
  | message (id : MessageId)
  | enum (id : EnumId)
  deriving DecidableEq, Repr

inductive FieldType
  | value (type : ValueType)
  | map (key : ScalarType) (value : ValueType)
  deriving DecidableEq, Repr

/-! ### Fields -/

/-- How many values a field has. -/
inductive Cardinality
  | optional
  | required
  | repeated
  deriving DecidableEq, Repr

/-- A field of a message or of an extend block. `oneof` is the place of its oneof
among those of the message. -/
structure Field where
  name : String
  written : WrittenType
  type : Option FieldType := none
  number : Int
  cardinality : Cardinality
  oneof : Option Nat := none
  options : Options
  comments : Option String
  location : Location
  span : Span
  typeSpan : Span
  deriving DecidableEq, Repr

structure Oneof where
  name : String
  options : Options
  comments : Option String
  location : Location
  deriving DecidableEq, Repr

/-! ### Messages, enums and extend blocks -/

/-- A message. Its fields include those of its oneofs. `scope` lists the
namespaces in which a name written in the message is looked up, innermost first. -/
structure Message where
  name : String
  fullName : String
  parent : Parent
  scope : List String
  fields : List Field
  oneofs : List Oneof
  messages : List MessageId
  enums : List EnumId
  extensions : List ExtensionId
  extensionRanges : List TagRange
  reservedRanges : List TagRange
  reservedNames : List String
  options : Options
  comments : Option String
  location : Location
  span : Span
  deriving DecidableEq, Repr

namespace Message

/-- Whether the message stands in another message. -/
def isNested (message : Message) : Bool :=
  match message.parent with
  | .file _ => false
  | .message _ => true

/-- The first field with a number. -/
def field? (message : Message) (number : Int) : Option Field :=
  message.fields.find? (·.number == number)

/-- The first field with a name. -/
def fieldNamed? (message : Message) (name : String) : Option Field :=
  message.fields.find? (·.name == name)

/-- Whether a number lies in an extension range. -/
def isExtensionNumber (message : Message) (number : Int) : Bool :=
  message.extensionRanges.any (·.contains number)

end Message

structure EnumValue where
  name : String
  number : Int
  options : Options
  comments : Option String
  location : Location
  deriving DecidableEq, Repr

structure Enum where
  name : String
  fullName : String
  parent : Parent
  values : List EnumValue
  reservedRanges : List TagRange
  reservedNames : List String
  options : Options
  comments : Option String
  location : Location
  span : Span
  deriving DecidableEq, Repr

/-- Whether an enum stands in a message. -/
def Enum.isNested (enum : Enum) : Bool :=
  match enum.parent with
  | .file _ => false
  | .message _ => true

/-- An extend block. Its fields are named in the namespace of what it stands in,
and names written in it are looked up in `scope`. -/
structure Extension where
  writtenExtendee : String
  extendee : Option MessageId := none
  fields : List Field
  namespaceName : String
  parent : Parent
  scope : List String
  comments : Option String
  location : Location
  extendeeSpan : Span
  deriving DecidableEq, Repr

/-- The full name of a field of an extend block. -/
def Extension.fieldFullName (extension : Extension) (field : Field) : String :=
  extension.namespaceName ++ field.name

/-! ### Services -/

structure Method where
  name : String
  writtenInput : String
  writtenOutput : String
  input : Option MessageId := none
  output : Option MessageId := none
  clientStreaming : Bool
  serverStreaming : Bool
  options : Options
  comments : Option String
  location : Location
  inputSpan : Span
  outputSpan : Span
  deriving DecidableEq, Repr

structure Service where
  name : String
  fullName : String
  methods : List Method
  options : Options
  comments : Option String
  location : Location
  span : Span
  deriving DecidableEq, Repr

/-! ### Files -/

/-- Who sees what an import brings in. A weak import is as private as a plain
one. -/
inductive ImportKind
  | plain
  | reexport
  | weak
  deriving DecidableEq, Repr

def ImportKind.text : ImportKind → String
  | plain => "plain"
  | reexport => "public"
  | weak => "weak"

/-- An import statement and the file that it means. -/
structure Import where
  name : String
  kind : ImportKind
  file : Option FileId := none
  span : Span
  deriving DecidableEq, Repr

/-- Whether importers of the importing file see the imported file too. -/
def Import.isReexport (statement : Import) : Bool :=
  statement.kind == .reexport

/-- A file and all its declarations. The lists hold the numbers of the top-level
declarations, the arrays all declarations at any depth. -/
structure ProtoFile where
  id : FileId
  name : String
  package : Option String
  version : Syntax.Version
  imports : List Import
  options : Options
  messages : List MessageId
  enums : List EnumId
  services : List ServiceId
  extensions : List ExtensionId
  allMessages : Array Message
  allEnums : Array Enum
  allServices : Array Service
  allExtensions : Array Extension

/-- The last part of a file's name without its extension. A dot at its beginning
begins no extension. -/
def ProtoFile.shortName (file : ProtoFile) : String :=
  let base := (file.name.toList.reverse.takeWhile (· != '/')).reverse
  let extension := base.reverse.takeWhile (· != '.')
  let stem := base.take (base.length - extension.length - 1)
  String.ofList (if stem.isEmpty then base else stem)

/-- The namespace of a package; a file without a package has a single dot. -/
def packageNamespace : Option String → String
  | some package => "." ++ package ++ "."
  | none => "."

/-- The namespaces of a package and of all packages around it, innermost first. -/
def packageScope : Option String → List String
  | none => ["."]
  | some package =>
      let parts := (Text.split '.' package.toList).map String.ofList
      (parts.foldl
        (fun (scope : List String) part => (scope.headD "." ++ part ++ ".") :: scope) ["."])

example : packageScope (some "a.b") = [".a.b.", ".a.", "."] := by decide +kernel

end ProtoSchema
