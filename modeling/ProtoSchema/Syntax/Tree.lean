import ProtoSchema.Syntax.Error
/-!
## Syntax trees

The tree of one source. Type names are kept as written; whether a name means a
scalar, a message or an enum is decided when the tree is linked.
-/

namespace ProtoSchema.Syntax

/-! ### Names -/

structure Ident where
  name : String
  span : Span
  deriving DecidableEq, Repr

structure DottedName where
  first : Ident
  rest : List Ident
  deriving DecidableEq, Repr

namespace DottedName

def parts (name : DottedName) : List Ident :=
  name.first :: name.rest

def last (name : DottedName) : Ident :=
  name.rest.getLastD name.first

/-- The name as written, without white space. -/
def text (name : DottedName) : String :=
  ".".intercalate (name.parts.map Ident.name)

/-- From the first identifier to the last. -/
def span (name : DottedName) : Span :=
  name.first.span.through name.last.span

end DottedName

/-- The name of a type; a leading dot makes it absolute. -/
structure TypeName where
  leadingDot : Option Span
  name : DottedName
  deriving DecidableEq, Repr

namespace TypeName

/-- The name as written, without white space. -/
def text (typeName : TypeName) : String :=
  match typeName.leadingDot with
  | some _ => "." ++ typeName.name.text
  | none => typeName.name.text

/-- The span of the name with its leading dot. -/
def span (typeName : TypeName) : Span :=
  match typeName.leadingDot with
  | some dot => dot.through typeName.name.span
  | none => typeName.name.span

end TypeName

/-! ### Values -/

/-- An integer with an optional sign. -/
structure IntLiteral where
  negative : Bool
  magnitude : Nat
  span : Span
  deriving DecidableEq, Repr

namespace IntLiteral

def value (literal : IntLiteral) : Int :=
  if literal.negative then -literal.magnitude else literal.magnitude

/-- The number in decimal digits. A zero keeps its sign. -/
def text (literal : IntLiteral) : String :=
  (if literal.negative then "-" else "") ++ toString literal.magnitude

end IntLiteral

inductive Constant
  | ident (name : DottedName)
  | int (literal : IntLiteral)
  | float (value : Binary64) (span : Span)
  | string (value : String) (span : Span)
  deriving DecidableEq, Repr

/-- The value as events show it. -/
def Constant.text : Constant → String
  | ident name => name.text
  | int literal => literal.text
  | float value _ => value.constantText
  | string value _ => Text.quote value

/-- An option with its value, as a statement or in a list. The name is written
without white space, such as `(my.extension).field`. -/
structure OptionEntry where
  name : String
  nameSpan : Span
  value : Constant
  span : Span
  deriving DecidableEq, Repr

/-! ### Ranges -/

/-- The end of a range: left out, a number, or the keyword `max`. -/
inductive RangeEnd
  | single
  | int (literal : IntLiteral)
  | max (span : Span)
  deriving DecidableEq, Repr

structure NumberRange where
  start : IntLiteral
  stop : RangeEnd
  deriving DecidableEq, Repr

inductive Reserved
  | ranges (ranges : List NumberRange)
  | names (names : List Ident)
  deriving DecidableEq, Repr

structure ExtensionRanges where
  ranges : List NumberRange
  options : List OptionEntry
  span : Span
  deriving DecidableEq, Repr

/-! ### Fields -/

inductive FieldLabel
  | optional
  | required
  | repeated
  deriving DecidableEq, Repr

/-- The type of a field as written. -/
inductive FieldType
  | named (name : TypeName)
  | map (key value : TypeName) (span : Span)
  deriving DecidableEq, Repr

namespace FieldType

/-- The type as written, white space aside. -/
def text : FieldType → String
  | named name => name.text
  | map key value _ => "map<" ++ key.text ++ ", " ++ value.text ++ ">"

def span : FieldType → Span
  | named name => name.span
  | map _ _ span => span

/-- Whether the type is written with `map`. -/
def isMap : FieldType → Bool
  | named _ => false
  | map .. => true

end FieldType

/-- A field of a message, a oneof or an extend block. -/
structure Field where
  label : Option (FieldLabel × Span)
  type : FieldType
  name : Ident
  number : IntLiteral
  options : List OptionEntry
  comments : Option String
  span : Span
  deriving DecidableEq, Repr

/-! ### Declarations -/

structure Oneof where
  name : Ident
  fields : List Field
  options : List OptionEntry
  comments : Option String
  span : Span
  deriving DecidableEq, Repr

structure Extend where
  extendee : TypeName
  fields : List Field
  comments : Option String
  span : Span
  deriving DecidableEq, Repr

structure EnumValue where
  name : Ident
  number : IntLiteral
  options : List OptionEntry
  comments : Option String
  span : Span
  deriving DecidableEq, Repr

structure Enum where
  name : Ident
  values : List EnumValue
  options : List OptionEntry
  reserved : List Reserved
  comments : Option String
  span : Span
  deriving DecidableEq, Repr

structure Method where
  name : Ident
  input : TypeName
  output : TypeName
  clientStreaming : Bool
  serverStreaming : Bool
  options : List OptionEntry
  comments : Option String
  span : Span
  deriving DecidableEq, Repr

structure Service where
  name : Ident
  methods : List Method
  options : List OptionEntry
  comments : Option String
  span : Span
  deriving DecidableEq, Repr

mutual

/-- A message with the declarations inside it. -/
structure Message where
  name : Ident
  items : List MessageItem
  options : List OptionEntry
  extensions : List ExtensionRanges
  reserved : List Reserved
  comments : Option String
  span : Span

inductive MessageItem
  | field (field : Field)
  | oneof (oneof : Oneof)
  | message (message : Message)
  | enum (enum : Enum)
  | extend (extend : Extend)

end

/-! ### Files -/

inductive Version
  | proto2
  | proto3
  deriving DecidableEq, Repr, Inhabited

def Version.text : Version → String
  | proto2 => "proto2"
  | proto3 => "proto3"

/-- The word between `import` and the file name. -/
inductive ImportModifier
  | reexport
  | weak
  deriving DecidableEq, Repr

/-- An `import` statement. The inner span is that of the quoted file name. -/
structure Import where
  modifier : Option ImportModifier
  file : String
  fileSpan : Span
  span : Span
  deriving DecidableEq, Repr

structure Package where
  name : DottedName
  span : Span
  deriving DecidableEq, Repr

inductive FileItem
  | message (message : Message)
  | enum (enum : Enum)
  | service (service : Service)
  | extend (extend : Extend)

/-- The tree of a file. Without a `syntax` statement the version is proto2. -/
structure File where
  version : Version
  versionSpan : Option Span
  package : Option Package
  imports : List Import
  options : List OptionEntry
  items : List FileItem

/-- The file without statements other than its version. -/
def File.empty (version : Version := .proto2) (versionSpan : Option Span := none) : File :=
  { version, versionSpan, package := none, imports := [], options := [], items := [] }

end ProtoSchema.Syntax
