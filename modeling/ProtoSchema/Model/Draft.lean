import ProtoSchema.Model.Declaration
import ProtoSchema.Text.Position
/-!
## Drafts

The model of a file before it is linked, drawn up from its tree in one pass. A
draft also lists, in the order in which later stages need them, the full names
that the file declares and the names by which it refers to types.

A declaration gets its number when its body ends, so that messages inside a
message come before it. The number of a message is known beforehand all the
same: it follows from the count of messages inside.
-/

namespace ProtoSchema

/-! ### Names and references -/

/-- A full name that a file declares, and the span of the short name in it. -/
structure DeclaredName where
  fullName : String
  target : UserType
  span : Span
  deriving DecidableEq, Repr

inductive Direction
  | input
  | output
  deriving DecidableEq, Repr

/-- What a type is referred to as. -/
inductive ReferenceRole
  | method (direction : Direction) (written : String)
  | extendee (written : String)
  | field (written : WrittenType)
  deriving DecidableEq, Repr

/-- A reference to a type, the namespaces in which it is looked up, innermost
first, and its span. -/
structure Reference where
  role : ReferenceRole
  scope : List String
  span : Span
  deriving DecidableEq, Repr

/-- A model with the names it declares and the references in it. -/
structure Draft where
  file : ProtoFile
  names : List DeclaredName
  references : List Reference

namespace Draft

/-! ### Parts of declarations -/

/-- The value of an option. A negative whole number that 64 bits cannot hold is
rounded to a floating-point number. -/
def optionValue : Syntax.Constant → OptionValue
  | .ident name =>
      match name.text with
      | "true" => .bool true
      | "false" => .bool false
      | text => .ident text
  | .int literal =>
      if literal.negative then
        if 2 * literal.magnitude ≤ UInt64.size then .signed literal.value
        else .float (Binary64.ofNat literal.magnitude).neg
      else .unsigned literal.magnitude
  | .float value _ => .float value
  | .string value _ => .string value

/-- Options in the order in which they are written. -/
def options (entries : List Syntax.OptionEntry) : Options :=
  ⟨entries.map fun entry => (entry.name, optionValue entry.value)⟩

/-- The number that a literal stands for in a model. Numbers of models have 32 bits; for
a value that these cannot hold the nearest one is taken. -/
def narrow (literal : Syntax.IntLiteral) : Int :=
  max (-2147483648) (min literal.value 2147483647)

/-- A range of numbers. A single number is a range of its own. -/
def tagRange (range : Syntax.NumberRange) : TagRange :=
  match range.stop with
  | .single => ⟨narrow range.start, narrow range.start⟩
  | .int literal => ⟨narrow range.start, narrow literal⟩
  | .max _ => ⟨narrow range.start, maxTag⟩

def reservedRanges (statements : List Syntax.Reserved) : List TagRange :=
  statements.flatMap fun
    | .ranges ranges => ranges.map tagRange
    | .names _ => []

def reservedNames (statements : List Syntax.Reserved) : List String :=
  statements.flatMap fun
    | .ranges _ => []
    | .names names => names.map Syntax.Ident.name

/-- A field. The values of a map are repeated, and those of a field without a label
are optional. -/
def field (locate : Span → Location) (field : Syntax.Field) : Field :=
  { name := field.name.name
    written :=
      match field.type with
      | .named name => .named name.text
      | .map key value _ => .map key.text value.text
    number := narrow field.number
    cardinality :=
      if field.type.isMap then .repeated
      else
        match field.label with
        | some (.required, _) => .required
        | some (.repeated, _) => .repeated
        | some (.optional, _) | none => .optional
    options := options field.options
    comments := field.comments
    location := locate field.span
    span := field.name.span
    typeSpan := field.type.span }

def fieldReference (scope : List String) (field : Field) : Reference :=
  ⟨.field field.written, scope, field.typeSpan⟩

/-- The references of an extend block: the message it extends, then its fields. -/
def extensionReferences (extension : Extension) : List Reference :=
  ⟨.extendee extension.writtenExtendee, extension.scope, extension.extendeeSpan⟩ ::
    extension.fields.map (fieldReference extension.scope)

def methodReferences (scope : List String) (method : Method) : List Reference :=
  [⟨.method .input method.writtenInput, scope, method.inputSpan⟩,
    ⟨.method .output method.writtenOutput, scope, method.outputSpan⟩]

/-! ### Nested declarations -/

mutual

/-- The number of messages that a message consists of, itself included. -/
def messageCount : Syntax.Message → Nat
  | ⟨_, items, _, _, _, _, _⟩ => messageCountOfAll items + 1

/-- The number of messages in a declaration. -/
def messageCountOfItem : Syntax.MessageItem → Nat
  | .message declared => messageCount declared
  | .field _ | .oneof _ | .enum _ | .extend _ => 0

/-- The number of messages in declarations that follow each other. -/
def messageCountOfAll : List Syntax.MessageItem → Nat
  | [] => 0
  | item :: items => messageCountOfItem item + messageCountOfAll items

end

/-- Where a declaration stands: what it stands in, the namespace of its full name,
and the namespaces in which names in it are looked up. -/
structure Place where
  parent : Parent
  namespaceName : String
  scope : List String

def Place.inside (place : Place) (id : MessageId) (name : String) : Place :=
  let namespaceName := place.namespaceName ++ name ++ "."
  { parent := .message id, namespaceName, scope := namespaceName :: place.scope }

/-- The declarations of a file that have a number already. -/
structure Numbered where
  messages : Array Message := #[]
  enums : Array Enum := #[]
  extensions : Array Extension := #[]

/-- What has been met so far in a message or at the top level of a file. The full
name of each message comes with the full names inside it. -/
structure Contents where
  fields : List Field := []
  oneofs : List Oneof := []
  messages : List MessageId := []
  enums : List EnumId := []
  extensions : List ExtensionId := []
  messageNames : List (DeclaredName × List DeclaredName) := []
  enumNames : List DeclaredName := []
  extensionReferences : List Reference := []
  messageReferences : List Reference := []

/-- The full names declared in a message: its enums, then each message with the
names inside it. -/
def Contents.nestedNames (contents : Contents) : List DeclaredName :=
  contents.enumNames ++ contents.messageNames.flatMap fun (own, inner) => own :: inner

/-- What a file is drawn up from besides its tree. -/
structure Source where
  file : FileId
  locate : Span → Location

def addOneof (source : Source) (oneof : Syntax.Oneof) (contents : Contents) : Contents :=
  let position := contents.oneofs.length
  let fields := oneof.fields.map fun declared =>
    { field source.locate declared with oneof := some position }
  { contents with
    oneofs := contents.oneofs ++
      [{ name := oneof.name.name
         options := options oneof.options
         comments := oneof.comments
         location := source.locate oneof.span }]
    fields := contents.fields ++ fields }

def enumValue (source : Source) (value : Syntax.EnumValue) : EnumValue :=
  { name := value.name.name
    number := narrow value.number
    options := options value.options
    comments := value.comments
    location := source.locate value.span }

def addEnum (source : Source) (place : Place) (enum : Syntax.Enum)
    (state : Contents × Numbered) : Contents × Numbered :=
  let (contents, numbered) := state
  let id : EnumId := ⟨source.file, numbered.enums.size⟩
  let fullName := place.namespaceName ++ enum.name.name
  let declared : Enum :=
    { name := enum.name.name
      fullName
      parent := place.parent
      values := enum.values.map (enumValue source)
      reservedRanges := reservedRanges enum.reserved
      reservedNames := reservedNames enum.reserved
      options := options enum.options
      comments := enum.comments
      location := source.locate enum.span
      span := enum.name.span }
  ({ contents with
      enums := contents.enums ++ [id]
      enumNames := contents.enumNames ++ [⟨fullName, .enum id, enum.name.span⟩] },
    { numbered with enums := numbered.enums.push declared })

def addExtend (source : Source) (place : Place) (extend : Syntax.Extend)
    (state : Contents × Numbered) : Contents × Numbered :=
  let (contents, numbered) := state
  let id : ExtensionId := ⟨source.file, numbered.extensions.size⟩
  let declared : Extension :=
    { writtenExtendee := extend.extendee.text
      fields := extend.fields.map (field source.locate)
      namespaceName := place.namespaceName
      parent := place.parent
      scope := place.scope
      comments := extend.comments
      location := source.locate extend.span
      extendeeSpan := extend.extendee.span }
  ({ contents with
      extensions := contents.extensions ++ [id]
      extensionReferences := contents.extensionReferences ++ extensionReferences declared },
    { numbered with extensions := numbered.extensions.push declared })

/-- A message of which the contents have been added. -/
def message (source : Source) (place : Place) (scope : List String) (message : Syntax.Message)
    (contents : Contents) : Message :=
  { name := message.name.name
    fullName := place.namespaceName ++ message.name.name
    parent := place.parent
    scope
    fields := contents.fields
    oneofs := contents.oneofs
    messages := contents.messages
    enums := contents.enums
    extensions := contents.extensions
    extensionRanges := message.extensions.flatMap fun statement => statement.ranges.map tagRange
    reservedRanges := reservedRanges message.reserved
    reservedNames := reservedNames message.reserved
    options := options message.options
    comments := message.comments
    location := source.locate message.span
    span := message.name.span }

mutual

/-- Adds a message. Everything inside it is added first. -/
def addMessage (source : Source) (place : Place) :
    Syntax.Message → Contents × Numbered → Contents × Numbered
  | ⟨name, items, entries, extensions, reserved, comments, span⟩, (contents, numbered) =>
      let id : MessageId := ⟨source.file, numbered.messages.size + messageCountOfAll items⟩
      let inside := place.inside id name.name
      let (inner, numbered) := addItems source inside items ({}, numbered)
      let declared := message source place inside.scope
        ⟨name, items, entries, extensions, reserved, comments, span⟩ inner
      let ownName : DeclaredName := ⟨declared.fullName, .message id, declared.span⟩
      ({ contents with
          messages := contents.messages ++ [id]
          messageNames := contents.messageNames ++ [(ownName, inner.nestedNames)]
          messageReferences := contents.messageReferences ++
            (inner.fields.map (fieldReference inside.scope) ++
              inner.extensionReferences ++ inner.messageReferences) },
        { numbered with messages := numbered.messages.push declared })

def addItem (source : Source) (place : Place) :
    Syntax.MessageItem → Contents × Numbered → Contents × Numbered
  | .field declared, (contents, numbered) =>
      ({ contents with fields := contents.fields ++ [field source.locate declared] }, numbered)
  | .oneof declared, (contents, numbered) => (addOneof source declared contents, numbered)
  | .message declared, state => addMessage source place declared state
  | .enum declared, state => addEnum source place declared state
  | .extend declared, state => addExtend source place declared state

def addItems (source : Source) (place : Place) :
    List Syntax.MessageItem → Contents × Numbered → Contents × Numbered
  | [], state => state
  | item :: items, state => addItems source place items (addItem source place item state)

end

/-! ### Files -/

def method (source : Source) (method : Syntax.Method) : Method :=
  { name := method.name.name
    writtenInput := method.input.text
    writtenOutput := method.output.text
    clientStreaming := method.clientStreaming
    serverStreaming := method.serverStreaming
    options := options method.options
    comments := method.comments
    location := source.locate method.span
    inputSpan := method.input.span
    outputSpan := method.output.span }

def service (source : Source) (place : Place) (service : Syntax.Service) : Service :=
  { name := service.name.name
    fullName := place.namespaceName ++ service.name.name
    methods := service.methods.map (method source)
    options := options service.options
    comments := service.comments
    location := source.locate service.span
    span := service.name.span }

/-- Adds a declaration at the top level. -/
def addFileItem (source : Source) (place : Place) (state : Contents × Numbered) :
    Syntax.FileItem → Contents × Numbered
  | .message declared => addMessage source place declared state
  | .enum declared => addEnum source place declared state
  | .extend declared => addExtend source place declared state
  | .service _ => state

/-- An import statement, not yet linked. -/
def importStatement (statement : Syntax.Import) : Import :=
  { name := statement.file
    kind :=
      match statement.modifier with
      | some .reexport => .reexport
      | some .weak => .weak
      | none => .plain
    span := statement.fileSpan }

/-- The draft of a file with a given number, name, source text and tree. Names are
listed in the order: top-level messages, top-level enums, services, then for each
top-level message what is inside it, the enums of a message before its messages.
References are listed in the order: services, top-level messages, top-level extend
blocks; in a message first the fields, then the extend blocks, then the messages
inside. -/
def ofTree (id : FileId) (name source : String) (tree : Syntax.File) : Draft :=
  let starts := Text.lineStarts source.toUTF8.toList
  let source : Source := ⟨id, fun span => ⟨name, Text.lineAmong starts span.start⟩⟩
  let package := tree.package.map (·.name.text)
  let place : Place :=
    { parent := .file id
      namespaceName := packageNamespace package
      scope := packageScope package }
  let (contents, numbered) := tree.items.foldl (addFileItem source place) ({}, {})
  let services := (tree.items.filterMap fun
    | .service declared => some declared
    | _ => none).map (service source place)
  let serviceIds : List ServiceId := (List.range services.length).map (⟨id, ·⟩)
  { file :=
      { id, name, package
        version := tree.version
        imports := tree.imports.map importStatement
        options := options tree.options
        messages := contents.messages
        enums := contents.enums
        services := serviceIds
        extensions := contents.extensions
        allMessages := numbered.messages
        allEnums := numbered.enums
        allServices := services.toArray
        allExtensions := numbered.extensions }
    names :=
      contents.messageNames.map (·.1) ++ contents.enumNames ++
        (services.zip serviceIds).map (fun (service, id) =>
          ⟨service.fullName, .service id, service.span⟩) ++
        contents.messageNames.flatMap (·.2)
    references :=
      services.flatMap (fun service => service.methods.flatMap (methodReferences place.scope)) ++
        contents.messageReferences ++ contents.extensionReferences }

end Draft

end ProtoSchema
