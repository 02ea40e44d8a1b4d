import ProtoSchema.Model.Declaration
import ProtoSchema.Path
import ProtoSchema.Schema.Symbols
/-!
## Schemas

A schema is a sequence of loaded files in which every file comes after the files
it imports. The number of a file is its place in the sequence.
-/

namespace ProtoSchema

/-- A file with what was found out about it. `reexports` are its public imports,
`privates` all others. `extended` lists, for each of its extend blocks, the full
name of the message that the block extends. A root is a file that was opened
itself and not only imported. -/
structure LoadedFile where
  file : ProtoFile
  symbols : SymbolTable := {}
  reexports : List FileId := []
  privates : List FileId := []
  extended : List (String × ExtensionId) := []
  isComplete : Bool := false
  isRoot : Bool := false
  path : Option Path
  source : String

/-- The extend blocks of a file that extend a message of the given name. -/
def LoadedFile.localExtensions (loaded : LoadedFile) (extendee : String) : List ExtensionId :=
  (loaded.extended.filter (·.1 == extendee)).map (·.2)

/-- The loaded files, and under which name each of them is found. The newest entry of
a name counts. -/
structure Schema where
  files : Array LoadedFile := #[]
  names : List (String × FileId) := []

namespace Schema

/-- The schema with one more file, which is found under its name from then on. -/
def push (schema : Schema) (loaded : LoadedFile) : Schema :=
  { files := schema.files.push loaded
    names := (loaded.file.name, schema.files.size) :: schema.names }

/-- The schema without the entries of a name. -/
def forget (schema : Schema) (name : String) : Schema :=
  { schema with names := schema.names.filter (·.1 != name) }

/-! ### Access by number -/

def file? (schema : Schema) (id : FileId) : Option ProtoFile :=
  schema.files[id]?.map (·.file)

def message? (schema : Schema) (id : MessageId) : Option Message := do
  (← schema.file? id.file).allMessages[id.index]?

def enum? (schema : Schema) (id : EnumId) : Option Enum := do
  (← schema.file? id.file).allEnums[id.index]?

def service? (schema : Schema) (id : ServiceId) : Option Service := do
  (← schema.file? id.file).allServices[id.index]?

def extension? (schema : Schema) (id : ExtensionId) : Option Extension := do
  (← schema.file? id.file).allExtensions[id.index]?

def fullName? (schema : Schema) : UserType → Option String
  | .message id => (schema.message? id).map Message.fullName
  | .enum id => (schema.enum? id).map Enum.fullName
  | .service id => (schema.service? id).map Service.fullName

/-! ### Access by name -/

/-- The number of the file with a name. -/
def fileNamed? (schema : Schema) (name : String) : Option FileId :=
  schema.names.lookup name

def fileNames (schema : Schema) : List String :=
  schema.files.toList.map (·.file.name)

end Schema

end ProtoSchema
