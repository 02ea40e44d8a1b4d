import ProtoSchema.Schema.Extensions
import ProtoSchema.Schema.Visibility
/-!
## Queries

Questions about a loaded schema. A full name may be given without the dot at its
beginning.
-/

namespace ProtoSchema

/-- A name with a dot at its beginning. -/
def qualify (name : String) : String :=
  if name.toList.head? = some '.' then name else "." ++ name

namespace Schema

/-! ### Names -/

/-- The newest declaration of a name. -/
def named? (schema : Schema) (name : String) : Option UserType :=
  schema.newest? (qualify name)

/-- The message that a name means at last. -/
def messageNamed? (schema : Schema) (name : String) : Option MessageId :=
  match schema.named? name with
  | some (.message id) => some id
  | _ => none

/-- The enum that a name means at last. -/
def enumNamed? (schema : Schema) (name : String) : Option EnumId :=
  match schema.named? name with
  | some (.enum id) => some id
  | _ => none

/-- The service that a name means at last. -/
def serviceNamed? (schema : Schema) (name : String) : Option ServiceId :=
  match schema.named? name with
  | some (.service id) => some id
  | _ => none

/-- What a name means in a file. -/
def resolve (schema : Schema) (id : FileId) (name : String) : Option UserType :=
  schema.visible? id (qualify name)

/-! ### Extensions -/

/-- The extend blocks that a file sees for a message name. -/
def extensions (schema : Schema) (id : FileId) (extendee : String) : List ExtensionId :=
  schema.visibleExtensions id (qualify extendee)

/-- All extend blocks for a message, whoever sees them. -/
def messageExtensions (schema : Schema) (id : MessageId) : List ExtensionId :=
  match schema.message? id with
  | none => []
  | some message =>
      (schema.files.toList.flatMap (·.localExtensions message.fullName)).filter fun extension =>
        (schema.extension? extension).bind Extension.extendee == some id

/-- The extension field with a full name that a file sees for a message name. -/
def extensionField? (schema : Schema) (id : FileId) (extendee fullName : String) :
    Option (ExtensionId × Field) :=
  (schema.extensions id extendee).findSome? fun extensionId => do
    let extension ← schema.extension? extensionId
    let field ← extension.fields.find? (extension.fieldFullName · == qualify fullName)
    return (extensionId, field)

end Schema

end ProtoSchema
