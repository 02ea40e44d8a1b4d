import ProtoSchema.Model.Draft
/-! # Renumbering files

The same files may have other numbers in another schema. Everything in a model that
mentions the number of a file can be renumbered; all else stays as it is.
-/

namespace ProtoSchema

/-! ## Identities -/

def DeclarationId.renumber (move : FileId → FileId) {kind : DeclarationKind}
    (id : DeclarationId kind) : DeclarationId kind :=
  { id with file := move id.file }

def UserType.renumber (move : FileId → FileId) : UserType → UserType
  | .message id => .message (id.renumber move)
  | .enum id => .enum (id.renumber move)
  | .service id => .service (id.renumber move)

def Parent.renumber (move : FileId → FileId) : Parent → Parent
  | .file id => .file (move id)
  | .message id => .message (id.renumber move)

@[simp] theorem UserType.file_renumber (move : FileId → FileId) (target : UserType) :
    (target.renumber move).file = move target.file := by
  cases target <;> rfl

/-- Declarations of one file keep apart. -/
theorem DeclarationId.renumber_eq_iff {move : FileId → FileId} {kind : DeclarationKind}
    {left right : DeclarationId kind}
    (apart : move left.file = move right.file → left.file = right.file) :
    left.renumber move = right.renumber move ↔ left = right := by
  rcases left with ⟨leftFile, leftIndex⟩
  rcases right with ⟨rightFile, rightIndex⟩
  simp only [renumber, mk.injEq]
  exact ⟨fun equal => ⟨apart equal.1, equal.2⟩, fun equal => ⟨congrArg move equal.1, equal.2⟩⟩

/-! ## Types -/

def ValueType.renumber (move : FileId → FileId) : ValueType → ValueType
  | .scalar type => .scalar type
  | .message id => .message (id.renumber move)
  | .enum id => .enum (id.renumber move)

def FieldType.renumber (move : FileId → FileId) : FieldType → FieldType
  | .value type => .value (type.renumber move)
  | .map key type => .map key (type.renumber move)

/-! ## Declarations -/

def Field.renumber (move : FileId → FileId) (field : Field) : Field :=
  { field with type := field.type.map (FieldType.renumber move) }

def Message.renumber (move : FileId → FileId) (message : Message) : Message :=
  { message with
    parent := message.parent.renumber move
    fields := message.fields.map (Field.renumber move)
    messages := message.messages.map (DeclarationId.renumber move)
    enums := message.enums.map (DeclarationId.renumber move)
    extensions := message.extensions.map (DeclarationId.renumber move) }

def Enum.renumber (move : FileId → FileId) (enum : Enum) : Enum :=
  { enum with parent := enum.parent.renumber move }

def Extension.renumber (move : FileId → FileId) (extension : Extension) : Extension :=
  { extension with
    extendee := extension.extendee.map (DeclarationId.renumber move)
    fields := extension.fields.map (Field.renumber move)
    parent := extension.parent.renumber move }

def Method.renumber (move : FileId → FileId) (method : Method) : Method :=
  { method with
    input := method.input.map (DeclarationId.renumber move)
    output := method.output.map (DeclarationId.renumber move) }

def Service.renumber (move : FileId → FileId) (service : Service) : Service :=
  { service with methods := service.methods.map (Method.renumber move) }

def Import.renumber (move : FileId → FileId) (statement : Import) : Import :=
  { statement with file := statement.file.map move }

/-- A file in which every file has another number. -/
def ProtoFile.renumber (move : FileId → FileId) (file : ProtoFile) : ProtoFile :=
  { file with
    id := move file.id
    imports := file.imports.map (Import.renumber move)
    messages := file.messages.map (DeclarationId.renumber move)
    enums := file.enums.map (DeclarationId.renumber move)
    services := file.services.map (DeclarationId.renumber move)
    extensions := file.extensions.map (DeclarationId.renumber move)
    allMessages := file.allMessages.map (Message.renumber move)
    allEnums := file.allEnums.map (Enum.renumber move)
    allServices := file.allServices.map (Service.renumber move)
    allExtensions := file.allExtensions.map (Extension.renumber move) }

def DeclaredName.renumber (move : FileId → FileId) (declared : DeclaredName) : DeclaredName :=
  { declared with target := declared.target.renumber move }

end ProtoSchema
