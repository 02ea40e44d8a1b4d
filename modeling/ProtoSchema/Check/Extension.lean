import ProtoSchema.Check.Basic
/-!
## Numbers of extensions

An extend block may use the numbers that its message leaves to extensions, each of
them once among all the blocks that the file sees. Of two fields with one number
the later one is at fault.
-/

namespace ProtoSchema.Check

/-! ### Ranges -/

/-- The first field of an extend block whose number its message does not leave to
extensions. -/
def rangeError? (schema : Schema) (extension : Extension) : Option CheckError := do
  let extendee ← extension.extendee.bind schema.message?
  let field ← extension.fields.find? fun field => !extendee.isExtensionNumber field.number
  return ⟨.extensionOutOfRange (extension.fieldFullName field) field.number
      extendee.fullName extendee.extensionRanges, field.span⟩

/-! ### Clashes -/

/-- The fields of a block that count as earlier than the field at a position of the
block `id`: in the block itself those before the position, in later blocks of the
same file none, in all other blocks every field. -/
def earlierFields (id : ExtensionId) (position : Nat) (otherId : ExtensionId)
    (other : Extension) : List Field :=
  if otherId = id then other.fields.take position
  else if otherId.file = id.file ∧ id.index < otherId.index then []
  else other.fields

/-- The full name of an earlier field with the same number in a block. -/
def clash? (schema : Schema) (id : ExtensionId) (position : Nat) (number : Int)
    (otherId : ExtensionId) : Option String := do
  let other ← schema.extension? otherId
  let field ← (earlierFields id position otherId other).find? (·.number == number)
  return other.fieldFullName field

/-- The full name of what has the number of a field already: a field of the message
itself, or an earlier extension that the file sees. -/
def taken? (schema : Schema) (extendee : Message) (visible : List ExtensionId)
    (id : ExtensionId) (position : Nat) (field : Field) : Option String :=
  match extendee.field? field.number with
  | some other => some (extendee.fullName ++ "." ++ other.name)
  | none => visible.findSome? (clash? schema id position field.number)

/-- The first field of an extend block whose number is taken. -/
def numberError? (schema : Schema) (id : ExtensionId) (extension : Extension) :
    Option CheckError := do
  let extendee ← extension.extendee.bind schema.message?
  let visible := schema.visibleExtensions id.file extendee.fullName
  extension.fields.zipIdx.findSome? fun (field, position) =>
    (taken? schema extendee visible id position field).map fun other =>
      ⟨.duplicateExtensionNumber field.number extendee.fullName other, field.span⟩

end ProtoSchema.Check

namespace ProtoSchema.Validator

/-- The validator of the ranges of a file's extend blocks. -/
def extensionRanges : Validator :=
  ofSearch fun schema loaded =>
    loaded.file.allExtensions.toList.findSome? (Check.rangeError? schema)

/-- The validator of clashes between a file's extend blocks and others. -/
def extensionNumbers : Validator :=
  ofSearch fun schema loaded =>
    loaded.file.allExtensions.toList.zipIdx.findSome? fun (extension, index) =>
      Check.numberError? schema ⟨loaded.file.id, index⟩ extension

end ProtoSchema.Validator
