import ProtoSchema.Problem
import ProtoSchema.Schema.Visibility
/-!
## Registering names

A file's full names enter its symbol table one by one. A name that was declared
before, in this file or in any file loaded earlier, is an error in strict mode and
a conflict otherwise.
-/

namespace ProtoSchema.Link

/-- The latest meaning of a name before a file declares it: what the file sees, or
else the newest declaration among the loaded files. -/
def previous? (schema : Schema) (loaded : LoadedFile) (name : String) : Option UserType :=
  schema.seenBy? loaded name <|> schema.newest? name

/-- The name of the file that holds a declaration. -/
def fileNameOf (schema : Schema) (loaded : LoadedFile) (target : UserType) : String :=
  if target.file = loaded.file.id then loaded.file.name
  else ((schema.file? target.file).map ProtoFile.name).getD ""

/-- The file with one more name in its symbol table. -/
def registerName (schema : Schema) (strict : Bool) (loaded : LoadedFile)
    (declared : DeclaredName) : Except CheckError LoadedFile :=
  let previous := previous? schema loaded declared.fullName
  match previous, strict with
  | some target, true =>
      .error ⟨.duplicateName declared.fullName (fileNameOf schema loaded target), declared.span⟩
  | _, _ =>
      .ok { loaded with
        symbols := loaded.symbols.insert declared.fullName declared.target previous }

/-- The file with its names in its symbol table. -/
def registerNames (schema : Schema) (strict : Bool) (loaded : LoadedFile)
    (names : List DeclaredName) : Except CheckError LoadedFile :=
  names.foldlM (registerName schema strict) loaded

end ProtoSchema.Link
