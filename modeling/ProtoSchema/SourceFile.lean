import ProtoSchema.Disk
import ProtoSchema.Error
import ProtoSchema.Syntax.Parser
/-!
## Source files

A source with its tree, under the name by which it is imported.
-/

namespace ProtoSchema

/-- A file that was read without a fault. It has a path if it comes from a disk. -/
structure SourceFile where
  name : String
  path : Option Path
  source : String
  tree : Syntax.File
  parsed : Syntax.parse name source = .ok tree

namespace SourceFile

def ofSource (name source : String) (path : Option Path := none) :
    Except LoadError SourceFile :=
  match parsed : Syntax.parse name source with
  | .ok tree => .ok { name, path, source, tree, parsed }
  | .error failure => .error (.parse failure)

/-- The file at a path of a disk. -/
def read (disk : Disk) (name : String) (path : Path) : Except LoadError SourceFile :=
  match disk.read path with
  | .error .missing => .error (.fileNotFound name)
  | .error .unreadable => .error (.openFile name path)
  | .ok bytes =>
      if Syntax.maxFileSize < bytes.length then .error (.fileTooLarge name)
      else
        match Utf8.decode? bytes with
        | none => .error (.invalidUtf8 name)
        | some characters => ofSource name (String.ofList characters) (some path)

end SourceFile

end ProtoSchema
