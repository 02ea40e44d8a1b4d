import ProtoSchema.SourceFile
/-!
## Resolvers

A resolver finds files: it tells the import name of a path, and opens the file
with a name. Resolvers are made from an include directory, from texts in memory,
and from other resolvers in a chain.
-/

namespace ProtoSchema

/-- A way to find files. -/
structure Resolver where
  nameOf? : Path → Option String
  openFile : String → Except LoadError SourceFile

namespace Resolver

/-- The files of one directory of a disk. -/
def ofDirectory (disk : Disk) (directory : Path) : Resolver :=
  { nameOf? := directory.nameBelow?
    openFile := fun name => SourceFile.read disk name (directory.join name) }

/-- Files in memory. `names` gives the import names of paths; a name in `failures`
fails with the error there. -/
structure Memory where
  sources : List (String × String) := []
  names : List (String × String) := []
  failures : List (String × LoadError) := []

def ofMemory (memory : Memory) : Resolver :=
  { nameOf? := fun path => memory.names.lookup path.text
    openFile := fun name =>
      match memory.failures.lookup name, memory.sources.lookup name with
      | some error, _ => .error error
      | none, some source => SourceFile.ofSource name source
      | none, none => .error (.fileNotFound name) }

/-- The file of the first resolver that has it. Only a missing file is looked for in
the next resolver. -/
def openFirst (name : String) : List Resolver → Except LoadError SourceFile
  | [] => .error (.fileNotFound name)
  | resolver :: resolvers =>
      match resolver.openFile name with
      | .ok file => .ok file
      | .error error =>
          if error.isFileNotFound then openFirst name resolvers else .error error

/-- Resolvers one after the other. -/
def chain (resolvers : List Resolver) : Resolver :=
  { nameOf? := fun path => resolvers.findSome? (·.nameOf? path)
    openFile := fun name => openFirst name resolvers }

def chainText (resolvers : List Resolver) : String :=
  s!"ChainFileResolver \x7b resolvers: {resolvers.length}, .. \x7d"

/-- The include directories of a disk, in the order in which they are searched. -/
def ofDirectories (disk : Disk) (directories : List Path) : Resolver :=
  chain (directories.map (ofDirectory disk))

end Resolver

end ProtoSchema
