import ProtoSchema.Check.Extension
import ProtoSchema.Check.Message
import ProtoSchema.Link.Reference
import ProtoSchema.Link.Register
import ProtoSchema.Resolver
/-!
## The compiler

Files are loaded with their imports into a schema. The imports of a file come
first; then the file's names are registered, its references linked, its extend
blocks listed, and the validators run. A file that fails is not kept, but what was
loaded before it is.
-/

namespace ProtoSchema

/-- How files are judged: whether a name may be declared only once, and the
validators in order. -/
structure Rules where
  strictNames : Bool := false
  validators : List Validator :=
    [Validator.messages, Validator.extensionRanges, Validator.extensionNumbers]

namespace Rules

/-! ### One file -/

/-- A file whose imports are in the schema, before its names are registered. -/
def draftLoaded (schema : Schema) (file : SourceFile) (isRoot : Bool) (draft : Draft) :
    LoadedFile :=
  let imports := draft.file.imports.map fun statement =>
    { statement with file := schema.fileNamed? statement.name }
  { file := { draft.file with imports }
    reexports := (imports.filter Import.isReexport).filterMap Import.file
    privates := (imports.filter fun statement => !statement.isReexport).filterMap Import.file
    isRoot
    path := file.path
    source := file.source }

/-- The extend blocks of a linked file with the full names of their messages. -/
def extendedNames (schema : Schema) (file : ProtoFile) : List (String × ExtensionId) :=
  file.allExtensions.toList.zipIdx.filterMap fun (extension, index) => do
    let extendee ← extension.extendee
    let message ← schema.message? extendee
    return (message.fullName, ⟨file.id, index⟩)

/-- A file with its names registered, its references linked and its extend blocks
listed. -/
def link (rules : Rules) (schema : Schema) (file : SourceFile) (isRoot : Bool) :
    Except CheckError LoadedFile := do
  let draft := Draft.ofTree schema.files.size file.name file.source file.tree
  let registered ← Link.registerNames schema rules.strictNames
    (draftLoaded schema file isRoot draft) draft.names
  let linked ← Link.linkFile (schema.seenBy? registered) draft.references registered.file
  let loaded := { registered with file := linked }
  return { loaded with extended := extendedNames (schema.push loaded) linked }

/-- The schema with one more file, whose imports are in it already. -/
def add (rules : Rules) (schema : Schema) (file : SourceFile) (isRoot : Bool) :
    Except LoadError Schema := do
  let loaded ← (rules.link schema file isRoot).mapError (.check · file.name file.source)
  rules.validators.forM fun validator => validator (schema.push loaded) schema.files.size
  return schema.push { loaded with isComplete := true }

/-- Adds a file whose imports are in the schema; if it fails, it is taken out again
together with its name. -/
def commit (rules : Rules) (schema : Schema) (file : SourceFile) (isRoot : Bool) :
    Except LoadError Unit × Schema :=
  match rules.add schema file isRoot with
  | .ok schema => (.ok (), schema)
  | .error error => (.error error, schema.forget file.name)

/-! ### Files with their imports -/

/-- The outcome of loading and the schema after it. Imports that lead on and on to
new files have no outcome. -/
abbrev Loading : Type :=
  Option (Except LoadError Unit × Schema)

mutual

/-- Loads the file with a name, after its imports. `importers` are the names of the
files on the way to it, outermost first. -/
def load (rules : Rules) (resolver : Resolver) (importers : List String) (schema : Schema)
    (name : String) : Loading :=
  if name ∈ importers then some (.error (.circularImport name (importers ++ [name])), schema)
  else if (schema.fileNamed? name).isSome then some (.ok (), schema)
  else
    match resolver.openFile name with
    | .error error => some (.error error, schema)
    | .ok file => do
        match ← rules |>.loadImports resolver (importers ++ [name]) file file.tree.imports
            schema with
        | (.error error, schema) => some (.error error, schema)
        | (.ok (), schema) => some (rules.commit schema file false)
  partial_fixpoint

/-- Loads the imports of a file in order. -/
def loadImports (rules : Rules) (resolver : Resolver) (importers : List String)
    (file : SourceFile) (statements : List Syntax.Import) (schema : Schema) : Loading :=
  match statements with
  | [] => some (.ok (), schema)
  | statement :: statements => do
      match ← rules |>.load resolver importers schema statement.file with
      | (.error error, schema) =>
          some (.error (error.ofImport file.name file.source statement.fileSpan), schema)
      | (.ok (), schema) =>
          rules |>.loadImports resolver importers file statements schema
  partial_fixpoint

end

/-- Loads a file that was opened itself, after its imports. -/
def loadRoot (rules : Rules) (resolver : Resolver) (schema : Schema) (name : String)
    (file : SourceFile) : Loading := do
  match ← rules.loadImports resolver [name] file file.tree.imports schema with
  | (.error error, schema) => some (.error error, schema)
  | (.ok (), schema) => some (rules.commit schema file true)

end Rules

/-! ### Compilers -/

/-- A compiler: what was loaded so far, where files are found, how they are judged,
and whether its files include those that were only imported. -/
structure Compiler where
  schema : Schema := {}
  resolver : Resolver
  rules : Rules := {}
  includeImports : Bool := false

/-- A file was opened under another path than the one that was asked for. -/
def checkShadow (name : String) (opened : Option Path) (requested : Path) :
    Except LoadError Unit :=
  match opened with
  | some path =>
      if path.isSame requested then .ok () else .error (.shadowed name requested path)
  | none => .ok ()

/-- The schema with a file marked as opened itself. -/
def Schema.markRoot (schema : Schema) (id : FileId) : Schema :=
  { schema with files := schema.files.modify id fun loaded => { loaded with isRoot := true } }

namespace Compiler

/-- A compiler that searches the include directories of a disk. -/
def ofDirectories (disk : Disk) (directories : List Path) : Compiler :=
  { resolver := .ofDirectories disk directories }

/-- The import name of a path, and whether it is known to lie in an include
directory. Any other path may serve as an import name itself. -/
def target? (compiler : Compiler) (path : Path) : Option (String × Bool) :=
  match compiler.resolver.nameOf? path with
  | some name => some (name, true)
  | none => (Path.importName? path.components).map (·, false)

/-- Opens a file that is loaded already: it becomes a root. -/
def reopen (compiler : Compiler) (id : FileId) (name : String) (included : Bool)
    (path : Path) : Except LoadError Unit × Compiler :=
  let opened := if included then compiler.schema.files[id]?.bind LoadedFile.path else none
  match checkShadow name opened path with
  | .error error => (.error error, compiler)
  | .ok () => (.ok (), { compiler with schema := compiler.schema.markRoot id })

/-- Opens a file that is not loaded yet. Loading that never ends is given as an error. -/
def openNew (compiler : Compiler) (name : String) (included : Bool) (path : Path) :
    Except LoadError Unit × Compiler :=
  match compiler.resolver.openFile name with
  | .error error =>
      (.error (if error.isFileNotFound then .notIncluded path else error), compiler)
  | .ok file =>
      match checkShadow name (if included then file.path else none) path with
      | .error error => (.error error, compiler)
      | .ok () =>
          match compiler.rules.loadRoot compiler.resolver compiler.schema name file with
          | some (result, schema) => (result, { compiler with schema })
          | none => (.error (.importsTooDeep name), compiler)

/-- Loads the file at a path, and the files that it imports. -/
def openFile (compiler : Compiler) (path : Path) : Except LoadError Unit × Compiler :=
  match compiler.target? path with
  | none => (.error (.notIncluded path), compiler)
  | some (name, included) =>
      match compiler.schema.fileNamed? name with
      | some id => compiler.reopen id name included path
      | none => compiler.openNew name included path

/-- Loads several files, up to the first one that fails. -/
def openFiles (compiler : Compiler) : List Path → Except LoadError Unit × Compiler
  | [] => (.ok (), compiler)
  | path :: paths =>
      match compiler.openFile path with
      | (.ok (), compiler) => compiler.openFiles paths
      | (.error error, compiler) => (.error error, compiler)

/-- The files that were opened, with their imports if these are included. -/
def files (compiler : Compiler) : List LoadedFile :=
  compiler.schema.files.toList.filter fun loaded => compiler.includeImports || loaded.isRoot

/-- The compiler with one more validator at the end. -/
def addValidator (compiler : Compiler) (validator : Validator) : Compiler :=
  { compiler with
    rules := { compiler.rules with validators := compiler.rules.validators ++ [validator] } }

/-- The compiler with names that may be declared only once, or not. -/
def setStrictNames (compiler : Compiler) (strictNames : Bool) : Compiler :=
  { compiler with rules := { compiler.rules with strictNames } }

def text (compiler : Compiler) : String :=
  let files := compiler.schema.names.reverse.map fun (name, id) =>
    s!"{Text.quote name}: FileId({id})"
  "Compiler \x7b files: \x7b" ++ ", ".intercalate files ++ "\x7d, " ++
    s!"validators: {compiler.rules.validators.length}, " ++
    s!"include_imports: {compiler.includeImports}, " ++
    s!"strict_names: {compiler.rules.strictNames}, .. \x7d"

end Compiler

/-- Loads files from the include directories of a disk into a new schema. -/
def compile (disk : Disk) (paths directories : List Path) : Except LoadError Schema :=
  match (Compiler.ofDirectories disk directories).openFiles paths with
  | (.ok (), compiler) => .ok compiler.schema
  | (.error error, _) => .error error

end ProtoSchema
