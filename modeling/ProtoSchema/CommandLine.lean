import ProtoSchema.Compiler
/-!
## The command line

The command loads the given files and lists what they declare. Its arguments are
read from left to right; the first fault, or the wish to see the version, decides.
-/

namespace ProtoSchema.CommandLine

/-! ### Arguments -/

/-- What is asked for. Without an include directory the current one is searched. -/
structure Arguments where
  files : List String := []
  directories : List String := []
  includeImports : Bool := false
  strictNames : Bool := false
  deriving DecidableEq, Repr

/-- The result of reading the arguments. -/
inductive Request
  | compile (arguments : Arguments)
  | version
  | invalid
  deriving DecidableEq, Repr

namespace Arguments

/-- Whether none of the values is empty. -/
def isSound (arguments : Arguments) : Bool :=
  !arguments.files.contains "" && !arguments.directories.contains ""

/-- The arguments as a request for which at least one file is needed. -/
def request (arguments : Arguments) : Request :=
  if arguments.isSound && !arguments.files.isEmpty then .compile arguments else .invalid

def addFile (arguments : Arguments) (file : String) : Arguments :=
  { arguments with files := arguments.files ++ [file] }

def addDirectory (arguments : Arguments) (directory : String) : Arguments :=
  { arguments with directories := arguments.directories ++ [directory] }

end Arguments

/-- What a single argument is: the end of the flags, a file, or a flag. The include
directory may come with its value or without. -/
inductive Item
  | separator
  | file
  | directory (value : Option String)
  | includeImports
  | strictNames
  | version
  | unknown
  deriving DecidableEq, Repr

/-- A flag by its long name. Only the include directory takes a value. -/
def longFlag (name : String) (value : Option String) : Item :=
  if name = "include" ∨ name = "proto_path" then .directory value
  else if value.isSome then .unknown
  else if name = "include-imports" ∨ name = "include_imports" then .includeImports
  else if name = "strict-names" then .strictNames
  else if name = "version" then .version
  else .unknown

/-- A flag by its letter; what follows the letter of the include directory is its
value, with or without an equals sign. -/
def shortFlag : List Char → Item
  | ['I'] => .directory none
  | 'I' :: '=' :: value => .directory (some (String.ofList value))
  | 'I' :: value => .directory (some (String.ofList value))
  | 'V' :: _ => .version
  | _ => .unknown

/-- The item that an argument writes. A single dash is a file. -/
def item (argument : String) : Item :=
  match argument.toList with
  | ['-', '-'] => .separator
  | ['-'] => .file
  | '-' :: '-' :: rest =>
      let name := rest.takeWhile (· != '=')
      longFlag (String.ofList name)
        (if name.length < rest.length then some (String.ofList (rest.drop (name.length + 1)))
          else none)
  | '-' :: letters => shortFlag letters
  | _ => .file

/-- Reads the arguments that follow those read already. A switch may be given only
once. -/
def readFrom (arguments : Arguments) : List String → Request
  | [] => arguments.request
  | argument :: rest =>
      match item argument with
      | .separator => { arguments with files := arguments.files ++ rest }.request
      | .file => readFrom (arguments.addFile argument) rest
      | .directory (some directory) => readFrom (arguments.addDirectory directory) rest
      | .directory none =>
          match rest with
          | [] => .invalid
          | value :: rest =>
              if item value = .file then readFrom (arguments.addDirectory value) rest
              else .invalid
      | .includeImports =>
          if arguments.includeImports then .invalid
          else readFrom { arguments with includeImports := true } rest
      | .strictNames =>
          if arguments.strictNames then .invalid
          else readFrom { arguments with strictNames := true } rest
      | .version => if arguments.isSound then .version else .invalid
      | .unknown => .invalid

def read (arguments : List String) : Request :=
  readFrom {} arguments

/-! ### Runs -/

/-- What a run leaves behind: its exit code and its output. -/
structure Outcome where
  exit : Nat
  output : String
  deriving DecidableEq, Repr

/-- What a file declares, with a warning for each conflict. -/
def fileLines (loaded : LoadedFile) : List String :=
  let file := loaded.file
  (s!"{file.name}: {file.allMessages.size} messages, {file.allEnums.size} enums, " ++
      s!"{file.allServices.size} services, {file.allExtensions.size} extensions") ::
    loaded.symbols.conflicts.map fun conflict =>
      s!"  warning: '{conflict.name}' is declared more than once"

/-- Loads the files that the arguments name. -/
def compile (disk : Disk) (arguments : Arguments) : Except LoadError Compiler :=
  let directories := if arguments.directories.isEmpty then ["."] else arguments.directories
  let compiler : Compiler :=
    { Compiler.ofDirectories disk (directories.map Path.mk) with
      includeImports := arguments.includeImports
      rules := { strictNames := arguments.strictNames } }
  match compiler.openFiles (arguments.files.map Path.mk) with
  | (.ok (), compiler) => .ok compiler
  | (.error error, _) => .error error

/-- The outcome of loading: a list of the files, or nothing but an exit code. -/
def outcome : Except LoadError Compiler → Outcome
  | .ok compiler =>
      ⟨0, String.join ((compiler.files.flatMap fileLines).map (· ++ "\n"))⟩
  | .error _ => ⟨1, ""⟩

def Request.run (disk : Disk) : Request → Outcome
  | .compile arguments => outcome (CommandLine.compile disk arguments)
  | .version => ⟨0, "protolink 0.1.0\n"⟩
  | .invalid => ⟨2, ""⟩

def run (disk : Disk) (arguments : List String) : Outcome :=
  (read arguments).run disk

end ProtoSchema.CommandLine
