import ProtoSchema.Syntax.Parser.Declaration
/-!
## The file parser

A file is a sequence of statements, the first of which may tell the version of
the language. After a failed statement the parser goes on at the next word that
can begin a statement, so that one run finds the faults of all statements.
-/

namespace ProtoSchema.Syntax

namespace Parser

/-! ### Statements -/

inductive Statement
  | blank
  | package (package : Package)
  | import_ (statement : Import)
  | option (option : OptionEntry)
  | item (item : FileItem)

/-- The statement that tells the version, and its span. An unknown version counts
as proto2. -/
def versionStatement : Parser (Version × Span) := do
  let start ← word "syntax"
  let _ ← mark .equals
  let version ← match ← look with
    | some (.string name, span) =>
        advance
        match name with
        | "proto2" => pure Version.proto2
        | "proto3" => pure Version.proto3
        | _ => report (.unknownVersion name span); pure Version.proto2
    | _ => unexpected .stringLiteral
  let _ ← mark .semicolon
  return (version, ← spanFrom start.start)

def packageStatement : Parser Package := do
  let start ← word "package"
  let name ← dottedName [.mark .semicolon]
  let _ ← mark .semicolon
  return ⟨name, ← spanFrom start.start⟩

/-- Whether a text names a file below an include directory: parts with a slash
between two of them, none of them empty or a dot or two dots, and no backslash. -/
def isImportName (name : String) : Bool :=
  !name.toList.contains '\\' &&
    (Text.splitString '/' name).all fun part => part != "" && part != "." && part != ".."

def importStatement : Parser Import := do
  let start ← word "import"
  let modifier ← match ← look with
    | some (.ident "weak", _) => advance; pure (some ImportModifier.weak)
    | some (.ident "public", _) => advance; pure (some ImportModifier.reexport)
    | some (.string _, _) => pure none
    | _ => unexpected .importTarget
  let (file, fileSpan) ← stringLiteral
  check (isImportName file) (.invalidImport fileSpan)
  let _ ← mark .semicolon
  return ⟨modifier, file, fileSpan, ← spanFrom start.start⟩

/-- The next statement; `none` at the end of the source. -/
def statement (version : Version) : Parser (Option Statement) := do
  match ← look with
  | some (.mark .semicolon, _) => advance; return some .blank
  | some (.ident "import", _) => return some (.import_ (← importStatement))
  | some (.ident "package", _) => return some (.package (← packageStatement))
  | some (.ident "option", _) => return some (.option (← optionStatement))
  | some (.ident "extend", _) => return some (.item (.extend (← extend version)))
  | some (.ident "message", _) =>
      return some (.item (.message (← message version (← remaining))))
  | some (.ident "enum", _) => return some (.item (.enum (← enumDeclaration)))
  | some (.ident "service", _) => return some (.item (.service (← service)))
  | none => return none
  | _ => unexpected .statement

/-! ### Recovery -/

/-- Whether a token can begin a statement other than the first. -/
def beginsStatement : Token → Bool
  | .ident name =>
      ["enum", "extend", "import", "message", "option", "service", "package"].contains name
  | _ => false

/-- Consumes tokens up to the next one that begins a statement. -/
def skipToStatement : Parser Unit := do
  let _ ← collect do
    match ← look with
    | some (token, _) =>
        if beginsStatement token then return none
        else advance; return some ()
    | none => return none

/-! ### Files -/

/-- The file with one more statement. Of several package statements the first one
counts; each further one is a fault. -/
def addStatement (file : File) : Statement → Parser File
  | .blank => return file
  | .import_ statement => return { file with imports := file.imports ++ [statement] }
  | .option option => return { file with options := file.options ++ [option] }
  | .item item => return { file with items := file.items ++ [item] }
  | .package package => do
      match file.package with
      | some first => report (.duplicatePackage first.span package.span); return file
      | none => return { file with package := some package }

/-- Adds all further statements to a file. Every turn consumes a token, so that
the number of tokens is fuel enough. -/
def addStatements (file : File) : Nat → Parser File
  | 0 => return file
  | fuel + 1 => do
      match ← attempt (statement file.version) with
      | some none => return file
      | some (some next) => addStatements (← addStatement file next) fuel
      | none => do
          skipToStatement
          addStatements file fuel

/-- The version that a file begins with, and the span of its statement. -/
def fileVersion : Parser (Version × Option Span) := do
  match ← look with
  | some (.ident "syntax", _) =>
      match ← attempt versionStatement with
      | some (version, span) => return (version, some span)
      | none => do
          skipToStatement
          return (.proto2, none)
  | _ => return (.proto2, none)

def file : Parser File := do
  let (version, versionSpan) ← fileVersion
  addStatements (.empty version versionSpan) ((← remaining) + 1)

end Parser

/-! ### Reading a source -/

/-- The tree of a source, as far as it could be read, and its faults. The file
parser itself does not fail. -/
def readSource (source : String) : File × List SyntaxError :=
  let sequence := lex source
  let (file?, state) :=
    Parser.file { upcoming := sequence.lexemes, trailing := sequence.trailing }
  (file?.getD .empty, state.errors)

/-- The tree of a source without faults. A source that is too large is not read. The
name of the file is for messages. -/
def parse (name source : String) : Except SyntaxFailure File :=
  if maxFileSize < source.utf8ByteSize then .error ⟨name, source, .fileTooLarge, []⟩
  else
    match readSource source with
    | (file, []) => .ok file
    | (_, first :: others) => .error ⟨name, source, first, others⟩

end ProtoSchema.Syntax
