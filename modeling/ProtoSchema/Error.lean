import ProtoSchema.Path
import ProtoSchema.Problem
/-!
## Errors

Why files could not be loaded. Every error tells which file it is about, if it is
about one, and where in it, if it is about a place.
-/

namespace ProtoSchema

/-- Why loading failed. An error of a resolver's own is a text; `device` tells that
it comes from an input device. -/
inductive LoadError
  | parse (failure : Syntax.SyntaxFailure)
  | check (error : CheckError) (file source : String)
  | openFile (name : String) (path : Path)
  | fileTooLarge (name : String)
  | invalidUtf8 (name : String)
  | fileNotFound (name : String)
  | importNotFound (name file source : String) (span : Span)
  | circularImport (name : String) (chain : List String)
  /-- This stands for having no outcome: the imports lead on and on to new files, so that
  loading never ends. A loading that ends does not make this error. -/
  | importsTooDeep (name : String)
  | notIncluded (path : Path)
  | shadowed (name : String) (path shadow : Path)
  | custom (text : String) (device : Bool)
  deriving DecidableEq, Repr

namespace LoadError

/-! ### Kinds -/

/-- Whether the content of a file is at fault. -/
def isParse : LoadError → Bool
  | parse _ | fileTooLarge _ | invalidUtf8 _ => true
  | _ => false

def isFileNotFound : LoadError → Bool
  | fileNotFound _ | importNotFound .. | notIncluded _ => true
  | _ => false

/-- Whether a device failed. -/
def isDevice : LoadError → Bool
  | openFile .. => true
  | custom _ device => device
  | _ => false

/-! ### Places -/

/-- The file at fault; for a missing import the file that imports it. -/
def file? : LoadError → Option String
  | parse failure => some failure.file
  | check _ file _ => some file
  | openFile name _ => some name
  | fileTooLarge name => some name
  | invalidUtf8 name => some name
  | fileNotFound name => some name
  | importNotFound _ file _ _ => some file
  | circularImport name _ => some name
  | importsTooDeep name => some name
  | notIncluded _ => none
  | shadowed name _ _ => some name
  | custom _ _ => none

/-- The line at which a span begins, if the source contains the span. -/
def lineOf? (source : String) (span : Span) : Option Nat :=
  (Text.position? source.toUTF8.toList span).map Text.Position.line

/-- The file and the line at fault. -/
def location? : LoadError → Option Location
  | parse failure => failure.line?.map (⟨failure.file, ·⟩)
  | check error file source => (lineOf? source error.span).map (⟨file, ·⟩)
  | importNotFound _ file source span => (lineOf? source span).map (⟨file, ·⟩)
  | _ => none

/-! ### Texts -/

def message : LoadError → String
  | parse failure => failure.message
  | check error _ _ => error.problem.message
  | openFile _ path => s!"error opening file '{path.text}'"
  | fileTooLarge name => s!"file '{name}' is too large"
  | invalidUtf8 name => s!"file '{name}' is not valid utf-8"
  | fileNotFound name => s!"file '{name}' not found"
  | importNotFound name _ _ _ => s!"import '{name}' not found"
  | circularImport _ chain => "import cycle detected: " ++ " -> ".intercalate chain
  | importsTooDeep name => s!"imports of '{name}' are nested too deeply"
  | notIncluded path => s!"file '{path.text}' is not in any include path"
  | shadowed _ path shadow =>
      s!"path '{path.text}' is shadowed by '{shadow.text}' in the include paths"
  | custom text _ => text

def diagnostic : LoadError → Diagnostic
  | parse failure => failure.diagnostic
  | check error _ _ => { main := error.notice }
  | fileTooLarge name =>
      { main :=
          { message := (fileTooLarge name).message
            help := some Syntax.SyntaxError.sizeAdvice } }
  | importNotFound name file source span =>
      { main :=
          { message := (importNotFound name file source span).message
            labels := [⟨span, "imported here"⟩] } }
  | shadowed name path shadow =>
      { main :=
          { message := (shadowed name path shadow).message
            help := some <|
              s!"either pass '{shadow.text}' as the input file, or re-order the include paths " ++
                s!"so that '{path.text}' comes first" } }
  | error => { main := { message := error.message } }

/-- A message with the place of a span in front. -/
def placedText (file source : String) (span : Span) (message : String) : String :=
  file ++ ":" ++ positionText source.toUTF8.toList span ++ " " ++ message

/-- The error with its place, on a line for each fault of a source. An error of a
resolver's own is quoted. -/
def text : LoadError → String
  | parse failure => failure.text
  | check error file source => placedText file source error.span error.problem.message
  | importNotFound name file source span =>
      placedText file source span (importNotFound name file source span).message
  | custom text _ => Text.quote text
  | error => error.message

/-! ### Imports -/

/-- The error as the importing file reports it: a file that its resolver does not
find is an import that is not found. -/
def ofImport (file source : String) (span : Span) : LoadError → LoadError
  | fileNotFound name => importNotFound name file source span
  | error => error

end LoadError

end ProtoSchema
