import ProtoSchema.Text.Split
/-!
## Paths

Paths of a file system with slashes, as far as they are Unicode texts. Two paths name
the same file here if their components agree; the component `.` has no weight. The name
under which a file is imported is a path of plain components.
-/

namespace ProtoSchema

/-- A path as written. -/
structure Path where
  text : String
  deriving DecidableEq, Repr

namespace Path

/-- A component of a path. `here` is a dot at the beginning of a relative path. -/
inductive Component
  | root
  | here
  | up
  | name (name : String)
  deriving DecidableEq, Repr

/-- A part between slashes. Empty parts and dots are no components. -/
def partComponent? (part : String) : Option Component :=
  if part = "" ∨ part = "." then none
  else if part = ".." then some .up
  else some (.name part)

def components (path : Path) : List Component :=
  match Text.splitString '/' path.text with
  | "" :: _ :: _ => .root :: (Text.splitString '/' path.text).filterMap partComponent?
  | "." :: rest => .here :: rest.filterMap partComponent?
  | parts => parts.filterMap partComponent?

/-- The components without a dot at the beginning. -/
def weighty (path : Path) : List Component :=
  path.components.filter (· ≠ .here)

/-- Whether two paths have the same components. -/
def isSame (left right : Path) : Bool :=
  left.weighty = right.weighty

/-- The import name that components make, if there are any and all are plain. -/
def importName? (components : List Component) : Option String := do
  let names ← components.mapM fun
    | .name name => some name
    | _ => none
  if names.isEmpty then none else some ("/".intercalate names)

/-- The import name that a path has in an include directory. -/
def nameBelow? (directory path : Path) : Option String := do
  importName? (← directory.weighty.isPrefixOf? path.weighty)

/-- The path of a name in a directory. An absolute name replaces the directory. -/
def join (directory : Path) (name : String) : Path :=
  if name.toList.head? = some '/' ∨ directory.text = "" then ⟨name⟩
  else if directory.text.toList.getLast? = some '/' then ⟨directory.text ++ name⟩
  else ⟨directory.text ++ "/" ++ name⟩

example : nameBelow? ⟨"./p//i/"⟩ ⟨"p/i/./dir/foo"⟩ = some "dir/foo" := by decide +kernel
example : nameBelow? ⟨"p"⟩ ⟨"p/../q"⟩ = none := by decide +kernel

end Path

end ProtoSchema
