import ProtoSchema.Path
import ProtoSchema.Text.Utf8
/-!
## Disks

What is known of a file system: for each path its content, or why there is none.
A tree of directories is such a disk, read by the usual walk from the root or the
current directory.
-/

namespace ProtoSchema

/-- Why a file could not be read: there is none, or something else went wrong. -/
inductive ReadFailure
  | missing
  | unreadable
  deriving DecidableEq, Repr

/-- A file system that can be read. -/
structure Disk where
  read : Path → Except ReadFailure (List UInt8)

/-! ### Trees -/

inductive Node
  | file (content : List UInt8)
  | directory (entries : List (String × Node))

namespace Node

/-- The greatest number of bytes in a name. -/
def maxNameSize : Nat := 255

/-- The least number of bytes that is too many for a path. -/
def maxPathSize : Nat := 4096

/-- What a directory holds under a name. -/
def child? (entries : List (String × Node)) (name : String) : Option Node :=
  (entries.find? (·.1 == name)).map (·.2)

/-- Goes on from a node along the parts of a path. `above` lists the directories
around the node, innermost first. Whatever follows a slash needs a directory
before it; the directory around the outermost one is that one itself. -/
def walk (node : Node) (above : List Node) : List String → Except ReadFailure (Node × List Node)
  | [] => .ok (node, above)
  | part :: parts =>
      match node with
      | .file _ => .error .unreadable
      | .directory entries =>
          if part = "" ∨ part = "." then walk node above parts
          else if part = ".." then
            match above with
            | [] => walk node [] parts
            | outer :: above => walk outer above parts
          else if maxNameSize < part.utf8ByteSize then .error .unreadable
          else
            match child? entries part with
            | some inner => walk inner (node :: above) parts
            | none => .error .missing

/-- The content of the file at a path. The current directory is given by its names
from the root. -/
def read (root : Node) (current : List String) (path : Path) :
    Except ReadFailure (List UInt8) := do
  if path.text = "" then throw .missing
  if path.text.toList.contains '\x00' || maxPathSize ≤ path.text.utf8ByteSize then
    throw .unreadable
  let start := if path.text.toList.head? = some '/' then [] else current
  let (node, _) ← walk root [] (start ++ Text.splitString '/' path.text)
  match node with
  | .file content => return content
  | .directory _ => throw .unreadable

/-- The tree with a node put at a path of names; directories are made on the way. -/
def insert (node : Node) : List String → Node → Node
  | [], _ => node
  | name :: names, .file _ => .directory [(name, insert node names (.directory []))]
  | name :: names, .directory entries =>
      let inner := (child? entries name).getD (.directory [])
      .directory ((entries.filter (·.1 != name)) ++ [(name, insert node names inner)])

/-- A tree as a disk, seen from a current directory. -/
def disk (root : Node) (current : List String) : Disk :=
  { read := root.read current }

end Node

end ProtoSchema
