import ProtoSchema.CommandLine
/-!
## The command

The disk is read piece by piece: a run that comes upon a path that was not read
yet fails there, the path is read, and the run begins anew.
-/

namespace ProtoSchema.CommandLine

/-- The part of the disk that was read. -/
abbrev Snapshot : Type :=
  List (Path × Except ReadFailure (List UInt8))

def snapshotDisk (snapshot : Snapshot) : Disk :=
  { read := fun path => (snapshot.lookup path).getD (.error .unreadable) }

/-- Reads a path of the real disk. -/
def readPath (path : Path) : IO (Except ReadFailure (List UInt8)) := do
  try
    return .ok (← IO.FS.readBinFile path.text).toList
  catch
    | .noFileOrDirectory .. => return .error .missing
    | _ => return .error .unreadable

/-- Compiles with an ever larger part of the disk. -/
partial def compileReading (snapshot : Snapshot) (arguments : Arguments) :
    IO (Except LoadError Compiler) := do
  match compile (snapshotDisk snapshot) arguments with
  | .error (.openFile name path) =>
      if (snapshot.lookup path).isSome then return .error (.openFile name path)
      else compileReading ((path, ← readPath path) :: snapshot) arguments
  | result => return result

/-- Runs a request on the real disk; an error goes to the error output. -/
def runRequest : Request → IO Outcome
  | .compile arguments => do
      let result ← compileReading [] arguments
      if let .error error := result then IO.eprintln error.text
      return outcome result
  | request => return request.run (snapshotDisk [])

end ProtoSchema.CommandLine

def main (arguments : List String) : IO UInt32 := do
  let outcome ← ProtoSchema.CommandLine.runRequest (ProtoSchema.CommandLine.read arguments)
  IO.print outcome.output
  return UInt32.ofNat outcome.exit
