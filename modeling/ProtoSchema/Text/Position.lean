import ProtoSchema.Text.Span
import ProtoSchema.Text.Utf8
/-!
## Lines and columns

Two ways to number lines. A *location* of the model is looked up among the offsets
at which lines begin, each after a line feed. A *position* in an error text follows
the reading order of a viewer: a line ends at a carriage return, a line feed, or both
together, the column counts bytes, and a span that the source does not contain has no
position.
-/

namespace ProtoSchema.Text

/-! ### Locations -/

/-- The offsets at which the lines after the first one begin. -/
def lineStarts (source : List UInt8) : Array Nat :=
  (source.zipIdx.filterMap fun (byte, offset) =>
    if byte = 0x0A then some (offset + 1) else none).toArray

/-- Where an offset stands among ascending ones: it is one of them, or its place is
before the one with an index. -/
inductive Rank
  | found (index : Nat)
  | before (index : Nat)

/-- Looks for an offset between two indices, in one half after the other. -/
def search (starts : Array Nat) (offset low high : Nat) (inside : high ≤ starts.size) : Rank :=
  if between : low < high then
    let middle := (low + high) / 2
    let start := starts[middle]
    if start = offset then .found middle
    else if start < offset then search starts offset (middle + 1) high inside
    else search starts offset low middle (by omega)
  else .before low
  termination_by high - low

/-- The line that holds a byte offset, the first line being 1. The start with index 0
is that of the second line. -/
def lineAmong (starts : Array Nat) (offset : Nat) : Nat :=
  match search starts offset 0 starts.size (Nat.le_refl _) with
  | .found index => index + 2
  | .before index => index + 1

def lineNumber (source : List UInt8) (offset : Nat) : Nat :=
  lineAmong (lineStarts source) offset

example : (List.range 5).map (lineNumber "a\n\nb".toUTF8.toList) = [1, 1, 2, 3, 3] := by cbv

/-! ### Positions -/

/-- A line and a column, both counted from 1. -/
structure Position where
  line : Nat
  column : Nat
  deriving DecidableEq, Repr

namespace Position

/-- A place before the position of a span has been reached. `offset` is the
offset of the next byte; `line` and `column` are counted from 0. -/
structure Cursor where
  offset : Nat
  line : Nat
  column : Nat

/-- Passes a line end of one byte or two. Only line ends before the span count. -/
def Cursor.passLineEnd (cursor : Cursor) (start bytes : Nat) : Cursor :=
  let last := cursor.offset + bytes - 1
  if last < start then ⟨last, cursor.line + 1, 0⟩ else ⟨last, cursor.line, cursor.column⟩

/-- Passes any other byte. -/
def Cursor.passByte (cursor : Cursor) (start : Nat) : Cursor :=
  if cursor.offset < start then { cursor with column := cursor.column + 1 } else cursor

/-- Reads on until the last byte of the span has been read. -/
def scan (span : Span) (cursor : Cursor) : List UInt8 → Option Cursor
  | [] => if cursor.offset < span.start + span.length - 1 then none else some cursor
  | 0x0D :: 0x0A :: bytes => finish (cursor.passLineEnd span.start 2) bytes
  | 0x0D :: bytes => finish (cursor.passLineEnd span.start 1) bytes
  | 0x0A :: bytes => finish (cursor.passLineEnd span.start 1) bytes
  | _ :: bytes => finish (cursor.passByte span.start) bytes
where
  /-- Stops at the last byte of the span and reads on before it. -/
  finish (cursor : Cursor) (bytes : List UInt8) : Option Cursor :=
    if span.start + span.length - 1 ≤ cursor.offset then some cursor
    else scan span { cursor with offset := cursor.offset + 1 } bytes

end Position

/-- Where a span begins, if the source contains it. -/
def position? (source : List UInt8) (span : Span) : Option Position :=
  (Position.scan span ⟨0, 0, 0⟩ source).map fun cursor =>
    ⟨cursor.line + 1, cursor.column + 1⟩

example : position? "a\r\nbc\rd".toUTF8.toList ⟨4, 5⟩ = some ⟨2, 2⟩ := by cbv
example : position? "a\r\nbc\rd".toUTF8.toList ⟨6, 7⟩ = some ⟨3, 1⟩ := by cbv
example : position? [] ⟨1, 3⟩ = none := by cbv

end ProtoSchema.Text
